import ApiProjection.Value.Basic
/-!
# Comparing values

Numbers are compared exactly, whatever their kinds; not-a-number is comparable with nothing.
`Value.equal` takes integers and floats of one size for the same number and keeps truth values
apart from them; lists are equal item by item, maps key by key in any order.
-/
namespace ApiProjection

/-- A number as a signed numerator and a denominator. -/
def Scalar.ratio? : Scalar → Option (Int × Nat)
  | .int n => some (n, 1)
  | .bool b => some (if b then 1 else 0, 1)
  | .float x => x.ratio?
  | _ => none

/-- The sign of an infinite number. -/
def Scalar.infiniteSign? : Scalar → Option Int
  | .float (.infinite s) => some (if s then -1 else 1)
  | _ => none

/-- How one number stands to another. -/
def Scalar.compare? (a b : Scalar) : Option Ordering :=
  match a.infiniteSign?, b.infiniteSign?, a.ratio?, b.ratio? with
  | some s, some t, _, _ => some (compare s t)
  | some s, none, _, some _ => some (compare s 0)
  | none, some t, some _, _ => some (compare 0 t)
  | none, none, some (n, d), some (m, e) => some (compare (n * e) (m * d))
  | _, _, _, _ => none

def Scalar.isBool : Scalar → Bool
  | .bool _ => true
  | _ => false

/-- Whether two scalars are equal, truth values being equal to truth values only. -/
def Scalar.equal (a b : Scalar) : Bool := a.isBool == b.isBool && a.same b

/-- The value at a key. -/
def lookupScalar {β : Type} (k : Scalar) : List (Scalar × β) → Option β
  | [] => none
  | (l, v) :: rest => if l.same k then some v else lookupScalar k rest

namespace Value

mutual
/-- Whether two values are equal. -/
def equal : Value → Value → Bool
  | .scalar a, .scalar b => a.equal b
  | .list xs, .list ys => equalLists xs ys
  | .list xs, .tuple ys => equalLists xs ys
  | .tuple xs, .list ys => equalLists xs ys
  | .tuple xs, .tuple ys => equalLists xs ys
  | .set xs, .set ys => xs.length == ys.length && xs.all fun x => ys.any fun y => x.same y
  | .map es, .map fs => es.length == fs.length && equalEntries es fs
  | _, _ => false

def equalLists : List Value → List Value → Bool
  | [], [] => true
  | x :: xs, y :: ys => equal x y && equalLists xs ys
  | _, _ => false

/-- Whether each entry is equal to the one with its key. -/
def equalEntries : List (Scalar × Value) → List (Scalar × Value) → Bool
  | [], _ => true
  | (k, x) :: es, fs =>
    (match lookupScalar k fs with
      | some y => equal x y
      | none => false) && equalEntries es fs
end

/-- Whether no two items of a list are equal. -/
def allDistinct : List Value → Bool
  | [] => true
  | x :: xs => !(xs.any fun y => x.equal y) && allDistinct xs

end Value
end ApiProjection
