import ApiProjection.Value.Calendar
/-!
# Free-form values

A description of an interface holds values of any shape: examples, defaults, vendor extensions.
`Value` is such a value as it comes out of a document, with the entries of a map in their order.
Keys are scalars, so the recursion is through values only.
-/
namespace ApiProjection

/-- A value without parts; also what a map may be keyed by. -/
inductive Scalar
  | null
  | bool (b : Bool)
  | int (n : Int)
  | float (x : Binary64)
  | text (s : String)
  | bytes (bs : List UInt8)
  | date (d : Date)
  | moment (t : Moment)
  deriving DecidableEq, Repr, Inhabited

/-- A value of a document. -/
inductive Value
  | scalar (s : Scalar)
  | list (items : List Value)
  /-- A fixed row of values, as the members of an ordered mapping are. -/
  | tuple (items : List Value)
  | set (members : List Scalar)
  | map (entries : List (Scalar × Value))
  deriving Repr

namespace Value

@[match_pattern] abbrev null : Value := .scalar .null
@[match_pattern] abbrev bool (b : Bool) : Value := .scalar (.bool b)
@[match_pattern] abbrev int (n : Int) : Value := .scalar (.int n)
@[match_pattern] abbrev float (x : Binary64) : Value := .scalar (.float x)
@[match_pattern] abbrev text (s : String) : Value := .scalar (.text s)

instance : Inhabited Value := ⟨.null⟩

/-- A value that stands for "not set". -/
def isNull : Value → Bool
  | .null => true
  | _ => false

end Value

/-! ## Numbers across kinds -/

/-- The whole number that a truth value or an integer stands for. -/
def Scalar.whole? : Scalar → Option Int
  | .bool b => some (if b then 1 else 0)
  | .int n => some n
  | _ => none

/-- Whether two scalars are equal as keys: truth values, integers and floats are compared as
numbers, and not-a-number equals nothing. -/
def Scalar.same (a b : Scalar) : Bool :=
  match a, b with
  | .float .nan, .float _ => false
  | .float (.infinite s), .float (.infinite t) => s == t
  | .float x, .float y => match x.ratio?, y.ratio? with
    | some (n, d), some (n', d') => n * d' == n' * d
    | _, _ => false
  | .float x, other | other, .float x => match x.toInt?, other.whole? with
    | some n, some m => n == m
    | _, _ => false
  | .moment s, .moment t => s.same t
  | a, b => match a.whole?, b.whole? with
    | some n, some m => n == m
    | none, none => a == b
    | _, _ => false

/-! ## Ordered entries -/

/-- Sets the value at a key: in its old place if the key is there, else at the end. -/
def upsert {α β : Type} (same : α → α → Bool) (k : α) (v : β) : List (α × β) → List (α × β)
  | [] => [(k, v)]
  | (k', v') :: rest => if same k' k then (k', v) :: rest else (k', v') :: upsert same k v rest

/-- Entries in order of first occurrence, each with the value given last. -/
def collapse {α β : Type} (same : α → α → Bool) (entries : List (α × β)) : List (α × β) :=
  entries.foldl (fun acc (k, v) => upsert same k v acc) []

/-- The value at a text key. -/
def lookupText {β : Type} (k : String) : List (Scalar × β) → Option β
  | [] => none
  | (.text s, v) :: rest => if s = k then some v else lookupText k rest
  | _ :: rest => lookupText k rest

end ApiProjection
