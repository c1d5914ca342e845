import ApiProjection.Value.Basic
/-!
# JSON values

`Json` is a JSON value with the members of an object in their order. Numbers keep apart whether
they were written as integers, and the three floats that are no numbers are allowed.
-/
namespace ApiProjection

inductive Json
  | null
  | bool (b : Bool)
  | int (n : Int)
  | float (x : Binary64)
  | text (s : String)
  | list (items : List Json)
  | object (members : List (String × Json))
  deriving Repr, Inhabited

namespace Json

mutual
/-- Whether two JSON values are the same, member order and number kinds included. -/
def identical : Json → Json → Bool
  | .null, .null => true
  | .bool a, .bool b => a == b
  | .int a, .int b => a == b
  | .float a, .float b => a == b
  | .text a, .text b => a == b
  | .list xs, .list ys => identicalLists xs ys
  | .object xs, .object ys => identicalMembers xs ys
  | _, _ => false

def identicalLists : List Json → List Json → Bool
  | [], [] => true
  | x :: xs, y :: ys => identical x y && identicalLists xs ys
  | _, _ => false

def identicalMembers : List (String × Json) → List (String × Json) → Bool
  | [], [] => true
  | (k, x) :: xs, (l, y) :: ys => k == l && identical x y && identicalMembers xs ys
  | _, _ => false
end

mutual
/-- The value that a JSON value is. -/
def toValue : Json → Value
  | .null => .null
  | .bool b => .bool b
  | .int n => .int n
  | .float x => .float x
  | .text s => .text s
  | .list xs => .list (listToValues xs)
  | .object ms => .map (membersToEntries ms)

def listToValues : List Json → List Value
  | [] => []
  | x :: xs => x.toValue :: listToValues xs

def membersToEntries : List (String × Json) → List (Scalar × Value)
  | [] => []
  | (k, x) :: ms => (.text k, x.toValue) :: membersToEntries ms
end

/-- The member of an object with the given key. -/
def get? (j : Json) (key : String) : Option Json :=
  match j with
  | .object ms => ms.lookup key
  | _ => none

end Json
end ApiProjection
