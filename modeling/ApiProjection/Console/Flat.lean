import ApiProjection.Json.Basic
import ApiProjection.Value.Literal
/-!
# Flat lists of members

`Json.flat` lists the leaves of nested objects, each under the names that lead to it with dots
between them. An object without members is a leaf, unless it is the whole.
-/
namespace ApiProjection.Json

/-- The name of a member of an object that has a name. -/
def dotted (name key : String) : String := if name = "" then key else name ++ "." ++ key

mutual
/-- The leaves of a value with a name. -/
def flatUnder (name : String) : Json → List (String × Json)
  | .object [] => [(name, .object [])]
  | .object ms => flatMembers name ms
  | j => [(name, j)]

def flatMembers (name : String) : List (String × Json) → List (String × Json)
  | [] => []
  | (k, j) :: ms => flatUnder (dotted name k) j ++ flatMembers name ms
end

/-- The leaves of a value. One that is no object is a leaf itself, under a name of its own. -/
def flat : Json → List (String × Json)
  | .object ms => flatMembers "" ms
  | j => [("value", j)]

/-- A value as it is shown in a flat list. -/
def shown (j : Json) : String := j.toValue.display

end ApiProjection.Json
