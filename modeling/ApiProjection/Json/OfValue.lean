import ApiProjection.Json.Basic
import ApiProjection.Text.Utf8
/-!
# Free-form values as JSON

In a written document a date is its ISO text, bytes are the text they encode, sets and rows are
lists, and a float that is no number is null. A key becomes a text; where two keys get the same
text the last entry wins, in the place of the first.
-/
namespace ApiProjection

/-- The JSON text that a key becomes. -/
def Scalar.toKey : Scalar → Except Utf8.Fault String
  | .null => .ok "None"
  | .bool b => .ok (if b then "true" else "false")
  | .int n => .ok (toString n)
  | .float x => .ok x.text
  | .text s => .ok s
  | .bytes bs => Utf8.decode bs
  | .date d => .ok d.text
  | .moment t => .ok t.zuluText

def Scalar.toJson : Scalar → Except Utf8.Fault Json
  | .null => .ok .null
  | .bool b => .ok (.bool b)
  | .int n => .ok (.int n)
  | .float x => .ok (if x.isFinite then .float x else .null)
  | .text s => .ok (.text s)
  | .bytes bs => (Utf8.decode bs).map .text
  | .date d => .ok (.text d.text)
  | .moment t => .ok (.text t.zuluText)

namespace Value

mutual
/-- The JSON value written for a free-form value. -/
def toJson : Value → Except Utf8.Fault Json
  | .scalar s => s.toJson
  | .list xs => return .list (← listToJson xs)
  | .tuple xs => return .list (← listToJson xs)
  | .set xs => return .list (← xs.mapM Scalar.toJson)
  | .map es => return .object (collapse (· == ·) (← entriesToMembers es))

def listToJson : List Value → Except Utf8.Fault (List Json)
  | [] => .ok []
  | x :: xs => return (← x.toJson) :: (← listToJson xs)

def entriesToMembers : List (Scalar × Value) → Except Utf8.Fault (List (String × Json))
  | [] => .ok []
  | (k, x) :: es => do
    let name ← k.toKey
    let j ← x.toJson
    return (name, j) :: (← entriesToMembers es)
end

end Value
end ApiProjection
