import ApiProjection.Api.Schema
import ApiProjection.Json.OfValue
/-!
# Written documents

A `Node` is a piece of a written document before its free-form values are turned into JSON. An
object has its own entries and the extensions that are put beside them; `Node.toJson` appends
the extensions, an extension with the name of an entry taking its place.
-/
namespace ApiProjection

inductive Node
  | free (v : Value)
  | text (s : String)
  | list (items : List Node)
  | object (entries : List (String × Node)) (extensions : Extensions)

namespace Node

/-- The members of an object with extensions put beside them. -/
def inline (own extensions : List (String × Json)) : List (String × Json) :=
  extensions.foldl (fun acc (k, j) => upsert (· == ·) k j acc) own

/-- The extensions of an object as JSON members. -/
def extensionMembers : Extensions → Except Utf8.Fault (List (String × Json))
  | [] => .ok []
  | (k, v) :: es => return (k, ← v.toJson) :: (← extensionMembers es)

mutual
/-- The JSON value of a node. -/
def toJson : Node → Except Utf8.Fault Json
  | .free v => v.toJson
  | .text s => .ok (.text s)
  | .list ns => return .list (← listToJson ns)
  | .object es xs => do
    let own ← entriesToJson es
    let extra ← extensionMembers xs
    return .object (inline own extra)

def listToJson : List Node → Except Utf8.Fault (List Json)
  | [] => .ok []
  | n :: ns => return (← n.toJson) :: (← listToJson ns)

def entriesToJson : List (String × Node) → Except Utf8.Fault (List (String × Json))
  | [] => .ok []
  | (k, n) :: es => return (k, ← n.toJson) :: (← entriesToJson es)
end

/-! ## Building objects -/

/-- The entries of one field: one, or none if it is not written. -/
abbrev Field := List (String × Node)

namespace Field

def text (name s : String) : Field := [(name, .text s)]

/-- A text that is written unless it is empty. -/
def text? (name : String) : Option String → Field
  | some s => if s = "" then [] else [(name, .text s)]
  | none => []

/-- A flag that is written if it is set. -/
def flag (name : String) (b : Bool) : Field := if b then [(name, .free (.bool true))] else []

def int? (name : String) : Option Int → Field
  | some n => [(name, .free (.int n))]
  | none => []

def number? (name : String) : Option Number → Field
  | some n => [(name, .free n.toValue)]
  | none => []

/-- A value that is written unless it is null. -/
def free (name : String) (v : Value) : Field := if v.isNull then [] else [(name, .free v)]

/-- Values that are written unless there are none. -/
def frees (name : String) (vs : List Value) : Field :=
  if vs.isEmpty then [] else [(name, .list (vs.map .free))]

def texts (name : String) (ss : List String) : Field :=
  if ss.isEmpty then [] else [(name, .list (ss.map .text))]

def node? (name : String) : Option Node → Field
  | some n => [(name, n)]
  | none => []

/-- Nodes that are written unless there are none. -/
def nodes (name : String) (ns : List Node) : Field := if ns.isEmpty then [] else [(name, .list ns)]

/-- Named nodes that are written unless there are none. -/
def named (name : String) (ns : List (String × Node)) : Field :=
  if ns.isEmpty then [] else [(name, .object ns [])]

end Field

/-- The object with the given fields. -/
def ofFields (fields : List Field) (extensions : Extensions) : Node :=
  .object fields.flatten extensions

/-- The object that refers to another node. -/
def reference (target : String) : Node := .object [("$ref", .text target)] []

end Node
end ApiProjection
