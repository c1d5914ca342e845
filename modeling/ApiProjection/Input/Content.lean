import ApiProjection.Crash
import ApiProjection.Json.Reader
import ApiProjection.Record.Issue
import ApiProjection.Yaml.Reader
/-!
# The text of a description

A description is an object in JSON or YAML. `Content.read` tries JSON first, unless it is told that
the text is YAML, and then, unless it is told that the text is JSON, YAML.
-/
namespace ApiProjection

/-- What is known of the format of a text. -/
inductive Hint
  | json
  | yaml
  | none
  deriving DecidableEq, Repr

/-- The hint with a name; any other word gives none. -/
def Hint.ofName (s : String) : Hint :=
  match s with
  | "json" => .json
  | "yaml" => .yaml
  | _ => .none

/-- Why a text is no description. -/
inductive ContentError
  | notJson (message : String)
  /-- What the JSON reader has to say, if it was asked, and what the YAML reader. -/
  | unreadable (json : Option String) (yaml : String)
  | notAnObject (kind : String)
  /-- Text that is well formed but holds a scalar that is no value. -/
  | crash (c : Crash)
  deriving DecidableEq, Repr

namespace ContentError

def message : ContentError → String
  | .notJson m => "Invalid JSON: " ++ m
  | .unreadable json yaml =>
    "Failed to parse IR as JSON or YAML" ++
      (match json with
        | some m => "\n  JSON error: " ++ m
        | none => "") ++
      "\n  YAML error: " ++ yaml
  | .notAnObject kind => s!"IR must be a JSON/YAML object (got {kind})"
  | .crash c => c.message

end ContentError

namespace Content

/-- The entries of a value that is an object. -/
def requireObject (v : Value) : Except ContentError (List (Scalar × Value)) :=
  match v with
  | .map es => .ok es
  | .null => .error (.notAnObject "empty document")
  | v => .error (.notAnObject (Record.typeName v))

def readYaml (jsonError : Option String) (text : String) : Except ContentError (List (Scalar × Value)) :=
  match Yaml.read text with
  | .ok v => requireObject v
  | .error f =>
    if f.isMalformed then .error (.unreadable jsonError f.message)
    else .error (.crash ⟨f.kind, f.message⟩)

/-- The entries of the object that a text is. -/
def read (hint : Hint) (text : String) : Except ContentError (List (Scalar × Value)) :=
  match hint with
  | .yaml => readYaml none text
  | hint =>
    match Json.read text with
    | .ok j => requireObject j.toValue
    | .error e =>
      let message := e.message text
      if e.isLongNumber then .error (.crash ⟨"ValueError", message⟩)
      else if hint = .json then .error (.notJson message)
      else readYaml (some message) text

end Content
end ApiProjection
