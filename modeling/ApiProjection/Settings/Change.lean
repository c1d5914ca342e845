import ApiProjection.Settings.Store
/-!
# Changing one setting

A setting is named by the keys that lead to it in the settings as JSON, with dots between them. A new
value is given as a word, which is read as what the old value is: a truth value, a version or a text.
-/
namespace ApiProjection

/-- Why a name is not that of a setting. -/
inductive KeyFault
  /-- The keys lead through something that is no object. -/
  | invalid
  /-- The last key is not there, or leads to an object. -/
  | unknown
  deriving DecidableEq, Repr

def KeyFault.message (key : String) : KeyFault → String
  | .invalid => s!"Invalid config key: {key}"
  | .unknown => s!"Unknown config key: {key}"

namespace Json

/-- The value that keys lead to from the members of an object, which is no object itself. -/
def leaf (members : List (String × Json)) : List String → Except KeyFault Json
  | [] => .error .unknown
  | [key] => match members.lookup key with
    | none | some (.object _) => .error .unknown
    | some j => .ok j
  | key :: keys => match members.lookup key with
    | some (.object ms) => leaf ms keys
    | _ => .error .invalid

/-- The members of an object with another value where keys lead. -/
def setLeaf (value : Json) (members : List (String × Json)) : List String → List (String × Json)
  | [] => members
  | [key] => upsert (· == ·) key value members
  | key :: keys => match members.lookup key with
    | some (.object ms) => upsert (· == ·) key (.object (setLeaf value ms keys)) members
    | _ => members

end Json

namespace Settings

/-- The words that turn a setting on; all others turn it off. -/
def onWords : List String := ["true", "1", "yes", "on"]

/-- A word as the new value of a setting. -/
def coerce (key word : String) (old : Json) : Except String Json :=
  match old with
  | .bool _ => .ok (.bool (onWords.contains (Text.lowerAscii word)))
  | _ =>
    if key = "target" then
      match Target.parse (.text word) with
      | .ok t => .ok (.text t.version)
      | .error e => .error e.message
    else .ok (.text word)

/-- The settings with a word as the value of the one with a name, and that value; or what is wrong. -/
def change (s : Settings) (key word : String) : Except String (Settings × Json) := do
  let members := match s.toJson with
    | .object ms => ms
    | _ => []
  let keys := Text.splitAt '.' key
  let old ← (Json.leaf members keys).mapError (KeyFault.message key)
  let value ← coerce key word old
  match read (Json.object (Json.setLeaf value members keys)).toValue with
  | .done changed => return (changed, value)
  | .failed issues => throw ("Validation error: " ++ Record.reportAll recordName issues)

end Settings
end ApiProjection
