import ApiProjection.Value.Literal
import ApiProjection.Text.Blank
/-!
# Target versions

The two versions of the written format, and the spellings under which they are asked for.
-/
namespace ApiProjection

inductive Target
  | v30
  | v31
  deriving DecidableEq, Repr, Inhabited

namespace Target

def all : List Target := [.v30, .v31]

/-- The full version. -/
def version : Target → String
  | .v30 => "3.0.4"
  | .v31 => "3.1.2"

/-- The version without its last part. -/
def family : Target → String
  | .v30 => "3.0"
  | .v31 => "3.1"

/-- Whether the version knows webhooks, reusable paths and whole JSON Schema. -/
def isFeatureRich : Target → Bool
  | .v30 => false
  | .v31 => true

/-- The words that name a version. -/
def words (t : Target) : List String := [t.version, t.family, t.family ++ ".x"]

/-- A word without blanks around it, in small letters and without one leading `v`. -/
def normalise (s : String) : String :=
  match (Text.lowerAscii (Text.trimBlank s)).toList with
  | 'v' :: cs => String.ofList cs
  | cs => String.ofList cs

def ofWord? (s : String) : Option Target :=
  let word := normalise s
  all.find? fun t => t.words.contains word

end Target

/-- A value that names no version. -/
structure UnsupportedTarget where
  value : Value
  deriving Repr

def UnsupportedTarget.message (e : UnsupportedTarget) : String :=
  "Unsupported target version: " ++ e.value.literal ++ ". Supported: " ++
    ", ".intercalate (Target.all.map Target.version) ++ " (or 3.0 / 3.1)"

/-- The version that a value names as it is displayed. -/
def Target.parse (v : Value) : Except UnsupportedTarget Target :=
  match ofWord? v.display with
  | some t => .ok t
  | none => .error ⟨v⟩

end ApiProjection
