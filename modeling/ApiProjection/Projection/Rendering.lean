import ApiProjection.Json.Printer
import ApiProjection.Projection.Document
import ApiProjection.Yaml.Printer
/-!
# Projecting and rendering

`Api.project` is the whole way from a description to a document of a version in its two renderings:
the walk, the JSON text, the check of that text by whoever is asked to check it, the YAML text. A
projection that fails has failed in one of the ways of `Projection.Failure`; the warnings recorded
before the failure are kept. A document may also hold free-form values that cannot be written down.
-/
namespace ApiProjection

/-- Why a document cannot be written down. -/
inductive Unwritable
  /-- Bytes that are no text, among the extensions of the whole document or further in. -/
  | bytes (fault : Utf8.Fault) (atTop : Bool)
  /-- An integer with too many digits. -/
  | longInteger
  deriving DecidableEq, Repr

namespace Json

/-- The most digits of an integer that is written. -/
def digitLimit : Nat := 4300

/-- The least number with too many digits. -/
def firstLong : Nat := Nat.pow 10 digitLimit

def longIntegerMessage : String :=
  s!"Exceeds the limit ({digitLimit} digits) for integer string conversion; " ++
    "use sys.set_int_max_str_digits() to increase the limit"

mutual
/-- Whether some integer has too many digits to be written. -/
def hasLongInteger : Json → Bool
  | .int n => firstLong ≤ n.natAbs
  | .list xs => anyLong xs
  | .object ms => anyLongMember ms
  | _ => false

def anyLong : List Json → Bool
  | [] => false
  | x :: xs => x.hasLongInteger || anyLong xs

def anyLongMember : List (String × Json) → Bool
  | [] => false
  | (_, x) :: ms => x.hasLongInteger || anyLongMember ms
end

end Json

/-- A whole document as JSON, if it can be written down. -/
def Node.document (n : Node) : Except Unwritable Json := do
  let nested (x : Except Utf8.Fault (List (String × Json))) (atTop : Bool) :=
    x.mapError fun f => Unwritable.bytes f atTop
  let j ← match n with
    | .object es xs => do
      let own ← nested (entriesToJson es) false
      let extra ← nested (extensionMembers xs) true
      pure (Json.object (inline own extra))
    | n => (n.toJson).mapError fun f => Unwritable.bytes f false
  if j.hasLongInteger then .error .longInteger else .ok j

namespace Projection

/-- Why a projection failed. What a check objects is of the type `ε`. -/
inductive Failure (ε : Type)
  | missing
  | unsupported (e : UnsupportedTarget)
  | refused (r : Refusal)
  | invalid (t : Target) (cause : ε)

/-- What checks the JSON rendering of a document. -/
abbrev Check (ε : Type) := String → Target → Except ε Unit

/-- The text of a failure, given the texts of what a check objects. -/
def Failure.message {ε : Type} (describe : ε → String) : Failure ε → String
  | .missing => "spec is nil"
  | .unsupported e => e.message
  | .refused r => r.message
  | .invalid t cause => s!"OpenAPI {t.version} validation failed: " ++ describe cause

/-- A document in its two renderings. -/
structure Rendering where
  json : String
  yaml : String
  deriving DecidableEq, Repr

/-- How a projection ends, failing or with a document that can or cannot be written down. -/
inductive Outcome (ε : Type)
  | rendered (r : Rendering)
  | failed (f : Failure ε)
  | unwritable (u : Unwritable)

/-- A document as JSON text. -/
def jsonText (j : Json) : String := j.pretty ++ "\n"

/-- The renderings of a document that a check, if there is one, has no objection to. -/
def render {ε : Type} (t : Target) (check : Option (Check ε)) (document : Node) : Outcome ε :=
  match document.document with
  | .error u => .unwritable u
  | .ok j =>
    let text := jsonText j
    match check.mapM fun c => c text t with
    | .error e => .failed (.invalid t e)
    | .ok _ => .rendered ⟨text, Yaml.write j⟩

end Projection

/-- The description as a rendered document of a version. -/
def Api.projectTo {ε : Type} (t : Target) (strict : Bool) (check : Option (Projection.Check ε)) (a : Api) :
    Traced (Projection.Outcome ε) :=
  let walked := a.toDocument t strict
  match walked.value with
  | .error r => ⟨.failed (.refused r), walked.warnings⟩
  | .ok document => ⟨Projection.render t check document, walked.warnings⟩

/-- A description, if there is one, as a rendered document of the version that a value names. -/
def Api.project {ε : Type} (a : Option Api) (target : Value) (strict : Bool)
    (check : Option (Projection.Check ε)) : Traced (Projection.Outcome ε) :=
  match a with
  | none => ⟨.failed .missing, []⟩
  | some a => match Target.parse target with
    | .error e => ⟨.failed (.unsupported e), []⟩
    | .ok t => a.projectTo t strict check

end ApiProjection
