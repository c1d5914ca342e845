import ApiProjection.Failure
import ApiProjection.Projection.Rendering
import ApiProjection.Validation.Validator
/-!
# What is said about projections

The failure that the program reports when a projection has failed, the unexpected error that a
document ends in which cannot be written down, and what the log says about the steps of a projection.
-/
namespace ApiProjection

/-- The unexpected error that writing down a document ends in. -/
def Unwritable.crash : Unwritable → Crash
  | .longInteger => ⟨"ValueError", Json.longIntegerMessage⟩
  | .bytes f true => ⟨"UnicodeDecodeError", f.briefMessage⟩
  | .bytes f false => ⟨"pydantic_core._pydantic_core.PydanticSerializationError",
      "Error calling function \x60_inline_extensions\x60: UnicodeDecodeError: " ++ f.briefMessage⟩

namespace Projection

def Failure.kind {ε : Type} : Failure ε → FailureKind
  | .missing => .invalidDescription
  | .unsupported _ => .unsupportedTarget
  | .refused r => if r.isStrict then .strictness else .invalidDescription
  | .invalid _ _ => .validation

/-- The failure as the program reports it, with the warnings recorded before it. -/
def Failure.report (f : Failure Invalid) (warnings : Warnings) : ApiProjection.Failure :=
  ⟨f.kind, f.message Invalid.message, warnings, none⟩

/-- A line of the log: the part of the program that it is from, and the text. -/
abbrev LogLine := String × String

/-- What the log says when all paths have been walked. -/
def walkedLine (t : Target) (a : Api) : LogLine :=
  let paths := s!"projected {a.paths.length} path(s)"
  match t with
  | .v30 => ("specshift.export.spec_v30", s!"{paths} to OpenAPI {t.version}")
  | .v31 => ("specshift.export.spec_v31", s!"{paths}, {a.webhooks.length} webhook(s) to OpenAPI {t.version}")

/-- What the log says when a document has been checked. -/
def checkedLine (t : Target) (errors : Nat) : LogLine :=
  ("specshift.validate", s!"validated OpenAPI {t.version} document: {errors} error(s)")

/-- What the log says about the end of a projection of a description that was or was not to be
checked. -/
def endLines (t : Target) (a : Api) (checked : Bool) (r : Traced (Outcome Invalid)) : List LogLine :=
  match r.value with
  | .failed (.refused reason) =>
    [("specshift.export.base", s!"projection to {t.version} aborted: {reason.message}")]
  | .failed (.invalid _ (.violations _ errors)) => [walkedLine t a, checkedLine t errors.length]
  | .failed (.invalid _ _) | .unwritable _ => [walkedLine t a]
  | .failed _ => []
  | .rendered _ => walkedLine t a :: (if checked then [checkedLine t 0] else []) ++
    [("specshift.export.project",
      s!"projection to OpenAPI {t.version} done with {r.warnings.length} warning(s)")]

/-- What the log says about a projection. -/
def logLines (t : Target) (strict : Bool) (a : Api) (checked : Bool) (r : Traced (Outcome Invalid)) :
    List LogLine :=
  ("specshift.export.project", s!"projecting to OpenAPI {t.version} (strict={(Value.bool strict).display})") ::
    r.warnings.map (fun w => ("specshift.export.context", s!"{w.code.text} at {w.path}: {w.message}")) ++
    endLines t a checked r

end Projection
end ApiProjection
