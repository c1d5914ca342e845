import ApiProjection.Json.Reader
import ApiProjection.Validation.Bundled
import ApiProjection.Validation.MetaSchema
/-!
# Validating documents

A `Validator` holds a meta-schema for each version and checks the text of a document against the
one of its version. The violations are reported in the order of their texts, all or none: whoever
asked for the validation may call it off, which is asked once before it starts and once at each
violation.
-/
namespace ApiProjection

/-- The answer to the question, asked for the nth time, whether to call the validation off. -/
abbrev Cancellation := Nat → Bool

/-- A validation that nobody calls off. -/
def Cancellation.never : Cancellation := fun _ => false

/-- Why a document was not found to be valid. -/
inductive Invalid
  | cancelledBeforeStart
  | cancelled
  | notJson (message : String)
  | violations (target : Target) (errors : List String)
  | defective (d : Defect)
  deriving DecidableEq, Repr

namespace Invalid

/-- The list of errors that goes with the failure. -/
def errors : Invalid → Option (List String)
  | .notJson m => some [m]
  | .violations _ es => some es
  | _ => none

/-- The failure without its list of errors. -/
def headline : Invalid → String
  | .cancelledBeforeStart => "validation cancelled before start"
  | .cancelled => "validation cancelled"
  | .notJson _ => "document is not valid JSON"
  | .violations t es => s!"OpenAPI {t.version} validation failed with {es.length} error(s)"
  | .defective d => d.message

def message (i : Invalid) : String :=
  "\n".intercalate (i.headline :: (i.errors.getD []).map ("  " ++ ·))

end Invalid

/-! ## Places in reports -/

/-- Whether a name is written after a dot, not in brackets. A line feed at its end goes unnoticed. -/
def isPlainName (s : String) : Bool :=
  match s.toList with
  | [] => false
  | c :: cs =>
    let cs := if cs.getLast? = some '\n' then cs.dropLast else cs
    isAsciiLetter c && cs.all fun d => isAsciiLetter d || Json.isDigit d || d == '_'
where
  isAsciiLetter (c : Char) : Bool := ('a' ≤ c && c ≤ 'z') || ('A' ≤ c && c ≤ 'Z')

/-- One step of a place as it is reported. -/
def Record.Step.reported : Record.Step → String
  | .index i => s!"[{i}]"
  | .key k =>
    if isPlainName k then "." ++ k
    else "['" ++ (k.replace "\\" "\\\\").replace "'" "\\'" ++ "']"

/-- A violation as it is reported. -/
def Violation.report (v : Violation) : String :=
  "$" ++ String.join (v.place.map Record.Step.reported) ++ ": " ++ v.message

/-! ## Validators -/

structure Validator where
  schema30 : Value
  schema31 : Value

namespace Validator

/-- The validator that checks the outline of documents. -/
def bundled : Validator := ⟨MetaSchema.bundled .v30, MetaSchema.bundled .v31⟩

def schemaFor (v : Validator) : Target → Value
  | .v30 => v.schema30
  | .v31 => v.schema31

/-- The validator with another meta-schema for a version. -/
def withSchema (v : Validator) (schema : Value) : Target → Validator
  | .v30 => { v with schema30 := schema }
  | .v31 => { v with schema31 := schema }

/-- The validator with the given meta-schemas, which are keyed by what names a version. Of two for
one version the later is taken; a version that is not named keeps the bundled one. -/
def ofSchemas : List (Value × Value) → Except UnsupportedTarget Validator :=
  go bundled
where
  go (v : Validator) : List (Value × Value) → Except UnsupportedTarget Validator
    | [] => .ok v
    | (name, schema) :: rest => do
      let t ← Target.parse name
      go (v.withSchema schema t) rest

/-- A document without the mark that may stand before it. -/
def withoutMark (document : String) : String :=
  match document.toList with
  | '\ufeff' :: rest => String.ofList rest
  | _ => document

/-- The reports of the violations, unless the validation is called off at one of them. -/
def reports (cancel : Cancellation) : Nat → List Violation → Option (List String)
  | _, [] => some []
  | n, v :: vs => if cancel n then none else (reports cancel (n + 1) vs).map (v.report :: ·)

/-- Whether a document is a valid one of the version. -/
def validate (v : Validator) (cancel : Cancellation) (document : String) (t : Target) :
    Except Invalid Unit :=
  if cancel 0 then .error .cancelledBeforeStart
  else
    let document := withoutMark document
    match Json.read document with
    | .error e => .error (.notJson (e.message document))
    | .ok j =>
      let found := MetaSchema.check (v.schemaFor t) j.toValue
      match reports cancel 1 found.violations, found.defect with
      | none, _ => .error .cancelled
      | some _, some d => .error (.defective d)
      | some [], none => .ok ()
      | some errors, none => .error (.violations t (sortTexts errors))

end Validator
end ApiProjection
