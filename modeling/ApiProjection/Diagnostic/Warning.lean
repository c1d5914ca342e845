import ApiProjection.Pointer
import ApiProjection.Text.Quoted
/-!
# Warnings

A warning says what a projection changed or left out, and where. Its code belongs to a category
by how it begins. Codes of other tools may occur beside those of `WarningCode`.
-/
namespace ApiProjection

inductive Category
  | unknown
  | downlevel
  | deprecation
  | validity
  deriving DecidableEq, Repr

namespace Category

def all : List Category := [.unknown, .downlevel, .deprecation, .validity]

def name : Category → String
  | .unknown => "unknown"
  | .downlevel => "downlevel"
  | .deprecation => "deprecation"
  | .validity => "validity"

def ofName? (s : String) : Option Category := all.find? fun c => c.name = s

/-- How the codes of a category begin. -/
def beginnings : List (String × Category) :=
  [("DOWNLEVEL_", .downlevel), ("DEPRECATION_", .deprecation), ("SERVER_VARIABLE_", .validity)]

/-- The category of a code. -/
def ofCode (code : String) : Category :=
  match beginnings.find? fun (b, _) => b.isPrefixOf code with
  | some (_, c) => c
  | none => .unknown

end Category

/-- The codes of this library. -/
inductive WarningCode
  | downlevelWebhooks
  | downlevelInfoSummary
  | downlevelLicenseIdentifier
  | downlevelMutualTls
  | downlevelConstToEnum
  | downlevelConstToEnumConflict
  | downlevelPathItems
  | downlevelPatternProperties
  | downlevelUnevaluatedProperties
  | downlevelContentEncoding
  | downlevelContentMediaType
  | downlevelMultipleExamples
  | deprecationExampleSingular
  | serverVariableEmptyEnum
  | serverVariableDefaultNotInEnum
  deriving DecidableEq, Repr

namespace WarningCode

def all : List WarningCode :=
  [.downlevelWebhooks, .downlevelInfoSummary, .downlevelLicenseIdentifier, .downlevelMutualTls,
    .downlevelConstToEnum, .downlevelConstToEnumConflict, .downlevelPathItems,
    .downlevelPatternProperties, .downlevelUnevaluatedProperties, .downlevelContentEncoding,
    .downlevelContentMediaType, .downlevelMultipleExamples, .deprecationExampleSingular,
    .serverVariableEmptyEnum, .serverVariableDefaultNotInEnum]

def name : WarningCode → String
  | .downlevelWebhooks => "DOWNLEVEL_WEBHOOKS"
  | .downlevelInfoSummary => "DOWNLEVEL_INFO_SUMMARY"
  | .downlevelLicenseIdentifier => "DOWNLEVEL_LICENSE_IDENTIFIER"
  | .downlevelMutualTls => "DOWNLEVEL_MUTUAL_TLS"
  | .downlevelConstToEnum => "DOWNLEVEL_CONST_TO_ENUM"
  | .downlevelConstToEnumConflict => "DOWNLEVEL_CONST_TO_ENUM_CONFLICT"
  | .downlevelPathItems => "DOWNLEVEL_PATH_ITEMS"
  | .downlevelPatternProperties => "DOWNLEVEL_PATTERN_PROPERTIES"
  | .downlevelUnevaluatedProperties => "DOWNLEVEL_UNEVALUATED_PROPERTIES"
  | .downlevelContentEncoding => "DOWNLEVEL_CONTENT_ENCODING"
  | .downlevelContentMediaType => "DOWNLEVEL_CONTENT_MEDIA_TYPE"
  | .downlevelMultipleExamples => "DOWNLEVEL_MULTIPLE_EXAMPLES"
  | .deprecationExampleSingular => "DEPRECATION_EXAMPLE_SINGULAR"
  | .serverVariableEmptyEnum => "SERVER_VARIABLE_EMPTY_ENUM"
  | .serverVariableDefaultNotInEnum => "SERVER_VARIABLE_DEFAULT_NOT_IN_ENUM"

def ofName? (s : String) : Option WarningCode := all.find? fun c => c.name = s

end WarningCode

/-- The code of a warning: one of this library's or any other text. -/
inductive Code
  | known (c : WarningCode)
  | plain (s : String)
  deriving DecidableEq, Repr

namespace Code

def text : Code → String
  | .known c => c.name
  | .plain s => s

/-- The code with the given text. -/
def ofText (s : String) : Code :=
  match WarningCode.ofName? s with
  | some c => .known c
  | none => .plain s

/-- Codes with the same text are the same code. -/
instance : BEq Code := ⟨fun a b => a.text == b.text⟩

/-- A code as a message quotes it. -/
def literal : Code → String
  | .known c => "<WarningCode." ++ c.name ++ ": " ++ Text.quoted c.name ++ ">"
  | .plain s => Text.quoted s

end Code

structure Warning where
  code : Code
  path : String
  message : String
  deriving DecidableEq, Repr

namespace Warning

def category (w : Warning) : Category := Category.ofCode w.code.text

instance : BEq Warning := ⟨fun a b => a.code == b.code && a.path == b.path && a.message == b.message⟩

def text (w : Warning) : String := s!"[{w.category.name}] {w.code.text}: {w.message}"

/-- A warning as a message quotes it. -/
def literal (w : Warning) : String :=
  s!"Warning(code={w.code.literal}, path={Text.quoted w.path}, message={Text.quoted w.message})"

end Warning

/-! ## Findings -/

/-- What a projection has to say about a node. -/
inductive Finding
  | webhooks
  | infoSummary
  | licenseIdentifier
  | mutualTls
  | constToEnum
  | constBesideEnum
  | pathItems
  | unevaluatedProperties
  | contentEncoding (encoding : String)
  | contentMediaType
  | multipleExamples
  | emptyEnum
  | defaultNotInEnum (default : String)
  deriving DecidableEq, Repr

namespace Finding

def code : Finding → WarningCode
  | .webhooks => .downlevelWebhooks
  | .infoSummary => .downlevelInfoSummary
  | .licenseIdentifier => .downlevelLicenseIdentifier
  | .mutualTls => .downlevelMutualTls
  | .constToEnum => .downlevelConstToEnum
  | .constBesideEnum => .downlevelConstToEnumConflict
  | .pathItems => .downlevelPathItems
  | .unevaluatedProperties => .downlevelUnevaluatedProperties
  | .contentEncoding _ => .downlevelContentEncoding
  | .contentMediaType => .downlevelContentMediaType
  | .multipleExamples => .downlevelMultipleExamples
  | .emptyEnum => .serverVariableEmptyEnum
  | .defaultNotInEnum _ => .serverVariableDefaultNotInEnum

def message : Finding → String
  | .webhooks => "webhooks are 3.1-only; dropped"
  | .infoSummary => "info.summary is 3.1-only; dropped"
  | .licenseIdentifier => "license identifier is 3.1-only; dropped (use url instead)"
  | .mutualTls => "mutualTLS security type is 3.1-only; dropped"
  | .constToEnum => "const keyword not supported in OpenAPI 3.0; converted to enum"
  | .constBesideEnum => "const with enum under OpenAPI 3.0: kept enum, ignored const"
  | .pathItems => "pathItems in components are 3.1-only; dropped"
  | .unevaluatedProperties => "unevaluatedProperties not supported in OpenAPI 3.0; dropped"
  | .contentEncoding e => "contentEncoding " ++ Text.quoted e ++ " not supported in OpenAPI 3.0; dropped"
  | .contentMediaType => "contentMediaType not supported in OpenAPI 3.0; dropped"
  | .multipleExamples => "multiple examples not supported in OpenAPI 3.0; using first only"
  | .emptyEnum => "server variable enum MUST NOT be empty in OpenAPI 3.1"
  | .defaultNotInEnum d =>
    "server variable default " ++ Text.quoted d ++ " MUST exist in enum values in OpenAPI 3.1"

/-- The warning that reports a finding at a place. -/
def warning (f : Finding) (p : Pointer) : Warning := ⟨.known f.code, p.text, f.message⟩

end Finding
end ApiProjection
