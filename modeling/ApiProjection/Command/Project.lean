import ApiProjection.Command.Form
import ApiProjection.Console.Basic
import ApiProjection.Input.Source
import ApiProjection.Projection.Report
import ApiProjection.Settings.Store
import ApiProjection.Text.Lower
/-!
# The command that projects

`project` loads a description, projects it to a version, has the document checked if that is wanted
and writes it, in JSON or in YAML. What the projection warned of is said before.
-/
namespace ApiProjection.Command

structure ProjectOptions where
  overrides : Settings.Overrides := {}
  /-- The file of the meta-schema to check with. -/
  metaSchema : Option PathName := none
  outputFile : Option String := none

namespace ProjectOptions

def set (o : ProjectOptions) (f : Settings.Overrides → Settings.Overrides) : ProjectOptions :=
  { o with overrides := f o.overrides }

end ProjectOptions

namespace Project

def switches : List (Switch ProjectOptions) := [
  ⟨["--target", "-t"], .take fun v o => o.set fun s => { s with target := some v },
    "OpenAPI version: 3.0, 3.1, 3.0.4 or 3.1.2."⟩,
  ⟨["--strict"], .mark fun o => o.set fun s => { s with strict := some true },
    "Fail instead of dropping webhooks, mutualTLS and info.summary for 3.0."⟩,
  ⟨["--no-strict"], .mark fun o => o.set fun s => { s with strict := some false },
    "Drop what 3.0 does not know."⟩,
  ⟨["--validate"], .mark fun o => o.set fun s => { s with validate := some true },
    "Validate the document before writing."⟩,
  ⟨["--no-validate"], .mark fun o => o.set fun s => { s with validate := some false },
    "Write the document unchecked."⟩,
  ⟨["--meta-schema"], .take fun v o => { o with metaSchema := some (.ofText v) },
    "JSON/YAML meta-schema to validate against (implies --validate)."⟩,
  ⟨["--format", "-F"], .take fun v o => o.set fun s => { s with document := some v },
    "Document encoding: json or yaml."⟩,
  ⟨["--output", "-o"], .take fun v o => { o with outputFile := some v },
    "Write the document to this file."⟩]

def form : Form ProjectOptions where
  name := "specshift project"
  about := "Project an API description to OpenAPI 3.0 or 3.1."
  operands := ["SOURCE"]
  switches := switches

/-! ## Meta-schemas -/

/-- The value that a file of a meta-schema holds. -/
def loadSchema (file : String) : Act Value := do
  let path := (PathName.ofText file).text
  let refuse (message : String) : Act Value := Act.fail .configuration ("Cannot load meta-schema: " ++ message)
  match (← Act.session).disk.read path with
  | .error e => if e.obstacle = .nullCharacter then Act.crash e.crash else refuse e.message
  | .ok bytes =>
    match Yaml.read (← Act.decoded (Act.textOf bytes)) with
    | .ok v => return v
    | .error f => if f.isMalformed then refuse f.message else Act.crash ⟨f.kind, f.message⟩

/-- The values that files of meta-schemas hold, each under the name of its version. -/
def loadSchemas : List (String × String) → Act (List (Value × Value))
  | [] => return []
  | (name, file) :: rest => do
    let schema ← loadSchema file
    return (.text name, schema) :: (← loadSchemas rest)

/-- The validator that the settings and the options ask for, if they ask for one. -/
def validator? (s : Settings) (metaSchema : Option PathName) : Act (Option Validator) := do
  let files := match metaSchema with
    | some path => upsert (· == ·) s.target path.text s.metaSchemas
    | none => s.metaSchemas
  if metaSchema.isNone && !s.validate then return none
  match Validator.ofSchemas (← loadSchemas files) with
  | .ok v => return some v
  | .error e => Act.fail .configuration ("Invalid meta-schema configuration: " ++ e.message)

/-! ## Projecting -/

/-- The document of a description in the version of the settings, with the warnings. -/
def rendered (a : Api) (target : String) (strict : Bool) (v : Option Validator) :
    Act (Traced Projection.Rendering) := do
  match Target.parse (.text target) with
  | .error e => Act.fail .unsupportedTarget e.message
  | .ok t =>
    let r := a.projectTo t strict (v.map fun v => v.validate .never)
    Act.logAll (Projection.logLines t strict a v.isSome r)
    match r.value with
    | .rendered texts => return ⟨texts, r.warnings⟩
    | .failed f => throw (.failed (f.report r.warnings))
    | .unwritable u => Act.crash u.crash

/-- The formats of documents. -/
def documentFormats : List String := ["json", "yaml"]

/-- The format of documents that settings name. -/
def documentFormat (s : Settings) : Act String := do
  let format := Text.lower s.output.document
  if documentFormats.contains format then return format
  Act.fail .usage ("Unknown document format " ++ Text.quoted format ++ "; expected json or yaml")

/-- What is to be written of a source, and the version that it is in. -/
def prepare (c : Console) (o : ProjectOptions) (source : String) : Act (Traced String × String) := do
  let settings ← Settings.resolve o.overrides
  let format ← documentFormat settings
  let a ← Source.load source
  let v ← validator? settings o.metaSchema
  c.debug s!"Projecting {source} to OpenAPI {settings.target}"
  let r ← rendered a settings.target settings.strict v
  return (⟨if format = "yaml" then r.value.yaml else r.value.json, r.warnings⟩, settings.target)

/-- Projects a source and writes the document. -/
def perform (c : Console) (o : ProjectOptions) (source : String) : Act Unit := do
  let (document, target) ← c.reporting (prepare c o source)
  c.warnings document.warnings
  c.document document.value o.outputFile
  if !document.warnings.isEmpty then
    c.info s!"{document.warnings.length} warning(s) for OpenAPI {target}"

/-- The command with its arguments. -/
def run (c : Console) (args : List String) : Act Unit := do
  let (options, operands) ← form.read {} args
  match operands with
  | [source] => perform c options source
  | _ => form.refuseOperands operands

end Project
end ApiProjection.Command
