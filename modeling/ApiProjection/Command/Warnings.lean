import ApiProjection.Command.Project
/-!
# The command that lists warnings

`warnings` loads a description and shows what a projection of it would warn of, as a table: all of it,
or what is left after a category is chosen and codes are left out. A projection that fails is reported
after the warnings recorded before.
-/
namespace ApiProjection.Command

structure WarningsOptions where
  target : Option String := none
  /-- The name of the only category to show. -/
  category : Option String := none
  /-- The codes to leave out. -/
  excluded : List String := []

namespace Warnings

def switches : List (Switch WarningsOptions) := [
  ⟨["--target", "-t"], .take fun v o => { o with target := some v },
    "OpenAPI version: 3.0, 3.1, 3.0.4 or 3.1.2."⟩,
  ⟨["--category", "-c"], .take fun v o => { o with category := some v },
    "Only show warnings in this category."⟩,
  ⟨["--exclude", "-x"], .take fun v o => { o with excluded := o.excluded ++ [v] },
    "Warning code to hide (repeatable)."⟩]

def form : Form WarningsOptions where
  name := "specshift warnings"
  about := "List the diagnostics a projection would produce."
  operands := ["SOURCE"]
  switches := switches

/-- The category that the options name, if they name one. -/
def category? (o : WarningsOptions) : Except Misuse (Option Category) :=
  match o.category with
  | none => .ok none
  | some name => match Category.ofName? name with
    | some c => .ok (some c)
    | none => .error (.wrongValue "--category" name)

/-- The warnings that are to be shown. -/
def chosen (category : Option Category) (excluded : List String) (ws : ApiProjection.Warnings) :
    ApiProjection.Warnings :=
  let ws := match category with
    | some c => ws.ofCategory c
    | none => ws
  ws.exclude (excluded.map Code.ofText)

def headers : List String := ["Code", "Category", "Path", "Message"]

/-- A warning as a row of the table. -/
def row (w : Warning) : List String := [w.code.text, w.category.name, w.path, w.message]

/-- Shows warnings. -/
def showAll (c : Console) (ws : ApiProjection.Warnings) : Act Unit :=
  if ws.isEmpty then c.info "No warnings." else c.table headers (ws.map row)

/-- What a projection of a source warns of, and its failure if it fails. -/
def recorded (target : Option String) (source : String) :
    Act (ApiProjection.Warnings × Option ApiProjection.Failure) := do
  let settings ← Settings.resolve { target }
  let a ← Source.load source
  tryCatch (do return ((← Project.rendered a settings.target false none).warnings, none))
    fun stop => match stop with
      | .failed f => return (f.warnings, some f)
      | stop => throw stop

/-- Shows what a projection of a source warns of. -/
def perform (c : Console) (category : Option Category) (o : WarningsOptions) (source : String) :
    Act Unit := do
  let (ws, failure) ← c.reporting (recorded o.target source)
  showAll c (chosen category o.excluded ws)
  match failure with
  | some f => c.report { f with warnings := [] }
  | none => return ()

/-- The command with its arguments. -/
def run (c : Console) (args : List String) : Act Unit := do
  let (options, operands) ← form.read {} args
  match category? options, operands with
  | .error m, _ => form.refuse m
  | .ok category, [source] => perform c category options source
  | .ok _, operands => form.refuseOperands operands

end Warnings
end ApiProjection.Command
