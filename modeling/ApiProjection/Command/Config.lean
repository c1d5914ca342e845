import ApiProjection.Command.Form
import ApiProjection.Console.Basic
import ApiProjection.Settings.Change
/-!
# The commands on settings

`config show` shows the settings of the user, or those that hold; `config set` changes one of them;
`config reset` puts all of them back to what they are without a file.
-/
namespace ApiProjection.Command.Config

def group : Form Unit where
  name := "specshift config"
  about := "Configuration management: show, set and reset."

/-! ## Showing -/

/-- The options say whether the settings that hold are shown. -/
def showForm : Form Bool where
  name := "specshift config show"
  about := "Show current configuration."
  switches := [⟨["--effective", "-e"], .mark fun _ => true,
    "Show the resolved config (project file and environment applied)."⟩]

def showSettings (c : Console) (effective : Bool) : Act Unit := do
  let settings ← c.reporting (if effective then Settings.resolve {} else Settings.load)
  c.info s!"Config directory: {(← Settings.folder).text}"
  c.value settings.toJson

/-! ## Setting -/

def setForm : Form Unit where
  name := "specshift config set"
  about := "Set a configuration value."
  operands := ["KEY", "VALUE"]

def setSetting (c : Console) (key word : String) : Act Unit := do
  match (← Settings.load).change key word with
  | .error message =>
    c.error message
    throw (.ended misuseCode)
  | .ok (settings, value) =>
    settings.save
    c.success s!"Set {key} = {value.shown}"

/-! ## Resetting -/

def resetForm : Form Unit where
  name := "specshift config reset"
  about := "Reset configuration to defaults."

/-- The question before everything is reset. -/
def question : String := "Reset all config to defaults? [y/N]: "

/-- What a line says to a question of which the answer is no by default. -/
def answer? (line : String) : Option Bool :=
  let word := Text.trimBlank (Text.lowerAscii line)
  if word = "y" || word = "yes" then some true
  else if word = "n" || word = "no" || word = "" then some false
  else none

/-- Ends the run since nobody answers. -/
def abort {α : Type} : Act α := do
  Act.err "Aborted.\n"
  throw (.ended 1)

/-- Asks until a line of the input is an answer. So many lines are read at most. -/
def askUpTo : Nat → Act Bool
  | 0 => abort
  | n + 1 => do
    Act.out question
    match ← Act.line? with
    | none => abort
    | some line => match answer? line with
      | some b => return b
      | none => do
        Act.out "Error: invalid input\n"
        askUpTo n

/-- Asks whether everything is to be reset. -/
def confirmed : Act Bool := do
  askUpTo ((← Act.session).stdin.length + 1)

def resetSettings (c : Console) (force : Bool) : Act Unit := do
  let agreed ← if force then pure true else confirmed
  if agreed then
    Settings.save {}
    c.success "Configuration reset to defaults."
  else c.info "Cancelled."

/-! ## The group -/

/-- The group with its arguments. -/
def run (c : Console) (force : Bool) (args : List String) : Act Unit := do
  let ((), name, args) ← group.readGroup () args
  match name with
  | "show" =>
    let (effective, operands) ← showForm.read false args
    match operands with
    | [] => showSettings c effective
    | _ => showForm.refuseOperands operands
  | "set" =>
    let ((), operands) ← setForm.read () args
    match operands with
    | [key, word] => setSetting c key word
    | _ => setForm.refuseOperands operands
  | "reset" =>
    let ((), operands) ← resetForm.read () args
    match operands with
    | [] => resetSettings c force
    | _ => resetForm.refuseOperands operands
  | name => group.refuseCommand () name args

end ApiProjection.Command.Config
