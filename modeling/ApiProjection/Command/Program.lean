import ApiProjection.Command.Config
import ApiProjection.Command.Warnings
/-!
# The program

The program is a group of commands with options of its own, which say how its output looks. `run` is
a whole run: a failure that a command does not report is reported here, and an unexpected error is put
down in a log. The result is the code with which the program ends, and the session after it.
-/
namespace ApiProjection.Command

structure ProgramOptions where
  json : Bool := false
  plain : Bool := false
  noColour : Bool := false
  quiet : Bool := false
  verbose : Bool := false
  force : Bool := false
  outputFile : Option String := none

namespace Program

def switches : List (Switch ProgramOptions) := [
  ⟨["--version"], .ask .version, "Show version and exit."⟩,
  ⟨["--json"], .mark fun o => { o with json := true }, "JSON output format."⟩,
  ⟨["--plain"], .mark fun o => { o with plain := true }, "Plain text output."⟩,
  ⟨["--no-color"], .mark fun o => { o with noColour := true }, "Disable color output."⟩,
  ⟨["--quiet", "-q"], .mark fun o => { o with quiet := true }, "Suppress non-essential output."⟩,
  ⟨["--verbose", "-v"], .mark fun o => { o with verbose := true }, "Enable debug output and logging."⟩,
  ⟨["--force", "-f"], .mark fun o => { o with force := true }, "Skip confirmations."⟩,
  ⟨["--output", "-o"], .take fun v o => { o with outputFile := some v },
    "Output file path for the projected document."⟩]

def group : Form ProgramOptions where
  name := "specshift"
  about := "Project a version-agnostic API description to OpenAPI 3.0 or 3.1: project, warnings and config."
  switches := switches

/-- The console that the options ask for. -/
def console (o : ProgramOptions) : Act Console :=
  let format := if o.json then OutputFormat.json else if o.plain then .plain else .auto
  Console.make format o.noColour o.quiet o.verbose o.outputFile

/-! ## Unexpected errors -/

/-- Writes an unexpected error to a log of its own; the result is the name of the log. -/
def writeLog (e : Crash) : Act String := do
  let folder ← Settings.madeFolder ((← Settings.dataFolder).child "logs")
  let path := (folder.child s!"crash-{(← Act.session).stamp}.log").text
  Act.alter fun d => d.write path (Utf8.encode (e.line ++ "\n"))
  return path

/-- Does something of which every failure is reported and every unexpected error logged. -/
def guarded (c : Console) (x : Act Unit) : Act Unit :=
  tryCatch x fun stop => match stop with
    | .failed f => c.report f
    | .crashed e => do
      c.error s!"Unexpected error. Debug log: {← writeLog e}"
      throw (.ended FailureKind.general.exitCode)
    | .ended code => throw (.ended code)

/-! ## Running -/

/-- A command of the program with its arguments. -/
def command (c : Console) (o : ProgramOptions) (name : String) (args : List String) : Act Unit :=
  match name with
  | "project" => Project.run c args
  | "warnings" => Warnings.run c args
  | "config" => Config.run c o.force args
  | name => group.refuseCommand {} name args

/-- The program with its arguments. -/
def execute (args : List String) : Act Unit := do
  let (options, name, args) ← group.readGroup {} args
  Act.change fun w => { w with logging := options.verbose }
  let c ← console options
  guarded c (command c options name args)

/-- The code of a run that ended in such a way. -/
def code : Except Stop Unit → Int
  | .ok () => 0
  | .error (.ended code) => code
  | .error (.failed f) => f.exitCode
  | .error (.crashed _) => FailureKind.general.exitCode

/-- A run of the program. -/
def run (args : List String) (w : Session) : Int × Session :=
  let (result, w) := (execute args).perform w
  (code result, w)

end Program
end ApiProjection.Command
