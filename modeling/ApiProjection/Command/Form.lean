import ApiProjection.Command.Arguments
import ApiProjection.Host.Session
/-!
# Forms of commands

A `Form` says how a command is called: its name, its operands and its options. From it come the help
on the command and the refusal of arguments that do not fit. The form of a group of commands has no
operands of its own; its first operand is the name of a command of the group.
-/
namespace ApiProjection.Command

/-- The code with which a misuse of a command ends the program. -/
def misuseCode : Int := 2

/-- What the program says when it is asked for its version. -/
def versionLine : String := "specshift 0.1.0"

structure Form (σ : Type) where
  name : String
  about : String
  operands : List String := []
  switches : List (Switch σ) := []

namespace Form

variable {σ : Type}

/-- The option that every command has. -/
def helpSwitch : Switch σ := ⟨["--help"], .ask .help, "Show this message and exit."⟩

def allSwitches (f : Form σ) : List (Switch σ) := f.switches ++ [helpSwitch]

def usage (f : Form σ) : String := "Usage: " ++ " ".intercalate (f.name :: "[OPTIONS]" :: f.operands)

/-- The help on a command. -/
def help (f : Form σ) : String :=
  let lines := f.allSwitches.map fun s => "  " ++ ", ".intercalate s.names ++ "  " ++ s.purpose
  "\n".intercalate (f.usage :: "" :: f.about :: "" :: "Options:" :: lines) ++ "\n"

/-- Ends the run with what is wrong with the arguments. -/
def refuse {α : Type} (f : Form σ) (m : Misuse) : Act α := do
  Act.err (f.usage ++ "\n\nError: " ++ m.message ++ "\n")
  throw (.ended misuseCode)

/-- Refuses operands that are too few or too many. -/
def refuseOperands {α : Type} (f : Form σ) (operands : List String) : Act α :=
  match f.operands.drop operands.length, operands.drop f.operands.length with
  | _, extra :: _ => f.refuse (.extraOperand extra)
  | missing :: _, [] => f.refuse (.missingOperand missing)
  | [], [] => f.refuse .missingCommand

/-- Ends the run with what is asked for. -/
def answer {α : Type} (f : Form σ) (r : Request) : Act α := do
  match r with
  | .help => Act.out f.help
  | .version => Act.out (versionLine ++ "\n")
  throw (.ended 0)

/-- What the options of a call say, and its operands. -/
def gathered (f : Form σ) (mixed : Bool) (options : σ) (args : List String) : Act (σ × List String) := do
  match gather f.allSwitches mixed none ⟨options, [], none⟩ args with
  | .error m => f.refuse m
  | .ok g => match g.asked with
    | some r => f.answer r
    | none => return (g.options, g.operands)

/-- What the options of a call of a command say, and its operands. -/
def read (f : Form σ) (options : σ) (args : List String) : Act (σ × List String) :=
  f.gathered true options args

/-- What the options of a call of a group say, and the call of one of its commands: the name and the
arguments. A call without arguments gets the help. -/
def readGroup (f : Form σ) (options : σ) (args : List String) : Act (σ × String × List String) := do
  if args.isEmpty then
    Act.out f.help
    throw (.ended misuseCode)
  let (options, operands) ← f.gathered false options args
  match operands with
  | [] => f.refuse .missingCommand
  | name :: args => return (options, name, args)

/-- Refuses a call of a command that the group does not have. What looks like an option in place of
its name may still ask for something. -/
def refuseCommand {α : Type} (f : Form σ) (options : σ) (name : String) (args : List String) : Act α := do
  discard <| f.gathered false options (name :: args)
  f.refuse (.unknownCommand name)

end Form
end ApiProjection.Command
