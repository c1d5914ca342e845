/-!
# Arguments of commands

A command takes operands and options. An option has a long name after two dashes or a short one, of
one letter after one dash, or both. It stands alone or takes a value: behind an equals sign, directly
behind its letter, or as the next argument whatever that looks like. Letters may share a dash. Two
dashes alone make operands of all that follows them.

`gather` sorts the arguments of a command into operands and what its options say. It refuses them at
the first that is no option of the command or lacks its value.
-/
namespace ApiProjection.Command

/-- What may be asked for in place of what a command does. -/
inductive Request
  | help
  | version
  deriving DecidableEq, Repr

/-- What an option does to what the options say. -/
inductive Effect (σ : Type)
  | mark (f : σ → σ)
  | take (f : String → σ → σ)
  | ask (r : Request)

structure Switch (σ : Type) where
  names : List String
  effect : Effect σ
  /-- What the option is for, in a line of the help. -/
  purpose : String

/-- What is wrong with the arguments of a command. -/
inductive Misuse
  | unknownOption (name : String)
  | missingValue (name : String)
  | needlessValue (name : String)
  | wrongValue (name value : String)
  | missingOperand (name : String)
  | extraOperand (operand : String)
  | missingCommand
  | unknownCommand (name : String)
  deriving DecidableEq, Repr

def Misuse.message : Misuse → String
  | .unknownOption name => s!"No such option: {name}"
  | .missingValue name => s!"Option '{name}' requires an argument."
  | .needlessValue name => s!"Option '{name}' does not take a value."
  | .wrongValue name value => s!"Invalid value for '{name}': '{value}'"
  | .missingOperand name => s!"Missing argument '{name}'."
  | .extraOperand operand => s!"Got unexpected extra argument ({operand})"
  | .missingCommand => "Missing command."
  | .unknownCommand name => s!"No such command '{name}'."

/-- What is known of the arguments so far. -/
structure Gathered (σ : Type) where
  options : σ
  operands : List String := []
  /-- What is asked for first. -/
  asked : Option Request := none

/-- An option that waits for its value, under the name that it was given. -/
structure Waiting (σ : Type) where
  name : String
  take : String → σ → σ

namespace Switch

def named? {σ : Type} (switches : List (Switch σ)) (name : String) : Option (Switch σ) :=
  switches.find? fun s => s.names.contains name

/-- Whether an argument is read as options, not as an operand. A dash alone is an operand. -/
def isOption (arg : String) : Bool := arg.startsWith "-" && arg ≠ "-"

/-- An argument with two dashes, apart at its first equals sign. -/
def splitValue (arg : String) : String × Option String :=
  let cs := arg.toList
  match cs.dropWhile (· != '=') with
  | _ :: value => (String.ofList (cs.takeWhile (· != '=')), some (String.ofList value))
  | [] => (arg, none)

/-- The effect of an option with a long name. -/
def readLong {σ : Type} (name : String) (value : Option String) (g : Gathered σ) :
    Effect σ → Except Misuse (Gathered σ × Option (Waiting σ))
  | .take f => match value with
    | some v => .ok ({ g with options := f v g.options }, none)
    | none => .ok (g, some ⟨name, f⟩)
  | .mark f =>
    if value.isSome then .error (.needlessValue name) else .ok ({ g with options := f g.options }, none)
  | .ask r =>
    if value.isSome then .error (.needlessValue name) else .ok ({ g with asked := g.asked.or r }, none)

/-- The effect of options that share a dash. -/
def readShort {σ : Type} (switches : List (Switch σ)) (g : Gathered σ) :
    List Char → Except Misuse (Gathered σ × Option (Waiting σ))
  | [] => .ok (g, none)
  | c :: cs =>
    let name := String.ofList ['-', c]
    match (named? switches name).map Switch.effect with
    | none => .error (.unknownOption name)
    | some (.mark f) => readShort switches { g with options := f g.options } cs
    | some (.ask r) => readShort switches { g with asked := g.asked.or r } cs
    | some (.take f) =>
      if cs.isEmpty then .ok (g, some ⟨name, f⟩)
      else .ok ({ g with options := f (String.ofList cs) g.options }, none)

/-- The effect of an argument that is read as options. -/
def read {σ : Type} (switches : List (Switch σ)) (g : Gathered σ) (arg : String) :
    Except Misuse (Gathered σ × Option (Waiting σ)) :=
  if arg.startsWith "--" then
    let (name, value) := splitValue arg
    match named? switches name with
    | some s => readLong name value g s.effect
    | none => .error (.unknownOption name)
  else readShort switches g (arg.toList.drop 1)

end Switch

/-- Sorts arguments, of which the first may be the value that an option waits for. Unless options and
operands may be mixed all arguments from the first operand on are operands. -/
def gather {σ : Type} (switches : List (Switch σ)) (mixed : Bool) :
    Option (Waiting σ) → Gathered σ → List String → Except Misuse (Gathered σ)
  | none, g, [] => .ok g
  | some w, _, [] => .error (.missingValue w.name)
  | some w, g, arg :: args => gather switches mixed none { g with options := w.take arg g.options } args
  | none, g, arg :: args =>
    if arg = "--" then .ok { g with operands := g.operands ++ args }
    else if Switch.isOption arg then
      match Switch.read switches g arg with
      | .error m => .error m
      | .ok (g, waiting) => gather switches mixed waiting g args
    else if mixed then gather switches mixed none { g with operands := g.operands ++ [arg] } args
    else .ok { g with operands := g.operands ++ arg :: args }

end ApiProjection.Command
