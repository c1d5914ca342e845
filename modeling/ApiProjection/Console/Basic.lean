import ApiProjection.Console.Flat
import ApiProjection.Console.Markup
import ApiProjection.Host.Session
import ApiProjection.Json.Printer
/-!
# The console

Data go to the standard output, all else to the standard error output. A `Console` says in which
format, and how much is said about what happens.
-/
namespace ApiProjection

/-- The formats of output. -/
inductive OutputFormat
  | auto
  | json
  | plain
  | rich
  deriving DecidableEq, Repr

namespace OutputFormat

def name : OutputFormat → String
  | .auto => "auto"
  | .json => "json"
  | .plain => "plain"
  | .rich => "rich"

def all : List OutputFormat := [.auto, .json, .plain, .rich]

def ofName? (s : String) : Option OutputFormat := all.find? fun f => f.name = s

end OutputFormat

structure Console where
  format : OutputFormat := .plain
  /-- Whether messages are shown as they are, without styles. -/
  plainMessages : Bool := true
  quiet : Bool := false
  verbose : Bool := false
  /-- Where documents are written, if not to the standard output. -/
  outputFile : Option String := none
  deriving Repr

namespace Console

/-- Whether the environment asks for no colours. -/
def refusesColour : Act Bool := do
  let noColour := (← Act.env? "NO_COLOR").isSome
  let term ← Act.env? "TERM"
  return noColour || term == some "dumb"

/-- A console; by itself it is rich on a terminal with colours and plain elsewhere. -/
def make (format : OutputFormat) (noColour quiet verbose : Bool) (outputFile : Option String) : Act Console := do
  let refused ← refusesColour
  let plainMessages := noColour || refused
  let terminal := (← Act.session).terminal
  let chosen := match format with
    | .auto => if terminal && !plainMessages then OutputFormat.rich else .plain
    | f => f
  return { format := chosen, plainMessages, quiet, verbose, outputFile }

/-! ## Messages -/

/-- Says something of which the first form is marked up and the second is not. -/
def say (c : Console) (marked plain : String) : Act Unit :=
  if c.plainMessages then Act.err (plain ++ "\n")
  else match Markup.plain marked with
    | .ok text => Act.err (text ++ "\n")
    | .error message => Act.crash ⟨"rich.errors.MarkupError", message⟩

def info (c : Console) (message : String) : Act Unit :=
  if c.quiet then pure () else c.say message message

def success (c : Console) (message : String) : Act Unit :=
  if c.quiet then pure () else c.say s!"[green]{message}[/green]" message

def warning (c : Console) (message : String) : Act Unit :=
  c.say s!"[yellow]Warning:[/yellow] {message}" s!"Warning: {message}"

def error (c : Console) (message : String) : Act Unit :=
  c.say s!"[bold red]Error:[/bold red] {message}" s!"Error: {message}"

def suggest (c : Console) (message : String) : Act Unit :=
  if c.quiet then pure () else c.say s!"[dim]→ {message}[/dim]" s!"→ {message}"

def debug (c : Console) (message : String) : Act Unit :=
  if c.verbose then c.say s!"[dim][debug] {message}[/dim]" s!"[debug] {message}" else pure ()

/-! ## Data -/

/-- Writes a text and the end of its line. -/
def data (_ : Console) (text : String) : Act Unit := Act.out (text ++ "\n")

/-- Writes lines, each with its end. -/
def lines (c : Console) : List String → Act Unit
  | [] => pure ()
  | l :: ls => do
    c.data l
    lines c ls

/-- Writes a value: as JSON, or as a flat list with a line for each leaf. -/
def value (c : Console) (j : Json) : Act Unit :=
  match c.format with
  | .plain => c.lines (j.flat.map fun (k, v) => k ++ "\t" ++ v.shown)
  | _ => c.data (j.write .document)

/-- A row of a table as an object. -/
def record (headers row : List String) : Json :=
  .object (collapse (· == ·) ((headers.zip row).map fun (h, cell) => (h, .text cell)))

/-- Writes a table: as a list of objects, or with a line for each row. -/
def table (c : Console) (headers : List String) (rows : List (List String)) : Act Unit :=
  match c.format with
  | .json => c.data ((Json.list (rows.map (record headers))).write .document)
  | _ => c.lines ((headers :: rows).map fun row => "\t".intercalate row)

/-- A text without the line ends at its end. -/
def withoutLastBreaks (s : String) : String :=
  String.ofList (s.toList.reverse.dropWhile (· == '\n')).reverse

/-- Writes a document: to the file with the given name, to that of the console or else to the
standard output, where it ends with one line end. -/
def document (c : Console) (text : String) (path : Option String) : Act Unit := do
  let named (p : Option String) : Option String := p.filter (· ≠ "")
  match (named path).or (named c.outputFile) with
  | some path =>
    Act.alter fun d => d.write path (Utf8.encode text)
    c.info s!"Wrote {path}"
  | none => c.data (withoutLastBreaks text)

/-- A warning as JSON. -/
def warningRecord (w : Warning) : Json :=
  .object [("code", .text w.code.text), ("category", .text w.category.name), ("path", .text w.path),
    ("message", .text w.message)]

def warningLines (c : Console) : List Warning → Act Unit
  | [] => pure ()
  | w :: ws => do
    c.warning s!"{w.code.text} at {w.path}: {w.message}"
    warningLines c ws

/-- Says all warnings, if there are any: as one JSON value, or with a line for each. -/
def warnings (c : Console) (ws : Warnings) : Act Unit :=
  if ws.isEmpty then pure ()
  else match c.format with
    | .json =>
      Act.err ((Json.object [("warnings", .list (ws.map warningRecord))]).write .record ++ "\n")
    | _ => c.warningLines ws

/-! ## Failures -/

/-- Reports a failure after its warnings and ends the run. -/
def report {α : Type} (c : Console) (f : Failure) : Act α := do
  c.warnings f.warnings
  c.error f.message
  throw (.ended f.exitCode)

/-- Does something of which a failure is reported. -/
def reporting {α : Type} (c : Console) (x : Act α) : Act α :=
  tryCatch x fun stop => match stop with
    | .failed f => c.report f
    | stop => throw stop

end Console
end ApiProjection
