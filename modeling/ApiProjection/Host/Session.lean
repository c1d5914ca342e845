import ApiProjection.Failure
import ApiProjection.Host.Draft
import ApiProjection.Text.Utf8
/-!
# A run of the program

A `Session` is all that a run of the program can see and change: the disk, the environment, the
standard streams and what the network answers. An `Act` is a piece of a run; what it has done stays
done when it stops early.
-/
namespace ApiProjection

/-- What comes back for an address. -/
inductive WebAnswer
  | response (status : Int) (contentType : Option String) (body : String)
  | failure (message : String)
  deriving Repr

structure Session where
  disk : Disk := {}
  env : List (String × String) := []
  /-- The home folder where the environment names none. -/
  home : String := "/root"
  /-- Whether settings and data are kept in the folders of the desktop standard. -/
  standardFolders : Bool := true
  /-- What is left of the standard input. -/
  stdin : String := ""
  stdout : String := ""
  stderr : String := ""
  /-- Whether the standard output is a terminal. -/
  terminal : Bool := false
  /-- Whether what happens is logged. -/
  logging : Bool := false
  /-- What tells a new file from others. -/
  tag : String := ""
  /-- The date and time for the name of a log. -/
  stamp : String := ""
  web : String → WebAnswer := fun _ => .failure "no network"

abbrev Act := ExceptT Stop (StateM Session)

namespace Act

def session : Act Session := get

def change (f : Session → Session) : Act Unit := modify f

/-- Ends early with a failure to be reported. -/
def fail {α : Type} (kind : FailureKind) (message : String) (warnings : Warnings := []) : Act α :=
  throw (.failed ⟨kind, message, warnings, none⟩)

def crash {α : Type} (c : Crash) : Act α := throw (.crashed c)

/-- Writes to the standard output. -/
def out (s : String) : Act Unit := change fun w => { w with stdout := w.stdout ++ s }

/-- Writes to the standard error output. -/
def err (s : String) : Act Unit := change fun w => { w with stderr := w.stderr ++ s }

/-- Says what happens in a part of the program, if that is logged. -/
def log (part message : String) : Act Unit :=
  change fun w => if w.logging then { w with stderr := w.stderr ++ s!"DEBUG {part}: {message}\n" } else w

/-- Says several things that happen, each with its part of the program. -/
def logAll : List (String × String) → Act Unit
  | [] => pure ()
  | (part, message) :: lines => do
    log part message
    logAll lines

def env? (name : String) : Act (Option String) := return (← session).env.lookup name

/-- Does something with the disk that changes nothing. -/
def look {α : Type} (f : Disk → Except FileError α) : Act α := do
  match f (← session).disk with
  | .ok a => return a
  | .error e => crash e.crash

/-- Does something that changes the disk. -/
def alter (f : Disk → Except FileError Disk) : Act Unit := do
  let d ← look f
  change fun w => { w with disk := d }

/-- A text with its line ends as line feeds. -/
def plainLines : List Char → List Char
  | '\r' :: '\n' :: cs => '\n' :: plainLines cs
  | '\r' :: cs => '\n' :: plainLines cs
  | c :: cs => c :: plainLines cs
  | [] => []

/-- The text that bytes of a file are, or what keeps them from being one. -/
def textOf (bytes : List UInt8) : Except Utf8.Fault String :=
  (Utf8.decode bytes).map fun s => String.ofList (plainLines s.toList)

/-- The text that a file holds, if it holds text. -/
def readText? (path : String) : Act (Except Utf8.Fault String) :=
  return textOf (← look fun d => d.read path)

/-- Goes on with a text unless bytes are none. -/
def decoded (x : Except Utf8.Fault String) : Act String :=
  match x with
  | .ok s => return s
  | .error f => crash ⟨"UnicodeDecodeError", f.message⟩

/-- The text that a file holds. -/
def readText (path : String) : Act String := do
  decoded (← readText? path)

/-- The next line of the standard input without its end, if there is one. -/
def line? : Act (Option String) := do
  let cs := (← session).stdin.toList
  if cs.isEmpty then return none
  change fun w => { w with stdin := String.ofList ((cs.dropWhile (· != '\n')).drop 1) }
  return some (String.ofList (cs.takeWhile (· != '\n')))

/-- The name of the current folder. -/
def here : Act PathName := return ⟨"/", (← session).disk.here⟩

/-- The name of the home folder. -/
def home : Act PathName := do
  let name := ((← env? "HOME").getD (← session).home)
  return .ofText (if name = "" then "/" else name)

/-- Writes a file as a whole. -/
def replace (path : PathName) (text : String) : Act Unit := do
  let w ← session
  let written := w.disk.replaceWith w.tag .none path (Utf8.encode text)
  change fun w => { w with disk := written.disk }
  match written.error with
  | some e => crash e.crash
  | none => return ()

/-- A run of an act: its result, and the session after it. -/
def perform {α : Type} (x : Act α) (w : Session) : Except Stop α × Session := x.run.run w

end Act
end ApiProjection
