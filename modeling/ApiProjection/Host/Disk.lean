import ApiProjection.Crash
import ApiProjection.Host.PathName
import ApiProjection.Text.Quoted
/-!
# Files and folders

A `Disk` is the files with what they hold and the folders, each at its place: the parts of its name
from the root. An operation that fails changes nothing and says why in terms of the name it was
given.
-/
namespace ApiProjection

/-- Where something is: the parts of its name from the root. -/
abbrev Place := List String

/-- Why an operation on a file fails. -/
inductive Obstacle
  | notFound
  | busy
  | exists
  | notAFolder
  | isAFolder
  | longName
  /-- A name with a null character, which no file can have. -/
  | nullCharacter
  /-- A fault of the device, which may befall any operation. -/
  | device
  deriving DecidableEq, Repr

namespace Obstacle

def number : Obstacle → Nat
  | .notFound => 2
  | .device => 5
  | .busy => 16
  | .exists => 17
  | .notAFolder => 20
  | .isAFolder => 21
  | .longName => 36
  | .nullCharacter => 22

def text : Obstacle → String
  | .notFound => "No such file or directory"
  | .device => "Input/output error"
  | .busy => "Device or resource busy"
  | .exists => "File exists"
  | .notAFolder => "Not a directory"
  | .isAFolder => "Is a directory"
  | .longName => "File name too long"
  | .nullCharacter => "embedded null byte"

def kind : Obstacle → String
  | .notFound => "FileNotFoundError"
  | .exists => "FileExistsError"
  | .notAFolder => "NotADirectoryError"
  | .isAFolder => "IsADirectoryError"
  | .nullCharacter => "ValueError"
  | .device | .busy | .longName => "OSError"

end Obstacle

/-- An obstacle with the name of the file, and of the second file if there are two. -/
structure FileError where
  obstacle : Obstacle
  path : String
  second : Option String := none
  deriving DecidableEq, Repr

namespace FileError

def message (e : FileError) : String :=
  if e.obstacle = .nullCharacter then e.obstacle.text
  else
    s!"[Errno {e.obstacle.number}] {e.obstacle.text}: " ++ Text.quoted e.path ++
      (match e.second with
        | some p => " -> " ++ Text.quoted p
        | none => "")

def crash (e : FileError) : Crash := ⟨e.obstacle.kind, e.message⟩

end FileError

structure Disk where
  files : List (Place × List UInt8) := []
  folders : List Place := []
  /-- Where names that do not begin at the root begin. -/
  here : Place := []
  deriving Repr

namespace Disk

/-! ## Looking up -/

def isFolderAt (d : Disk) (p : Place) : Bool := p.isEmpty || d.folders.contains p

def fileAt? (d : Disk) (p : Place) : Option (List UInt8) := d.files.lookup p

/-- The most bytes of a part of a name. -/
def longestPart : Nat := 255

/-- The most bytes of a name. -/
def longestName : Nat := 4095

/-- The place one step on. -/
def step (p : Place) (part : String) : Place :=
  if part = "." then p else if part = ".." then p.dropLast else p ++ [part]

/-- The place that parts lead to from a folder. All but the last must lead to folders. -/
def walk (d : Disk) : Place → List String → Except Obstacle Place
  | p, [] => .ok p
  | p, part :: parts =>
    let next := step p part
    if longestPart < part.utf8ByteSize then .error .longName
    else if parts.isEmpty || d.isFolderAt next then walk d next parts
    else .error (if (d.fileAt? next).isSome then .notAFolder else .notFound)

/-- The place that a name stands for, whether or not something is there. -/
def locate (d : Disk) (path : String) : Except Obstacle Place :=
  if path.toList.contains '\x00' then .error .nullCharacter
  else if longestName < path.utf8ByteSize then .error .longName
  else d.walk (if path.startsWith "/" then [] else d.here) (allParts path)

/-- What is at a place. -/
inductive Entry
  | file (content : List UInt8)
  | folder
  deriving DecidableEq, Repr

def entryAt? (d : Disk) (p : Place) : Option Entry :=
  if d.isFolderAt p then some .folder else (d.fileAt? p).map .file

/-- What a name stands for, if anything. -/
def find (d : Disk) (path : String) : Except FileError (Option Entry) :=
  match d.locate path with
  | .ok p => .ok (d.entryAt? p)
  | .error .longName => .error ⟨.longName, path, none⟩
  | .error _ => .ok none

def isFile (d : Disk) (path : String) : Except FileError Bool :=
  (d.find path).map fun e => match e with
    | some (.file _) => true
    | _ => false

def isFolder (d : Disk) (path : String) : Bool :=
  match d.find path with
  | .ok (some .folder) => true
  | _ => false

/-- What a file holds. -/
def read (d : Disk) (path : String) : Except FileError (List UInt8) :=
  match d.locate path with
  | .error o => .error ⟨o, path, none⟩
  | .ok p => match d.entryAt? p with
    | some (.file content) => .ok content
    | some .folder => .error ⟨.isAFolder, path, none⟩
    | none => .error ⟨.notFound, path, none⟩

/-! ## Changing -/

/-- Sets what the file at a place holds. -/
def setFile (d : Disk) (p : Place) (content : List UInt8) : Disk :=
  { d with files := (p, content) :: d.files.filter fun f => f.1 != p }

def removeFile (d : Disk) (p : Place) : Disk :=
  { d with files := d.files.filter fun f => f.1 != p }

/-- Makes one folder. -/
def makeFolder (d : Disk) (path : String) : Except FileError Disk :=
  match d.locate path with
  | .error o => .error ⟨o, path, none⟩
  | .ok p => match d.entryAt? p with
    | some _ => .error ⟨.exists, path, none⟩
    | none => .ok { d with folders := p :: d.folders }

/-- Makes a folder if it is not there, where its parent is. -/
def ensureFolder (d : Disk) (path : PathName) : Except FileError Disk :=
  match d.makeFolder path.text with
  | .ok d => .ok d
  | .error e =>
    if e.obstacle != .notFound && d.isFolder path.text then .ok d else .error e

/-- Makes a folder and those it is in, as far as they are not there. So many of those may be
missing. -/
def ensureFolders (d : Disk) (path : PathName) : Nat → Except FileError Disk
  | 0 => d.ensureFolder path
  | n + 1 =>
    match d.ensureFolder path with
    | .ok d => .ok d
    | .error e =>
      if e.obstacle == .notFound && path.parent != path then do
        let d ← ensureFolders d path.parent n
        d.ensureFolder path
      else .error e

/-- Makes a folder and those it is in, as far as they are not there. -/
def makeFolders (d : Disk) (path : PathName) : Except FileError Disk :=
  d.ensureFolders path path.parts.length

/-- Whether a name ends in a way that only the name of a folder does. -/
def namesFolder (path : String) : Bool :=
  let last := (Text.splitAt '/' path).getLast?.getD ""
  last = "" || last = "." || last = ".."

/-- Writes a file, over what was there. -/
def write (d : Disk) (path : String) (content : List UInt8) : Except FileError Disk :=
  if path = "" then .error ⟨.notFound, path, none⟩
  else match d.locate path with
    | .error o => .error ⟨o, path, none⟩
    | .ok p =>
      if namesFolder path || d.isFolderAt p then .error ⟨.isAFolder, path, none⟩
      else .ok (d.setFile p content)

end Disk
end ApiProjection
