import ApiProjection.Host.Disk
/-!
# Replacing a file as a whole

`Disk.replaceWith` puts a whole new file into the place of another by way of a third, the draft. The
folders on the way are made, the draft is made beside the file under a name that is its own, and when
it holds the text it takes the place of the file. Whatever step fails, the draft is to be cleared
away: it is closed, if it is still to be closed, and removed. A draft that cannot be closed is not
removed; that one cannot be removed goes unnoticed.
-/
namespace ApiProjection.Disk

/-! ## Faults -/

/-- The steps of putting a new file into the place of another, in their order. -/
inductive WriteStep
  | create
  | fill
  | flush
  | sync
  | close
  | rename
  deriving DecidableEq, Repr

def WriteStep.all : List WriteStep := [.create, .fill, .flush, .sync, .close, .rename]

/-- The faults of a device. -/
structure Trouble where
  /-- What is in the way of a new folder of a name. -/
  folder : PathName → Option Obstacle := fun _ => none
  step : WriteStep → Option Obstacle := fun _ => none
  /-- What is in the way of closing the draft after a failure: that writes what is not written yet. -/
  giveUp : Option Obstacle := none
  remove : Option Obstacle := none
  /-- How many bytes of the text have got into the draft if not all have. -/
  reached : Nat := 0

/-- A device without faults. -/
def Trouble.none : Trouble := {}

/-! ## Folders -/

/-- Makes a folder if it is not there, where its parent is. -/
def putFolder (d : Disk) (fault : PathName → Option Obstacle) (path : PathName) : Disk × Option FileError :=
  match d.makeFolder path.text with
  | .ok e => match fault path with
    | some o => (d, some ⟨o, path.text, none⟩)
    | none => (e, none)
  | .error e =>
    if e.obstacle != .notFound && d.isFolder path.text then (d, none) else (d, some e)

/-- Makes a folder and those it is in, as far as they are not there. So many of those may be
missing. Those that have been made stay when another cannot be made. -/
def putFoldersUpTo (d : Disk) (fault : PathName → Option Obstacle) (path : PathName) : Nat → Disk × Option FileError
  | 0 => d.putFolder fault path
  | n + 1 =>
    match d.putFolder fault path with
    | (d, none) => (d, none)
    | (d, some e) =>
      if e.obstacle == .notFound && path.parent != path then
        match putFoldersUpTo d fault path.parent n with
        | (d, none) => d.putFolder fault path
        | (d, some e) => (d, some e)
      else (d, some e)

def putFolders (d : Disk) (fault : PathName → Option Obstacle) (path : PathName) : Disk × Option FileError :=
  d.putFoldersUpTo fault path path.parts.length

/-! ## Drafts -/

/-- The name of the draft beside a file, given what makes it one of its own. -/
def temporaryName (path : PathName) (tag : String) : String := s!".{path.name}.{tag}.tmp"

/-- The text of a place. -/
def placeText (p : Place) : String := "/" ++ "/".intercalate p

/-- The place of the draft. -/
def draftPlace (d : Disk) (tag : String) (path : PathName) : Except FileError Place :=
  match d.locate path.parent.text with
  | .error o => .error ⟨o, path.parent.text, none⟩
  | .ok folder =>
    let source := folder ++ [temporaryName path tag]
    match d.locate (placeText source) with
    | .error o => .error ⟨o, placeText source, none⟩
    | .ok _ => .ok source

/-- Moves a file over another. -/
def rename (d : Disk) (source : Place) (content : List UInt8) (path : PathName) : Except FileError Disk :=
  let second := some path.text
  match d.locate path.text with
  | .error o => .error ⟨o, placeText source, second⟩
  | .ok p =>
    if path.parts.isEmpty || path.name = ".." then .error ⟨.busy, placeText source, second⟩
    else if d.isFolderAt p then .error ⟨.isAFolder, placeText source, second⟩
    else .ok ((d.removeFile source).setFile p content)

/-- Whether a draft is still to be closed. -/
inductive Handle
  | none
  | opened
  /-- It could not be closed. To close it once more does nothing. -/
  | spent
  deriving DecidableEq, Repr

/-- A disk with a draft, which has a place once it has been made. -/
structure Draft where
  disk : Disk
  source : Option Place := none
  handle : Handle := .none

namespace Draft

section
variable (t : Trouble) (tag : String) (path : PathName) (content : List UInt8) (x : Draft)

def fault (o : Obstacle) : FileError := ⟨o, placeText (x.source.getD []), none⟩

/-- Sets what the draft holds. -/
def put (bytes : List UInt8) : Draft := { x with disk := (x.source.elim x.disk fun p => x.disk.setFile p bytes) }

def create : Draft × Option FileError :=
  match x.disk.draftPlace tag path with
  | .error e => (x, some e)
  | .ok source => match t.step .create with
    | some o => (x, some ⟨o, placeText source, none⟩)
    | none => (⟨x.disk.setFile source [], some source, .opened⟩, none)

/-- Moves the draft to where it belongs. -/
def move : Draft × Option FileError :=
  match t.step .rename with
  | some o => (x, some { x.fault o with second := some path.text })
  | none => match x.disk.rename (x.source.getD []) content path with
    | .error e => (x, some e)
    | .ok d => ({ x with disk := d }, none)

/-- One step, and why it fails if it does. The text may wait until the draft is flushed. -/
def step : WriteStep → Draft × Option FileError
  | .create => x.create t tag path
  | .fill => (x.put (content.take t.reached), (t.step .fill).map x.fault)
  | .flush => match t.step .flush with
    | some o => (x.put (content.take t.reached), some (x.fault o))
    | none => (x.put content, none)
  | .sync => (x, (t.step .sync).map x.fault)
  | .close => match t.step .close with
    | some o => ({ x with handle := .spent }, some (x.fault o))
    | none => ({ x with handle := .none }, none)
  | .rename => x.move t path content

/-- Steps up to the first that fails, and that one with the reason. -/
def run (x : Draft) : List WriteStep → Draft × Option (WriteStep × FileError)
  | [] => (x, none)
  | s :: steps => match x.step t tag path content s with
    | (y, none) => run y steps
    | (y, some e) => (y, some (s, e))

end

/-- The disk without the draft, if it can be removed. -/
def removed (t : Trouble) (x : Draft) : Disk :=
  match x.source, t.remove with
  | some source, none => x.disk.removeFile source
  | _, _ => x.disk

end Draft

/-! ## Replacing -/

/-- How a file ends up that was to be written, and the disk with it. -/
structure Written where
  disk : Disk
  error : Option FileError := none

/-- Clears a draft away after a failure. -/
def Draft.clear (t : Trouble) (content : List UInt8) (x : Draft) (failure : FileError) : Written :=
  match x.handle, t.giveUp with
  | .opened, some o => ⟨(x.put (content.take t.reached)).disk, some (x.fault o)⟩
  | _, _ => ⟨x.removed t, some failure⟩

/-- Writes a file as a whole: into a new file in the same folder, which then takes its place. -/
def replaceWith (d : Disk) (tag : String) (t : Trouble) (path : PathName) (content : List UInt8) : Written :=
  match d.putFolders t.folder path.parent with
  | (d, some failure) => ⟨d, some failure⟩
  | (d, none) => match Draft.run t tag path content ⟨d, none, .none⟩ WriteStep.all with
    | (x, none) => ⟨x.disk, none⟩
    | (x, some (_, failure)) => x.clear t content failure

end ApiProjection.Disk
