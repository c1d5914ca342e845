import ApiProjection.Command.Program
/-!
# The executable

A run works on a copy of what the disk holds at the places it may look at: those that its arguments
or the settings name, and where settings and data are kept. What it has changed there is written back.
-/
namespace ApiProjection.Executable

open Command

/-- The variables of the environment that a run looks at. -/
def variableNames : List String :=
  ["HOME", "XDG_CONFIG_HOME", "XDG_DATA_HOME", "NO_COLOR", "TERM", Settings.targetVariable,
    Settings.strictVariable]

/-- What may be the name of a file in an argument: the whole of it, or the value of an option. -/
def fileNames (arg : String) : List String :=
  let cs := arg.toList
  [arg, String.ofList (cs.drop 2), String.ofList ((cs.dropWhile (· != '=')).drop 1)]

/-- The place of a file with a name. -/
def placeOf (here : Place) (name : String) : Place :=
  (pathParts name).foldl Disk.step (if name.startsWith "/" then [] else here)

/-- The texts in a file of settings, among which are the names of meta-schemas. -/
def textsIn (bytes : List UInt8) : List String :=
  match Utf8.decode bytes with
  | .error _ => []
  | .ok s => match Json.read s with
    | .ok j => j.flat.filterMap fun (_, leaf) => match leaf with
      | .text t => some t
      | _ => none
    | .error _ => []

/-- The name of what an act finds, if it does. -/
def nameOf (w : Session) (x : Act PathName) : List String :=
  match (x.perform w).1 with
  | .ok path => [path.text]
  | .error _ => []

/-- Copies what is at the place of a file, and the folders that it is in. -/
def copyIn (d : Disk) (name : String) : IO Disk := do
  let root ← IO.FS.realPath "/"
  let place := placeOf d.here name
  let mut d := d
  for n in [0:place.length + 1] do
    let above := place.take n
    if ← (root / Disk.placeText above).isDir then
      unless d.isFolderAt above do d := { d with folders := above :: d.folders }
  if (d.entryAt? place).isNone && (← (root / Disk.placeText place).pathExists) then
    d := d.setFile place (← IO.FS.readBinFile (Disk.placeText place)).toList
  return d

/-- Writes back what a run has changed. -/
def copyOut (before after : Disk) : IO Unit := do
  for folder in after.folders.reverse do
    unless before.folders.contains folder do IO.FS.createDirAll (Disk.placeText folder)
  for (place, content) in after.files do
    unless before.fileAt? place == some content do
      let name := Disk.placeText place
      let fresh := name ++ ".tmp"
      IO.FS.writeBinFile fresh (ByteArray.mk content.toArray)
      IO.FS.rename fresh name

/-- Whether a run with such arguments may read the standard input. -/
def readsInput (args : List String) : Bool := args.contains "-" || args.contains "reset"

/-- A run with arguments; the result is its code. -/
def run (args : List String) : IO UInt32 := do
  let env ← variableNames.filterMapM fun name => return (← IO.getEnv name).map fun value => (name, value)
  let here := pathParts (← IO.currentDir).toString
  let empty : Session := {
    disk := { here, folders := (List.range here.length).map fun n => here.take (n + 1) }
    env
    tag := toString (← IO.rand 0 99999999)
    stamp := toString (← IO.monoMsNow)
    terminal := ← (← IO.getStdout).isTty }
  let kept := "specshift.json" :: nameOf empty Settings.file
  let mut disk := empty.disk
  for name in args.flatMap fileNames ++ kept ++ nameOf empty Settings.dataFolder do
    disk ← copyIn disk name
  for name in kept do
    for named in ((disk.read name).toOption.map textsIn).getD [] do
      disk ← copyIn disk named
  let stdin ← if readsInput args then (← IO.getStdin).readToEnd else pure ""
  let (code, after) := Program.run args { empty with disk, stdin }
  copyOut disk after.disk
  (← IO.getStdout).putStr after.stdout
  (← IO.getStderr).putStr after.stderr
  return (code % 256).toNat.toUInt32

end ApiProjection.Executable

def main (args : List String) : IO UInt32 := ApiProjection.Executable.run args
