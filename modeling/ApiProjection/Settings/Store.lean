import ApiProjection.Host.Session
import ApiProjection.Json.Printer
import ApiProjection.Json.Reader
import ApiProjection.Settings.Basic
import ApiProjection.Settings.Overlay
import ApiProjection.Target
/-!
# Where settings are kept

The settings of the user are kept in a file in their settings folder; those of a project, if there
are any, in the current folder, and only the members that differ. `Settings.resolve` finds out what
holds for a run: what its arguments say, else the environment, else the project, else the user.
-/
namespace ApiProjection.Settings

/-- The name of the program, and of the folders that are its own. -/
def appName : String := "specshift"

/-- The variables of the environment that stand for settings. -/
def targetVariable : String := "SPECSHIFT_TARGET"

def strictVariable : String := "SPECSHIFT_STRICT"

/-! ## Folders -/

/-- The folder that a variable names, or else one in the home folder. -/
def standardBase (name : String) (otherwise : List String) : Act PathName := do
  match ← Act.env? name with
  | some path => if path = "" then inHome else return .ofText path
  | none => inHome
where
  inHome : Act PathName := return otherwise.foldl PathName.child (← Act.home)

/-- Makes a folder unless it is there. -/
def madeFolder (p : PathName) : Act PathName := do
  Act.alter fun d => d.makeFolders p
  return p

/-- The folder for settings, which is there afterwards. -/
def folder : Act PathName := do
  if (← Act.session).standardFolders then
    madeFolder ((← standardBase "XDG_CONFIG_HOME" [".config"]).child appName)
  else madeFolder ((← Act.home).child ("." ++ appName))

/-- The folder for data, which is there afterwards. -/
def dataFolder : Act PathName := do
  if (← Act.session).standardFolders then
    madeFolder ((← standardBase "XDG_DATA_HOME" [".local", "share"]).child appName)
  else madeFolder (((← Act.home).child ("." ++ appName)).child "logs")

/-- The file that the settings of the user are kept in. -/
def file : Act PathName := return (← folder).child "config.json"

/-! ## The settings of the user -/

/-- The settings that a text is, or what is wrong with it. -/
def ofText (text : String) : Except String Settings :=
  match Json.read text with
  | .error e => .error (e.message text)
  | .ok j => match read j.toValue with
    | .done s => .ok s
    | .failed issues => .error (Record.reportAll recordName issues)

def load : Act Settings := do
  let path := (← file).text
  if !(← Act.look fun d => d.isFile path) then return {}
  let invalid (message : String) : Act Settings :=
    Act.fail .configuration s!"Invalid global config at {path}: {message}"
  match ← Act.readText? path with
  | .error f => invalid f.message
  | .ok text => match ofText text with
    | .ok s => return s
    | .error message => invalid message

/-- The text that settings are kept as. -/
def fileText (s : Settings) : String := s.toJson.write .record ++ "\n"

def save (s : Settings) : Act Unit := do
  Act.replace (← file) s.fileText

/-! ## The settings of a project -/

/-- The members that the current folder sets, if it sets any. -/
def loadProject : Act (Option (List (String × Json))) := do
  let path := ((← Act.here).child "specshift.json").text
  if !(← Act.look fun d => d.isFile path) then return none
  let invalid (message : String) : Act (Option (List (String × Json))) :=
    Act.fail .configuration s!"Invalid project config at {path}: {message}"
  match ← Act.readText? path with
  | .error f => invalid f.message
  | .ok text => match Json.read text with
    | .error e => invalid (e.message text)
    | .ok (.object ms) => return some ms
    | .ok _ => invalid "expected a JSON object"

/-! ## What holds -/

def trueWords : List String := ["1", "true", "yes", "on"]

def falseWords : List String := ["0", "false", "no", "off", ""]

/-- The truth value that a word stands for. -/
def truth? (word : String) : Option Bool :=
  let word := Text.lowerAscii (Text.trimBlank word)
  if trueWords.contains word then some true
  else if falseWords.contains word then some false
  else none

/-- The truth value of a variable. -/
def truth (name word : String) : Except String Bool :=
  match truth? word with
  | some b => .ok b
  | none => .error (s!"Invalid boolean for {name}: " ++ Text.quoted word)

/-- What the arguments of a run set. -/
structure Overrides where
  target : Option String := none
  strict : Option Bool := none
  validate : Option Bool := none
  format : Option String := none
  document : Option String := none
  deriving Repr

/-- The settings with those of a project over them. -/
def withProject (s : Settings) (project : List (String × Json)) : Except String Settings :=
  match read (Json.layer (some s.toJson) (.object project)).toValue with
  | .done s => .ok s
  | .failed issues => .error ("Invalid project config: " ++ Record.reportAll recordName issues)

/-- The settings with those of the environment over them. -/
def withEnvironment (s : Settings) (target strict : Option String) : Except String Settings := do
  let s := match target with
    | some t => if t = "" then s else { s with target := t }
    | none => s
  match strict with
  | some word => return { s with strict := ← truth strictVariable word }
  | none => return s

/-- The settings with those of the arguments over them. -/
def withOverrides (s : Settings) (o : Overrides) : Settings :=
  { s with
    target := o.target.getD s.target
    strict := o.strict.getD s.strict
    validate := o.validate.getD s.validate
    output := { format := o.format.getD s.output.format, document := o.document.getD s.output.document } }

/-- The settings with the version in full. -/
def withVersion (s : Settings) : Except String Settings :=
  match Target.parse (.text s.target) with
  | .ok t => .ok { s with target := t.version }
  | .error e => .error e.message

/-- Goes on unless something is wrong with the settings. -/
def require {α : Type} (x : Except String α) : Act α :=
  match x with
  | .ok a => return a
  | .error message => Act.fail .configuration message

/-- A truth value in a line of the log. -/
def logged (b : Bool) : String := (Value.bool b).display

/-- The settings that hold for a run. -/
def resolve (o : Overrides) : Act Settings := do
  let user ← load
  let s ← match ← loadProject with
    | some project => require (user.withProject project)
    | none => pure user
  let s ← require (s.withEnvironment (← Act.env? targetVariable) (← Act.env? strictVariable))
  let s ← require (s.withOverrides o).withVersion
  Act.log "specshift.config"
    s!"resolved config: target={s.target} strict={logged s.strict} validate={logged s.validate}"
  return s

end ApiProjection.Settings
