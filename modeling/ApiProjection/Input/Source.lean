import ApiProjection.Api.Reader.Document
import ApiProjection.Host.Session
import ApiProjection.Input.Content
/-!
# Where descriptions come from

A description comes from the standard input, from an address on the web or from a file. What its
name or its type says about the format is taken for granted; else both formats are tried.
-/
namespace ApiProjection.Source

/-- Goes on with what a text is read as, or reports why it cannot be read. -/
def accept {α : Type} (x : Except ContentError α) : Act α :=
  match x with
  | .ok a => return a
  | .error (.crash c) => Act.crash c
  | .error e => Act.fail .input e.message

def isBlankText (s : String) : Bool := s.toList.all Text.isBlank

/-- The whole standard input. -/
def readStdin : Act (List (Scalar × Value)) := do
  let text := (← Act.session).stdin
  Act.change fun w => { w with stdin := "" }
  if isBlankText text then Act.fail .input "No input received from stdin"
  accept (Content.read .none text)

/-- What the type of a web document says about its format. -/
def typeHint (contentType : String) : Hint :=
  let mentions (word : String) : Bool := (contentType.splitOn word).length ≠ 1
  if mentions "json" then .json
  else if mentions "yaml" || mentions "yml" then .yaml
  else .none

def readAddress (address : String) : Act (List (Scalar × Value)) := do
  match (← Act.session).web address with
  | .failure message => Act.fail .input s!"Failed to fetch IR from {address}: {message}"
  | .response status contentType body =>
    if status < 200 || 299 < status then Act.fail .input s!"HTTP {status} fetching IR from {address}"
    accept (Content.read (typeHint (contentType.getD "")) body)

/-- What the name of a file says about its format. -/
def nameHint (path : PathName) : Hint :=
  match Text.lowerAscii path.suffix with
  | ".json" => .json
  | ".yaml" | ".yml" => .yaml
  | _ => .none

def readFile (name : String) : Act (List (Scalar × Value)) := do
  let path := PathName.ofText name
  if !(← Act.look fun d => d.isFile path.text) then Act.fail .input s!"IR file not found: {name}"
  let text ← Act.readText path.text
  if isBlankText text then Act.fail .input s!"IR file is empty: {name}"
  accept (Content.read (nameHint path) text)

/-- The entries of the object that a source holds. -/
def read (source : String) : Act (List (Scalar × Value)) :=
  if source = "-" then readStdin
  else if source.startsWith "http://" || source.startsWith "https://" then readAddress source
  else readFile source

/-- The description that a source holds. -/
def load (source : String) : Act Api := do
  let entries ← read source
  match Api.parse source (.map entries) with
  | .error r => Act.fail .input r.message
  | .ok a =>
    Act.log "specshift.loader" s!"loaded IR from {source}: {a.paths.length} path(s)"
    return a

end ApiProjection.Source
