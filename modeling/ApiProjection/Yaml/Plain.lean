import ApiProjection.Json.Reader
import ApiProjection.Text.Blank
/-!
# What plain text means

YAML text without quotes is a truth value, a number, a date or nothing at all if it has the form
of one, and a text otherwise. `Plain.ofText` is the kind of a plain text; a writer puts quotes
around a text of any other kind than a text.
-/
namespace ApiProjection.Yaml

/-- The kinds of plain text. -/
inductive Plain
  | null
  | bool
  | int
  | float
  | timestamp
  /-- The key under which other maps are merged in. -/
  | merge
  /-- The key of a default value. -/
  | default
  | text
  deriving DecidableEq, Repr

namespace Plain

def nullWords : List String := ["", "~", "null", "Null", "NULL"]

def trueWords : List String := ["yes", "Yes", "YES", "true", "True", "TRUE", "on", "On", "ON"]

def falseWords : List String := ["no", "No", "NO", "false", "False", "FALSE", "off", "Off", "OFF"]

/-! ## Digits -/

def isDigit : Char → Bool := Json.isDigit

def isDigitOrScore (c : Char) : Bool := isDigit c || c == '_'

/-- What follows an optional sign. -/
def afterSign : List Char → List Char
  | '-' :: cs => cs
  | '+' :: cs => cs
  | cs => cs

/-- A digit and then digits and underscores. -/
def isDigitRun : List Char → Bool
  | c :: cs => isDigit c && cs.all isDigitOrScore
  | [] => false

/-- A digit run that is a zero alone or does not begin with one. -/
def isWhole : List Char → Bool
  | ['0'] => true
  | '0' :: _ => false
  | cs => isDigitRun cs

/-- One or more characters of a class. -/
def isNonemptyOf (p : Char → Bool) (cs : List Char) : Bool := !cs.isEmpty && cs.all p

/-- A part after a colon: up to 59, in one or two digits. -/
def isSixtieth : List Char → Bool
  | [d] => isDigit d
  | [t, d] => '0' ≤ t && t ≤ '5' && isDigit d
  | _ => false

def isOctalOrScore (c : Char) : Bool := ('0' ≤ c && c ≤ '7') || c == '_'

def isHexOrScore (c : Char) : Bool := (Json.hexValue? c).isSome || c == '_'

/-! ## Integers -/

/-- Parts between colons of which the first is a run of digits. -/
def isSexagesimal (first : List Char → Bool) (cs : List Char) : Bool :=
  match Text.splitWhere (· == ':') cs with
  | f :: parts@(_ :: _) => first f && parts.all isSixtieth
  | _ => false

def isPositiveRun : List Char → Bool
  | '0' :: _ => false
  | cs => isDigitRun cs

/-- Binary, octal, decimal, hexadecimal or in parts of sixty. -/
def isInt (cs : List Char) : Bool :=
  let body := afterSign cs
  match body with
  | '0' :: 'b' :: ds => isNonemptyOf (fun c => c == '0' || c == '1' || c == '_') ds
  | '0' :: 'x' :: ds => isNonemptyOf isHexOrScore ds
  | '0' :: ds@(_ :: _) => ds.all isOctalOrScore
  | body => isWhole body || isSexagesimal isPositiveRun body

/-! ## Floats -/

/-- An exponent with its sign, or nothing. -/
def isExponent : List Char → Bool
  | [] => true
  | e :: s :: ds => (e == 'e' || e == 'E') && (s == '-' || s == '+') && isNonemptyOf isDigit ds
  | _ => false

/-- The text before and after the first point, if there is one. -/
def splitPoint? (cs : List Char) : Option (List Char × List Char) :=
  match cs.dropWhile (· != '.') with
  | _ :: after => some (cs.takeWhile (· != '.'), after)
  | [] => none

/-- Digits around a point and an exponent, parts of sixty, or a word for infinity or no number. -/
def isFloat (cs : List Char) : Bool :=
  let body := afterSign cs
  let word := String.ofList body
  if [".inf", ".Inf", ".INF"].contains word then true
  else if [".nan", ".NaN", ".NAN"].contains (String.ofList cs) then true
  else match splitPoint? body with
    | none => false
    | some ([], after) =>
      body.length == cs.length && isDigitRun (after.takeWhile isDigitOrScore) &&
        isExponent (after.dropWhile isDigitOrScore)
    | some (before, after) =>
      (isDigitRun before && isExponent (after.dropWhile isDigitOrScore)) ||
        (isSexagesimal isDigitRun before && after.all isDigitOrScore)

/-! ## Timestamps -/

/-- The parts of a date, and of a time of day if there is one. -/
structure Stamp where
  year : List Char
  month : List Char
  day : List Char
  /-- Hour, minute, second, the digits of a fraction, and what stands for the offset. -/
  time : Option (List Char × List Char × List Char × List Char × List Char) := none

/-- Between `lo` and `hi` digits in front. -/
def takeRun (lo hi : Nat) (cs : List Char) : Option (List Char × List Char) :=
  let ds := (cs.takeWhile isDigit).take hi
  if ds.length < lo then none else some (ds, cs.drop ds.length)

/-- What follows a given character. -/
def after? (c : Char) : List Char → Option (List Char)
  | d :: cs => if d == c then some cs else none
  | [] => none

def isBlankOrTab (c : Char) : Bool := c == ' ' || c == '\t'

/-- An offset: nothing, `Z`, or a sign with hours and maybe minutes. -/
def isOffset : List Char → Bool
  | [] => true
  | ['Z'] => true
  | s :: cs => (s == '-' || s == '+') &&
    match takeRun 1 2 cs with
    | some (_, []) => true
    | some (_, ':' :: ds) => ds.length == 2 && ds.all isDigit
    | _ => false

/-- The parts of a timestamp. -/
def stamp? (cs : List Char) : Option Stamp := do
  let (year, cs) ← takeRun 4 4 cs
  let cs ← after? '-' cs
  let (month, cs) ← takeRun 1 2 cs
  let cs ← after? '-' cs
  let (day, cs) ← takeRun 1 2 cs
  match cs with
  | [] => some { year, month, day }
  | c :: rest =>
    let cs ← if c == 'T' || c == 't' then some rest
      else if isBlankOrTab c then some (rest.dropWhile isBlankOrTab) else none
    let (hour, cs) ← takeRun 1 2 cs
    let cs ← after? ':' cs
    let (minute, cs) ← takeRun 2 2 cs
    let cs ← after? ':' cs
    let (second, cs) ← takeRun 2 2 cs
    let (fraction, cs) := match cs with
      | '.' :: cs => (cs.takeWhile isDigit, cs.dropWhile isDigit)
      | cs => ([], cs)
    let offset := cs.dropWhile isBlankOrTab
    if isOffset offset && (!offset.isEmpty || cs.isEmpty) then
      some { year, month, day, time := some (hour, minute, second, fraction, offset) }
    else none

/-- Whether a timestamp shows as one. A date alone must have two digits for month and day. -/
def Stamp.isEvident (s : Stamp) : Bool := s.time.isSome || (s.month.length == 2 && s.day.length == 2)

/-! ## All kinds -/

def ofChars (cs : List Char) : Plain :=
  let word := String.ofList cs
  if trueWords.contains word || falseWords.contains word then .bool
  else if isFloat cs then .float
  else if isInt cs then .int
  else if word = "<<" then .merge
  else if nullWords.contains word then .null
  else if (stamp? cs).any Stamp.isEvident then .timestamp
  else if word = "=" then .default
  else .text

/-- The kind of a plain text. -/
def ofText (s : String) : Plain := ofChars s.toList

end Plain
end ApiProjection.Yaml
