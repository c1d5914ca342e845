import ApiProjection.Record.Reader
import ApiProjection.Json.Reader
import ApiProjection.Text.Blank
import ApiProjection.Text.Utf8
import ApiProjection.Api.Schema
/-!
# Scalar fields

What is taken for a text, a truth value, an integer or a number. A text may come as its bytes; a
truth value as one of the usual words or as 0 or 1; an integer as a float without a fraction or
as its digits.
-/
namespace ApiProjection.Record

/-- The text of a text or of bytes, if it is one of the two. -/
def textOrBytes? : Value → Option (Except Utf8.Fault String)
  | .text s => some (.ok s)
  | .scalar (.bytes bs) => some (Utf8.decode bs)
  | _ => none

def readText (v : Value) : Read String :=
  match textOrBytes? v with
  | some (.ok s) => .done s
  | some (.error _) => .fail .encoding v
  | none => .fail .text v

/-- The words for the truth values, in lower case. -/
def truthWord? (word : String) : Option Bool :=
  if ["0", "f", "n", "no", "off", "false"].contains word then some false
  else if ["1", "t", "y", "on", "yes", "true"].contains word then some true
  else none

/-- A truth value written as zero or one. -/
def truthNumber (v : Value) (n : Int) : Read Bool :=
  if n = 0 then .done false else if n = 1 then .done true else .fail .truthWord v

def readBool (v : Value) : Read Bool :=
  match v with
  | .scalar (.bool b) => .done b
  | .scalar (.int n) => truthNumber v n
  | .scalar (.float x) => match x.toInt? with
    | some n => truthNumber v n
    | none => .fail .truth v
  | v => match textOrBytes? v with
    | some (.ok s) => match truthWord? (Text.lowerAscii s) with
      | some b => .done b
      | none => .fail .truthWord v
    | some (.error _) => .fail .truthWord v
    | none => .fail .truth v

/-! ## Digits in a text -/

/-- A sign in front, if there is one. -/
def takeSign : List Char → Bool × List Char
  | '-' :: cs => (true, cs)
  | '+' :: cs => (false, cs)
  | cs => (false, cs)

/-- A text without single underscores inside it, if it has some and no others. -/
def withoutUnderscores? (cs : List Char) : Option (List Char) :=
  let parts := Text.splitWhere (· == '_') cs
  if 1 < parts.length && parts.all (!·.isEmpty) then some parts.flatten else none

/-- What follows the zeros in front of a text that begins with a digit or a minus sign; one zero is kept
if no other digit follows. Underscores among the zeros go with them. -/
def dropLeadingZeros? (cs : List Char) : Option (List Char) :=
  match cs with
  | '0' :: _ => match cs.dropWhile fun c => c == '0' || c == '_' with
    | [] => some (cs.drop (cs.length - 1))
    | '.' :: rest => some (cs.getD (cs.length - rest.length - 2) '0' :: '.' :: rest)
    | c :: rest => if Json.isDigit c then some (c :: rest) else none
  | c :: _ => if Json.isDigit c || c == '-' then some cs else none
  | [] => none

/-- The text in front of a point with only zeros after it. -/
def dropZeroFraction (cs : List Char) : List Char :=
  let whole := cs.takeWhile (· != '.')
  match cs.dropWhile (· != '.') with
  | _ :: zeros => if zeros.all (· == '0') then whole else cs
  | [] => cs

/-- The integer that digits write after a minus sign or none, without zeros in front. -/
def wholeOfDigits? (cs : List Char) : Option Int :=
  let (negative, ds) := match cs with
    | '-' :: ds => (true, ds)
    | ds => (false, ds)
  let n : Int := Json.digitsValue ds
  if ds.isEmpty || !ds.all Json.isDigit || (1 < ds.length && ds.head? == some '0') then none
  else some (if negative then -n else n)

/-- The integer that a text writes. Blanks around it, a plus sign, zeros in front, zeros after a point and
underscores between digits are allowed. -/
def wholeOfText? (s : String) : Option Int :=
  let cs := match Text.trimBy Text.isSpace s.toList with
    | '+' :: '-' :: _ => []
    | '+' :: cs => cs
    | cs => cs
  (dropLeadingZeros? cs).bind fun cs =>
    let ds := dropZeroFraction cs
    wholeOfDigits? ((withoutUnderscores? ds).getD ds)

/-- The float written by an unsigned decimal with digits on at least one side of its point. -/
def decimalOf? (negative : Bool) (cs : List Char) : Option Binary64 :=
  let (whole, rest) := Json.takeDigits cs
  let (fraction, rest) := match rest with
    | '.' :: rest => Json.takeDigits rest
    | rest => ([], rest)
  if whole.isEmpty && fraction.isEmpty then none
  else match Json.exponentPart rest with
    | (e, []) => some (.ofDecimal negative (Json.digitsValue (whole ++ fraction))
        (e.getD 0 - fraction.length))
    | _ => none

/-- The float that a text writes, one of the words for infinity and not-a-number included. -/
def floatOf? (cs : List Char) : Option Binary64 :=
  let (negative, body) := takeSign cs
  let word := Text.lowerAscii (String.ofList body)
  if word = "nan" then some .nan
  else if word = "inf" || word = "infinity" then some (.infinite negative)
  else decimalOf? negative body

/-- The float that a text writes, blanks around it and underscores inside it allowed. -/
def floatOfText? (s : String) : Option Binary64 :=
  match floatOf? (Text.trimBy Text.isSpace s.toList) with
  | some x => some x
  | none => (withoutUnderscores? s.toList).bind floatOf?

/-! ## Numbers -/

def readInt (v : Value) : Read Int :=
  match v with
  | .scalar (.int n) => .done n
  | .scalar (.bool b) => .done (if b then 1 else 0)
  | .scalar (.float x) =>
    if !x.isFinite then .fail .finite v
    else match x.toInt? with
      | none => .fail .wholeFraction v
      | some n => if n.natAbs < Nat.pow 2 63 then .done n else .fail .wholeSize v
  | v => match textOrBytes? v with
    | some (.ok s) =>
      if Json.maxDigits < s.utf8ByteSize then .fail .wholeSize v
      else match wholeOfText? s with
        | some n => .done n
        | none => .fail .wholeDigits v
    | some (.error _) => .fail .wholeDigits v
    | none => .fail .whole v

/-- Reads a float. -/
def readFloat (v : Value) : Read Binary64 :=
  match v with
  | .scalar (.float x) => .done x
  | .scalar (.int n) => .done (.ofInt n)
  | .scalar (.bool b) => .done (.ofInt (if b then 1 else 0))
  | v => match textOrBytes? v with
    | some (.ok s) => match floatOfText? s with
      | some x => .done x
      | none => .fail .numberDigits v
    | some (.error _) => .fail .numberDigits v
    | none => .fail .number v

/-- Reads a number: a float stays one, anything else is an integer if it can be one. -/
def readNumber (v : Value) : Read Number :=
  match v with
  | .scalar (.float x) => .done (.float x)
  | v => match readInt v, readFloat v with
    | .done n, _ => .done (.int n)
    | .failed _, .done x => .done (.float x)
    | .failed is, .failed js =>
      Read.both ((Read.failed is (α := Number)).under (.key "int"))
        ((Read.failed js (α := Unit)).under (.key "float")) |>.map (·.1)

/-! ## Parts of records -/

/-- A field that null leaves unset. -/
def orNull {γ α : Type} (value : γ → Value) (read : γ → Read α) (c : γ) : Read (Option α) :=
  if (value c).isNull then .done none else (read c).map some

/-- Reads each item of a list. -/
def readList {γ α : Type} (input : Value) (items : Option (List γ)) (read : γ → Read α) :
    Read (List α) :=
  match items with
  | none => .fail .list input
  | some xs => .all (xs.mapIdx fun i x => (read x).under (.index i))

/-- Reads each entry of a map with text keys. A key is at fault before its value is. -/
def readMap {γ α : Type} (input : Value) (entries : Option (List (Scalar × γ)))
    (read : γ → Read α) : Read (List (String × α)) :=
  match entries with
  | none => .fail .map input
  | some es =>
    let one (e : Scalar × γ) : Read (String × α) :=
      let step := Fields.stepOf e.1
      Read.both ((readText (.scalar e.1)).under (.key "[key]") |>.under step) ((read e.2).under step)
    (Read.all (es.map one)).map (collapse (· == ·))

end ApiProjection.Record
