import ApiProjection.Number.Shortest
import ApiProjection.Yaml.Fault
import ApiProjection.Yaml.Plain
/-!
# Numbers in YAML text

Integers may be written in four bases or in parts of sixty, floats with a fraction or in parts of
sixty; underscores in them are passed over. A scalar may be tagged as a number without being one.
-/
namespace ApiProjection.Yaml.Number

/-- A text without blanks around it and with its sign apart. -/
def signed (cs : List Char) : Bool × List Char :=
  match Text.trimBy Text.isSpace cs with
  | '-' :: rest => (true, rest)
  | '+' :: rest => (false, rest)
  | rest => (false, rest)

/-- The value of a digit in a base. -/
def digitIn? (base : Nat) (c : Char) : Option Nat :=
  (Json.hexValue? c).filter (· < base)

/-- The number that digits of a base stand for. -/
def natOf? (base : Nat) (cs : List Char) : Option Nat :=
  if cs.isEmpty then none
  else cs.foldlM (fun n c => (digitIn? base c).map (base * n + ·)) 0

/-- The letter that may stand after a zero before the digits of a base. -/
def baseLetter? (base : Nat) : Option Char :=
  match base with
  | 2 => some 'b'
  | 8 => some 'o'
  | 16 => some 'x'
  | _ => none

/-- Digits without the mark of their base, if they have it. -/
def withoutMark (base : Nat) (cs : List Char) : List Char :=
  match cs with
  | '0' :: c :: ds => if baseLetter? base == some c.toLower then ds else cs
  | _ => cs

/-- An integer in a base. -/
def intIn (base : Nat) (cs : List Char) : Except Fault Int :=
  let (negative, digits) := signed cs
  let digits := withoutMark base digits
  match natOf? base digits with
  | some n =>
    if base == 10 && Json.maxDigits < digits.length then .error (.longInt digits.length)
    else .ok (if negative then -(n : Int) else n)
  | none => .error (.notAnInt base (String.ofList cs))

/-- A number given by parts, of which each counts sixty times as much as the next. -/
def inSixties (parts : List Int) : Int := parts.foldl (fun n part => 60 * n + part) 0

/-- The integer of a text without its sign. -/
def magnitude (cs : List Char) : Except Fault Int :=
  match cs with
  | [] => .error .noDigits
  | ['0'] => .ok 0
  | '0' :: 'b' :: ds => intIn 2 ds
  | '0' :: 'x' :: ds => intIn 16 ds
  | '0' :: _ => intIn 8 cs
  | cs =>
    if cs.contains ':' then return inSixties (← (Text.splitWhere (· == ':') cs).mapM (intIn 10))
    else intIn 10 cs

/-- The integer that a text stands for. -/
def int (s : String) : Except Fault Int :=
  match s.toList.filter (· != '_') with
  | '-' :: cs => return -(← magnitude cs)
  | '+' :: cs => magnitude cs
  | cs => magnitude cs

/-! ## Floats -/

/-- Decimal digits around a point with an exponent, in which only one side of the point may be
empty. -/
def decimal? (cs : List Char) : Option Binary64 :=
  let (negative, body) := signed cs
  match String.ofList body with
  | "inf" | "infinity" => some (.infinite negative)
  | "nan" => some .nan
  | _ =>
    let (whole, rest) := Json.takeDigits body
    let (fraction, rest) := match rest with
      | '.' :: rest => Json.takeDigits rest
      | rest => ([], rest)
    let (exponent, rest) := Json.exponentPart rest
    if (whole.isEmpty && fraction.isEmpty) || !rest.isEmpty then none
    else some (.ofDecimal negative (Json.digitsValue (whole ++ fraction)) (exponent.getD 0 - fraction.length))

def decimal (cs : List Char) : Except Fault Binary64 :=
  match decimal? cs with
  | some x => .ok x
  | none => .error (.notAFloat (String.ofList cs))

/-- The sum of parts, from the last on, each times a power of sixty. -/
def floatInSixties (parts : List Binary64) : Binary64 :=
  (parts.reverse.foldl (fun (sum, unit) part => (sum.add (part.mul (.ofInt unit)), 60 * unit))
    (Binary64.ofInt 0, (1 : Int))).1

/-- The float of a text in small letters without its sign. -/
def floatMagnitude (cs : List Char) : Except Fault Binary64 :=
  match String.ofList cs with
  | ".inf" => .ok (.infinite false)
  | ".nan" => .ok .nan
  | _ =>
    if cs.contains ':' then return floatInSixties (← (Text.splitWhere (· == ':') cs).mapM decimal)
    else decimal cs

/-- The float that a text stands for. -/
def float (s : String) : Except Fault Binary64 :=
  match (Text.lowerAscii s).toList.filter (· != '_') with
  | [] => .error .noDigits
  | '-' :: cs => return (← floatMagnitude cs).neg
  | '+' :: cs => floatMagnitude cs
  | cs => floatMagnitude cs

end ApiProjection.Yaml.Number
