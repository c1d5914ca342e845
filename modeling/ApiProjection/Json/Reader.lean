import ApiProjection.Json.Basic
/-!
# Reading JSON text

`Json.read` reads one value with blanks around it, or says what was expected where. Objects keep
the order of their members; a name given twice has its last value in its first place. The words
`NaN`, `Infinity` and `-Infinity` are numbers. The readers work on the characters left; a fault
carries how many were left, from which its line and column follow.
-/
namespace ApiProjection.Json

/-- What is wrong with a text. -/
inductive Fault
  | value
  | name
  | colon
  | comma
  | unterminated
  | control
  | escape
  | codeEscape
  | extra
  | byteOrderMark
  /-- An integer with too many digits to be read. -/
  | digits (count : Nat)
  deriving DecidableEq, Repr

/-- A fault with the number of characters from there to the end. -/
structure ReadError where
  fault : Fault
  left : Nat
  deriving DecidableEq, Repr

/-- The most digits an integer may have. -/
def maxDigits : Nat := 4300

def failAt {α : Type} (fault : Fault) (rest : List Char) : Except ReadError α :=
  .error ⟨fault, rest.length⟩

/-! ## Strings -/

/-- The value of a hexadecimal digit. -/
def hexValue? (c : Char) : Option Nat :=
  if '0' ≤ c && c ≤ '9' then some (c.toNat - 48)
  else if 'a' ≤ c && c ≤ 'f' then some (c.toNat - 87)
  else if 'A' ≤ c && c ≤ 'F' then some (c.toNat - 55)
  else none

/-- The code written by four hexadecimal digits. -/
def hexCode? (a b c d : Char) : Option Nat := do
  return (((← hexValue? a) * 16 + (← hexValue? b)) * 16 + (← hexValue? c)) * 16 + (← hexValue? d)

/-- The character of a one-letter escape. -/
def letterEscape? (c : Char) : Option Char :=
  match c with
  | '"' => some '"'
  | '\\' => some '\\'
  | '/' => some '/'
  | 'b' => some '\x08'
  | 'f' => some '\x0c'
  | 'n' => some '\n'
  | 'r' => some '\r'
  | 't' => some '\t'
  | _ => none

def isHighSurrogate (n : Nat) : Bool := 0xd800 ≤ n && n < 0xdc00
def isLowSurrogate (n : Nat) : Bool := 0xdc00 ≤ n && n < 0xe000

/-- The character with the given code; half of a pair alone is the replacement character. -/
def charOfCode (n : Nat) : Char :=
  if 0xd800 ≤ n && n < 0xe000 then '\ufffd' else Char.ofNat n

/-- Reads the characters of a string up to its closing quote. `start` is the number of characters
left at its opening quote. -/
def readChars (start : Nat) : List Char → Except ReadError (List Char × List Char)
  | [] => .error ⟨.unterminated, start⟩
  | '"' :: rest => .ok ([], rest)
  | '\\' :: 'u' :: a :: b :: c :: d :: rest =>
    match rest with
    | [] => .error ⟨.codeEscape, 5⟩
    | '\\' :: 'u' :: a' :: b' :: c' :: d' :: e :: more =>
      match hexCode? a b c d with
      | none => .error ⟨.codeEscape, rest.length + 5⟩
      | some n =>
        if isHighSurrogate n then
          match hexCode? a' b' c' d' with
          | none => .error ⟨.codeEscape, more.length + 6⟩
          | some m =>
            if isLowSurrogate m then do
              let (cs, rest) ← readChars start (e :: more)
              return (Char.ofNat (0x10000 + (n - 0xd800) * 0x400 + (m - 0xdc00)) :: cs, rest)
            else do
              let (cs, rest) ← readChars start ('\\' :: 'u' :: a' :: b' :: c' :: d' :: e :: more)
              return (charOfCode n :: cs, rest)
        else do
          let (cs, rest) ← readChars start ('\\' :: 'u' :: a' :: b' :: c' :: d' :: e :: more)
          return (charOfCode n :: cs, rest)
    | rest =>
      match hexCode? a b c d with
      | none => .error ⟨.codeEscape, rest.length + 5⟩
      | some n => do
        let (cs, rest) ← readChars start rest
        return (charOfCode n :: cs, rest)
  | '\\' :: 'u' :: rest => .error ⟨.codeEscape, rest.length + 1⟩
  | '\\' :: [] => .error ⟨.unterminated, start⟩
  | '\\' :: c :: rest =>
    match letterEscape? c with
    | none => .error ⟨.escape, rest.length + 2⟩
    | some c => do
      let (cs, rest) ← readChars start rest
      return (c :: cs, rest)
  | c :: rest =>
    if c.toNat < 0x20 then .error ⟨.control, rest.length + 1⟩
    else do
      let (cs, rest) ← readChars start rest
      return (c :: cs, rest)

/-- Reads a string whose opening quote has been taken. -/
def readText (rest : List Char) : Except ReadError (String × List Char) := do
  let (cs, rest) ← readChars (rest.length + 1) rest
  return (String.ofList cs, rest)

/-! ## Numbers -/

def isDigit (c : Char) : Bool := '0' ≤ c && c ≤ '9'

/-- The number that decimal digits write. -/
def digitsValue (cs : List Char) : Nat :=
  cs.foldl (fun n c => n * 10 + (c.toNat - 48)) 0

/-- The longest run of digits in front. -/
def takeDigits (cs : List Char) : List Char × List Char := (cs.takeWhile isDigit, cs.dropWhile isDigit)

/-- The whole part of a number: a zero alone, or digits that do not start with one. -/
def wholePart? : List Char → Option (List Char × List Char)
  | '0' :: rest => some (['0'], rest)
  | cs => match takeDigits cs with
    | ([], _) => none
    | run => some run

/-- The digits after a point; none if there is no point with a digit after it. -/
def fractionPart : List Char → Option (List Char) × List Char
  | '.' :: rest => match takeDigits rest with
    | ([], _) => (none, '.' :: rest)
    | (ds, rest) => (some ds, rest)
  | cs => (none, cs)

/-- The power of ten after an exponent letter; none if no digit follows it. -/
def exponentPart (cs : List Char) : Option Int × List Char :=
  match cs with
  | c :: rest =>
    if c == 'e' || c == 'E' then
      let (negative, ds) := match rest with
        | '-' :: r => (true, r)
        | '+' :: r => (false, r)
        | r => (false, r)
      match takeDigits ds with
      | ([], _) => (none, cs)
      | (ds, rest) => (some (if negative then -(digitsValue ds : Int) else digitsValue ds), rest)
    else (none, cs)
  | [] => (none, [])

/-- Reads a number: an integer unless it has a fraction or an exponent. -/
def readNumber (cs : List Char) : Except ReadError (Json × List Char) :=
  let (negative, body) := match cs with
    | '-' :: r => (true, r)
    | _ => (false, cs)
  match wholePart? body with
  | none => failAt .value cs
  | some (whole, rest) =>
    let (fraction, rest) := fractionPart rest
    let (exponent, rest) := exponentPart rest
    if fraction.isNone && exponent.isNone then
      if maxDigits < whole.length then failAt (.digits whole.length) cs
      else
        let n := digitsValue whole
        .ok (.int (if negative then -(n : Int) else n), rest)
    else
      let digits := whole ++ fraction.getD []
      let places := (fraction.getD []).length
      .ok (.float (.ofDecimal negative (digitsValue digits) (exponent.getD 0 - places)), rest)

/-! ## Values -/

def isJsonBlank (c : Char) : Bool := c == ' ' || c == '\t' || c == '\n' || c == '\r'

/-- The text after the blanks in front of it. -/
def skipBlanks (cs : List Char) : List Char := cs.dropWhile isJsonBlank

/-- What is left after a word in front. -/
def afterWord? (word : String) (cs : List Char) : Option (List Char) :=
  if word.toList.isPrefixOf cs then some (cs.drop word.length) else none

/-- The value of a word in front, and what is left. -/
def readWord? (cs : List Char) : Option (Json × List Char) :=
  let words : List (String × Json) :=
    [("null", .null), ("true", .bool true), ("false", .bool false), ("NaN", .float .nan),
      ("Infinity", .float (.infinite false)), ("-Infinity", .float (.infinite true))]
  words.findSome? fun (word, j) => (afterWord? word cs).map (j, ·)

mutual
/-- Reads a value that starts with the first character. -/
def readValue : Nat → List Char → Except ReadError (Json × List Char)
  | 0, cs => failAt .value cs
  | _ + 1, [] => .error ⟨.value, 0⟩
  | fuel + 1, c :: rest =>
    if c == '"' then do
      let (s, rest) ← readText rest
      return (.text s, rest)
    else if c == '[' then
      match skipBlanks rest with
      | ']' :: rest => .ok (.list [], rest)
      | rest => do
        let (items, rest) ← readItems fuel rest
        return (.list items, rest)
    else if c == '\x7b' then
      match skipBlanks rest with
      | '\x7d' :: rest => .ok (.object [], rest)
      | rest => do
        let (members, rest) ← readMembers fuel rest
        return (.object (collapse (· == ·) members), rest)
    else match readWord? (c :: rest) with
      | some r => .ok r
      | none => readNumber (c :: rest)

/-- Reads the items of a list, at least one, and its end. -/
def readItems : Nat → List Char → Except ReadError (List Json × List Char)
  | 0, cs => failAt .value cs
  | fuel + 1, cs => do
    let (x, rest) ← readValue fuel cs
    match skipBlanks rest with
    | ']' :: rest => return ([x], rest)
    | ',' :: rest =>
      let (xs, rest) ← readItems fuel (skipBlanks rest)
      return (x :: xs, rest)
    | rest => failAt .comma rest

/-- Reads the members of an object, at least one, and its end. -/
def readMembers : Nat → List Char → Except ReadError (List (String × Json) × List Char)
  | 0, cs => failAt .value cs
  | fuel + 1, cs =>
    match cs with
    | '"' :: rest => do
      let (name, rest) ← readText rest
      match skipBlanks rest with
      | ':' :: rest =>
        let (x, rest) ← readValue fuel (skipBlanks rest)
        match skipBlanks rest with
        | '\x7d' :: rest => return ([(name, x)], rest)
        | ',' :: rest =>
          let (ms, rest) ← readMembers fuel (skipBlanks rest)
          return ((name, x) :: ms, rest)
        | rest => failAt .comma rest
      | rest => failAt .colon rest
    | cs => failAt .name cs
end

/-- Reads a text that is one value with blanks around it. Each nested call has taken a character,
so twice the length is fuel enough. -/
def readAll (cs : List Char) : Except ReadError Json :=
  match cs with
  | '\ufeff' :: _ => failAt .byteOrderMark cs
  | _ => do
    let (j, rest) ← readValue (2 * cs.length + 1) (skipBlanks cs)
    match skipBlanks rest with
    | [] => return j
    | rest => failAt .extra rest

/-- Reads a text that is one value with blanks around it. -/
def read (s : String) : Except ReadError Json := readAll s.toList

/-! ## Messages -/

def Fault.text : Fault → String
  | .value => "Expecting value"
  | .name => "Expecting property name enclosed in double quotes"
  | .colon => "Expecting ':' delimiter"
  | .comma => "Expecting ',' delimiter"
  | .unterminated => "Unterminated string starting at"
  | .control => "Invalid control character at"
  | .escape => "Invalid \\escape"
  | .codeEscape => "Invalid \\uXXXX escape"
  | .extra => "Extra data"
  | .byteOrderMark => "Unexpected UTF-8 BOM (decode using utf-8-sig)"
  | .digits count =>
    s!"Exceeds the limit ({maxDigits} digits) for integer string conversion: value has {count} " ++
      "digits; use sys.set_int_max_str_digits() to increase the limit"

/-- Whether the text is JSON but for an integer that is too long. -/
def ReadError.isLongNumber (e : ReadError) : Bool :=
  match e.fault with
  | .digits _ => true
  | _ => false

/-- The line and the column, from one, of the place after the given characters. -/
def lineColumn (before : List Char) : Nat × Nat :=
  before.foldl (fun (line, column) c => if c == '\n' then (line + 1, 1) else (line, column + 1)) (1, 1)

/-- What is said about a text that is no JSON. -/
def ReadError.message (e : ReadError) (source : String) : String :=
  match e.fault with
  | .digits _ => e.fault.text
  | _ =>
    let cs := source.toList
    let position := cs.length - e.left
    let (line, column) := lineColumn (cs.take position)
    e.fault.text ++ s!": line {line} column {column} (char {position})"

end ApiProjection.Json
