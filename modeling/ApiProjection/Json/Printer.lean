import ApiProjection.Json.Basic
import ApiProjection.Text.Quoted
/-!
# JSON text

`Json.write` lays out a value on one line or over indented lines. A string is escaped where JSON
asks for it, and everywhere outside ASCII if the layout says so; a float has the shortest digits
that read back.
-/
namespace ApiProjection.Json

/-- How a value is laid out. -/
structure Layout where
  /-- The number of blanks per level; on one line if none. -/
  indent : Option Nat
  /-- Whether characters outside ASCII are escaped. -/
  asciiOnly : Bool

/-- Two blanks per level, all characters kept. -/
def Layout.document : Layout := { indent := some 2, asciiOnly := false }

/-- Two blanks per level, ASCII only. -/
def Layout.record : Layout := { indent := some 2, asciiOnly := true }

/-- One line, all characters kept. -/
def Layout.line : Layout := { indent := none, asciiOnly := false }

/-! ## Strings -/

/-- A code unit as a `\u` escape. -/
def unitEscape (n : Nat) : List Char := '\\' :: 'u' :: Text.hexDigits 4 n

/-- A character as one escape, or two for a surrogate pair. -/
def charEscape (c : Char) : List Char :=
  let n := c.toNat
  if n < 0x10000 then unitEscape n
  else
    let m := n - 0x10000
    unitEscape (0xd800 + m / 0x400) ++ unitEscape (0xdc00 + m % 0x400)

/-- One character of a string. -/
def writeChar (asciiOnly : Bool) (c : Char) : List Char :=
  if c == '"' then ['\\', '"']
  else if c == '\\' then ['\\', '\\']
  else if c == '\n' then ['\\', 'n']
  else if c == '\r' then ['\\', 'r']
  else if c == '\t' then ['\\', 't']
  else if c == '\x0c' then ['\\', 'f']
  else if c == '\x08' then ['\\', 'b']
  else if c.toNat < 0x20 then unitEscape c.toNat
  else if asciiOnly && 0x7e < c.toNat then charEscape c
  else [c]

/-- A string between its quotes. -/
def writeText (asciiOnly : Bool) (s : String) : List Char :=
  '"' :: s.toList.flatMap (writeChar asciiOnly) ++ ['"']

/-! ## Numbers -/

/-- The digits of a natural number. -/
def writeNat (n : Nat) : List Char := Nat.toDigits 10 n

def writeInt : Int → List Char
  | .ofNat n => writeNat n
  | .negSucc n => '-' :: writeNat (n + 1)

def writeFloat : Binary64 → List Char
  | .nan => "NaN".toList
  | .infinite s => (if s then "-Infinity" else "Infinity").toList
  | x => x.chars

/-! ## Values -/

/-- The line break and blanks in front of something at the given level. -/
def Layout.newline (l : Layout) (level : Nat) : List Char :=
  match l.indent with
  | some n => '\n' :: List.replicate (n * level) ' '
  | none => []

/-- What stands between two members: a comma, and a blank if no line break follows. -/
def Layout.comma (l : Layout) (level : Nat) : List Char :=
  match l.indent with
  | some _ => ',' :: l.newline level
  | none => [',', ' ']

mutual
/-- The text of a value whose first character stands at the given level. -/
def writeAt (l : Layout) (level : Nat) : Json → List Char
  | .null => "null".toList
  | .bool b => (if b then "true" else "false").toList
  | .int n => writeInt n
  | .float x => writeFloat x
  | .text s => writeText l.asciiOnly s
  | .list [] => ['[', ']']
  | .list (x :: xs) =>
    '[' :: l.newline (level + 1) ++ writeAt l (level + 1) x ++ writeItems l level xs
  | .object [] => ['{', '}']
  | .object ((k, x) :: ms) =>
    '{' :: l.newline (level + 1) ++ writeText l.asciiOnly k ++ [':', ' '] ++
      writeAt l (level + 1) x ++ writeMembers l level ms

/-- The further items of a list, and its end. -/
def writeItems (l : Layout) (level : Nat) : List Json → List Char
  | [] => l.newline level ++ [']']
  | x :: xs => l.comma (level + 1) ++ writeAt l (level + 1) x ++ writeItems l level xs

/-- The further members of an object, and its end. -/
def writeMembers (l : Layout) (level : Nat) : List (String × Json) → List Char
  | [] => l.newline level ++ ['}']
  | (k, x) :: ms =>
    l.comma (level + 1) ++ writeText l.asciiOnly k ++ [':', ' '] ++
      writeAt l (level + 1) x ++ writeMembers l level ms
end

/-- The text of a value. -/
def write (l : Layout) (j : Json) : String := String.ofList (writeAt l 0 j)

/-- The text of a value over indented lines, all characters kept. -/
def pretty (j : Json) : String := j.write .document

/-- The text of a value on one line, all characters kept. -/
def compact (j : Json) : String := j.write .line

end ApiProjection.Json
