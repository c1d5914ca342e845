import ApiProjection.Regex.Cursor
import ApiProjection.Json.Reader
/-!
# Escapes in regular expressions

`Cursor.escape` reads what a backslash outside a set begins, `Cursor.memberEscape` what one inside a set
begins: a class, a character by its code, a letter that stands for a control character, or a
character as it is.
-/
namespace ApiProjection.Regex

/-- The class that a letter after a backslash names. -/
def classEscape? (ascii : Bool) (d : Char) : Option CharItem :=
  match d with
  | 'd' => some (.named .digit ascii false)
  | 'D' => some (.named .digit ascii true)
  | 'w' => some (.named .word ascii false)
  | 'W' => some (.named .word ascii true)
  | 's' => some (.named .space ascii false)
  | 'S' => some (.named .space ascii true)
  | _ => none

/-- The control character that a letter after a backslash names. -/
def controlEscape? (d : Char) : Option Char :=
  match d with
  | 'n' => some '\n'
  | 't' => some '\t'
  | 'r' => some '\r'
  | 'f' => some '\x0c'
  | 'v' => some '\x0b'
  | 'a' => some '\x07'
  | _ => none

/-- How many hexadecimal digits follow a letter that says so. -/
def codeWidth? (d : Char) : Option Nat :=
  match d with
  | 'x' => some 2
  | 'u' => some 4
  | 'U' => some 8
  | _ => none

def isOctal (d : Char) : Bool := '0' ≤ d && d ≤ '7'

/-- The number written by digits in a base. -/
def numberIn (base : Nat) (ds : List Char) : Nat :=
  ds.foldl (fun n d => n * base + (Json.hexValue? d).getD 0) 0

/-- The set with one character in it. -/
def item (code : Nat) : CharItem := .range code code

/-- Reads the digits of an octal escape and refuses a code above 255. -/
def octal (ds : List Char) (c : Cursor) : Reading (CharItem × Cursor) :=
  let code := numberIn 8 ds
  if 255 < code then fail (.hugeOctal ("\\" ++ String.ofList ds)) c (ds.length + 1)
  else .ok (item code, c)

/-- Reads a character by its hexadecimal code. The token of the backslash has been taken. -/
def codeEscape (d : Char) (width : Nat) (c : Cursor) : Reading (CharItem × Cursor) := do
  let (ds, c) ← c.takeWhile (fun h => (Json.hexValue? h).isSome) width
  let written := "\\" ++ d.toString ++ String.ofList ds
  let code := numberIn 16 ds
  if ds.length < width then fail (.incompleteEscape written) c written.length
  else if 0x110000 ≤ code then fail (.badEscape written) c written.length
  else return (item code, c)

/-- Reads a character by its name. No name is known. -/
def namedEscape (c : Cursor) : Reading (CharItem × Cursor) := do
  match ← c.take? '\x7b' with
  | none => fail (.missing "\x7b") c 0
  | some c =>
    let (name, c) ← c.name '\x7d' "character name"
    fail (.unknownCharacterName name) c (name.length + 4)

/-- Reads an escape that means the same inside and outside sets, once it is known not to begin with a
digit. -/
def plainEscape (ascii : Bool) (d : Char) (c : Cursor) : Reading (CharItem × Cursor) :=
  match classEscape? ascii d, controlEscape? d, codeWidth? d with
  | some i, _, _ => .ok (i, c)
  | _, some k, _ => .ok (item k.toNat, c)
  | _, _, some width => codeEscape d width c
  | _, _, _ =>
    if d == 'N' then namedEscape c
    else if d.isAlphanum then fail (.badEscape ("\\" ++ d.toString)) c 2
    else .ok (item d.toNat, c)

/-- Reads an escape inside a set. -/
def Cursor.memberEscape (c : Cursor) (ascii : Bool) (d : Char) : Reading (CharItem × Cursor) :=
  if d == 'b' then .ok (item 8, c)
  else if isOctal d then do
    let (ds, c) ← c.takeWhile isOctal 2
    octal (d :: ds) c
  else plainEscape ascii d c

/-- A group as an expression asks for it. -/
def Cursor.reference (c : Cursor) (m : Manner) (n offset : Nat) : Reading Regex :=
  if !c.hasClosed n then fail .openReference c offset
  else do
    c.checkBehind n
    return .again n m.caseRule

/-- Reads a code in octal digits, or the number of a group. -/
def Cursor.numbered (c : Cursor) (m : Manner) (d : Char) : Reading (Regex × Cursor) := do
  let one (p : CharItem × Cursor) : Regex × Cursor := (.one { rule := m.caseRule, items := [p.1] }, p.2)
  if d == '0' then
    let (ds, c) ← c.takeWhile isOctal 2
    return one (← octal (d :: ds) c)
  let (ds, c) ← c.takeWhile Char.isDigit 1
  let ds := d :: ds
  let (more, c) ← if ds.length = 2 && ds.all isOctal then c.takeWhile isOctal 1 else pure ([], c)
  if !more.isEmpty then return one (← octal (ds ++ more) c)
  let n := numberIn 10 ds
  if c.opened < n then fail (.badReference n) c ds.length
  return (← c.reference m n (ds.length + 1), c)

/-- Reads an escape outside sets. -/
def Cursor.escape (c : Cursor) (m : Manner) (d : Char) : Reading (Regex × Cursor) :=
  match d with
  | 'A' => .ok (.textStart, c)
  | 'Z' => .ok (.textEnd, c)
  | 'b' => .ok (.wordEdge m.ascii false, c)
  | 'B' => .ok (.wordEdge m.ascii true, c)
  | _ =>
    if d.isDigit then c.numbered m d
    else do
      let (i, c) ← plainEscape m.ascii d c
      return (.one { rule := m.caseRule, items := [i] }, c)

end ApiProjection.Regex
