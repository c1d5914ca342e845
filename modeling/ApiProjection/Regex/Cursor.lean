import ApiProjection.Regex.Basic
import ApiProjection.Regex.Fault
/-!
# Going through the text of a regular expression

A `Cursor` is what is left of the text and what is known about the groups before it. A backslash and the
character after it are taken together, so that a backslash at the very end is found as soon as
it is the next to be taken.
-/
namespace ApiProjection.Regex

/-- What the letters of a flag group turn on. -/
structure Manner where
  anyCase : Bool := false
  manyLines : Bool := false
  dotAll : Bool := false
  spaced : Bool := false
  ascii : Bool := false
  deriving DecidableEq, Repr

/-- Which letters count as one. -/
def Manner.caseRule (m : Manner) : CaseRule :=
  if m.anyCase then (if m.ascii then .asciiLetters else .allLetters) else .exact

structure Cursor where
  rest : List Char
  /-- What has been turned on for the whole expression. -/
  manner : Manner := {}
  /-- Whether characters beyond ASCII have been asked for by name. -/
  wide : Bool := false
  /-- How many groups have been opened. -/
  opened : Nat := 0
  /-- The widths of the groups that have been closed. -/
  widths : List (Nat × Width) := []
  names : List (String × Nat) := []
  /-- How many groups had been opened before the look behind that is being read. -/
  behindFrom : Option Nat := none
  /-- The groups that conditions ask for, with the number of characters from there to the end. -/
  conditions : List (Nat × Nat) := []
  /-- Whether there is a look behind without a fixed width. -/
  unfixed : Bool := false

/-- One character, or one after a backslash. -/
inductive Token
  | plain (c : Char)
  | escaped (c : Char)
  deriving DecidableEq, Repr

def Token.chars : Token → List Char
  | .plain c => [c]
  | .escaped c => ['\\', c]

def Token.text (t : Token) : String := String.ofList t.chars

def Token.size (t : Token) : Nat := t.chars.length

/-- A result that may be a fault of the expression. -/
abbrev Reading (α : Type) := Except ParseError α

/-- A fault so many characters before what is left. -/
def fail {α : Type} (f : Fault) (c : Cursor) (offset : Nat) : Reading α :=
  .error ⟨f, c.rest.length + offset⟩

namespace Cursor

/-- The cursor before another rest of the text. -/
def move (c : Cursor) (rest : List Char) : Reading Cursor :=
  if rest == ['\\'] then .error ⟨.escapeEnd, 1⟩ else .ok { c with rest }

def peek? (c : Cursor) : Option Token :=
  match c.rest with
  | '\\' :: d :: _ => some (.escaped d)
  | d :: _ => some (.plain d)
  | [] => none

/-- Whether a character comes next, without a backslash. -/
def sees (c : Cursor) (d : Char) : Bool := c.peek? == some (.plain d)

/-- The cursor after the next token. -/
def drop (c : Cursor) : Reading Cursor :=
  match c.peek? with
  | some t => c.move (c.rest.drop t.size)
  | none => .ok c

/-- Takes the next token, if there is one. -/
def next (c : Cursor) : Reading (Option Token × Cursor) := do return (c.peek?, ← c.drop)

/-- Takes a character if it comes next. -/
def take? (c : Cursor) (d : Char) : Reading (Option Cursor) :=
  if c.sees d then do return some (← c.drop) else .ok none

/-- Takes so many characters of a class at most. -/
def takeWhile (p : Char → Bool) : Nat → Cursor → Reading (List Char × Cursor)
  | 0, c => .ok ([], c)
  | n + 1, c => match c.peek? with
    | some (.plain d) =>
      if p d then do
        let (ds, c) ← takeWhile p n (← c.drop)
        return (d :: ds, c)
      else .ok ([], c)
    | _ => .ok ([], c)

/-- Takes the digits that come next. -/
def digits (c : Cursor) : Reading (List Char × Cursor) := c.takeWhile Char.isDigit c.rest.length

/-- Takes the text up to a character that ends it, with what has been taken before. -/
def upTo (stop : Char) (what : String) : Nat → List Char → Cursor → Reading (String × Cursor)
  | 0, _, c => fail (.missing what) c 0
  | fuel + 1, taken, c => do
    match ← c.next with
    | (none, c) =>
      if taken.isEmpty then fail (.missing what) c 0 else fail (.openName stop) c taken.length
    | (some t, c) =>
      if t == .plain stop then
        if taken.isEmpty then fail (.missing what) c 1 else return (String.ofList taken, c)
      else upTo stop what fuel (taken ++ t.chars) c

/-- Takes a name up to the character that ends it. -/
def name (stop : Char) (what : String) (c : Cursor) : Reading (String × Cursor) :=
  c.upTo stop what (c.rest.length + 1) []

/-! ## Groups -/

/-- Whether a group has been closed. -/
def hasClosed (c : Cursor) (n : Nat) : Bool := c.widths.any fun g => g.1 == n

/-- Refuses a group that a look behind cannot ask for. -/
def checkBehind (c : Cursor) (n : Nat) : Reading Unit :=
  match c.behindFrom with
  | some opened =>
    if !c.hasClosed n then fail .openReference c 0
    else if opened < n then fail .referenceInsideBehind c 0
    else .ok ()
  | none => .ok ()

/-- Opens a group, which may have a name. -/
def openGroup (c : Cursor) (name : Option String) : Reading (Nat × Cursor) :=
  let n := c.opened + 1
  let c := { c with opened := n }
  match name with
  | none => .ok (n, c)
  | some s => match c.names.lookup s with
    | some was => fail (.usedGroupName s n was) c (s.length + 1)
    | none => .ok (n, { c with names := c.names ++ [(s, n)] })

/-- Closes a group. -/
def closeGroup (c : Cursor) (n : Nat) (r : Regex) : Cursor :=
  { c with widths := c.widths ++ [(n, r.width c.widths)] }

end Cursor
end ApiProjection.Regex
