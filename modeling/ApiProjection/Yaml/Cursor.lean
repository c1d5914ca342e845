/-!
# Places in a text

A `Cursor` is what is left of a text with the place where it begins. Lines end at any of several
breaks, which are all read as line feeds but for the two that separate lines and paragraphs.
-/
namespace ApiProjection.Yaml

/-- A line break other than the carriage return. -/
def isBreak (c : Char) : Bool := c == '\n' || c == '\x85' || c == '\u2028' || c == '\u2029'

/-- A blank, a break or the end of a text. -/
def isGap (c : Char) : Bool := c == '\x00' || c == ' ' || c == '\t' || c == '\r' || isBreak c

/-- A break of any kind. -/
def isLineEnd (c : Char) : Bool := c == '\r' || isBreak c

/-- A break or the end of a text. -/
def isLineStop (c : Char) : Bool := c == '\x00' || isLineEnd c

structure Cursor where
  rest : List Char
  index : Nat := 0
  line : Nat := 0
  column : Nat := 0
  deriving Repr

namespace Cursor

/-- The next character; NUL, which no text holds, stands for the end. -/
def peek (c : Cursor) : Char := c.rest.headD '\x00'

/-- The character so many places on. -/
def peekAt (c : Cursor) (n : Nat) : Char := (c.rest.drop n).headD '\x00'

/-- The place after the next character. A mark of byte order takes no column. -/
def next (c : Cursor) : Cursor :=
  match c.rest with
  | [] => c
  | ch :: rest =>
    let moved := { c with rest, index := c.index + 1 }
    if isBreak ch || (ch == '\r' && rest.head? != some '\n') then
      { moved with line := c.line + 1, column := 0 }
    else if ch == '\ufeff' then moved
    else { moved with column := c.column + 1 }

def skip (c : Cursor) : Nat → Cursor
  | 0 => c
  | n + 1 => c.next.skip n

/-- The run of characters of a class from here on, and the place after it. -/
def span (c : Cursor) (p : Char → Bool) : List Char × Cursor :=
  let run := c.rest.takeWhile p
  (run, c.skip run.length)

def skipWhile (c : Cursor) (p : Char → Bool) : Cursor := (c.span p).2

def skipSpaces (c : Cursor) : Cursor := c.skipWhile (· == ' ')

/-- The place after a comment, if there is one here. -/
def skipComment (c : Cursor) : Cursor :=
  if c.peek == '#' then c.skipWhile fun ch => !isLineStop ch else c

/-- The break here as it is read, and the place after it. -/
def lineBreak? (c : Cursor) : Option (Char × Cursor) :=
  match c.rest with
  | '\r' :: '\n' :: _ => some ('\n', c.skip 2)
  | ch :: _ =>
    if ch == '\u2028' || ch == '\u2029' then some (ch, c.next)
    else if isLineEnd ch then some ('\n', c.next)
    else none
  | [] => none

/-- Whether three characters stand here, with a gap after them. -/
def isMarked (c : Cursor) (mark : Char) : Bool :=
  c.peek == mark && c.peekAt 1 == mark && c.peekAt 2 == mark && isGap (c.peekAt 3)

/-- Whether a document begins or ends here, given that a line does. -/
def isAtSeparator (c : Cursor) : Bool := c.isMarked '-' || c.isMarked '.'

end Cursor
end ApiProjection.Yaml
