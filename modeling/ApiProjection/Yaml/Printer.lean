import ApiProjection.Json.Printer
import ApiProjection.Yaml.Cursor
import ApiProjection.Yaml.Plain
/-!
# YAML text

`Yaml.write` lays out a JSON value as block YAML: the members of an object on lines of their own,
in their order, items behind dashes, and long text broken at blanks. A text stands plain if that
reads back as the same text, else between apostrophes, and between double quotes if it holds what
only escapes can say. A key that is empty, long or of several lines stands behind a question mark.
-/
namespace ApiProjection.Yaml

/-- The width after which a line is broken at the next blank. -/
def lineWidth : Nat := 80

/-- The blanks by which one level is indented. -/
def indentStep : Nat := 2

/-! ## Looking at a text -/

/-- A character that may stand in a text without being escaped. -/
def isPlainChar (c : Char) : Bool :=
  let n := c.toNat
  c == '\n' || (0x20 ≤ n && n ≤ 0x7e) ||
  ((n == 0x85 || (0xa0 ≤ n && n ≤ 0xd7ff) || (0xe000 ≤ n && n ≤ 0xfffd) ||
    (0x10000 ≤ n && n < 0x10ffff)) && n != 0xfeff)

/-- Whether a first character, with what follows it, marks something else than a text. -/
def isLeadingMark (c : Char) (next : Option Char) : Bool :=
  let gap := match next with
    | some d => isGap d
    | none => true
  "#,[]\x7b\x7d&*!|>'\"%@\x60".toList.contains c || ((c == '?' || c == ':' || c == '-') && gap)

/-- Whether a later character between its neighbours marks something else than a text. -/
def isInnerMark (previous c : Char) (next : Option Char) : Bool :=
  let gap := match next with
    | some d => isGap d
    | none => true
  (c == ':' && gap) || (c == '#' && isGap previous)

def hasInnerMark : List Char → Bool
  | p :: c :: cs => isInnerMark p c cs.head? || hasInnerMark (c :: cs)
  | _ => false

/-- Whether a text holds a mark that keeps it from standing plain. -/
def hasMark (cs : List Char) : Bool :=
  "---".toList.isPrefixOf cs || "...".toList.isPrefixOf cs ||
  (match cs with
    | c :: rest => isLeadingMark c rest.head?
    | [] => false) || hasInnerMark cs

/-- Whether some character of the first kind is followed by one of the second. -/
def hasPair (p q : Char → Bool) : List Char → Bool
  | a :: b :: cs => (p a && q b) || hasPair p q (b :: cs)
  | _ => false

def isSpace (c : Char) : Bool := c == ' '

/-- Whether a text begins or ends with a blank or a break. -/
def hasLooseEnd (cs : List Char) : Bool :=
  let loose (o : Option Char) : Bool := o.any fun c => isSpace c || isBreak c
  loose cs.head? || loose cs.getLast?

/-- Whether only escapes can say what a text holds. -/
def needsEscapes (cs : List Char) : Bool := hasPair isSpace isBreak cs || !cs.all isPlainChar

/-- How a scalar is put down. -/
inductive Style
  | plain
  | single
  | double
  deriving DecidableEq, Repr

/-- The style of a text, in a key on one line or elsewhere. -/
def styleOf (simpleKey : Bool) (cs : List Char) : Style :=
  let broken := cs.any isBreak
  if Plain.ofChars cs = .text && !(simpleKey && (cs.isEmpty || broken)) && !hasLooseEnd cs && !broken &&
      !needsEscapes cs && !hasMark cs then .plain
  else if !needsEscapes cs && !hasPair isBreak isSpace cs && !(simpleKey && broken) then .single
  else .double

/-- Whether a text stands as a key on the line of its value. -/
def isSimpleKey (cs : List Char) : Bool := cs.length < 123 && !cs.isEmpty && !cs.any isBreak

/-! ## The pen -/

/-- What has been written: its characters from the last to the first, the column, whether the last
of them leaves room for a word, and whether the line so far only leads up to something. -/
structure Pen where
  written : List Char := []
  column : Nat := 0
  roomy : Bool := true
  leading : Bool := true

namespace Pen

/-- Puts down characters that are no break. -/
def put (p : Pen) (cs : List Char) : Pen :=
  { p with written := cs.reverse ++ p.written, column := p.column + cs.length }

/-- Puts down a break. -/
def newLine (p : Pen) (c : Char) : Pen :=
  { written := c :: p.written, column := 0, roomy := true, leading := true }

/-- Puts down a word within a line, after a blank if one is needed. -/
def word (p : Pen) (cs : List Char) : Pen :=
  { (if p.roomy then p else p.put [' ']).put cs with roomy := false, leading := false }

/-- Puts down a mark that leads up to something else, after a blank if one is needed. -/
def mark (p : Pen) (c : Char) : Pen :=
  { (if p.roomy then p else p.put [' ']).put [c] with roomy := false }

/-- Puts down a mark right behind what stands there. -/
def close (p : Pen) (c : Char) : Pen := { p.put [c] with roomy := false, leading := false }

/-- Goes to a column, on a new line unless this one has room. -/
def goto (p : Pen) (indent : Nat) : Pen :=
  let p := if !p.leading || indent < p.column || (p.column == indent && !p.roomy) then p.newLine '\n' else p
  if p.column < indent then { p.put (List.replicate (indent - p.column) ' ') with roomy := true } else p

/-- Goes on in the next line of a text. -/
def continueAt (p : Pen) (indent : Nat) : Pen := { p.goto indent with roomy := false, leading := false }

end Pen

/-! ## Scalars -/

/-- What a run in a text consists of. -/
inductive Run
  | word
  | blanks
  | breaks
  deriving DecidableEq

def Run.ofChar (c : Char) : Run := if isSpace c then .blanks else if isBreak c then .breaks else .word

/-- The text cut into runs of words, blanks and breaks. -/
def runs : List Char → List (Run × List Char)
  | [] => []
  | c :: cs =>
    match runs cs with
    | (r, run) :: rest => if r = Run.ofChar c then (r, c :: run) :: rest else (Run.ofChar c, [c]) :: (r, run) :: rest
    | [] => [(Run.ofChar c, [c])]

/-- Puts down the breaks inside a text. A plain break is written twice, since one alone reads as a
blank. -/
def putBreaks (p : Pen) (indent : Nat) (cs : List Char) : Pen :=
  let p := if cs.head? = some '\n' then p.newLine '\n' else p
  (cs.foldl (fun p c => p.newLine c) p).goto indent

/-- A word inside apostrophes, where an apostrophe is written twice. -/
def doubled (cs : List Char) : List Char := cs.flatMap fun c => if c == '\'' then [c, c] else [c]

/-- Puts down the runs of a text, breaking the line at a single blank between two words once it is
too long. `first` tells the run at the beginning. -/
def putRuns (p : Pen) (indent : Nat) (split : Bool) : Bool → List (Run × List Char) → Pen
  | _, [] => p
  | _, (.word, cs) :: rest => putRuns (p.put (doubled cs)) indent split false rest
  | _, (.breaks, cs) :: rest => putRuns (putBreaks p indent cs) indent split false rest
  | first, (.blanks, cs) :: rest =>
    if cs.length = 1 && lineWidth < p.column && split && !first && !rest.isEmpty then
      putRuns (p.goto indent) indent split false rest
    else putRuns (p.put cs) indent split false rest

/-- Puts down the runs of a plain text. -/
def putPlainRuns (p : Pen) (indent : Nat) (split : Bool) : List (Run × List Char) → Pen
  | [] => p
  | (.blanks, cs) :: rest =>
    if cs.length = 1 && lineWidth < p.column && split then
      putPlainRuns (p.continueAt indent) indent split rest
    else putPlainRuns (p.put cs) indent split rest
  | (_, cs) :: rest => putPlainRuns (p.put cs) indent split rest

def putPlain (p : Pen) (indent : Nat) (split : Bool) (cs : List Char) : Pen :=
  if cs.isEmpty then p else putPlainRuns (p.word []) indent split (runs cs)

def putSingle (p : Pen) (indent : Nat) (split : Bool) (cs : List Char) : Pen :=
  (putRuns (p.word ['\'']) indent split true (runs cs)).close '\''

/-- The letter that stands for a character after a backslash. -/
def escapeLetter? (c : Char) : Option Char :=
  [('\x00', '0'), ('\x07', 'a'), ('\x08', 'b'), ('\t', 't'), ('\n', 'n'), ('\x0b', 'v'), ('\x0c', 'f'),
    ('\r', 'r'), ('\x1b', 'e'), ('"', '"'), ('\\', '\\'), ('\x85', 'N'), ('\xa0', '_'),
    ('\u2028', 'L'), ('\u2029', 'P')].lookup c

/-- The digits of a code in capitals. -/
def capitalHex (width n : Nat) : List Char := (Text.hexDigits width n).map Char.toUpper

def escaped (c : Char) : List Char :=
  match escapeLetter? c with
  | some l => ['\\', l]
  | none =>
    let n := c.toNat
    if n ≤ 0xff then '\\' :: 'x' :: capitalHex 2 n
    else if n ≤ 0xffff then '\\' :: 'u' :: capitalHex 4 n
    else '\\' :: 'U' :: capitalHex 8 n

/-- Whether a character stands for itself between double quotes. -/
def isBare (c : Char) : Bool :=
  let n := c.toNat
  !("\"\\\x85\u2028\u2029\ufeff".toList.contains c) &&
    ((0x20 ≤ n && n ≤ 0x7e) || (0xa0 ≤ n && n ≤ 0xd7ff) || (0xe000 ≤ n && n ≤ 0xfffd))

/-- Goes on in the next line between double quotes, where a backslash keeps a blank. -/
def putFold (p : Pen) (indent : Nat) (pending : List Char) (next : Char) : Pen :=
  let p := (p.put (pending ++ ['\\'])).continueAt indent
  if next == ' ' then p.put ['\\'] else p

/-- Puts down a text between double quotes. `pending` holds the characters not yet put down, last
first; the line is broken at a blank or an escape once it is too long, but not at either end. -/
def putEscaped (indent : Nat) (split : Bool) : Pen → Bool → List Char → List Char → Pen
  | p, _, pending, [] => p.put pending.reverse
  | p, first, pending, c :: cs =>
    let inner := !first && 1 < (c :: cs).length && split
    if isBare c then
      if inner && (c == ' ' || pending.isEmpty) && lineWidth < p.column + pending.length then
        putEscaped indent split (putFold p indent pending.reverse c) false [c] cs
      else putEscaped indent split p false (c :: pending) cs
    else
      let p := (p.put pending.reverse).put (escaped c)
      if inner && lineWidth + 1 < p.column then
        match cs with
        | d :: _ => putEscaped indent split (putFold p indent [] d) false [] cs
        | [] => putEscaped indent split p false [] cs
      else putEscaped indent split p false [] cs

def putDouble (p : Pen) (indent : Nat) (split : Bool) (cs : List Char) : Pen :=
  (putEscaped indent split (p.word ['"']) true [] cs).close '"'

/-- Puts down a text, in a key on one line or elsewhere; its further lines stand at the indent. -/
def putText (p : Pen) (indent : Nat) (simpleKey : Bool) (s : String) : Pen :=
  let cs := s.toList
  match styleOf simpleKey cs with
  | .plain => putPlain p indent (!simpleKey) cs
  | .single => putSingle p indent (!simpleKey) cs
  | .double => putDouble p indent (!simpleKey) cs

/-- The text of a float: in small letters, with a point if there is an exponent. -/
def floatChars (x : Binary64) : List Char :=
  match x with
  | .nan => ".nan".toList
  | .infinite s => (if s then "-.inf" else ".inf").toList
  | x =>
    let cs := x.chars
    if cs.contains '.' then cs else cs.flatMap fun c => if c == 'e' then ['.', '0', 'e'] else [c]

/-! ## Values -/

/-- Whether a sequence stands at the column of the mapping it belongs to. -/
def isFlush (inMapping : Bool) (p : Pen) : Bool := inMapping && !p.leading

/-- Puts down a key and the colon behind it. -/
def putKey (p : Pen) (indent : Nat) (k : String) : Pen :=
  if isSimpleKey k.toList then (putText p (indent + indentStep) true k).close ':'
  else ((putText (p.mark '?') (indent + indentStep) false k).goto indent).mark ':'

mutual
/-- Puts down a value; what it consists of stands at the indent plus one step, a sequence that is
the value of a key on its line at the indent itself. -/
def putValue (p : Pen) (indent : Option Nat) (inMapping : Bool) : Json → Pen
  | .null => p.word "null".toList
  | .bool b => p.word (if b then "true" else "false").toList
  | .int n => p.word (Json.writeInt n)
  | .float x => p.word (floatChars x)
  | .text s => putText p ((indent.getD 0) + indentStep) false s
  | .list [] => p.word ['[', ']']
  | .list (x :: xs) =>
    let inner := match indent with
      | none => 0
      | some n => if isFlush inMapping p then n else n + indentStep
    putItems (putValue ((p.goto inner).mark '-') (some inner) false x) inner xs
  | .object [] => p.word ['\x7b', '\x7d']
  | .object ((k, x) :: ms) =>
    let inner := match indent with
      | none => 0
      | some n => n + indentStep
    putMembers (putValue (putKey (p.goto inner) inner k) (some inner) true x) inner ms

/-- Puts down the further items of a sequence. -/
def putItems (p : Pen) (indent : Nat) : List Json → Pen
  | [] => p
  | x :: xs => putItems (putValue ((p.goto indent).mark '-') (some indent) false x) indent xs

/-- Puts down the further members of a mapping. -/
def putMembers (p : Pen) (indent : Nat) : List (String × Json) → Pen
  | [] => p
  | (k, x) :: ms =>
    putMembers (putValue (putKey (p.goto indent) indent k) (some indent) true x) indent ms
end

/-- The text of a value as a YAML document. -/
def write (j : Json) : String := String.ofList ((putValue {} none false j).goto 0).written.reverse

end ApiProjection.Yaml
