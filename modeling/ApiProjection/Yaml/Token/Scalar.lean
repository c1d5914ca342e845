import ApiProjection.Yaml.Cursor
import ApiProjection.Yaml.Token
/-!
# Scalars in YAML text

How the text of a scalar is read: plain, between quotes, or as a block of indented lines. A single
break inside a scalar of the first two kinds is a blank, and further breaks stand for themselves.
-/
namespace ApiProjection.Yaml

open Cursor

/-! ## Plain -/

/-- Whether a character cannot stand in plain text between brackets. -/
def isFlowMark (c : Char) : Bool := ",[]\x7b\x7d".toList.contains c

/-- Whether plain text ends before a character, given the one after it. -/
def endsPlain (inFlow : Bool) (c after : Char) : Bool :=
  isGap c || (c == ':' && (isGap after || (inFlow && isFlowMark after))) ||
    (inFlow && (c == '?' || isFlowMark c))

/-- A run of plain text without blanks. -/
def plainRun (inFlow : Bool) : List Char → List Char
  | [] => []
  | c :: cs => if endsPlain inFlow c (cs.headD '\x00') then [] else c :: plainRun inFlow cs

/-- A first break and the breaks after it as they are folded into one text. -/
def folded (first : Char) (more : List Char) : List Char :=
  if first != '\n' then first :: more else if more.isEmpty then [' '] else more

/-- The breaks here, with the blanks between them left out, and whether a document ends at one. -/
def plainBreaks : Nat → Cursor → List Char × Cursor × Bool
  | 0, c => ([], c, false)
  | fuel + 1, c =>
    let c := c.skipSpaces
    match c.lineBreak? with
    | none => ([], c, false)
    | some (b, c) =>
      if c.isAtSeparator then ([b], c, true)
      else
        let (bs, c, ended) := plainBreaks fuel c
        (b :: bs, c, ended)

/-- What stands between two runs of plain text. -/
structure PlainGap where
  text : List Char
  after : Cursor
  hasBreak : Bool

/-- The gap here, which is empty if the text ends. -/
def plainGap (c : Cursor) : PlainGap :=
  let (blanks, c) := c.span (· == ' ')
  match c.lineBreak? with
  | none => ⟨blanks, c, false⟩
  | some (first, c) =>
    if c.isAtSeparator then ⟨[], c, true⟩
    else
      let (more, c, ended) := plainBreaks (c.rest.length + 1) c
      ⟨if ended then [] else folded first more, c, true⟩

/-- A scalar with the place after it, and whether a line began since its last character. -/
structure PlainScalar where
  text : List Char
  after : Cursor
  hasBreak : Bool

/-- Plain text after a gap, in lines indented at least as given. -/
def plainRuns (inFlow : Bool) (indent : Int) (gap : PlainGap) : Nat → Cursor → PlainScalar
  | 0, c => ⟨[], c, gap.hasBreak⟩
  | fuel + 1, c =>
    let run := if c.peek == '#' then [] else plainRun inFlow c.rest
    if run.isEmpty then ⟨[], c, gap.hasBreak⟩
    else
      let next := plainGap (c.skip run.length)
      if next.text.isEmpty || next.after.peek == '#' || (!inFlow && (next.after.column : Int) < indent) then
        ⟨gap.text ++ run, next.after, next.hasBreak⟩
      else
        let more := plainRuns inFlow indent next fuel next.after
        { more with text := gap.text ++ run ++ more.text }

/-- The plain scalar here. -/
def plainScalar (inFlow : Bool) (indent : Int) (c : Cursor) : PlainScalar :=
  plainRuns inFlow indent ⟨[], c, false⟩ (c.rest.length + 1) c

/-! ## Between quotes -/

/-- The characters that follow a backslash for one other character. -/
def escapes : List (Char × Char) :=
  [('0', '\x00'), ('a', '\x07'), ('b', '\x08'), ('t', '\t'), ('\t', '\t'), ('n', '\n'), ('v', '\x0b'),
    ('f', '\x0c'), ('r', '\r'), ('e', '\x1b'), (' ', ' '), ('"', '"'), ('\\', '\\'), ('/', '/'),
    ('N', '\x85'), ('_', '\u00a0'), ('L', '\u2028'), ('P', '\u2029')]

/-- How many digits follow the letter of an escape by number. -/
def escapeWidth? (c : Char) : Option Nat :=
  match c with
  | 'x' => some 2
  | 'u' => some 4
  | 'U' => some 8
  | _ => none

/-- The number that hexadecimal digits stand for. -/
def hexNumber? (cs : List Char) : Option Nat :=
  cs.foldlM (fun n c => (Json.hexValue? c).map (16 * n + ·)) 0

/-- The breaks here, with the blanks between them left out. -/
def quotedBreaks : Nat → Cursor → Except Fault (List Char × Cursor)
  | 0, c => .ok ([], c)
  | fuel + 1, c =>
    if c.isAtSeparator then .error (.malformed .separatorInQuote)
    else
      let c := c.skipWhile fun ch => ch == ' ' || ch == '\t'
      match c.lineBreak? with
      | none => .ok ([], c)
      | some (b, c) => do
        let (bs, c) ← quotedBreaks fuel c
        return (b :: bs, c)

/-- What an escape stands for, from the character after the backslash on. -/
def escapeText (c : Cursor) : Except Fault (List Char × Cursor) :=
  match escapes.lookup c.peek with
  | some ch => .ok ([ch], c.next)
  | none =>
    match escapeWidth? c.peek with
    | some width =>
      let digits := c.next.rest.take width
      match hexNumber? digits with
      | some n =>
        if digits.length < width then .error (.malformed .escape)
        else if 0x10ffff < n then .error (.code n)
        else .ok ([Char.ofNat n], c.next.skip width)
      | none => .error (.malformed .escape)
    | none =>
      match c.lineBreak? with
      | some (_, c) => quotedBreaks (c.rest.length + 1) c
      | none => .error (.malformed .escape)

/-- The blanks or the break here, inside quotes. -/
def quotedGap (c : Cursor) : Except Fault (List Char × Cursor) :=
  let (blanks, c) := c.span fun ch => ch == ' ' || ch == '\t'
  match c.lineBreak? with
  | some (first, c) => do
    let (more, c) ← quotedBreaks (c.rest.length + 1) c
    return (folded first more, c)
  | none => if c.rest.isEmpty then .error (.malformed .openQuote) else .ok (blanks, c)

/-- The text up to the quote, with the place after the quote. -/
def quotedText (double : Bool) : Nat → Cursor → Except Fault (List Char × Cursor)
  | 0, _ => .error (.malformed .openQuote)
  | fuel + 1, c =>
    let andThen (x : List Char × Cursor) : Except Fault (List Char × Cursor) := do
      let (rest, c) ← quotedText double fuel x.2
      return (x.1 ++ rest, c)
    match c.peek with
    | '\'' =>
      if double then andThen (['\''], c.next)
      else if c.peekAt 1 == '\'' then andThen (['\''], c.skip 2)
      else .ok ([], c.next)
    | '"' => if double then .ok ([], c.next) else andThen (['"'], c.next)
    | '\\' => if double then (escapeText c.next).bind andThen else andThen (['\\'], c.next)
    | ch => if isGap ch then (quotedGap c).bind andThen else andThen ([ch], c.next)

/-- The scalar between quotes here. -/
def quotedScalar (c : Cursor) : Except Fault (String × Cursor) := do
  let (text, after) ← quotedText (c.peek == '"') (c.rest.length + 1) c.next
  return (String.ofList text, after)

/-! ## In a block -/

/-- What the header of a block says: which of the last breaks are kept, and by how many blanks
the lines are indented. -/
structure BlockHeader where
  /-- All of the last breaks, none, or the first if this is not given. -/
  keep : Option Bool
  step : Option Nat

/-- The sign of a header. -/
def keepSign? (c : Cursor) : Option Bool × Cursor :=
  match c.peek with
  | '+' => (some true, c.next)
  | '-' => (some false, c.next)
  | _ => (none, c)

/-- The digit of a header, which is not zero. -/
def stepDigit? (c : Cursor) : Except Fault (Option Nat × Cursor) :=
  if !Json.isDigit c.peek then .ok (none, c)
  else if c.peek == '0' then .error (.malformed .blockHeader)
  else .ok (some (c.peek.toNat - '0'.toNat), c.next)

/-- The rest of a line on which only a comment may stand, up to and with its break. -/
def emptyLine (p : Problem) (c : Cursor) : Except Fault Cursor :=
  let c := c.skipSpaces.skipComment
  match c.lineBreak? with
  | some (_, c) => .ok c
  | none => if c.rest.isEmpty then .ok c else .error (.malformed p)

/-- The header of a block with the line it is on. -/
def blockHeader (c : Cursor) : Except Fault (BlockHeader × Cursor) := do
  let (sign, c) := keepSign? c
  let (step, c) ← stepDigit? c
  let (keep, c) := if sign.isNone && step.isSome then keepSign? c else (sign, c)
  if c.peek != ' ' && !isLineStop c.peek then throw (.malformed .blockHeader)
  return (⟨keep, step⟩, ← emptyLine .blockHeader c)

/-- The empty lines here, and the most blanks on one of them or before the first that is not. -/
def leadingLines : Nat → Cursor → List Char × Nat × Cursor
  | 0, c => ([], 0, c)
  | fuel + 1, c =>
    let c := c.skipSpaces
    match c.lineBreak? with
    | none => ([], c.column, c)
    | some (b, after) =>
      let (bs, most, rest) := leadingLines fuel after
      (b :: bs, max c.column most, rest)

/-- The place after at most so many columns of blanks. -/
def skipToColumn (c : Cursor) (column : Nat) : Cursor :=
  c.skip (min (column - c.column) (c.rest.takeWhile (· == ' ')).length)

/-- The empty lines here, in a block with the given indentation. -/
def emptyLines (indent : Nat) : Nat → Cursor → List Char × Cursor
  | 0, c => ([], c)
  | fuel + 1, c =>
    let c := skipToColumn c indent
    match c.lineBreak? with
    | none => ([], c)
    | some (b, c) =>
      let (bs, c) := emptyLines indent fuel c
      (b :: bs, c)

/-- The lines of a block from the first that is not empty, with the breaks at its end. -/
structure BlockLines where
  text : List Char := []
  last : Option Char := none
  breaks : List Char := []
  after : Cursor

def isBlankOrTab (c : Char) : Bool := c == ' ' || c == '\t'

/-- What stands between two lines. -/
def betweenLines (fold : Bool) (last : Option Char) (breaks : List Char) (first next : Char) : List Char :=
  if fold && last == some '\n' && !isBlankOrTab first && !isBlankOrTab next then
    (if breaks.isEmpty then [' '] else []) ++ breaks
  else last.toList ++ breaks

/-- The lines here, which are indented as given. -/
def blockLines (fold : Bool) (indent : Nat) : Nat → Cursor → BlockLines
  | 0, c => { after := c }
  | fuel + 1, c =>
    if c.column != indent || c.rest.isEmpty then { after := c }
    else
      let (line, rest) := c.span fun ch => !isLineStop ch
      let (last, next) := match rest.lineBreak? with
        | some (b, next) => (some b, next)
        | none => (none, rest)
      let (breaks, next) := emptyLines indent (next.rest.length + 1) next
      if next.column == indent && !next.rest.isEmpty then
        let more := blockLines fold indent fuel next
        { more with text := line ++ betweenLines fold last breaks c.peek next.peek ++ more.text }
      else { text := line, last, breaks, after := next }

/-- The block scalar here; the lines of a node around it are indented as given. -/
def blockScalar (indent : Int) (c : Cursor) : Except Fault (String × Cursor) := do
  let fold := c.peek == '>'
  let (header, c) ← blockHeader c.next
  let least := (max (indent + 1) 1).toNat
  let (indent, leading, start) := match header.step with
    | some step =>
      let indent := least + step - 1
      let (breaks, c) := emptyLines indent (c.rest.length + 1) c
      (indent, breaks, c)
    | none =>
      let (breaks, most, c) := leadingLines (c.rest.length + 1) c
      (max least most, breaks, c)
  if start.column != indent || start.rest.isEmpty then
    return (String.ofList (if header.keep == some true then leading else []), start)
  let lines := blockLines fold indent (start.rest.length + 1) start
  let last := if header.keep == some false then [] else lines.last.toList
  let breaks := if header.keep == some true then lines.breaks else []
  return (String.ofList (leading ++ lines.text ++ last ++ breaks), lines.after)

end ApiProjection.Yaml
