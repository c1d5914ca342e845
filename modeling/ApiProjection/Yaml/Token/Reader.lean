import ApiProjection.Yaml.Token.Tag
/-!
# Reading tokens

`Token.read` cuts a text into tokens. What begins a key of a map shows only at the colon after it:
the number of the token that may begin one is kept until then, and the tokens that say that a key,
and maybe a block, begins are put in at its place. Such a key is on one line and not longer than
`longestKey`.
-/
namespace ApiProjection.Yaml

/-- The most characters from the beginning of a key without a mark to its colon. -/
def longestKey : Nat := 1024

/-- A place where a key may have begun. -/
structure PossibleKey where
  /-- The number of tokens before it. -/
  number : Nat
  /-- Whether nothing but a key may stand there. -/
  required : Bool
  place : Cursor

/-- What has been read: the tokens from the last to the first and their number, how many brackets
are open, the indentations of the block and of those around it, whether a key may begin here, and
where in each pair of open brackets one may have begun. -/
structure Scan where
  place : Cursor
  tokens : List Token := []
  count : Nat := 0
  flow : Nat := 0
  indent : Int := -1
  around : List Int := []
  keyAllowed : Bool := true
  keys : List (Nat × PossibleKey) := []

namespace Scan

def push (s : Scan) (t : Token) : Scan := { s with tokens := t :: s.tokens, count := s.count + 1 }

/-- Puts a token in behind the first so many. -/
def insertAt (s : Scan) (number : Nat) (t : Token) : Scan :=
  let back := s.count - number
  { s with tokens := s.tokens.take back ++ t :: s.tokens.drop back, count := s.count + 1 }

/-- Goes on at another place. -/
def goto (s : Scan) (c : Cursor) : Scan := { s with place := c }

def skip (s : Scan) (n : Nat) : Scan := { s with place := s.place.skip n }

def column (s : Scan) : Int := s.place.column

def isFlow (s : Scan) : Bool := 0 < s.flow

/-! ## Possible keys -/

/-- Whether the colon of a key can no longer come. -/
def isStale (s : Scan) (k : PossibleKey) : Bool :=
  k.place.line != s.place.line || longestKey < s.place.index - k.place.index

/-- Drops the keys whose colon can no longer come. -/
def dropStale (s : Scan) : Except Fault Scan :=
  if s.keys.any fun (_, k) => s.isStale k && k.required then .error (.malformed .keyWithoutColon)
  else .ok { s with keys := s.keys.filter fun (_, k) => !s.isStale k }

/-- Drops the key that may have begun between the innermost brackets. -/
def dropKey (s : Scan) : Except Fault Scan :=
  if s.keys.any fun (level, k) => level == s.flow && k.required then .error (.malformed .keyWithoutColon)
  else .ok { s with keys := s.keys.filter fun (level, _) => level != s.flow }

/-- Notes that a key may begin here. -/
def noteKey (s : Scan) : Except Fault Scan :=
  if !s.keyAllowed then .ok s
  else do
    let required := !s.isFlow && s.indent == s.column
    let s ← s.dropKey
    return { s with keys := (s.flow, ⟨s.count, required, s.place⟩) :: s.keys }

/-! ## Indentation -/

/-- Ends the blocks that are indented more than a column. -/
def closeBlocks (s : Scan) (column : Int) : Scan :=
  if s.isFlow then s else go s s.around
where
  go (s : Scan) : List Int → Scan
    | [] => s
    | outer :: more =>
      if column < s.indent then go ({ s with indent := outer, around := more }.push .blockEnd) more else s

/-- Begins a block at a column unless one is there, with its token behind the first so many. -/
def openBlock (s : Scan) (column : Int) (number : Nat) (t : Token) : Scan :=
  if s.indent < column then
    { s with indent := column, around := s.indent :: s.around }.insertAt number t
  else s

/-! ## Single tokens -/

/-- A token that ends all blocks before it. -/
def atMargin (s : Scan) : Except Fault Scan := do
  let s ← (s.closeBlocks (-1)).dropKey
  return { s with keyAllowed := false }

def openBracket (s : Scan) (t : Token) : Except Fault Scan := do
  let s ← s.noteKey
  return ({ s with flow := s.flow + 1, keyAllowed := true }.skip 1).push t

def closeBracket (s : Scan) (t : Token) : Except Fault Scan := do
  let s ← s.dropKey
  if s.flow = 0 then throw (.malformed .strayBracket)
  return ({ s with flow := s.flow - 1, keyAllowed := false }.skip 1).push t

def comma (s : Scan) : Except Fault Scan := do
  let s ← s.dropKey
  return ({ s with keyAllowed := true }.skip 1).push .comma

def entry (s : Scan) : Except Fault Scan := do
  if !s.isFlow && !s.keyAllowed then throw (.malformed .entryNotAllowed)
  let s := if s.isFlow then s else s.openBlock s.column s.count .blockSequence
  let s ← s.dropKey
  return ({ s with keyAllowed := true }.skip 1).push .entry

def explicitKey (s : Scan) : Except Fault Scan := do
  if !s.isFlow && !s.keyAllowed then throw (.malformed .keyNotAllowed)
  let s := if s.isFlow then s else s.openBlock s.column s.count .blockMapping
  let s ← s.dropKey
  return ({ s with keyAllowed := !s.isFlow }.skip 1).push .key

/-- A colon: the key that may have begun has done so. -/
def colon (s : Scan) : Except Fault Scan :=
  match s.keys.lookup s.flow with
  | some k =>
    let s := { s with keys := s.keys.filter fun (level, _) => level != s.flow }
    let s := s.insertAt k.number .key
    let s := if s.isFlow then s else s.openBlock k.place.column k.number .blockMapping
    .ok (({ s with keyAllowed := false }.skip 1).push .value)
  | none => do
    if !s.isFlow && !s.keyAllowed then throw (.malformed .valueNotAllowed)
    let s := if s.isFlow then s else s.openBlock s.column s.count .blockMapping
    let s := { s with keyAllowed := !s.isFlow }
    let s ← s.dropKey
    return (s.skip 1).push .value

/-- A token that may begin a key. -/
def mayBeKey (s : Scan) (f : Cursor → Except Fault (Token × Cursor)) : Except Fault Scan := do
  let s ← s.noteKey
  let (t, after) ← f s.place
  return ({ s with keyAllowed := false }.goto after).push t

def plain (s : Scan) : Except Fault Scan := do
  let s ← s.noteKey
  let p := plainScalar s.isFlow (s.indent + 1) s.place
  return ({ s with keyAllowed := p.hasBreak }.goto p.after).push (.scalar true (String.ofList p.text))

def block (s : Scan) : Except Fault Scan := do
  let s ← s.dropKey
  let (text, after) ← blockScalar s.indent s.place
  return ({ s with keyAllowed := true }.goto after).push (.scalar false text)

/-! ## The next token -/

/-- The place of the next token; at the beginning of a line outside brackets a key may begin. -/
def toNextToken : Nat → Scan → Scan
  | 0, s => s
  | fuel + 1, s =>
    let c := s.place.skipSpaces.skipComment
    match c.lineBreak? with
    | some (_, c) => toNextToken fuel { s with place := c, keyAllowed := s.keyAllowed || !s.isFlow }
    | none => s.goto c

/-- Whether a plain scalar may begin here. -/
def beginsPlain (s : Scan) : Bool :=
  let c := s.place.peek
  !(isGap c || "-?:,[]\x7b\x7d#&*!|>'\"%@\x60".toList.contains c) ||
    (!isGap (s.place.peekAt 1) && (c == '-' || (!s.isFlow && (c == '?' || c == ':'))))

/-- Reads the token here. -/
def next (s : Scan) : Except Fault Scan :=
  let c := s.place
  let atLineStart := c.column == 0
  let gapAfter := isGap (c.peekAt 1)
  match c.peek with
  | '[' => s.openBracket .flowSequence
  | '\x7b' => s.openBracket .flowMapping
  | ']' => s.closeBracket .flowSequenceEnd
  | '\x7d' => s.closeBracket .flowMappingEnd
  | ',' => s.comma
  | '*' => s.mayBeKey fun c => do let (name, after) ← anchorName c; return (.alias name, after)
  | '&' => s.mayBeKey fun c => do let (name, after) ← anchorName c; return (.anchor name, after)
  | '!' => s.mayBeKey tagToken
  | '\'' | '"' => s.mayBeKey fun c => do let (text, after) ← quotedScalar c; return (.scalar false text, after)
  | ch =>
    if ch == '%' && atLineStart then do
      let s ← s.atMargin
      let (t, after) ← directiveToken s.place
      return (s.goto after).push t
    else if atLineStart && c.isMarked '-' then do return ((← s.atMargin).skip 3).push .documentStart
    else if atLineStart && c.isMarked '.' then do return ((← s.atMargin).skip 3).push .documentEnd
    else if ch == '-' && gapAfter then s.entry
    else if ch == '?' && (s.isFlow || gapAfter) then s.explicitKey
    else if ch == ':' && (s.isFlow || gapAfter) then s.colon
    else if (ch == '|' || ch == '>') && !s.isFlow then s.block
    else if s.beginsPlain then s.plain
    else .error (.malformed (.token ch))

/-- The tokens from the last to the first, where they end, and the fault there if there is one. -/
def run : Nat → Scan → List Token
  | 0, s => s.tokens
  | fuel + 1, s =>
    let s := toNextToken (s.place.rest.length + 1) s
    match s.dropStale with
    | .error f => .broken f :: s.tokens
    | .ok s =>
      let s := s.closeBlocks s.column
      if s.place.rest.isEmpty then
        match s.atMargin with
        | .error f => .broken f :: s.tokens
        | .ok s => s.tokens
      else match s.next with
        | .error f => .broken f :: s.tokens
        | .ok s => run fuel s

end Scan

/-! ## Whole texts -/

/-- A character that may stand in a text. -/
def isAllowed (c : Char) : Bool :=
  let n := c.toNat
  n == 0x09 || n == 0x0a || n == 0x0d || (0x20 ≤ n && n ≤ 0x7e) || n == 0x85 ||
    (0xa0 ≤ n && n ≤ 0xd7ff) || (0xe000 ≤ n && n ≤ 0xfffd) || 0x10000 ≤ n

/-- The beginning of a text, after the mark of byte order if there is one. -/
def Scan.start (cs : List Char) : Scan :=
  let c : Cursor := { rest := cs }
  { place := if c.peek == '\ufeff' then c.next else c }

/-- The tokens of a text. Each token takes a character, so the length is fuel enough. -/
def Token.read (s : String) : List Token :=
  let cs := s.toList
  match cs.find? fun c => !isAllowed c with
  | some c => [.broken (.malformed (.character c))]
  | none => (Scan.run (cs.length + 1) (.start cs)).reverse

end ApiProjection.Yaml
