import ApiProjection.Regex.Opening
/-!
# Reading regular expressions

`Regex.parse` reads an expression in the usual notation, or says where and why it is none.
-/
namespace ApiProjection.Regex

/-! ## Sets -/

/-- Reads a member of a set whose first token has been taken. -/
def Cursor.member (c : Cursor) (ascii : Bool) : Token → Reading (CharItem × Cursor)
  | .escaped d => c.memberEscape ascii d
  | .plain d => .ok (item d.toNat, c)

/-- Reads the members of a set up to its bracket. `start` is the number of characters from its beginning
to the end. -/
def readMembers (start : Nat) (ascii : Bool) : Nat → List CharItem → Cursor →
    Reading (List CharItem × Cursor)
  | 0, _, _ => .error ⟨.openSet, start⟩
  | fuel + 1, items, c => do
    match ← c.next with
    | (none, _) => .error ⟨.openSet, start⟩
    | (some first, c) =>
      if first == .plain ']' && !items.isEmpty then return (items, c)
      let (i, c) ← c.member ascii first
      match ← c.take? '-' with
      | none => readMembers start ascii fuel (items ++ [i]) c
      | some c => match ← c.next with
        | (none, _) => .error ⟨.openSet, start⟩
        | (some (.plain ']'), c) => return (items ++ [i, item '-'.toNat], c)
        | (some last, c) =>
          let (j, c) ← c.member ascii last
          let bad : Reading (List CharItem × Cursor) :=
            fail (.badRange first.text last.text) c (first.size + 1 + last.size)
          match i, j with
          | .range lo _, .range hi _ =>
            if hi < lo then bad else readMembers start ascii fuel (items ++ [.range lo hi]) c
          | _, _ => bad

/-- Reads a set whose opening bracket has been taken. -/
def readSet (m : Manner) (c : Cursor) : Reading (Regex × Cursor) := do
  let start := c.rest.length + 1
  let (negated, c) := match ← c.take? '^' with
    | some c => (true, c)
    | none => (false, c)
  let (items, c) ← readMembers start m.ascii (c.rest.length + 1) [] c
  return (.one { negated, rule := m.caseRule, items }, c)

/-! ## Repetitions -/

/-- From this number on a repetition is too large. -/
def countLimit : Nat := 4294967295

/-- Reads the bounds between braces, if they are bounds. The opening brace has been taken. -/
def readBounds (c : Cursor) : Reading (Option (Nat × Option Nat × Cursor)) := do
  if c.sees '\x7d' then return none
  let (lo, d) ← c.digits
  let (hi, d) ← match ← d.take? ',' with
    | some d => d.digits
    | none => pure (lo, d)
  match ← d.take? '\x7d' with
  | none => return none
  | some d =>
    let low := numberIn 10 lo
    let high := numberIn 10 hi
    if countLimit ≤ low || countLimit ≤ high then fail .hugeCount d 0
    if !hi.isEmpty && high < low then fail .minAboveMax c 0
    return some (low, if hi.isEmpty then none else some high, d)

/-- Whether a character begins a repetition. -/
def isCount (t : Char) : Bool := t == '?' || t == '*' || t == '+' || t == '\x7b'

/-- Reads how often something is repeated after the token that begins to say so. -/
def readCount (t : Char) (c : Cursor) : Reading (Option (Nat × Option Nat × Cursor)) :=
  match t with
  | '?' => .ok (some (0, some 1, c))
  | '*' => .ok (some (0, none, c))
  | '+' => .ok (some (1, none, c))
  | _ => readBounds c

/-- Reads the mark of how greedy a repetition is. -/
def readGreed (c : Cursor) : Reading (Greed × Cursor) := do
  match ← c.take? '?' with
  | some c => return (.fewest, c)
  | none => match ← c.take? '+' with
    | some c => return (.all, c)
    | none => return (.most, c)

/-! ## Expressions -/

/-- What a repetition has to know about the piece before it. -/
inductive Role
  /-- A piece that marks a place and cannot be repeated. -/
  | mark
  /-- A piece that is repeated already. -/
  | repeated
  | other
  deriving DecidableEq, Repr

def Role.of : Regex → Role
  | .textStart | .lineStart | .lastLineEnd | .lineEnd | .textEnd | .wordEdge _ _ => .mark
  | _ => .other

/-- The pieces of a sequence in order. -/
structure Pieces where
  done : Regex := .empty
  last? : Option (Regex × Role) := none

def Pieces.push (p : Pieces) (r : Regex) (role : Role) : Pieces :=
  match p.last? with
  | none => ⟨p.done, some (r, role)⟩
  | some (q, _) => ⟨.both p.done q, some (r, role)⟩

def Pieces.add (p : Pieces) (r : Regex) : Pieces := p.push r (.of r)

def Pieces.regex (p : Pieces) : Regex :=
  match p.last? with
  | none => p.done
  | some (r, _) => .both p.done r

/-- The last piece, if it can be repeated. `left` is the number of characters from the repetition to the
end. -/
def Pieces.repeatable (p : Pieces) (left : Nat) : Reading Regex :=
  match p.last? with
  | none | some (_, .mark) => .error ⟨.nothingToRepeat, left⟩
  | some (_, .repeated) => .error ⟨.multipleRepeat, left⟩
  | some (r, .other) => .ok r

/-- The pieces with another as the last, which is a repetition. -/
def Pieces.replaceLast (p : Pieces) (r : Regex) : Pieces := { p with last? := some (r, .repeated) }

/-- The set of one character. -/
def literal (m : Manner) (d : Char) : Regex := .one { rule := m.caseRule, items := [item d.toNat] }

/-- The blank characters that mean nothing in a spaced expression. -/
def isAsciiSpace (d : Char) : Bool := Text.isSpace d && d.toNat < 0x80

/-- Skips a line. -/
def skipLine : Nat → Cursor → Reading Cursor
  | 0, c => .ok c
  | fuel + 1, c => do
    match ← c.next with
    | (none, c) => return c
    | (some (.plain '\n'), c) => return c
    | (some _, c) => skipLine fuel c

/-- Closes a group around the expression that has been read in it. -/
def Cursor.close (c : Cursor) (outer : Option Nat) (r : Regex) : GroupKind → Regex × Cursor
  | .plain => (r, c)
  | .kept n => (.group n r, c.closeGroup n r)
  | .committed => (.committed r, c)
  | .ahead negated => (.ahead negated r, c)
  | .behind negated => match (r.width c.widths).fixed? with
    | some n => (.behind negated n r, { c with behindFrom := outer })
    | none => (.behind negated 0 r, { c with behindFrom := outer, unfixed := true })

/-- The cursor for the inside of a group. -/
def Cursor.inside (c : Cursor) : GroupKind → Cursor
  | .behind _ => { c with behindFrom := some (c.behindFrom.getD c.opened) }
  | _ => c

/-- Takes the parenthesis that closes a group. -/
def Cursor.closing (c : Cursor) (start : Nat) : Reading Cursor := do
  match ← c.take? ')' with
  | some c => return c
  | none => .error ⟨.openGroup, start⟩

mutual
/-- Reads alternatives up to the end or a closing parenthesis. -/
def readAlternatives : Nat → Manner → Bool → Bool → Cursor → Reading (Regex × Cursor)
  | 0, _, _, _, c => fail .openGroup c 0
  | fuel + 1, m, outermost, first, c => do
    let (r, c) ← readSequence fuel m (outermost && first) {} c
    match ← c.take? '|' with
    | none => return (r, c)
    | some c =>
      let m := if outermost then c.manner else m
      let (s, c) ← readAlternatives fuel m outermost false c
      return (.either r s, c)

/-- Reads pieces up to a bar, the end or a closing parenthesis. -/
def readSequence : Nat → Manner → Bool → Pieces → Cursor → Reading (Regex × Cursor)
  | 0, _, _, _, c => fail .openGroup c 0
  | fuel + 1, m, first, p, c => do
    let start := c.rest.length
    match c.peek? with
    | none | some (.plain '|') | some (.plain ')') => return (p.regex, c)
    | some (.escaped d) =>
      let (r, c) ← (← c.drop).escape m d
      readSequence fuel m first (p.add r) c
    | some (.plain t) =>
      let c ← c.drop
      if m.spaced && isAsciiSpace t then readSequence fuel m first p c
      else if m.spaced && t == '#' then
        readSequence fuel m first p (← skipLine (c.rest.length + 1) c)
      else match t with
        | '.' => readSequence fuel m first (p.add (.any m.dotAll)) c
        | '^' => readSequence fuel m first (p.add (if m.manyLines then .lineStart else .textStart)) c
        | '$' => readSequence fuel m first (p.add (if m.manyLines then .lineEnd else .lastLineEnd)) c
        | '[' =>
          let (r, c) ← readSet m c
          readSequence fuel m first (p.add r) c
        | '(' => match ← c.opening m (first && p.last?.isNone) start with
          | (.remark, c) => readSequence fuel m first p c
          | (.whole r, c) => readSequence fuel m first (p.add r) c
          | (.manner m, c) => readSequence fuel m first p c
          | (.group kind inner, c) =>
            let (r, d) ← readAlternatives fuel inner false false (c.inside kind)
            let (r, d) := (← d.closing start).close c.behindFrom r kind
            readSequence fuel m first (p.push r .other) d
          | (.condition n, c) =>
            let (yes, c) ← readSequence fuel m false {} c
            let (no, c) ← match ← c.take? '|' with
              | none => pure (.empty, c)
              | some c => readSequence fuel m false {} c
            if c.sees '|' then fail .manyBranches c 0
            readSequence fuel m first (p.push (.ifGroup n yes no) .other) (← c.closing start)
        | t =>
          if isCount t then
            match ← readCount t c with
            | some (lo, hi, c) =>
              let r ← p.repeatable start
              let (greed, c) ← readGreed c
              readSequence fuel m first (p.replaceLast (.times r lo hi greed)) c
            | none => readSequence fuel m first (p.add (literal m t)) c
          else readSequence fuel m first (p.add (literal m t)) c
end

/-- Reads a whole expression. -/
def parseChars (cs : List Char) : Reading Regex := do
  let c ← ({ rest := [] } : Cursor).move cs
  let (r, c) ← readAlternatives (2 * cs.length + 3) {} true true c
  if c.manner.ascii && c.wide then fail .mixedGlobalFlags c 0
  if !c.rest.isEmpty then fail .closedGroup c 0
  match c.conditions.find? fun p => c.opened < p.1 with
  | some (n, left) => .error ⟨.badReference n, left⟩
  | none => if c.unfixed then fail .variableBehind c 0 else return r

def parse (s : String) : Reading Regex := parseChars s.toList

end ApiProjection.Regex
