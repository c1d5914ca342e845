import ApiProjection.Regex.Escape
/-!
# How a group begins

After an opening parenthesis `Cursor.opening` reads what kind of group it opens: one that keeps its text,
one that looks around, a condition, letters that change how the rest is read.
-/
namespace ApiProjection.Regex

/-! ## Letters that change how an expression is read -/

inductive Flag
  | anyCase
  | locale
  | manyLines
  | dotAll
  | spaced
  | ascii
  | template
  | unicode
  deriving DecidableEq, Repr

namespace Flag

def ofChar? : Char → Option Flag
  | 'i' => some anyCase
  | 'L' => some locale
  | 'm' => some manyLines
  | 's' => some dotAll
  | 'x' => some spaced
  | 'a' => some ascii
  | 't' => some template
  | 'u' => some unicode
  | _ => none

def ofToken? : Token → Option Flag
  | .plain d => ofChar? d
  | .escaped _ => none

/-- Whether a letter says which characters a class has. -/
def isForClasses : Flag → Bool
  | locale | ascii | unicode => true
  | _ => false

def apply (value : Bool) (m : Manner) : Flag → Manner
  | anyCase => { m with anyCase := value }
  | manyLines => { m with manyLines := value }
  | dotAll => { m with dotAll := value }
  | spaced => { m with spaced := value }
  | ascii => { m with ascii := value }
  | unicode => { m with ascii := !value }
  | locale | template => m

end Flag

/-- The fault of a token among such letters that is none: a letter, or something else where `what` was
expected. -/
def flagFault (what : String) : Token → Fault
  | .plain d => if Text.isLetter d then .unknownFlag else .missing what
  | .escaped _ => .missing what

/-- Reads the letters that turn something on, up to a mark, the first of them taken already. -/
def flagsOn : Nat → List Flag → Flag → Cursor → Reading (List Flag × Char × Cursor)
  | 0, _, _, c => fail .patternEnd c 0
  | fuel + 1, on, f, c => do
    if f == .locale then fail .localeFlag c 0
    let on := on ++ [f]
    if f.isForClasses && on.any (fun g => g.isForClasses && g != f) then fail .mixedFlags c 0
    match ← c.next with
    | (none, c) => fail (.missing "-, : or )") c 0
    | (some t, c) => match t with
      | .plain ')' => return (on, ')', c)
      | .plain '-' => return (on, '-', c)
      | .plain ':' => return (on, ':', c)
      | t => match Flag.ofToken? t with
        | some f => flagsOn fuel on f c
        | none => fail (flagFault "-, : or )" t) c t.size

/-- Reads the letters that turn something off, up to a colon, the first of them taken already. -/
def flagsOff : Nat → List Flag → Flag → Cursor → Reading (List Flag × Cursor)
  | 0, _, _, c => fail .patternEnd c 0
  | fuel + 1, off, f, c => do
    if f.isForClasses then fail .classFlagOff c 0
    let off := off ++ [f]
    match ← c.next with
    | (none, c) => fail (.missing ":") c 0
    | (some (.plain ':'), c) => return (off, c)
    | (some t, c) => match Flag.ofToken? t with
      | some f => flagsOff fuel off f c
      | none => fail (flagFault ":" t) c t.size

/-- What the letters after a question mark turn on and off: for the whole expression, or for a group. -/
inductive Flags
  | whole (on : List Flag)
  | group (on off : List Flag)

/-- Reads the letters that follow a minus sign. -/
def Cursor.minus (c : Cursor) (on : List Flag) : Reading (Flags × Cursor) := do
  match ← c.next with
  | (none, c) => fail (.missing "flag") c 0
  | (some t, c) => match Flag.ofToken? t with
    | none => fail (flagFault "flag" t) c t.size
    | some f =>
      let (off, c) ← flagsOff (c.rest.length + 1) [] f c
      if off.contains .template then fail .globalFlagOff c 1
      if on.any fun f => off.contains f then fail .flagOnAndOff c 1
      return (.group on off, c)

/-- Reads the letters of which the first has been taken. -/
def Cursor.flags (c : Cursor) (f : Flag) : Reading (Flags × Cursor) := do
  let (on, mark, c) ← flagsOn (c.rest.length + 1) [] f c
  if mark == ')' then return (.whole on, c)
  else if on.contains .template then fail .globalFlagOn c 1
  else if mark == '-' then c.minus on
  else return (.group on [], c)

/-! ## Kinds of groups -/

/-- What is done with the expression in a group. -/
inductive GroupKind
  | plain
  | kept (n : Nat)
  | committed
  | ahead (negated : Bool)
  | behind (negated : Bool)

/-- What an opening parenthesis begins. -/
inductive Opening
  /-- A remark, already taken. -/
  | remark
  /-- A group asked for by its name, already taken. -/
  | whole (r : Regex)
  /-- Letters for the whole expression, already taken. -/
  | manner (m : Manner)
  | group (kind : GroupKind) (m : Manner)
  | condition (n : Nat)

/-- Whether a text can be the name of a group. -/
def isGroupName (s : String) : Bool :=
  s.toList.all Text.isWordChar && (s.toList.head?.any fun d => Text.isLetter d || d == '_')

/-- Skips a remark up to its parenthesis. `start` is the number of characters from its beginning to the
end. -/
def skipRemark (start : Nat) : Nat → Cursor → Reading Cursor
  | 0, _ => .error ⟨.openComment, start⟩
  | fuel + 1, c => do
    match ← c.next with
    | (none, _) => .error ⟨.openComment, start⟩
    | (some (.plain ')'), c) => return c
    | (some _, c) => skipRemark start fuel c

/-- Reads the name of a group up to the character that ends it. -/
def Cursor.groupName (c : Cursor) (stop : Char) : Reading (String × Cursor) := do
  let (s, c) ← c.name stop "group name"
  if isGroupName s then return (s, c) else fail (.badGroupName s) c (s.length + 1)

/-- Reads the number or the name of the group that a condition asks for. -/
def Cursor.condition (c : Cursor) : Reading (Nat × Cursor) := do
  let (s, c) ← c.name ')' "group name"
  if isGroupName s then
    match c.names.lookup s with
    | none => fail (.unknownGroupName s) c (s.length + 1)
    | some n =>
      c.checkBehind n
      return (n, c)
  else if !s.toList.all Char.isDigit then fail (.badGroupName s) c (s.length + 1)
  else
    let n := numberIn 10 s.toList
    if n = 0 then fail .zeroReference c (s.length + 1)
    let c := if c.conditions.any (fun p => p.1 == n) then c
      else { c with conditions := c.conditions ++ [(n, c.rest.length + s.length + 1)] }
    c.checkBehind n
    return (n, c)

/-- Reads what follows a question mark and the letter of a named group. -/
def Cursor.namedOpening (c : Cursor) (m : Manner) : Reading (Opening × Cursor) := do
  match ← c.next with
  | (some (.plain '<'), c) =>
    let (s, c) ← c.groupName '>'
    let (n, c) ← c.openGroup (some s)
    return (.group (.kept n) m, c)
  | (some (.plain '='), c) =>
    let (s, c) ← c.groupName ')'
    match c.names.lookup s with
    | none => fail (.unknownGroupName s) c (s.length + 1)
    | some n => return (.whole (← c.reference m n (s.length + 1)), c)
  | (none, c) => fail .patternEnd c 0
  | (some t, c) => fail (.unknownExtension ("?P" ++ t.text)) c (t.size + 2)

/-- The opening that letters make. Those for the whole expression have to stand at its start. -/
def Flags.opening (fs : Flags) (m : Manner) (atStart : Bool) (start : Nat) (c : Cursor) :
    Reading (Opening × Cursor) :=
  match fs with
  | .whole on =>
    if !atStart then .error ⟨.lateFlags, start⟩
    else
      let m := on.foldl (Flag.apply true) c.manner
      let ascii := c.manner.ascii || m.ascii
      .ok (.manner { m with ascii },
        { c with manner := { m with ascii }, wide := c.wide || on.contains .unicode })
  | .group on off => .ok (.group .plain (off.foldl (Flag.apply false) (on.foldl (Flag.apply true) m)), c)

/-- Reads what an opening parenthesis begins. The parenthesis has been taken; `start` is the number of
characters from it to the end. -/
def Cursor.opening (c : Cursor) (m : Manner) (atStart : Bool) (start : Nat) :
    Reading (Opening × Cursor) := do
  match ← c.take? '?' with
  | none =>
    let (n, c) ← c.openGroup none
    return (.group (.kept n) m, c)
  | some c => match ← c.next with
    | (none, c) => fail .patternEnd c 0
    | (some t, c) => match t with
      | .plain 'P' => c.namedOpening m
      | .plain ':' => return (.group .plain m, c)
      | .plain '>' => return (.group .committed m, c)
      | .plain '=' => return (.group (.ahead false) m, c)
      | .plain '!' => return (.group (.ahead true) m, c)
      | .plain '#' => return (.remark, ← skipRemark start (c.rest.length + 1) c)
      | .plain '(' =>
        let (n, c) ← c.condition
        return (.condition n, c)
      | .plain '<' => match ← c.next with
        | (none, c) => fail .patternEnd c 0
        | (some (.plain '='), c) => return (.group (.behind false) m, c)
        | (some (.plain '!'), c) => return (.group (.behind true) m, c)
        | (some t, c) => fail (.unknownExtension ("?<" ++ t.text)) c (t.size + 2)
      | .plain '-' =>
        let (fs, c) ← c.minus []
        fs.opening m atStart start c
      | t => match Flag.ofToken? t with
        | some f =>
          let (fs, c) ← c.flags f
          fs.opening m atStart start c
        | none => fail (.unknownExtension ("?" ++ t.text)) c (t.size + 1)

end ApiProjection.Regex
