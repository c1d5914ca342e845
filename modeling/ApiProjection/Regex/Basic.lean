import ApiProjection.Regex.CharSet
/-!
# Regular expressions

`Regex.ends` is the meaning of an expression: the places in a text where a match that starts at a
given place may end, the preferred one first. `Regex.search` asks whether there is a match anywhere.
-/
namespace ApiProjection

/-- How a repetition chooses among the numbers of matches it may have. -/
inductive Greed
  | most
  | fewest
  /-- As many as there are, and nothing less once they are found. -/
  | all
  deriving DecidableEq, Repr

inductive Regex
  | empty
  /-- One character of a set. -/
  | one (s : CharSet)
  /-- Any character, or any but a line feed. -/
  | any (lineFeed : Bool)
  | both (a b : Regex)
  | either (a b : Regex)
  /-- Between `lo` and `hi` matches in a row. -/
  | times (r : Regex) (lo : Nat) (hi : Option Nat) (greed : Greed)
  /-- A match whose text is kept under a number. -/
  | group (n : Nat) (r : Regex)
  /-- The text kept under a number once more. -/
  | again (n : Nat) (rule : CaseRule)
  /-- One of two expressions, the first if a text is kept under a number. -/
  | ifGroup (n : Nat) (yes no : Regex)
  /-- The preferred match alone. -/
  | committed (r : Regex)
  | textStart
  /-- The start of the text, or a place after a line feed. -/
  | lineStart
  /-- The end of the text, or the place before a line feed that ends it. -/
  | lastLineEnd
  /-- The end of the text, or a place before a line feed. -/
  | lineEnd
  | textEnd
  | wordEdge (ascii negated : Bool)
  /-- A place from where a match goes on, or none does. -/
  | ahead (negated : Bool) (r : Regex)
  /-- A place where a match of so many characters ends, or none does. -/
  | behind (negated : Bool) (width : Nat) (r : Regex)
  deriving Repr

/-! ## Widths -/

/-- How many characters a match has: at least so many and, where there is a bound, at most so many. -/
structure Width where
  lo : Nat
  hi : Option Nat
  deriving DecidableEq, Repr

namespace Width

def exactly (n : Nat) : Width := ⟨n, some n⟩

def append (a b : Width) : Width :=
  ⟨a.lo + b.lo, match a.hi, b.hi with | some m, some n => some (m + n) | _, _ => none⟩

def union (a b : Width) : Width :=
  ⟨min a.lo b.lo, match a.hi, b.hi with | some m, some n => some (max m n) | _, _ => none⟩

/-- The width of a repetition. What has no width has none however often it is repeated. -/
def times (a : Width) (lo : Nat) (hi : Option Nat) : Width :=
  ⟨a.lo * lo, match a.hi, hi with
    | some 0, _ => some 0
    | _, some 0 => some 0
    | some m, some n => some (m * n)
    | _, _ => none⟩

/-- The number of characters, if there is one only. -/
def fixed? (a : Width) : Option Nat := if a.hi = some a.lo then some a.lo else none

end Width

namespace Regex

/-- The width of an expression, given those of the groups before it. -/
def width (groups : List (Nat × Width)) : Regex → Width
  | .one _ | .any _ => .exactly 1
  | .both a b => (a.width groups).append (b.width groups)
  | .either a b => (a.width groups).union (b.width groups)
  | .times r lo hi _ => (r.width groups).times lo hi
  | .group _ r => r.width groups
  | .again n _ => (groups.lookup n).getD (.exactly 0)
  | .ifGroup _ yes no => (yes.width groups).union (no.width groups)
  | .committed r => r.width groups
  | _ => .exactly 0

/-! ## Places -/

/-- A place in a text: how many characters are before it, which they are, the last first, what is after
it, and the texts that are kept there, the latest first. -/
structure Place where
  index : Nat := 0
  before : List Char
  after : List Char
  kept : List (Nat × List Char) := []

namespace Place

/-- Whether two places of one text are at the same point of it. -/
def isAt (x y : Place) : Bool := x.index == y.index

/-- Whether two places of one text are the same and keep the same. -/
def same (x y : Place) : Bool := x.isAt y && x.kept == y.kept

/-- The place after the next character, if that satisfies `p`. -/
def step? (p : Char → Bool) (x : Place) : Option Place :=
  match x.after with
  | c :: cs =>
    if p c then some { x with index := x.index + 1, before := c :: x.before, after := cs } else none
  | [] => none

/-- The place after a text, if that is what comes next. -/
def skip? (rule : CaseRule) : List Char → Place → Option Place
  | [], x => some x
  | c :: cs, x => (x.step? fun d => rule.normal d == rule.normal c).bind (skip? rule cs)

/-- The place so many characters before. -/
def back? : Nat → Place → Option Place
  | 0, x => some x
  | n + 1, x => match x.before with
    | c :: cs => back? n { x with index := x.index - 1, before := cs, after := c :: x.after }
    | [] => none

/-- The place with the text up to it from an earlier one kept under a number. -/
def keep (n : Nat) (start x : Place) : Place :=
  let text := start.after.take (x.index - start.index)
  { x with kept := (n, text) :: x.kept.filter fun g => g.1 != n }

/-- Whether a place is at the edge of a word. An empty text has no such place, and no place that is
not one either. -/
def atWordEdge (ascii negated : Bool) (x : Place) : Bool :=
  let isWord : Char → Bool := fun c => CharClass.word.has ascii c
  !(x.before.isEmpty && x.after.isEmpty) &&
    ((x.before.head?.any isWord) != (x.after.head?.any isWord)) != negated

/-- The place itself if a condition holds. -/
def when (x : Place) (c : Bool) : List Place := if c then [x] else []

end Place

/-- A list with a place added if it is not there. -/
def add (xs : List Place) (x : Place) : List Place := if xs.any x.same then xs else xs ++ [x]

/-- Each place once, in the order in which they come first. -/
def distinct (xs : List Place) : List Place := xs.foldl add []

/-! ## Repetitions -/

/-- The places reached by exactly so many steps. -/
def exactly (f : Place → List Place) : Nat → List Place → List Place
  | 0, xs => xs
  | n + 1, xs => if xs.isEmpty then [] else exactly f n (distinct (xs.flatMap f))

/-- How far the search for the places that repeated steps reach has come. -/
structure Reached where
  visited : List (Option Nat × Place) := []
  found : List Place := []

def Reached.add (v : Reached) (x : Place) : Reached := { v with found := Regex.add v.found x }

def Reached.hasVisited (v : Reached) (left : Option Nat) (x : Place) : Bool :=
  v.visited.any fun p => p.1 == left && p.2.same x

/-- The places reached from a place by so many steps at most, those by more steps first or last. A
step that stays where it is ends the row. Each other step takes a character, so that the fuel is one more
than the characters that are left. -/
def reach (f : Place → List Place) (most : Bool) : Nat → Option Nat → Place → Reached → Reached
  | 0, _, x, v => v.add x
  | fuel + 1, left, x, v =>
    if v.hasVisited left x then v
    else
      let v := { v with visited := (left, x) :: v.visited }
      if left == some 0 then v.add x
      else
        let v := if most then v else v.add x
        let v := (f x).foldl (fun v y =>
          if y.isAt x then v.add y else reach f most fuel (left.map (· - 1)) y v) v
        if most then v.add x else v

/-- The places reached from a place by so many steps at most. -/
def atMost (f : Place → List Place) (most : Bool) (left : Option Nat) (x : Place) : List Place :=
  (reach f most (x.after.length + 1) left x {}).found

/-! ## Matches -/

/-- The places where a match that starts at a place may end, the preferred one first. -/
def ends : Regex → Place → List Place
  | .empty, x => [x]
  | .one s, x => (x.step? s.has).toList
  | .any lineFeed, x => (x.step? fun c => lineFeed || c != '\n').toList
  | .both a b, x => distinct ((ends a x).flatMap (ends b))
  | .either a b, x => distinct (ends a x ++ ends b x)
  | .times r lo hi greed, x =>
    let step : Place → List Place := match greed with
      | .all => fun y => (ends r y).take 1
      | _ => ends r
    let xs := distinct ((exactly step lo [x]).flatMap (atMost step (greed != .fewest) (hi.map (· - lo))))
    if greed == .all then xs.take 1 else xs
  | .group n r, x => (ends r x).map (Place.keep n x)
  | .again n rule, x => match x.kept.lookup n with
    | some text => (x.skip? rule text).toList
    | none => []
  | .ifGroup n yes no, x => if (x.kept.lookup n).isSome then ends yes x else ends no x
  | .committed r, x => (ends r x).take 1
  | .textStart, x => x.when x.before.isEmpty
  | .lineStart, x => x.when (x.before.isEmpty || x.before.head? == some '\n')
  | .lastLineEnd, x => x.when (x.after.isEmpty || x.after == ['\n'])
  | .lineEnd, x => x.when (x.after.isEmpty || x.after.head? == some '\n')
  | .textEnd, x => x.when x.after.isEmpty
  | .wordEdge ascii negated, x => x.when (x.atWordEdge ascii negated)
  | .ahead false r, x => ((ends r x).take 1).map fun y => { x with kept := y.kept }
  | .ahead true r, x => x.when (ends r x).isEmpty
  | .behind negated n r, x =>
    let found := match x.back? n with
      | some y => (ends r y).take 1
      | none => []
    if negated then x.when found.isEmpty else found.map fun y => { x with kept := y.kept }

/-- Whether there is a match that starts at a place or one after it, with what is left of the text. -/
def searchFrom (r : Regex) (index : Nat) (before : List Char) : List Char → Bool
  | [] => !(r.ends { index, before, after := [] }).isEmpty
  | c :: cs =>
    !(r.ends { index, before, after := c :: cs }).isEmpty || searchFrom r (index + 1) (c :: before) cs

/-- Whether there is a match anywhere in a text. -/
def search (r : Regex) (s : String) : Bool := searchFrom r 0 [] s.toList

end Regex
end ApiProjection
