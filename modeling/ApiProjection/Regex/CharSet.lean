import ApiProjection.Text.AnyCase
import ApiProjection.Text.Blank
/-!
# Sets of characters

`CharSet.has` says whether a character is in a set as it is written in a regular expression: ranges and
classes, all of them or all but them, with case told apart or not.
-/
namespace ApiProjection

/-- The classes of characters that have a name of their own. -/
inductive CharClass
  | digit
  | word
  | space
  deriving DecidableEq, Repr

/-- A member of a set: the characters with codes in a range, or a class or what is not in it. -/
inductive CharItem
  | range (lo hi : Nat)
  | named (cls : CharClass) (ascii negated : Bool)
  deriving DecidableEq, Repr

/-- Which characters count as the same letter. -/
inductive CaseRule
  | exact
  | asciiLetters
  | allLetters
  deriving DecidableEq, Repr

structure CharSet where
  negated : Bool := false
  rule : CaseRule := .exact
  items : List CharItem
  deriving DecidableEq, Repr

def CharClass.has (ascii : Bool) (c : Char) : CharClass → Bool
  | .digit => if ascii then c.isDigit else Text.isDecimalDigit c
  | .word => if ascii then c.isAlphanum || c == '_' else Text.isWordChar c
  | .space => if ascii then Text.isSpace c && c.toNat < 0x80 else Text.isBlank c

/-- The codes of the characters that count as one. -/
def CaseRule.variants (c : Char) : CaseRule → List Nat
  | .exact => [c.toNat]
  | .asciiLetters => Text.asciiCaseVariants c
  | .allLetters => Text.caseVariants c

/-- The one character that stands for all that count as one when texts are compared. -/
def CaseRule.normal (c : Char) : CaseRule → Char
  | .exact => c
  | .asciiLetters => c.toLower
  | .allLetters => Text.smallLetter c

/-- Whether a character, given with its variants, is what an item says. -/
def CharItem.has (c : Char) (variants : List Nat) : CharItem → Bool
  | .range lo hi => variants.any fun n => lo ≤ n && n ≤ hi
  | .named cls ascii negated => cls.has ascii c != negated

def CharSet.has (s : CharSet) (c : Char) : Bool :=
  let variants := s.rule.variants c
  (s.items.any fun i => i.has c variants) != s.negated

end ApiProjection
