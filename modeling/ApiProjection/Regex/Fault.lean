import ApiProjection.Text.Quoted
/-!
# What is wrong with a regular expression

A `Fault` is a cause; `ParseError` adds how far from the end it was found. `ParseError.message` is the
wording, with line and column where the expression has more than one line.
-/
namespace ApiProjection.Regex

inductive Fault
  | nothingToRepeat
  | multipleRepeat
  | minAboveMax
  | hugeCount
  | openGroup
  | openComment
  | closedGroup
  | openSet
  | patternEnd
  | escapeEnd
  | badEscape (text : String)
  | incompleteEscape (text : String)
  | hugeOctal (text : String)
  | badRange (first last : String)
  | unknownExtension (text : String)
  | missing (what : String)
  | openName (stop : Char)
  | unknownCharacterName (name : String)
  | badGroupName (name : String)
  | unknownGroupName (name : String)
  | usedGroupName (name : String) (group was : Nat)
  | badReference (n : Nat)
  | zeroReference
  | openReference
  | referenceInsideBehind
  | manyBranches
  | variableBehind
  | lateFlags
  | unknownFlag
  | localeFlag
  | mixedFlags
  | mixedGlobalFlags
  | globalFlagOn
  | globalFlagOff
  | classFlagOff
  | flagOnAndOff
  deriving DecidableEq, Repr

namespace Fault

def text : Fault → String
  | nothingToRepeat => "nothing to repeat"
  | multipleRepeat => "multiple repeat"
  | minAboveMax => "min repeat greater than max repeat"
  | hugeCount => "the repetition number is too large"
  | openGroup => "missing ), unterminated subpattern"
  | openComment => "missing ), unterminated comment"
  | closedGroup => "unbalanced parenthesis"
  | openSet => "unterminated character set"
  | patternEnd => "unexpected end of pattern"
  | escapeEnd => "bad escape (end of pattern)"
  | badEscape t => "bad escape " ++ t
  | incompleteEscape t => "incomplete escape " ++ t
  | hugeOctal t => "octal escape value " ++ t ++ " outside of range 0-0o377"
  | badRange a b => "bad character range " ++ a ++ "-" ++ b
  | unknownExtension t => "unknown extension " ++ t
  | missing what => "missing " ++ what
  | openName stop => "missing " ++ stop.toString ++ ", unterminated name"
  | unknownCharacterName n => "undefined character name " ++ Text.quoted n
  | badGroupName n => "bad character in group name " ++ Text.quoted n
  | unknownGroupName n => "unknown group name " ++ Text.quoted n
  | usedGroupName n g was =>
    "redefinition of group name " ++ Text.quoted n ++ s!" as group {g}; was group {was}"
  | badReference n => s!"invalid group reference {n}"
  | zeroReference => "bad group number"
  | openReference => "cannot refer to an open group"
  | referenceInsideBehind => "cannot refer to group defined in the same lookbehind subpattern"
  | manyBranches => "conditional backref with more than two branches"
  | variableBehind => "look-behind requires fixed-width pattern"
  | lateFlags => "global flags not at the start of the expression"
  | unknownFlag => "unknown flag"
  | localeFlag => "bad inline flags: cannot use 'L' flag with a str pattern"
  | mixedFlags => "bad inline flags: flags 'a', 'u' and 'L' are incompatible"
  | mixedGlobalFlags => "ASCII and UNICODE flags are incompatible"
  | globalFlagOn => "bad inline flags: cannot turn on global flag"
  | globalFlagOff => "bad inline flags: cannot turn off global flag"
  | classFlagOff => "bad inline flags: cannot turn off flags 'a', 'u' and 'L'"
  | flagOnAndOff => "bad inline flags: flag turned on and off"

/-- The name of the kind of a fault. -/
def kind : Fault → String
  | hugeCount => "OverflowError"
  | mixedGlobalFlags => "ValueError"
  | _ => "error"

/-- Whether the wording says where the fault is. -/
def isPlaced : Fault → Bool
  | hugeCount | mixedGlobalFlags | variableBehind => false
  | _ => true

end Fault

/-- A fault with the number of characters from there to the end. -/
structure ParseError where
  fault : Fault
  left : Nat
  deriving DecidableEq, Repr

/-- What is said about a text that is no expression. -/
def ParseError.message (e : ParseError) (source : String) : String :=
  let cs := source.toList
  let place := cs.length - e.left
  let before := cs.take place
  let line := before.count '\n' + 1
  let column := (before.reverse.takeWhile (· != '\n')).length + 1
  if !e.fault.isPlaced then e.fault.text
  else
    e.fault.text ++ s!" at position {place}" ++
      if cs.contains '\n' then s!" (line {line}, column {column})" else ""

end ApiProjection.Regex
