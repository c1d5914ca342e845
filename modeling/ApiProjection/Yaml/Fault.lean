import ApiProjection.Json.Reader
import ApiProjection.Value.Literal
/-!
# What is wrong with YAML text

Most texts that cannot be read are not well formed (`Problem`). A few are, but hold a scalar that
is no value of the kind it has the form of.
-/
namespace ApiProjection.Yaml

/-- A place where a text departs from the rules. -/
inductive Problem
  | character (c : Char)
  | token (c : Char)
  | keyWithoutColon
  | entryNotAllowed
  | keyNotAllowed
  | valueNotAllowed
  | directive
  | anchorName
  | tag
  | blockHeader
  | escape
  | openQuote
  | separatorInQuote
  | strayBracket
  | documentStart
  | node
  | blockEnd
  | separator
  | version
  | repeatedDirective
  | tagHandle (handle : String)
  | unknownAlias (name : String)
  | repeatedAnchor (name : String)
  | recursion (name : String)
  | secondDocument
  | scalarExpected
  | sequenceExpected
  | mappingExpected
  | pairExpected
  | unknownTag (tag : String)
  | unhashableKey
  | merge
  | binary
  deriving DecidableEq, Repr

def Problem.message : Problem → String
  | .character c => "special character " ++ Text.quoted (String.singleton c) ++ " is not allowed"
  | .token c => "found character " ++ Text.quoted (String.singleton c) ++ " that cannot start any token"
  | .keyWithoutColon => "could not find expected ':'"
  | .entryNotAllowed => "sequence entries are not allowed here"
  | .keyNotAllowed => "mapping keys are not allowed here"
  | .valueNotAllowed => "mapping values are not allowed here"
  | .directive => "found a directive that cannot be read"
  | .anchorName => "expected the name of an anchor"
  | .tag => "found a tag that cannot be read"
  | .blockHeader => "expected chomping or indentation indicators"
  | .escape => "found unknown escape character"
  | .openQuote => "found unexpected end of stream"
  | .separatorInQuote => "found unexpected document separator"
  | .strayBracket => "found a closing bracket without an opening one"
  | .documentStart => "expected '<document start>'"
  | .node => "expected the node content"
  | .blockEnd => "expected <block end>"
  | .separator => "expected ',' or a closing bracket"
  | .version => "found incompatible YAML document (version 1.* is required)"
  | .repeatedDirective => "found duplicate directive"
  | .tagHandle h => "found undefined tag handle " ++ Text.quoted h
  | .unknownAlias a => "found undefined alias " ++ Text.quoted a
  | .repeatedAnchor a => "found duplicate anchor " ++ Text.quoted a
  | .recursion a => "found recursive node " ++ Text.quoted a
  | .secondDocument => "expected a single document in the stream"
  | .scalarExpected => "expected a scalar node"
  | .sequenceExpected => "expected a sequence node"
  | .mappingExpected => "expected a mapping node"
  | .pairExpected => "expected a single mapping item"
  | .unknownTag t => "could not determine a constructor for the tag " ++ Text.quoted t
  | .unhashableKey => "found unhashable key"
  | .merge => "expected a mapping or list of mappings for merging"
  | .binary => "failed to decode base64 data"

/-- Why a text cannot be read. -/
inductive Fault
  | malformed (p : Problem)
  /-- An escape with the number of no character. -/
  | code (n : Nat)
  | calendar (f : CalendarFault)
  | notATimestamp
  | notABool (word : String)
  | noDigits
  | notAnInt (base : Nat) (digits : String)
  | notAFloat (text : String)
  | longInt (digits : Nat)
  deriving DecidableEq, Repr

end ApiProjection.Yaml

namespace ApiProjection

/-- What is said about a date that is none. -/
def CalendarFault.message : CalendarFault → String
  | .year n => s!"year {n} is out of range"
  | .month => "month must be in 1..12"
  | .day => "day is out of range for month"
  | .hour => "hour must be in 0..23"
  | .minute => "minute must be in 0..59"
  | .second => "second must be in 0..59"
  | .offset s =>
    "offset must be a timedelta strictly between -timedelta(hours=24) and timedelta(hours=24), not " ++
      durationLiteral s

namespace Yaml.Fault

/-- Whether the text itself is at fault, not the value of a scalar in it. -/
def isMalformed : Fault → Bool
  | .malformed _ => true
  | _ => false

/-- The greatest number that is looked at as the number of a character. -/
def greatestCode : Nat := 0x7fffffff

/-- The kind of the fault by the name that a report gives it. -/
def kind : Fault → String
  | .malformed _ => "YAMLError"
  | .code n => if greatestCode < n then "OverflowError" else "ValueError"
  | .calendar _ | .notAnInt .. | .notAFloat _ | .longInt _ => "ValueError"
  | .notATimestamp => "AttributeError"
  | .notABool _ => "KeyError"
  | .noDigits => "IndexError"

def message : Fault → String
  | .malformed p => p.message
  | .code n =>
    if greatestCode < n then "Python int too large to convert to C int"
    else "chr() arg not in range(0x110000)"
  | .calendar f => f.message
  | .notATimestamp => "'NoneType' object has no attribute 'groupdict'"
  | .notABool w => Text.quoted w
  | .noDigits => "string index out of range"
  | .notAnInt base digits => s!"invalid literal for int() with base {base}: " ++ Text.quoted digits
  | .notAFloat text => "could not convert string to float: " ++ Text.quoted text
  | .longInt n => (Json.Fault.digits n).text

end Yaml.Fault
end ApiProjection
