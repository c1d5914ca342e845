import ApiProjection.Yaml.Fault
/-!
# Tokens of YAML text

Block structure, which the text shows by indentation, is explicit in the tokens: each block begins
with a token of its own and ends with `blockEnd`.
-/
namespace ApiProjection.Yaml

/-- A line that says something about the document after it. -/
inductive Directive
  | version (major : Nat)
  | tag (handle shorthand : String)
  | other (name : String)
  deriving DecidableEq, Repr

inductive Token
  | directive (d : Directive)
  | documentStart
  | documentEnd
  | blockSequence
  | blockMapping
  | blockEnd
  | flowSequence
  | flowSequenceEnd
  | flowMapping
  | flowMappingEnd
  | entry
  | comma
  | key
  | value
  | alias (name : String)
  | anchor (name : String)
  /-- A tag in full, or a shorthand with its handle. -/
  | tag (handle : Option String) (suffix : String)
  | scalar (plain : Bool) (text : String)
  /-- The place from which on the text has no tokens. -/
  | broken (f : Fault)
  deriving DecidableEq, Repr

end ApiProjection.Yaml
