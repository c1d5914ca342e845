import ApiProjection.Value.Compare
import ApiProjection.Value.Literal
import ApiProjection.Regex.Parser
import ApiProjection.Record.Issue
/-!
# The rules of a meta-schema

A meta-schema is a document that says which documents are valid. `Rule` is a meta-schema with its
keywords taken apart; `Rule.ofValue` takes a value apart, reading the keywords as the dialect
that the meta-schema names does.
-/
namespace ApiProjection

/-- The dialects of JSON Schema. -/
inductive Dialect
  | draft4
  | draft6
  | draft7
  | draft2019
  | draft2020
  deriving DecidableEq, Repr

namespace Dialect

/-- The name by which a meta-schema says its dialect. -/
def uri : Dialect → String
  | .draft4 => "http://json-schema.org/draft-04/schema"
  | .draft6 => "http://json-schema.org/draft-06/schema"
  | .draft7 => "http://json-schema.org/draft-07/schema"
  | .draft2019 => "https://json-schema.org/draft/2019-09/schema"
  | .draft2020 => "https://json-schema.org/draft/2020-12/schema"

def all : List Dialect := [.draft4, .draft6, .draft7, .draft2019, .draft2020]

/-- The dialect with a name, whether or not an empty fragment follows it. -/
def ofUri? (s : String) : Option Dialect := all.find? fun d => s = d.uri || s = d.uri ++ "#"

/-- Whether other keywords beside a reference are passed over. -/
def isLegacy : Dialect → Bool
  | .draft4 | .draft6 | .draft7 => true
  | .draft2019 | .draft2020 => false

end Dialect

/-- A meta-schema that cannot be used, with the kind of the fault. -/
structure Defect where
  kind : String
  message : String
  deriving DecidableEq, Repr

/-- An expression that keys or texts are searched for. -/
structure Pattern where
  source : String
  regex : Except Regex.ParseError Regex

def Pattern.ofText (s : String) : Pattern := ⟨s, Regex.parse s⟩

/-- Which side of a limit a number must be on. -/
inductive Side
  | atLeast
  | above
  | atMost
  | below
  deriving DecidableEq, Repr

/-- What is counted: the characters of a text, the items of a list, the members of an object. -/
inductive Extent
  | characters
  | items
  | members
  deriving DecidableEq, Repr

mutual
inductive Rule
  /-- The rule that everything or nothing keeps. -/
  | always (b : Bool)
  | all (keywords : List Keyword)
  | defective (d : Defect)

inductive Keyword
  /-- The names of the types allowed, and whether a whole float counts as an integer. -/
  | type (wholeFloats : Bool) (names : List Value)
  | enum (values : List Value)
  | const (value : Value)
  | limit (side : Side) (value : Scalar)
  | multipleOf (value : Scalar)
  | least (what : Extent) (count : Scalar)
  | most (what : Extent) (count : Scalar)
  | pattern (p : Pattern)
  | uniqueItems
  | required (names : List Value)
  /-- What must be there because of a member of the given name. -/
  | needed (owner : String) (names : List Value)
  | properties (rules : List (String × Rule))
  | patternProperties (rules : List (Pattern × Rule))
  /-- What holds of the members that are not listed and match no pattern. -/
  | additionalProperties (listed : List String) (patterns : List Pattern) (hasPatterns : Bool)
      (rule : Rule)
  | propertyNames (rule : Rule)
  | prefixItems (rules : List Rule)
  /-- What holds of the items after the first few. -/
  | items (after : Nat) (rule : Rule)
  | additionalItems (after : Nat) (rule : Rule)
  | contains (least most : Option Scalar) (rule : Rule)
  | containsAny (rule : Rule)
  | allOf (rules : List Rule)
  | anyOf (rules : List Rule)
  | oneOf (rules : List (Value × Rule))
  | not (source : Value) (rule : Rule)
  | ifHolds (rule : Rule)
  | thenHolds (rule : Rule)
  | elseHolds (rule : Rule)
  | dependentSchemas (rules : List (String × Rule))
  | reference (target : String)
  | defective (d : Defect)
end

namespace Rule

/-! ## Taking values apart -/

/-- The defect of a value that is no schema. -/
def notASchema (v : Value) : Defect :=
  ⟨"AttributeError", Text.quoted (Record.typeName v) ++ " object has no attribute 'get'"⟩

/-- The items of a list. -/
def itemsOf : Value → List Value
  | .list xs | .tuple xs => xs
  | _ => []

def entriesOf : Value → List (Scalar × Value)
  | .map es => es
  | _ => []

/-- The text keys of a map. -/
def keysOf (v : Value) : List String :=
  (entriesOf v).filterMap fun (k, _) => match k with | .text s => some s | _ => none

def scalarOf : Value → Scalar
  | .scalar s => s
  | _ => .null

def isTrue (o : Option Value) : Bool :=
  match o with
  | some (.bool b) => b
  | _ => false

/-- The bound keywords: in the oldest dialect a flag beside a limit makes it exclusive. -/
def limitOf? (d : Dialect) (all : List (Scalar × Value)) (name : String) (v : Value) : Option Keyword :=
  let flagged (key : String) : Bool := d = .draft4 && isTrue (lookupText key all)
  match name with
  | "minimum" => some (.limit (if flagged "exclusiveMinimum" then .above else .atLeast) (scalarOf v))
  | "maximum" => some (.limit (if flagged "exclusiveMaximum" then .below else .atMost) (scalarOf v))
  | "exclusiveMinimum" => if d = .draft4 then none else some (.limit .above (scalarOf v))
  | "exclusiveMaximum" => if d = .draft4 then none else some (.limit .below (scalarOf v))
  | _ => none

/-- The keywords that hold no other schema. -/
def simpleKeyword? (d : Dialect) (all : List (Scalar × Value)) (name : String) (v : Value) : Option Keyword :=
  match name with
  | "type" => some (.type (d != .draft4) (match v with | .text _ => [v] | v => itemsOf v))
  | "enum" => some (.enum (itemsOf v))
  | "const" => if d = .draft4 then none else some (.const v)
  | "multipleOf" => some (.multipleOf (scalarOf v))
  | "minLength" => some (.least .characters (scalarOf v))
  | "maxLength" => some (.most .characters (scalarOf v))
  | "minItems" => some (.least .items (scalarOf v))
  | "maxItems" => some (.most .items (scalarOf v))
  | "minProperties" => some (.least .members (scalarOf v))
  | "maxProperties" => some (.most .members (scalarOf v))
  | "pattern" => some (.pattern (.ofText v.display))
  | "uniqueItems" => if isTrue (some v) then some .uniqueItems else none
  | "required" => some (.required (itemsOf v))
  | "$ref" => match v with
    | .text s => some (.reference s)
    | _ => none
  | name => limitOf? d all name v

/-- The number of items that the first few rules of a list of rules are for. -/
def prefixLength (d : Dialect) (all : List (Scalar × Value)) : Nat :=
  match d with
  | .draft2020 => (itemsOf ((lookupText "prefixItems" all).getD .null)).length
  | _ => (itemsOf ((lookupText "items" all).getD .null)).length

/-- Whether further items are left to the rule of all items. -/
def coversItems (all : List (Scalar × Value)) : Bool :=
  match lookupText "items" all with
  | none | some (.map _) => true
  | _ => false

/-- The keyword that holds one schema. -/
def single? (d : Dialect) (all : List (Scalar × Value)) (name : String) (source : Value) (rule : Rule) :
    Option Keyword :=
  match name with
  | "additionalProperties" =>
    let patterns := lookupText "patternProperties" all
    some (.additionalProperties (keysOf ((lookupText "properties" all).getD .null))
      ((keysOf (patterns.getD .null)).map .ofText) patterns.isSome rule)
  | "propertyNames" => if d = .draft4 then none else some (.propertyNames rule)
  | "items" => some (.items (if d = .draft2020 then prefixLength d all else 0) rule)
  | "additionalItems" =>
    if d = .draft2020 || coversItems all then none else some (.additionalItems (prefixLength d all) rule)
  | "contains" =>
    match d with
    | .draft4 => none
    | .draft6 | .draft7 => some (.containsAny rule)
    | _ => some (.contains ((lookupText "minContains" all).map scalarOf)
        ((lookupText "maxContains" all).map scalarOf) rule)
  | "not" => some (.not source rule)
  | "if" => if d = .draft4 || d = .draft6 then none else some (.ifHolds rule)
  | "then" => if d = .draft4 || d = .draft6 then none else some (.thenHolds rule)
  | "else" => if d = .draft4 || d = .draft6 then none else some (.elseHolds rule)
  | _ => none

mutual
/-- The rule that a value is, read in a dialect. -/
def ofValue (d : Dialect) : Value → Rule
  | .bool b => .always b
  | .map es =>
    if d.isLegacy && (lookupText "$ref" es).isSome then
      .all ((simpleKeyword? d es "$ref" ((lookupText "$ref" es).getD .null)).toList)
    else .all (keywords d es es)
  | v => .defective (notASchema v)

/-- The keywords that the entries are, given all entries beside them. -/
def keywords (d : Dialect) (all : List (Scalar × Value)) : List (Scalar × Value) → List Keyword
  | [] => []
  | (.text name, v) :: es =>
    match simpleKeyword? d all name v with
    | some k => k :: keywords d all es
    | none =>
      match several? d name v with
      | some k => k :: keywords d all es
      | none => (single? d all name v (ofValue d v)).toList ++ keywords d all es
  | _ :: es => keywords d all es

/-- The keyword that holds several schemas. -/
def several? (d : Dialect) (name : String) : Value → Option Keyword
  | .list xs =>
    match name with
    | "allOf" => some (.allOf (listOf d xs))
    | "anyOf" => some (.anyOf (listOf d xs))
    | "oneOf" => some (.oneOf (sourcedOf d xs))
    | "prefixItems" => if d = .draft2020 then some (.prefixItems (listOf d xs)) else none
    | "items" => if d = .draft2020 then none else some (.prefixItems (listOf d xs))
    | _ => none
  | .map es =>
    match name with
    | "properties" => some (.properties (namedOf d es))
    | "patternProperties" => some (.patternProperties (patternsOf d es))
    | "dependentSchemas" | "dependentRequired" =>
      if d.isLegacy then none else some (.dependentSchemas (namedOf d es))
    | "dependencies" => if d.isLegacy then some (.dependentSchemas (namedOf d es)) else none
    | _ => none
  | _ => none

def listOf (d : Dialect) : List Value → List Rule
  | [] => []
  | x :: xs => ofValue d x :: listOf d xs

def sourcedOf (d : Dialect) : List Value → List (Value × Rule)
  | [] => []
  | x :: xs => (x, ofValue d x) :: sourcedOf d xs

/-- Rules by name; a list of names stands for the rule that they are all there. -/
def namedOf (d : Dialect) : List (Scalar × Value) → List (String × Rule)
  | [] => []
  | (k, .list names) :: es =>
    let owner := (Value.scalar k).display
    (owner, .all [.needed owner names]) :: namedOf d es
  | (k, x) :: es => ((Value.scalar k).display, ofValue d x) :: namedOf d es

def patternsOf (d : Dialect) : List (Scalar × Value) → List (Pattern × Rule)
  | [] => []
  | (k, x) :: es => (.ofText (Value.scalar k).display, ofValue d x) :: patternsOf d es
end

/-- The dialect that a meta-schema names, or else the newest. -/
def dialectOf (v : Value) : Dialect :=
  match lookupText "$schema" (entriesOf v) with
  | some (.text s) => (Dialect.ofUri? s).getD .draft2020
  | _ => .draft2020

end Rule
end ApiProjection
