import ApiProjection.Output.Node
/-!
# Schemas of either version

`Schema30` and `Schema31` are schemas as they are written in the two versions, each with the
keywords of its own dialect. An unset text, flag or list is not written; a null example, constant
or default is an unset one.
-/
namespace ApiProjection

open Node (Field)

/-- What is written about the properties that are not listed. -/
inductive Further (α : Type)
  | unset
  | allow (b : Bool)
  | schema (s : α)

/-- The keywords that both dialects write alike and that hold no other schema. -/
structure Annotations where
  title : Option String := none
  description : Option String := none
  format : Option String := none
  deprecated : Bool := false
  readOnly : Bool := false
  writeOnly : Bool := false
  sample : Value := .null
  enum : List Value := []
  default : Value := .null
  multipleOf : Option Number := none
  pattern : Option String := none
  minLength : Option Int := none
  maxLength : Option Int := none
  minItems : Option Int := none
  maxItems : Option Int := none
  uniqueItems : Bool := false
  required : List String := []
  minProperties : Option Int := none
  maxProperties : Option Int := none
  discriminator : Option Discriminator := none
  xml : Option XmlHints := none
  extensions : Extensions := []

/-- The keywords of the older dialect alone. -/
structure Keywords30 where
  type : Option Kind := none
  nullable : Bool := false
  maximum : Option Number := none
  exclusiveMaximum : Bool := false
  minimum : Option Number := none
  exclusiveMinimum : Bool := false

/-- The types of the newer dialect: none, one, or one and null beside it. -/
inductive Types31
  | unset
  | one (k : Kind)
  | orNull (k : Kind)
  deriving DecidableEq

/-- The keywords of the newer dialect alone. -/
structure Keywords31 where
  type : Types31 := .unset
  contentEncoding : Option String := none
  contentMediaType : Option String := none
  examples : List Value := []
  const : Value := .null
  maximum : Option Number := none
  exclusiveMaximum : Option Number := none
  minimum : Option Number := none
  exclusiveMinimum : Option Number := none

/-- A schema of the older version. -/
inductive Schema30
  | ref (target : String)
  | node (common : Annotations) (own : Keywords30) (items : Option Schema30)
      (properties : List (String × Schema30)) (additional : Further Schema30)
      (allOf anyOf oneOf : List Schema30) (notOf : Option Schema30)

/-- A schema of the newer version. -/
inductive Schema31
  | ref (target : String)
  | node (common : Annotations) (own : Keywords31) (items : Option Schema31)
      (properties : List (String × Schema31)) (additional : Further Schema31)
      (patternProperties : List (String × Schema31)) (unevaluated : Option Schema31)
      (allOf anyOf oneOf : List Schema31) (notOf : Option Schema31)

/-! ## Writing -/

def Discriminator.toNode (d : Discriminator) : Node :=
  .ofFields [.text "propertyName" d.propertyName,
    .named "mapping" (d.mapping.map fun (k, s) => (k, .text s))] []

def XmlHints.toNode (x : XmlHints) : Node :=
  .ofFields [.text? "name" x.name, .text? "namespace" x.space, .text? "prefix" x.spacePrefix,
    .flag "attribute" x.asAttribute, .flag "wrapped" x.wrapped] []

/-- The types of the newer dialect as they are written. -/
def Types31.field : Types31 → Field
  | .unset => []
  | .one k => .text "type" k.name
  | .orNull k => [("type", .list [.text k.name, .text Kind.null.name])]

namespace Schema30

mutual
/-- A schema of the older version as it is written. -/
def toNode : Schema30 → Node
  | .ref target => .reference target
  | .node c k items properties additional allOf anyOf oneOf notOf =>
    .ofFields [
      .text? "title" c.title,
      .text? "type" (k.type.map Kind.name),
      .text? "format" c.format,
      .text? "description" c.description,
      .free "example" c.sample,
      .flag "deprecated" c.deprecated,
      .flag "readOnly" c.readOnly,
      .flag "writeOnly" c.writeOnly,
      .flag "nullable" k.nullable,
      .node? "discriminator" (c.discriminator.map Discriminator.toNode),
      .node? "xml" (c.xml.map XmlHints.toNode),
      .frees "enum" c.enum,
      .number? "multipleOf" c.multipleOf,
      .number? "maximum" k.maximum,
      .flag "exclusiveMaximum" k.exclusiveMaximum,
      .number? "minimum" k.minimum,
      .flag "exclusiveMinimum" k.exclusiveMinimum,
      .text? "pattern" c.pattern,
      .int? "maxLength" c.maxLength,
      .int? "minLength" c.minLength,
      .node? "items" (optionToNode items),
      .int? "maxItems" c.maxItems,
      .int? "minItems" c.minItems,
      .flag "uniqueItems" c.uniqueItems,
      .named "properties" (namedToNodes properties),
      .texts "required" c.required,
      furtherField additional,
      .int? "maxProperties" c.maxProperties,
      .int? "minProperties" c.minProperties,
      .nodes "allOf" (listToNodes allOf),
      .nodes "anyOf" (listToNodes anyOf),
      .nodes "oneOf" (listToNodes oneOf),
      .node? "not" (optionToNode notOf),
      .free "default" c.default] c.extensions

def optionToNode : Option Schema30 → Option Node
  | none => none
  | some s => some (toNode s)

def listToNodes : List Schema30 → List Node
  | [] => []
  | s :: ss => toNode s :: listToNodes ss

def namedToNodes : List (String × Schema30) → List (String × Node)
  | [] => []
  | (k, s) :: ss => (k, toNode s) :: namedToNodes ss

def furtherField : Further Schema30 → Field
  | .unset => []
  | .allow b => .free "additionalProperties" (.bool b)
  | .schema s => [("additionalProperties", toNode s)]
end

end Schema30

namespace Schema31

mutual
/-- A schema of the newer version as it is written. -/
def toNode : Schema31 → Node
  | .ref target => .reference target
  | .node c k items properties additional patternProperties unevaluated allOf anyOf oneOf notOf =>
    .ofFields [
      .text? "title" c.title,
      k.type.field,
      .text? "format" c.format,
      .text? "contentEncoding" k.contentEncoding,
      .text? "contentMediaType" k.contentMediaType,
      .text? "description" c.description,
      .free "example" c.sample,
      .frees "examples" k.examples,
      .flag "deprecated" c.deprecated,
      .flag "readOnly" c.readOnly,
      .flag "writeOnly" c.writeOnly,
      .node? "discriminator" (c.discriminator.map Discriminator.toNode),
      .node? "xml" (c.xml.map XmlHints.toNode),
      .frees "enum" c.enum,
      .free "const" k.const,
      .number? "multipleOf" c.multipleOf,
      .number? "maximum" k.maximum,
      .number? "exclusiveMaximum" k.exclusiveMaximum,
      .number? "minimum" k.minimum,
      .number? "exclusiveMinimum" k.exclusiveMinimum,
      .text? "pattern" c.pattern,
      .int? "maxLength" c.maxLength,
      .int? "minLength" c.minLength,
      .node? "items" (optionToNode items),
      .int? "maxItems" c.maxItems,
      .int? "minItems" c.minItems,
      .flag "uniqueItems" c.uniqueItems,
      .named "properties" (namedToNodes properties),
      .texts "required" c.required,
      furtherField additional,
      .named "patternProperties" (namedToNodes patternProperties),
      .node? "unevaluatedProperties" (optionToNode unevaluated),
      .nodes "allOf" (listToNodes allOf),
      .nodes "anyOf" (listToNodes anyOf),
      .nodes "oneOf" (listToNodes oneOf),
      .node? "not" (optionToNode notOf),
      .free "default" c.default,
      .int? "minProperties" c.minProperties,
      .int? "maxProperties" c.maxProperties] c.extensions

def optionToNode : Option Schema31 → Option Node
  | none => none
  | some s => some (toNode s)

def listToNodes : List Schema31 → List Node
  | [] => []
  | s :: ss => toNode s :: listToNodes ss

def namedToNodes : List (String × Schema31) → List (String × Node)
  | [] => []
  | (k, s) :: ss => (k, toNode s) :: namedToNodes ss

def furtherField : Further Schema31 → Field
  | .unset => []
  | .allow b => .free "additionalProperties" (.bool b)
  | .schema s => [("additionalProperties", toNode s)]
end

end Schema31
end ApiProjection
