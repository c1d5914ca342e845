import ApiProjection.Value.Basic
/-!
# Schemas

`Schema` describes the values of a parameter, a body or a property, independent of the version of
the format it is later written in. Its keywords are in two parts: `Facets` are those that hold no
other schema, the rest are the subschemas.
-/
namespace ApiProjection

/-- Vendor extensions in their order. -/
abbrev Extensions := List (String × Value)

/-- A number that is an integer or a float. -/
inductive Number
  | int (n : Int)
  | float (x : Binary64)
  deriving DecidableEq, Repr, Inhabited

/-- The free-form value that a number is. -/
def Number.toValue : Number → Value
  | .int n => .int n
  | .float x => .float x

/-- The primitive types. -/
inductive Kind
  | null
  | boolean
  | integer
  | number
  | string
  | object
  | array
  deriving DecidableEq, Repr

def Kind.all : List Kind := [.null, .boolean, .integer, .number, .string, .object, .array]

/-- The name of a type as it is written. -/
def Kind.name : Kind → String
  | .null => "null"
  | .boolean => "boolean"
  | .integer => "integer"
  | .number => "number"
  | .string => "string"
  | .object => "object"
  | .array => "array"

/-- A numeric bound, which an exclusive one keeps out. -/
structure Bound where
  value : Number
  exclusive : Bool := false
  deriving DecidableEq, Repr

/-- Which property tells the members of a composition apart, and what its values name. -/
structure Discriminator where
  propertyName : String
  mapping : List (String × String) := []
  deriving DecidableEq, Repr

/-- How a value is written as XML. -/
structure XmlHints where
  name : Option String := none
  space : Option String := none
  spacePrefix : Option String := none
  asAttribute : Bool := false
  wrapped : Bool := false
  deriving DecidableEq, Repr

/-- What holds of the properties that are not listed: a flag, a schema, or both, of which the
schema wins. -/
structure Additional (α : Type) where
  allow : Option Bool := none
  schema : Option α := none
  deriving Repr

/-- The keywords of a schema that hold no other schema. A null example, constant or default is
one that is not set. -/
structure Facets where
  kind : Option Kind := none
  nullable : Bool := false
  title : Option String := none
  description : Option String := none
  format : Option String := none
  contentEncoding : Option String := none
  contentMediaType : Option String := none
  deprecated : Bool := false
  readOnly : Bool := false
  writeOnly : Bool := false
  sample : Value := .null
  examples : List Value := []
  enum : List Value := []
  const : Value := .null
  default : Value := .null
  multipleOf : Option Number := none
  minimum : Option Bound := none
  maximum : Option Bound := none
  pattern : Option String := none
  minLength : Option Int := none
  maxLength : Option Int := none
  minItems : Option Int := none
  maxItems : Option Int := none
  uniqueItems : Bool := false
  required : List String := []
  minProperties : Option Int := none
  maxProperties : Option Int := none
  discriminator : Option Discriminator := none
  xml : Option XmlHints := none
  extensions : Extensions := []
  deriving Repr

/-- A schema. One with a reference stands for what it refers to, whatever else it holds. -/
structure Schema where
  ref : Option String := none
  facets : Facets := {}
  items : Option Schema := none
  properties : List (String × Schema) := []
  additional : Option (Additional Schema) := none
  patternProperties : List (String × Schema) := []
  unevaluated : Option Schema := none
  allOf : List Schema := []
  anyOf : List Schema := []
  oneOf : List Schema := []
  notOf : Option Schema := none

instance : Inhabited Schema := ⟨{}⟩

end ApiProjection
