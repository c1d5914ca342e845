import ApiProjection.Record.Scalar
/-!
# Reading schemas

`Schema.read` reads a value as a schema. Every keyword has the spelling of the written format and
a second one in small letters with underscores. A bare number is a bound, a bare truth value says
whether further properties are allowed, and a bare map is the schema of those properties.
-/
namespace ApiProjection

open Record

/-! ## Parts without schemas -/

/-- A child of `v`, as a value. -/
def Record.Below.value {v : Value} (c : Below v) : Value := c.1

/-- Reads the entries of a plain value as a record with no other keys. -/
def Record.Fields.readClosed {α : Type} (name : String) (fields : Fields Value α) (v : Value) : Read α :=
  fields.closed name v (match v with | .map es => some es | _ => none) id

/-- Reads the children of a value as a record with no other keys. -/
def Record.Fields.readBelow {α : Type} (name : String) (v : Value) (fields : Fields (Below v) α) : Read α :=
  fields.closed name v (entriesBelow? v) Below.value

/-- Reads a list of plain values. -/
def Record.listOf {α : Type} (read : Value → Read α) (v : Value) : Read (List α) :=
  readList v ((itemsBelow? v).map (·.map Subtype.val)) read

/-- Reads a map of plain values. -/
def Record.mapOf {α : Type} (read : Value → Read α) (v : Value) : Read (List (String × α)) :=
  readMap v (match v with | .map es => some es | _ => none) read

/-- Reads a plain value unless it is null. -/
def Record.nullable {α : Type} (read : Value → Read α) (v : Value) : Read (Option α) :=
  orNull id read v

namespace Record.Fields

/-- A field that may be unset. -/
def unset? {α : Type} (spellings : List String) (read : Value → Read α) : Fields Value (Option α) :=
  optional spellings none (nullable read)

def flag (spellings : List String) : Fields Value Bool := optional spellings false readBool

def text? (spellings : List String) : Fields Value (Option String) := unset? spellings readText

def free (spellings : List String) : Fields Value Value := optional spellings .null .done

def extensions : Fields Value Extensions := optional ["extensions"] [] (mapOf .done)

/-- The same fields read from the children of a value. -/
def below {v : Value} {α : Type} (f : Fields Value α) : Fields (Below v) α :=
  ⟨f.spellings, fun v es => f.read v (es.map fun (k, c) => (k, c.1))⟩

end Record.Fields

def Kind.ofName? (s : String) : Option Kind := Kind.all.find? fun k => k.name = s

def Kind.read (v : Value) : Read Kind :=
  let failed : Read Kind := .fail (.word (Kind.all.map Kind.name)) v
  match textOrBytes? v with
  | some (.ok s) => match Kind.ofName? s with
    | some k => .done k
    | none => failed
  | _ => failed

def Bound.fields : Fields Value Bound :=
  (fun value exclusive => { value, exclusive })
    <$> .required ["value"] readNumber <*> .flag ["exclusive"]

/-- Reads a bound, or a bare number as an inclusive one. -/
def Bound.read (v : Value) : Read Bound :=
  match v with
  | .scalar (.int n) => .done { value := .int n }
  | .scalar (.float x) => .done { value := .float x }
  | v => Bound.fields.readClosed "Bound" v

def Discriminator.read : Value → Read Discriminator :=
  Fields.readClosed "Discriminator" <|
    (fun propertyName mapping => { propertyName, mapping })
      <$> .required ["propertyName", "property_name"] readText
      <*> .optional ["mapping"] [] (mapOf readText)

def XmlHints.read : Value → Read XmlHints :=
  Fields.readClosed "XML" <|
    (fun name space spacePrefix asAttribute wrapped => { name, space, spacePrefix, asAttribute, wrapped })
      <$> .text? ["name"] <*> .text? ["namespace"] <*> .text? ["prefix"]
      <*> .flag ["attribute"] <*> .flag ["wrapped"]

/-! ## Schemas -/

namespace Schema

/-- The fields of a schema up to its string keywords. -/
def leadingFacets : Fields Value Facets :=
  (fun kind nullable title description format contentEncoding contentMediaType deprecated readOnly
      writeOnly sample examples enum const default multipleOf minimum maximum pattern minLength
      maxLength =>
    { kind, nullable, title, description, format, contentEncoding, contentMediaType, deprecated,
      readOnly, writeOnly, sample, examples, enum, const, default, multipleOf, minimum, maximum,
      pattern, minLength, maxLength })
    <$> .unset? ["kind", "type"] Kind.read
    <*> .flag ["nullable"]
    <*> .text? ["title"]
    <*> .text? ["description"]
    <*> .text? ["format"]
    <*> .text? ["contentEncoding", "content_encoding"]
    <*> .text? ["contentMediaType", "content_media_type"]
    <*> .flag ["deprecated"]
    <*> .flag ["readOnly", "read_only"]
    <*> .flag ["writeOnly", "write_only"]
    <*> .free ["example"]
    <*> .optional ["examples"] [] (listOf .done)
    <*> .optional ["enum"] [] (listOf .done)
    <*> .free ["const"]
    <*> .free ["default"]
    <*> .unset? ["multipleOf", "multiple_of"] readNumber
    <*> .unset? ["minimum"] Bound.read
    <*> .unset? ["maximum"] Bound.read
    <*> .text? ["pattern"]
    <*> .unset? ["minLength", "min_length"] readInt
    <*> .unset? ["maxLength", "max_length"] readInt

/-- Reads a child as a schema unless it is null. -/
def schemaOrNull {v : Value} (read : Below v → Read Schema) (c : Below v) : Read (Option Schema) :=
  orNull Below.value read c

/-- Reads a child as named schemas. -/
def schemaMap {v : Value} (read : Below v → Read Schema) (c : Below v) :
    Read (List (String × Schema)) :=
  readMap c.1 c.entries? read

/-- Reads a child as a list of schemas. -/
def schemaList {v : Value} (read : Below v → Read Schema) (c : Below v) : Read (List Schema) :=
  readList c.1 c.items? read

/-- The fields that say what holds of further properties. -/
def additionalFields {v : Value} (read : Below v → Read Schema) :
    Fields (Below v) (Additional Schema) :=
  (fun allow schema => { allow, schema })
    <$> .below (.unset? ["allow"] readBool)
    <*> .optional ["schema", "schema_"] none (schemaOrNull read)

/-- Reads a child as what holds of further properties. -/
def readAdditional {v : Value} (read : Below v → Read Schema) (c : Below v) :
    Read (Additional Schema) :=
  match c.1, c.entries? with
  | .scalar (.bool b), _ => .done { allow := some b }
  | value, some es =>
    if (lookupText "allow" es).isSome || (lookupText "schema" es).isSome then
      (additionalFields read).closed "AdditionalProperties" value (some es) Below.value
    else ((read c).map fun s => { schema := some s }).under (.key "schema")
  | value, none => .fail (.record "AdditionalProperties") value

/-- The fields of a schema, given how its subschemas are read. -/
def schemaFields {v : Value} (read : Below v → Read Schema) : Fields (Below v) Schema :=
  (fun (ref : Option String) (leading : Facets) (items : Option Schema) minItems maxItems uniqueItems
      (properties : List (String × Schema)) required (additional : Option (Additional Schema))
      (patternProperties : List (String × Schema)) (unevaluated : Option Schema)
      minProperties maxProperties (allOf anyOf oneOf : List Schema) (notOf : Option Schema)
      discriminator xml extensions =>
    { ref, items, properties, additional, patternProperties, unevaluated, allOf, anyOf, oneOf, notOf,
      facets := { leading with
        minItems, maxItems, uniqueItems, required, minProperties, maxProperties, discriminator, xml,
        extensions } })
    <$> .below (.text? ["$ref", "ref"])
    <*> .below leadingFacets
    <*> .optional ["items"] none (schemaOrNull read)
    <*> .below (.unset? ["minItems", "min_items"] readInt)
    <*> .below (.unset? ["maxItems", "max_items"] readInt)
    <*> .below (.flag ["uniqueItems", "unique_items"])
    <*> .optional ["properties"] [] (schemaMap read)
    <*> .below (.optional ["required"] [] (listOf readText))
    <*> .optional ["additionalProperties", "additional_properties"] none
      (orNull Below.value (readAdditional read))
    <*> .optional ["patternProperties", "pattern_properties"] [] (schemaMap read)
    <*> .optional ["unevaluatedProperties", "unevaluated_properties"] none (schemaOrNull read)
    <*> .below (.unset? ["minProperties", "min_properties"] readInt)
    <*> .below (.unset? ["maxProperties", "max_properties"] readInt)
    <*> .optional ["allOf", "all_of"] [] (schemaList read)
    <*> .optional ["anyOf", "any_of"] [] (schemaList read)
    <*> .optional ["oneOf", "one_of"] [] (schemaList read)
    <*> .optional ["not", "not_"] none (schemaOrNull read)
    <*> .below (.unset? ["discriminator"] Discriminator.read)
    <*> .below (.unset? ["xml"] XmlHints.read)
    <*> .below .extensions

/-- Reads a value as a schema. -/
def read (v : Value) : Read Schema :=
  Fields.readBelow "Schema" v (schemaFields fun c => read c.1)
termination_by sizeOf v
decreasing_by exact c.2

end Schema
end ApiProjection
