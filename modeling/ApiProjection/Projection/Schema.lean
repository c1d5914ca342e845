import ApiProjection.Extension
import ApiProjection.Output.Schema
import ApiProjection.Projection.Traced
/-!
# Projecting schemas

`Schema.to30` writes a schema in the older dialect and records what that dialect cannot say;
`Schema.to31` writes it in the newer one, which can say everything. A schema with a reference is
that reference in both.
-/
namespace ApiProjection

/-- The text of a field unless it is empty. -/
def nonEmpty : Option String → Option String
  | some "" => none
  | o => o

namespace Schema

/-- The keywords that both dialects write alike. -/
def annotations (t : Target) (f : Facets) : Annotations where
  title := nonEmpty f.title
  description := nonEmpty f.description
  format := nonEmpty f.format
  deprecated := f.deprecated
  readOnly := f.readOnly
  writeOnly := f.writeOnly
  sample := f.sample
  enum := f.enum
  default := f.default
  multipleOf := f.multipleOf
  pattern := nonEmpty f.pattern
  minLength := f.minLength
  maxLength := f.maxLength
  minItems := f.minItems
  maxItems := f.maxItems
  uniqueItems := f.uniqueItems
  required := f.required
  minProperties := f.minProperties
  maxProperties := f.maxProperties
  discriminator := f.discriminator
  xml := f.xml
  extensions := Extension.allowed t f.extensions

/-! ## The older dialect -/

/-- The content encodings that the older dialect writes as a format. -/
def byteEncodings : List String := ["base64", "base64url"]

/-- The content encoding of a schema that is no byte encoding. -/
def foreignEncoding? (f : Facets) : Option String :=
  (nonEmpty f.contentEncoding).filter fun e => !byteEncodings.contains e

/-- The format of a schema: the one for bytes if its content is so encoded. -/
def format30 (f : Facets) : Option String :=
  match nonEmpty f.contentEncoding with
  | some e => if byteEncodings.contains e then some "byte" else nonEmpty f.format
  | none => nonEmpty f.format

/-- The listed values: those of the enumeration, or else the constant alone. -/
def enum30 (f : Facets) : List Value :=
  if f.enum.isEmpty && !f.const.isNull then [f.const] else f.enum

/-- The one example: the first of several, or else the single one. -/
def example30 (f : Facets) : Value := f.examples.headD f.sample

/-- The common keywords in the older dialect. -/
def common30 (f : Facets) : Annotations :=
  { annotations .v30 f with format := format30 f, enum := enum30 f, sample := example30 f }

/-- The keywords of the older dialect alone. The type null has no name there. -/
def keywords30 (f : Facets) : Keywords30 where
  type := if f.kind = some .null then none else f.kind
  nullable := if f.kind = some .null then true else f.nullable
  maximum := f.maximum.map Bound.value
  exclusiveMaximum := f.maximum.any Bound.exclusive
  minimum := f.minimum.map Bound.value
  exclusiveMinimum := f.minimum.any Bound.exclusive

/-- Records how the contents are encoded if the older dialect cannot say it. -/
def warnContent (f : Facets) (p : Pointer) : Traced Unit := do
  match foreignEncoding? f with
  | some e => Traced.warn (.contentEncoding e) p
  | none => pure ()
  Traced.warnIf (nonEmpty f.contentMediaType).isSome .contentMediaType p

/-- Records what became of the constant. -/
def warnConst (f : Facets) (p : Pointer) : Traced Unit :=
  if f.const.isNull then pure ()
  else Traced.warn (if f.enum.isEmpty then .constToEnum else .constBesideEnum) p

mutual
/-- The schema at a place, in the older dialect. -/
def to30 : Schema → Pointer → Traced Schema30
  | ⟨ref, f, items, properties, additional, _, unevaluated, allOf, anyOf, oneOf, notOf⟩, p =>
    match nonEmpty ref with
    | some target => pure (.ref target)
    | none => do
      warnContent f p
      let items ← optionTo30 items (p.key "items")
      let properties ← namedTo30 properties (p.key "properties")
      let additional ← additionalTo30 additional (p.key "additionalProperties")
      let allOf ← listTo30 allOf (p.key "allOf") 0
      let anyOf ← listTo30 anyOf (p.key "anyOf") 0
      let oneOf ← listTo30 oneOf (p.key "oneOf") 0
      let notOf ← optionTo30 notOf (p.key "not")
      warnConst f p
      Traced.warnIf unevaluated.isSome .unevaluatedProperties p
      Traced.warnIf (1 < f.examples.length) .multipleExamples p
      return .node (common30 f) (keywords30 f) items properties additional allOf anyOf oneOf notOf

def optionTo30 : Option Schema → Pointer → Traced (Option Schema30)
  | none, _ => pure none
  | some s, p => return some (← to30 s p)

def namedTo30 : List (String × Schema) → Pointer → Traced (List (String × Schema30))
  | [], _ => pure []
  | (k, s) :: ss, p => return (k, ← to30 s (p.key k)) :: (← namedTo30 ss p)

def listTo30 : List Schema → Pointer → Nat → Traced (List Schema30)
  | [], _, _ => pure []
  | s :: ss, p, i => return (← to30 s (p.index i)) :: (← listTo30 ss p (i + 1))

def additionalTo30 : Option (Additional Schema) → Pointer → Traced (Further Schema30)
  | some ⟨_, some s⟩, p => return .schema (← to30 s p)
  | some ⟨some b, none⟩, _ => pure (.allow b)
  | _, _ => pure .unset
end

/-! ## The newer dialect -/

/-- The types of a schema. -/
def types31 (f : Facets) : Types31 :=
  match f.kind with
  | none => .unset
  | some .null => .one .null
  | some k => if f.nullable then .orNull k else .one k

/-- The examples: those listed, or else the single one. -/
def examples31 (f : Facets) : List Value :=
  if f.examples.isEmpty && !f.sample.isNull then [f.sample] else f.examples

/-- The value of a bound that is exclusive, or of one that is not. -/
def boundWhen (exclusive : Bool) (b : Option Bound) : Option Number :=
  (b.filter fun b => b.exclusive == exclusive).map Bound.value

/-- The keywords of the newer dialect alone. -/
def keywords31 (f : Facets) : Keywords31 where
  type := types31 f
  contentEncoding := nonEmpty f.contentEncoding
  contentMediaType := nonEmpty f.contentMediaType
  examples := examples31 f
  const := f.const
  maximum := boundWhen false f.maximum
  exclusiveMaximum := boundWhen true f.maximum
  minimum := boundWhen false f.minimum
  exclusiveMinimum := boundWhen true f.minimum

mutual
/-- The schema in the newer dialect. -/
def to31 : Schema → Schema31
  | ⟨ref, f, items, properties, additional, patternProperties, unevaluated, allOf, anyOf, oneOf, notOf⟩ =>
    match nonEmpty ref with
    | some target => .ref target
    | none =>
      .node (annotations .v31 f) (keywords31 f) (optionTo31 items) (namedTo31 properties)
        (additionalTo31 additional) (namedTo31 patternProperties) (optionTo31 unevaluated)
        (listTo31 allOf) (listTo31 anyOf) (listTo31 oneOf) (optionTo31 notOf)

def optionTo31 : Option Schema → Option Schema31
  | none => none
  | some s => some (to31 s)

def namedTo31 : List (String × Schema) → List (String × Schema31)
  | [] => []
  | (k, s) :: ss => (k, to31 s) :: namedTo31 ss

def listTo31 : List Schema → List Schema31
  | [] => []
  | s :: ss => to31 s :: listTo31 ss

def additionalTo31 : Option (Additional Schema) → Further Schema31
  | some ⟨_, some s⟩ => .schema (to31 s)
  | some ⟨some b, none⟩ => .allow b
  | _ => .unset
end

/-! ## Either dialect -/

/-- The schema at a place as it is written in a version. -/
def project (t : Target) (s : Schema) (p : Pointer) : Traced Node :=
  match t with
  | .v30 => return (← s.to30 p).toNode
  | .v31 => pure s.to31.toNode

end Schema
end ApiProjection
