import ApiProjection.Output.Schema
import ApiProjection.Projection.Schema
import ApiProjection.Validation.Check
/-!
# What a schema accepts

Three readings of schemas, each a test of JSON values: `Schema.accepts` for schemas as they are
described, `Schema30.accepts` for the older dialect and `Schema31.accepts` for the newer one. The
readings share the keywords that mean the same everywhere (`Parts.accepts`, `Annotations.accepts`)
and differ where the dialects do: in types and null, in bounds, in constants.

A reading goes from part to whole: a subschema enters the meaning of a schema only through its own
meaning. What a reference stands for, where a pattern is found and whether a float without a
fraction is an integer are left to an `Interpretation`.

Texts that only describe a value (`title`, `format`, `contentEncoding`, `examples` and the like)
accept everything. So does `unevaluatedProperties`, which no reading looks at.
-/
namespace ApiProjection

/-- What a schema says of a value. -/
abbrev Meaning := Json → Bool

/-- What lies outside of schemas and decides with them what is accepted. -/
structure Interpretation where
  refersTo : String → Meaning
  /-- Whether a pattern is found in a text. -/
  finds : String → String → Bool
  finds_empty : ∀ text, finds "" text = true
  /-- Whether a float without a fraction is an integer. -/
  wholeFloats : Bool

theorem search_empty (text : String) : Regex.search .empty text = true := by
  unfold Regex.search
  cases text.toList <;> simp [Regex.searchFrom, Regex.ends]

/-- The interpretation in which patterns are the expressions of this library. -/
def Interpretation.ofReferences (refersTo : String → Meaning) (wholeFloats : Bool) : Interpretation where
  refersTo := refersTo
  finds p text := match Regex.parse p with
    | .ok r => r.search text
    | .error _ => false
  finds_empty text := by
    have h : Regex.parse "" = .ok .empty := by rfl
    rw [h]
    exact search_empty text
  wholeFloats := wholeFloats

/-! ## Single keywords -/

namespace Meaning

/-- Both numbers, if the value is one. -/
def onNumber (test : Scalar → Scalar → Bool) (x : Number) : Meaning := fun v =>
  match numberOf? v.toValue, numberOf? x.toValue with
  | some n, some m => test n m
  | _, _ => true

def limit (side : Side) : Number → Meaning := onNumber fun n m => !side.isViolated n m

/-- Whether the first of two numbers is a whole number of times the second. -/
def isMultiple (n m : Scalar) : Bool :=
  match n.ratio?, m.ratio? with
  | some (a, b), some (c, d) => decide (c * b ∣ a * d)
  | _, _ => false

def multipleOf : Number → Meaning := onNumber isMultiple

def least (what : Extent) (count : Int) : Meaning := fun v =>
  (what.of? v.toValue).all fun n => count ≤ n

def most (what : Extent) (count : Int) : Meaning := fun v =>
  (what.of? v.toValue).all fun n => n ≤ count

def pattern (I : Interpretation) (p : String) : Meaning
  | .text s => I.finds p s
  | _ => true

def uniqueItems : Meaning
  | .list xs => Value.allDistinct (xs.map Json.toValue)
  | _ => true

def required (names : List String) : Meaning
  | .object ms => names.all fun n => (ms.lookup n).isSome
  | _ => true

/-- The values that are listed, as they are written in a document. -/
def listed (xs : List Value) : Meaning := fun v =>
  xs.any fun x => match x.toJson with
    | .ok y => v.toValue.equal y.toValue
    | .error _ => false

def ofKind (I : Interpretation) (k : Kind) : Meaning := fun v =>
  hasType I.wholeFloats v.toValue k.name == some true

/-- What all of several keywords accept. -/
def all (ms : List Meaning) : Meaning := fun v => ms.all fun m => m v

/-- What a keyword accepts, which is everything if it is not there. -/
def ofOption {α : Type} (f : α → Meaning) (o : Option α) : Meaning := fun v => o.all fun x => f x v

/-- What a list of values, names or schemas accepts, which is everything if there are none. -/
def unlessEmpty {α : Type} (f : List α → Meaning) (xs : List α) : Meaning := fun v =>
  xs.isEmpty || f xs v

end Meaning

/-! ## Keywords with subschemas -/

/-- The meanings of the subschemas of a schema, each in the place of its schema. -/
structure Parts where
  items : Option Meaning
  properties : List (String × Meaning)
  additional : Further Meaning
  patternProperties : List (String × Meaning)
  allOf : List Meaning
  anyOf : List Meaning
  oneOf : List Meaning
  notOf : Option Meaning

namespace Parts

/-- What holds of the members of an object that are not listed. -/
def further : Further Meaning → Meaning
  | .unset, _ => true
  | .allow b, _ => b
  | .schema m, v => m v

/-- Whether a member may stand in an object: by what is said about its name, or else by what is said
about all other members. -/
def acceptsMember (I : Interpretation) (p : Parts) (k : String) (v : Json) : Bool :=
  (p.properties.all fun e => e.1 != k || e.2 v) &&
    (p.patternProperties.all fun e => !I.finds e.1 k || e.2 v) &&
    (p.properties.any (fun e => e.1 == k) || p.patternProperties.any (fun e => I.finds e.1 k) ||
      further p.additional v)

def acceptsParts (I : Interpretation) (p : Parts) : Meaning
  | .list xs => (p.items.all fun m => xs.all m)
  | .object ms => ms.all fun e => p.acceptsMember I e.1 e.2
  | _ => true

def accepts (I : Interpretation) (p : Parts) : Meaning := .all [
  p.acceptsParts I,
  .unlessEmpty (fun ms v => ms.all fun m => m v) p.allOf,
  .unlessEmpty (fun ms v => ms.any fun m => m v) p.anyOf,
  .unlessEmpty (fun ms v => ms.countP (fun m => m v) == 1) p.oneOf,
  .ofOption (fun m v => !m v) p.notOf]

end Parts

/-! ## Schemas as they are described -/

/-- What lies on the right side of a bound. -/
def Bound.accepts (inclusive exclusive : Side) (b : Bound) : Meaning :=
  .limit (if b.exclusive then exclusive else inclusive) b.value

/-- What the keywords without subschemas accept. -/
def Facets.accepts (I : Interpretation) (f : Facets) : Meaning := .all [
  .ofOption (fun k v => Meaning.ofKind I k v || f.nullable && Meaning.ofKind I .null v) f.kind,
  .unlessEmpty .listed f.enum,
  fun v => f.const.isNull || Meaning.listed [f.const] v,
  .ofOption .multipleOf f.multipleOf,
  .ofOption (Bound.accepts .atLeast .above) f.minimum,
  .ofOption (Bound.accepts .atMost .below) f.maximum,
  .ofOption (.pattern I) f.pattern,
  .ofOption (.least .characters) f.minLength,
  .ofOption (.most .characters) f.maxLength,
  .ofOption (.least .items) f.minItems,
  .ofOption (.most .items) f.maxItems,
  fun v => !f.uniqueItems || Meaning.uniqueItems v,
  .required f.required,
  .ofOption (.least .members) f.minProperties,
  .ofOption (.most .members) f.maxProperties]

namespace Schema

mutual
/-- What a schema accepts as it is described. -/
def accepts (I : Interpretation) : Schema → Meaning
  | ⟨ref, f, items, properties, additional, patternProperties, _, allOf, anyOf, oneOf, notOf⟩ =>
    match nonEmpty ref with
    | some target => I.refersTo target
    | none => .all [f.accepts I, Parts.accepts I {
        items := optionAccepts I items
        properties := namedAccept I properties
        additional := additionalAccepts I additional
        patternProperties := namedAccept I patternProperties
        allOf := listAccept I allOf
        anyOf := listAccept I anyOf
        oneOf := listAccept I oneOf
        notOf := optionAccepts I notOf }]

def optionAccepts (I : Interpretation) : Option Schema → Option Meaning
  | none => none
  | some s => some (accepts I s)

def namedAccept (I : Interpretation) : List (String × Schema) → List (String × Meaning)
  | [] => []
  | (k, s) :: ss => (k, accepts I s) :: namedAccept I ss

def listAccept (I : Interpretation) : List Schema → List Meaning
  | [] => []
  | s :: ss => accepts I s :: listAccept I ss

/-- A schema wins over a flag beside it. -/
def additionalAccepts (I : Interpretation) : Option (Additional Schema) → Further Meaning
  | some ⟨_, some s⟩ => .schema (accepts I s)
  | some ⟨some b, none⟩ => .allow b
  | _ => .unset
end

end Schema

/-! ## The dialects -/

/-- What the keywords that both dialects write alike accept. -/
def Annotations.accepts (I : Interpretation) (c : Annotations) : Meaning := .all [
  .unlessEmpty .listed c.enum,
  .ofOption .multipleOf c.multipleOf,
  .ofOption (.pattern I) c.pattern,
  .ofOption (.least .characters) c.minLength,
  .ofOption (.most .characters) c.maxLength,
  .ofOption (.least .items) c.minItems,
  .ofOption (.most .items) c.maxItems,
  fun v => !c.uniqueItems || Meaning.uniqueItems v,
  .required c.required,
  .ofOption (.least .members) c.minProperties,
  .ofOption (.most .members) c.maxProperties]

/-- What the keywords of the older dialect alone accept: null counts only beside a type, and a flag
makes the limit beside it exclusive. -/
def Keywords30.accepts (I : Interpretation) (k : Keywords30) : Meaning := .all [
  .ofOption (fun t v => Meaning.ofKind I t v || k.nullable && Meaning.ofKind I .null v) k.type,
  .ofOption (.limit (if k.exclusiveMaximum then .below else .atMost)) k.maximum,
  .ofOption (.limit (if k.exclusiveMinimum then .above else .atLeast)) k.minimum]

/-- What a list of types accepts. -/
def Types31.accepts (I : Interpretation) : Types31 → Meaning
  | .unset, _ => true
  | .one k, v => Meaning.ofKind I k v
  | .orNull k, v => [k, .null].any fun t => Meaning.ofKind I t v

/-- What the keywords of the newer dialect alone accept: inclusive and exclusive limits each stand on
their own. -/
def Keywords31.accepts (I : Interpretation) (k : Keywords31) : Meaning := .all [
  k.type.accepts I,
  fun v => k.const.isNull || Meaning.listed [k.const] v,
  .ofOption (.limit .atMost) k.maximum,
  .ofOption (.limit .below) k.exclusiveMaximum,
  .ofOption (.limit .atLeast) k.minimum,
  .ofOption (.limit .above) k.exclusiveMinimum]

namespace Schema30

mutual
/-- What a schema of the older dialect accepts. -/
def accepts (I : Interpretation) : Schema30 → Meaning
  | .ref target => I.refersTo target
  | .node c k items properties additional allOf anyOf oneOf notOf =>
    .all [c.accepts I, k.accepts I, Parts.accepts I {
      items := optionAccepts I items
      properties := namedAccept I properties
      additional := furtherAccepts I additional
      patternProperties := []
      allOf := listAccept I allOf
      anyOf := listAccept I anyOf
      oneOf := listAccept I oneOf
      notOf := optionAccepts I notOf }]

def optionAccepts (I : Interpretation) : Option Schema30 → Option Meaning
  | none => none
  | some s => some (accepts I s)

def namedAccept (I : Interpretation) : List (String × Schema30) → List (String × Meaning)
  | [] => []
  | (k, s) :: ss => (k, accepts I s) :: namedAccept I ss

def listAccept (I : Interpretation) : List Schema30 → List Meaning
  | [] => []
  | s :: ss => accepts I s :: listAccept I ss

def furtherAccepts (I : Interpretation) : Further Schema30 → Further Meaning
  | .unset => .unset
  | .allow b => .allow b
  | .schema s => .schema (accepts I s)
end

end Schema30

namespace Schema31

mutual
/-- What a schema of the newer dialect accepts. -/
def accepts (I : Interpretation) : Schema31 → Meaning
  | .ref target => I.refersTo target
  | .node c k items properties additional patternProperties _ allOf anyOf oneOf notOf =>
    .all [c.accepts I, k.accepts I, Parts.accepts I {
      items := optionAccepts I items
      properties := namedAccept I properties
      additional := furtherAccepts I additional
      patternProperties := namedAccept I patternProperties
      allOf := listAccept I allOf
      anyOf := listAccept I anyOf
      oneOf := listAccept I oneOf
      notOf := optionAccepts I notOf }]

def optionAccepts (I : Interpretation) : Option Schema31 → Option Meaning
  | none => none
  | some s => some (accepts I s)

def namedAccept (I : Interpretation) : List (String × Schema31) → List (String × Meaning)
  | [] => []
  | (k, s) :: ss => (k, accepts I s) :: namedAccept I ss

def listAccept (I : Interpretation) : List Schema31 → List Meaning
  | [] => []
  | s :: ss => accepts I s :: listAccept I ss

def furtherAccepts (I : Interpretation) : Further Schema31 → Further Meaning
  | .unset => .unset
  | .allow b => .allow b
  | .schema s => .schema (accepts I s)
end

end Schema31
end ApiProjection
