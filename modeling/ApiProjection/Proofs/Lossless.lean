import ApiProjection.Proofs.Fields
import ApiProjection.Proofs.Induction
import ApiProjection.Proofs.Walk
/-!
# What the newer dialect keeps

The newer dialect can say all that a schema says. What two schemas may differ in and still be written
alike is said by a normal form:

* `Schema.normal`: a schema without what has no meaning in it, such as an empty text or an allow flag
  beside a schema.
* `Schema.project_v31_inj`: schemas are written alike in the newer dialect exactly if they have the
  same normal form, and nothing is recorded on the way.

The proof goes from a schema to its parts (`Schema.inside`): a written schema tells its own keywords and
the written forms of its parts (`Schema.written31_inj`).
-/
namespace ApiProjection

open Node (Field)

/-! ## Normal forms -/

/-- The hints without empty texts. -/
def XmlHints.normal (x : XmlHints) : XmlHints :=
  { x with name := nonEmpty x.name, space := nonEmpty x.space, spacePrefix := nonEmpty x.spacePrefix }

/-- The keywords without those that have no meaning: empty texts, nullability of no type or of null, and
extensions that the newer version keeps for its makers. A single example counts as a list of examples. -/
def Facets.normal (f : Facets) : Facets :=
  { f with
    nullable := f.nullable && f.kind.any (· != .null)
    title := nonEmpty f.title
    description := nonEmpty f.description
    format := nonEmpty f.format
    contentEncoding := nonEmpty f.contentEncoding
    contentMediaType := nonEmpty f.contentMediaType
    examples := if f.examples = [] ∧ f.sample.isNull = false then [f.sample] else f.examples
    pattern := nonEmpty f.pattern
    xml := f.xml.map XmlHints.normal
    extensions := Extension.allowed .v31 f.extensions }

namespace Schema

mutual
/-- The schema without what has no meaning in it. Of a reference the target is left, of the properties
that are not listed a schema or else a flag. -/
def normal : Schema → Schema
  | ⟨ref, f, items, properties, additional, patternProperties, unevaluated, allOf, anyOf, oneOf, notOf⟩ =>
    match nonEmpty ref with
    | some target => { ref := some target }
    | none => {
      facets := f.normal
      items := normalOption items
      properties := normalNamed properties
      additional := normalAdditional additional
      patternProperties := normalNamed patternProperties
      unevaluated := normalOption unevaluated
      allOf := normalList allOf
      anyOf := normalList anyOf
      oneOf := normalList oneOf
      notOf := normalOption notOf }

def normalOption : Option Schema → Option Schema
  | none => none
  | some s => some (normal s)

def normalNamed : List (String × Schema) → List (String × Schema)
  | [] => []
  | (k, s) :: ss => (k, normal s) :: normalNamed ss

def normalList : List Schema → List Schema
  | [] => []
  | s :: ss => normal s :: normalList ss

def normalAdditional : Option (Additional Schema) → Option (Additional Schema)
  | some ⟨_, some s⟩ => some { schema := some (normal s) }
  | some ⟨some b, none⟩ => some { allow := some b }
  | _ => none
end

end Schema

/-! ## The parts of a schema -/

namespace Further

variable {α β : Type}

/-- What is said about the properties that are not listed: a schema if there is one, or else a flag. -/
def of : Option (Additional α) → Further α
  | some ⟨_, some s⟩ => .schema s
  | some ⟨some b, none⟩ => .allow b
  | _ => .unset

def map (f : α → β) : Further α → Further β
  | .unset => .unset
  | .allow b => .allow b
  | .schema s => .schema (f s)

end Further

namespace Schema

/-- What is made of the parts of a schema. -/
structure Inside (α : Type) where
  items : Option α
  properties : List (String × α)
  additional : Further α
  patternProperties : List (String × α)
  unevaluated : Option α
  allOf : List α
  anyOf : List α
  oneOf : List α
  notOf : Option α

/-- The parts of a schema, each through a function. -/
def inside {α : Type} (f : Schema → α) (s : Schema) : Inside α where
  items := s.items.map f
  properties := s.properties.map fun c => (c.1, f c.2)
  additional := (Further.of s.additional).map f
  patternProperties := s.patternProperties.map fun c => (c.1, f c.2)
  unevaluated := s.unevaluated.map f
  allOf := s.allOf.map f
  anyOf := s.anyOf.map f
  oneOf := s.oneOf.map f
  notOf := s.notOf.map f

section
variable {α β : Type} {f : Schema → α} {g : Schema → β}

theorem map_option_congr {o p : Option Schema} (h : ∀ c ∈ o, ∀ d, f c = f d ↔ g c = g d) :
    o.map f = p.map f ↔ o.map g = p.map g := by
  cases o <;> cases p <;> simp_all

theorem map_list_congr {cs ds : List Schema} (h : ∀ c ∈ cs, ∀ d, f c = f d ↔ g c = g d) :
    cs.map f = ds.map f ↔ cs.map g = ds.map g := by
  induction cs generalizing ds with
  | nil => cases ds <;> simp
  | cons c cs ih =>
    rw [List.forall_mem_cons] at h
    cases ds with
    | nil => simp
    | cons d ds => simp [h.1 d, ih h.2]

theorem map_named_congr {cs ds : List (String × Schema)} (h : ∀ c ∈ cs, ∀ d, f c.2 = f d ↔ g c.2 = g d) :
    (cs.map fun c => (c.1, f c.2)) = (ds.map fun c => (c.1, f c.2)) ↔
      (cs.map fun c => (c.1, g c.2)) = ds.map fun c => (c.1, g c.2) := by
  induction cs generalizing ds with
  | nil => cases ds <;> simp
  | cons c cs ih =>
    rw [List.forall_mem_cons] at h
    cases ds with
    | nil => simp
    | cons d ds => simp [h.1 d.2, ih h.2]

theorem map_further_congr {a b : Option (Additional Schema)}
    (h : ∀ x ∈ a, ∀ c ∈ x.schema, ∀ d, f c = f d ↔ g c = g d) :
    (Further.of a).map f = (Further.of b).map f ↔ (Further.of a).map g = (Further.of b).map g := by
  cases ha : Further.of a with
  | unset | allow => cases Further.of b <;> simp [Further.map]
  | schema c =>
    have hc : ∀ d, f c = f d ↔ g c = g d := by
      unfold Further.of at ha
      split at ha
      · cases ha
        exact h _ rfl c rfl
      · cases ha
      · cases ha
    cases Further.of b <;> simp [Further.map, hc]

/-- Functions that tell each part of a schema from others alike tell the whole inside alike. -/
theorem inside_congr {s : Schema} (h : s.Each fun c => ∀ d, f c = f d ↔ g c = g d) (t : Schema) :
    s.inside f = t.inside f ↔ s.inside g = t.inside g := by
  simp only [inside, Inside.mk.injEq]
  exact and_congr (map_option_congr h.items) <| and_congr (map_named_congr h.properties) <|
    and_congr (map_further_congr h.additional) <| and_congr (map_named_congr h.patternProperties) <|
    and_congr (map_option_congr h.unevaluated) <| and_congr (map_list_congr h.allOf) <|
    and_congr (map_list_congr h.anyOf) <| and_congr (map_list_congr h.oneOf) (map_option_congr h.notOf)

end

/-! ## Normal forms, one schema at a time -/

theorem normalOption_eq (o : Option Schema) : normalOption o = o.map normal := by
  cases o <;> simp [normalOption]

theorem normalNamed_eq (cs : List (String × Schema)) :
    normalNamed cs = cs.map fun c => (c.1, c.2.normal) := by
  induction cs with
  | nil => rfl
  | cons c cs ih => simp [normalNamed, ih]

theorem normalList_eq (cs : List Schema) : normalList cs = cs.map normal := by
  induction cs with
  | nil => rfl
  | cons c cs ih => simp [normalList, ih]

theorem normalAdditional_inj {a b : Option (Additional Schema)} :
    normalAdditional a = normalAdditional b ↔
      (Further.of a).map normal = (Further.of b).map normal := by
  unfold normalAdditional Further.of
  split <;> split <;> simp [Further.map]

theorem normal_ref {s : Schema} {target : String} (h : nonEmpty s.ref = some target) :
    s.normal = { ref := some target } := by
  obtain ⟨_, _, _, _, _, _, _, _, _, _, _⟩ := s
  simp only at h
  simp only [normal, h]

theorem ref_normal {s : Schema} (h : nonEmpty s.ref = none) : s.normal.ref = none := by
  obtain ⟨_, _, _, _, _, _, _, _, _, _, _⟩ := s
  simp only at h
  simp only [normal, h]

/-- Two schemas that are no references have one normal form if their keywords and their parts have. -/
theorem normal_inj {s t : Schema} (hs : nonEmpty s.ref = none) (ht : nonEmpty t.ref = none) :
    s.normal = t.normal ↔ s.facets.normal = t.facets.normal ∧ s.inside normal = t.inside normal := by
  obtain ⟨_, _, _, _, _, _, _, _, _, _, _⟩ := s
  obtain ⟨_, _, _, _, _, _, _, _, _, _, _⟩ := t
  simp only at hs ht
  simp only [normal, hs, ht, inside, normalOption_eq, normalNamed_eq, normalList_eq, Schema.mk.injEq,
    Inside.mk.injEq, normalAdditional_inj, true_and]

end Schema

/-! ## What single keywords are written as -/

theorem Kind.name_inj {k l : Kind} : k.name = l.name ↔ k = l := by
  cases k <;> cases l <;> decide

theorem Types31.field_inj {ts us : Types31} : ts.field = us.field ↔ ts = us := by
  cases ts <;> cases us <;> simp [field, Field.text, Kind.name_inj]

theorem Discriminator.toNode_inj {d e : Discriminator} : d.toNode = e.toNode ↔ d = e := by
  have hi : Function.Injective fun m : String × String => (m.1, Node.text m.2) := by
    rintro ⟨k, s⟩ ⟨l, t⟩ h
    simpa using h
  cases d
  cases e
  rw [toNode, toNode, Node.ofFields, Node.ofFields, Node.object.injEq,
    Field.flatten_inj ["propertyName", "mapping"] (by decide) (by simp) (by simp)]
  simp [(List.map_injective_iff.2 hi).eq_iff]

theorem XmlHints.toNode_inj {x y : XmlHints} : x.toNode = y.toNode ↔ x.normal = y.normal := by
  rw [toNode, toNode, Node.ofFields, Node.ofFields, Node.object.injEq,
    Field.flatten_inj ["name", "namespace", "prefix", "attribute", "wrapped"]
      (by decide) (by simp) (by simp)]
  simp [normal]

theorem XmlHints.map_toNode {o p : Option XmlHints} :
    o.map toNode = p.map toNode ↔ o.map normal = p.map normal := by
  cases o <;> cases p <;> simp [toNode_inj]

namespace Schema

theorem types31_inj {f g : Facets} : types31 f = types31 g ↔
    f.kind = g.kind ∧ (f.nullable && f.kind.any (· != .null)) = (g.nullable && g.kind.any (· != .null)) := by
  -- types and null beside them are a set of finitely many cases
  unfold types31
  generalize f.kind = k, f.nullable = b, g.kind = l, g.nullable = c
  revert b c
  cases k with
  | none =>
    cases l with
    | none => decide
    | some l => cases l <;> decide
  | some k =>
    cases l with
    | none => cases k <;> decide
    | some l => cases k <;> cases l <;> decide

theorem boundWhen_some (e : Bool) (b : Bound) :
    boundWhen e (some b) = if b.exclusive = e then some b.value else none := by
  by_cases h : b.exclusive = e <;> simp [boundWhen, Option.filter, h]

/-- A bound is told by what it is as an exclusive one and what it is as another. -/
theorem bound_eq_iff {a b : Option Bound} :
    a = b ↔ boundWhen false a = boundWhen false b ∧ boundWhen true a = boundWhen true b := by
  have hnone (e : Bool) : boundWhen e none = none := rfl
  match a, b with
  | none, none => simp
  | none, some ⟨_, e⟩ | some ⟨_, e⟩, none => cases e <;> simp [hnone, boundWhen_some]
  | some ⟨_, d⟩, some ⟨_, e⟩ => cases d <;> cases e <;> simp [boundWhen_some]

/-! ## What a whole schema is written as -/

/-- The node that is written for a schema. -/
def written31 (s : Schema) : Node := s.to31.toNode

/-- The names of the fields of a schema. -/
def fieldNames : List String := [
  "title", "type", "format", "contentEncoding", "contentMediaType", "description", "example", "examples",
  "deprecated", "readOnly", "writeOnly", "discriminator", "xml", "enum", "const", "multipleOf", "maximum",
  "exclusiveMaximum", "minimum", "exclusiveMinimum", "pattern", "maxLength", "minLength", "items",
  "maxItems", "minItems", "uniqueItems", "properties", "required", "additionalProperties",
  "patternProperties", "unevaluatedProperties", "allOf", "anyOf", "oneOf", "not", "default",
  "minProperties", "maxProperties"]

@[simp] theorem under_field (ts : Types31) : Field.Under "type" ts.field := by
  cases ts <;> simp [Types31.field]

@[simp] theorem under_furtherField (a : Further Schema31) :
    Field.Under "additionalProperties" (Schema31.furtherField a) := by
  cases a <;> simp [Schema31.furtherField]

theorem written31_ref {s : Schema} {target : String} (h : nonEmpty s.ref = some target) :
    s.written31 = .reference target := by
  rw [written31, to31_eq, h]
  rfl

/-- A schema that is no reference is written as a row of fields. -/
theorem written31_row {s : Schema} (h : nonEmpty s.ref = none) :
    ∃ row, List.Forall₂ Field.Under fieldNames row ∧
      s.written31 = .ofFields row (annotations .v31 s.facets).extensions := by
  rw [written31, to31_eq, h]
  exact ⟨_, by simp [fieldNames], rfl⟩

theorem written31_ne_reference {s : Schema} (h : nonEmpty s.ref = none) (target : String) :
    s.written31 ≠ .reference target := by
  obtain ⟨row, hrow, hs⟩ := written31_row h
  intro he
  have hmem : ("$ref", Node.text target) ∈ row.flatten := by
    rw [hs, Node.ofFields, Node.reference, Node.object.injEq] at he
    simp [he.1]
  have hname : "$ref" ∈ fieldNames := Field.keys_flatten hrow _ hmem
  revert hname
  decide

/-- No schema is written as a flag is. -/
theorem written31_ne_free (s : Schema) (v : Value) : s.written31 ≠ .free v := by
  cases h : nonEmpty s.ref with
  | some target => simp [written31_ref h, Node.reference]
  | none =>
    obtain ⟨row, _, hs⟩ := written31_row h
    simp [hs, Node.ofFields]

theorem furtherField_eq (a : Option (Additional Schema)) :
    Schema31.furtherField (additionalTo31 a) = match (Further.of a).map written31 with
      | .unset => []
      | .allow b => [("additionalProperties", .free (.bool b))]
      | .schema n => [("additionalProperties", n)] := by
  match a with
  | none | some ⟨none, none⟩ | some ⟨some _, none⟩ | some ⟨_, some _⟩ => rfl

theorem furtherField_inj {a b : Option (Additional Schema)} :
    Schema31.furtherField (additionalTo31 a) = Schema31.furtherField (additionalTo31 b) ↔
      (Further.of a).map written31 = (Further.of b).map written31 := by
  rw [furtherField_eq, furtherField_eq]
  cases Further.of a <;> cases Further.of b <;>
    simp [Further.map, written31_ne_free, (written31_ne_free _ _).symm]

theorem examples31_eq (f : Facets) :
    examples31 f = if f.examples = [] ∧ f.sample.isNull = false then [f.sample] else f.examples := by
  simp [examples31]

/-- A schema that is no reference tells its keywords and what is written for its parts. -/
theorem written31_inj {s t : Schema} (hs : nonEmpty s.ref = none) (ht : nonEmpty t.ref = none) :
    s.written31 = t.written31 ↔
      s.facets.normal = t.facets.normal ∧ s.inside written31 = t.inside written31 := by
  rw [written31, written31, to31_eq, to31_eq, hs, ht]
  simp only
  rw [Schema31.toNode, Schema31.toNode, Node.ofFields, Node.ofFields, Node.object.injEq,
    Field.flatten_inj fieldNames (by decide) (by simp [fieldNames]) (by simp [fieldNames])]
  have hdiscriminator : Function.Injective Discriminator.toNode := fun _ _ => Discriminator.toNode_inj.1
  -- equal rows have equal fields
  simp only [List.cons.injEq, Field.text?_inj, Field.flag_inj, Field.int?_inj, Field.number?_inj,
    Field.free_inj, Field.frees_inj, Field.texts_inj, Field.node?_inj, Field.nodes_inj, Field.named_inj,
    Types31.field_inj, furtherField_inj, Schema31.optionToNode_eq, Schema31.listToNodes_eq,
    Schema31.namedToNodes_eq, List.map_map, Option.map_map, Function.comp_def]
  -- and each field speaks of one keyword or of one part
  simp only [annotations, keywords31, nonEmpty_nonEmpty, types31_inj,
    (Option.map_injective hdiscriminator).eq_iff, XmlHints.map_toNode, examples31_eq, bound_eq_iff (a := s.facets.minimum),
    bound_eq_iff (a := s.facets.maximum), Facets.normal, Facets.mk.injEq, inside, Inside.mk.injEq, written31]
  tauto

/-- A schema is known by what is written for it, up to what has no meaning in it. -/
theorem written31_eq_iff (s t : Schema) : s.written31 = t.written31 ↔ s.normal = t.normal := by
  induction s using Schema.ind generalizing t with
  | step s ih =>
    cases hs : nonEmpty s.ref with
    | some target =>
      cases ht : nonEmpty t.ref with
      | some target' =>
        rw [written31_ref hs, written31_ref ht, normal_ref hs, normal_ref ht]
        simp [Node.reference]
      | none =>
        rw [written31_ref hs, normal_ref hs]
        refine iff_of_false (written31_ne_reference ht target).symm fun h => ?_
        have href : some target = t.normal.ref := congrArg Schema.ref h
        simp [ref_normal ht] at href
    | none =>
      cases ht : nonEmpty t.ref with
      | some target =>
        rw [written31_ref ht, normal_ref ht]
        refine iff_of_false (written31_ne_reference hs target) fun h => ?_
        have href : s.normal.ref = some target := congrArg Schema.ref h
        simp [ref_normal hs] at href
      | none => rw [written31_inj hs ht, normal_inj hs ht, inside_congr ih t]

/-- **The newer dialect loses nothing.** Two schemas are written alike in it exactly if they have the
same normal form, and nothing is recorded about them. -/
theorem project_v31_inj (s t : Schema) (p q : Pointer) :
    (s.project .v31 p).warnings = [] ∧
      ((s.project .v31 p).value = (t.project .v31 q).value ↔ s.normal = t.normal) :=
  ⟨rfl, written31_eq_iff s t⟩

end Schema
end ApiProjection
