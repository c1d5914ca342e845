import ApiProjection.Api.Basic
/-!
# Induction on descriptions

Schemas, bodies and operations hold one another in lists and options, so that `induction` does not
apply to them. Here is what does:

* `Schema.ind`: a property that a schema has if its subschemas have it.
* `Header.ind`: properties of headers, media types and encodings, each of which has its own if
  the parts of the next kind have theirs.
* `Operation.ind`: the same for operations, path items and callbacks.
-/
namespace ApiProjection

/-! ## Schemas -/

/-- What holds of each schema that is a direct part of another one. -/
structure Schema.Each (P : Schema → Prop) (s : Schema) : Prop where
  items : ∀ c ∈ s.items, P c
  properties : ∀ c ∈ s.properties, P c.2
  additional : ∀ a ∈ s.additional, ∀ c ∈ a.schema, P c
  patternProperties : ∀ c ∈ s.patternProperties, P c.2
  unevaluated : ∀ c ∈ s.unevaluated, P c
  allOf : ∀ c ∈ s.allOf, P c
  anyOf : ∀ c ∈ s.anyOf, P c
  oneOf : ∀ c ∈ s.oneOf, P c
  notOf : ∀ c ∈ s.notOf, P c

namespace Schema

variable {P : Schema → Prop}

mutual
/-- A property that passes from the direct parts of a schema to the schema holds of all schemas. -/
theorem ind (step : ∀ s : Schema, s.Each P → P s) : ∀ s, P s
  | ⟨_, _, items, properties, additional, patternProperties, unevaluated, allOf, anyOf, oneOf, notOf⟩ =>
    step _ {
      items := ind_option step items
      properties := ind_named step properties
      additional := ind_additional step additional
      patternProperties := ind_named step patternProperties
      unevaluated := ind_option step unevaluated
      allOf := ind_list step allOf
      anyOf := ind_list step anyOf
      oneOf := ind_list step oneOf
      notOf := ind_option step notOf }

theorem ind_option (step : ∀ s : Schema, s.Each P → P s) : ∀ o : Option Schema, ∀ c ∈ o, P c
  | none, _, h => by cases h
  | some s, _, h => by
    cases h
    exact ind step s

theorem ind_named (step : ∀ s : Schema, s.Each P → P s) :
    ∀ cs : List (String × Schema), ∀ c ∈ cs, P c.2
  | [], _, h => by cases h
  | (_, s) :: cs, c, h => by
    cases h with
    | head => exact ind step s
    | tail _ h => exact ind_named step cs c h

theorem ind_list (step : ∀ s : Schema, s.Each P → P s) : ∀ cs : List Schema, ∀ c ∈ cs, P c
  | [], _, h => by cases h
  | s :: cs, c, h => by
    cases h with
    | head => exact ind step s
    | tail _ h => exact ind_list step cs c h

theorem ind_additional (step : ∀ s : Schema, s.Each P → P s) :
    ∀ o : Option (Additional Schema), ∀ a ∈ o, ∀ c ∈ a.schema, P c
  | none, _, h, _, _ => by cases h
  | some ⟨_, none⟩, _, h, _, hc => by
    cases h
    cases hc
  | some ⟨_, some s⟩, _, h, _, hc => by
    cases h
    cases hc
    exact ind step s
end

end Schema

/-! ## Bodies -/

namespace Header

variable {H : Header → Prop} {M : MediaType → Prop} {E : Encoding → Prop}

/-- How the properties of headers, media types and encodings pass from part to whole. -/
structure Steps (H : Header → Prop) (M : MediaType → Prop) (E : Encoding → Prop) : Prop where
  header : ∀ h : Header, (∀ c ∈ h.content, M c.2) → H h
  mediaType : ∀ m : MediaType, (∀ c ∈ m.encoding, E c.2) → M m
  encoding : ∀ e : Encoding, (∀ c ∈ e.headers, H c.2) → E e

mutual
theorem Steps.ofHeader (step : Steps H M E) : ∀ h, H h
  | ⟨_, _, _, _, _, _, _, _, _, _, content, _⟩ => step.header _ (step.ofContent content)

theorem Steps.ofMediaType (step : Steps H M E) : ∀ m, M m
  | ⟨_, _, _, encoding, _⟩ => step.mediaType _ (step.ofEncodings encoding)

theorem Steps.ofEncoding (step : Steps H M E) : ∀ e, E e
  | ⟨_, headers, _, _, _, _⟩ => step.encoding _ (step.ofHeaders headers)

theorem Steps.ofContent (step : Steps H M E) : ∀ cs : List (String × MediaType), ∀ c ∈ cs, M c.2
  | [], _, h => by cases h
  | (_, m) :: cs, c, h => by
    cases h with
    | head => exact step.ofMediaType m
    | tail _ h => exact step.ofContent cs c h

theorem Steps.ofEncodings (step : Steps H M E) : ∀ cs : List (String × Encoding), ∀ c ∈ cs, E c.2
  | [], _, h => by cases h
  | (_, e) :: cs, c, h => by
    cases h with
    | head => exact step.ofEncoding e
    | tail _ h => exact step.ofEncodings cs c h

theorem Steps.ofHeaders (step : Steps H M E) : ∀ cs : List (String × Header), ∀ c ∈ cs, H c.2
  | [], _, h => by cases h
  | (_, x) :: cs, c, h => by
    cases h with
    | head => exact step.ofHeader x
    | tail _ h => exact step.ofHeaders cs c h
end

/-- Properties of headers, media types and encodings that pass from part to whole hold of all. -/
theorem ind (step : Steps H M E) : (∀ h, H h) ∧ (∀ m, M m) ∧ ∀ e, E e :=
  ⟨step.ofHeader, step.ofMediaType, step.ofEncoding⟩

end Header

/-! ## Operations -/

namespace Operation

variable {O : Operation → Prop} {I : PathItem → Prop} {C : Callback → Prop}

/-- How the properties of operations, path items and callbacks pass from part to whole. -/
structure Steps (O : Operation → Prop) (I : PathItem → Prop) (C : Callback → Prop) : Prop where
  operation : ∀ o : Operation, (∀ c ∈ o.callbacks, C c.2) → O o
  pathItem : ∀ i : PathItem, (∀ c ∈ i.operations, O c.2) → I i
  callback : ∀ c : Callback, (∀ i ∈ c.pathItems, I i.2) → C c

mutual
theorem Steps.ofOperation (step : Steps O I C) : ∀ o, O o
  | ⟨_, _, _, _, _, _, _, _, callbacks, _, _, _, _⟩ => step.operation _ (step.ofCallbacks callbacks)

theorem Steps.ofPathItem (step : Steps O I C) : ∀ i, I i
  | ⟨_, _, _, operations, _, _⟩ => step.pathItem _ (step.ofOperations operations)

theorem Steps.ofCallback (step : Steps O I C) : ∀ c, C c
  | ⟨_, pathItems, _⟩ => step.callback _ (step.ofPathItems pathItems)

theorem Steps.ofOperations (step : Steps O I C) : ∀ cs : List (Method × Operation), ∀ c ∈ cs, O c.2
  | [], _, h => by cases h
  | (_, o) :: cs, c, h => by
    cases h with
    | head => exact step.ofOperation o
    | tail _ h => exact step.ofOperations cs c h

theorem Steps.ofPathItems (step : Steps O I C) : ∀ cs : List (String × PathItem), ∀ c ∈ cs, I c.2
  | [], _, h => by cases h
  | (_, i) :: cs, c, h => by
    cases h with
    | head => exact step.ofPathItem i
    | tail _ h => exact step.ofPathItems cs c h

theorem Steps.ofCallbacks (step : Steps O I C) : ∀ cs : List (String × Callback), ∀ c ∈ cs, C c.2
  | [], _, h => by cases h
  | (_, x) :: cs, c, h => by
    cases h with
    | head => exact step.ofCallback x
    | tail _ h => exact step.ofCallbacks cs c h
end

/-- Properties of operations, path items and callbacks that pass from part to whole hold of all. -/
theorem ind (step : Steps O I C) : (∀ o, O o) ∧ (∀ i, I i) ∧ ∀ c, C c :=
  ⟨step.ofOperation, step.ofPathItem, step.ofCallback⟩

end Operation
end ApiProjection
