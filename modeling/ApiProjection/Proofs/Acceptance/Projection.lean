import ApiProjection.Proofs.Acceptance.Basic
import ApiProjection.Proofs.Induction
import ApiProjection.Proofs.Visit.Basic
import ApiProjection.Proofs.Walk
/-!
# Projections keep what is accepted

* `accepts_to31`: a schema in the newer dialect accepts what it accepts as it is described.
* `accepts_to30`: so does a schema in the older dialect, if no schema that the projection comes to
  says what that dialect cannot (`Schema.Downward`).
* `projections_accept`: both at once.

The proofs are by induction on the schema. A subschema counts through its meaning only, so equal
meanings of the parts give equal meanings of the whole, under a negation and in a choice of one as
anywhere else. What is left are the keywords of a single node.
-/
namespace ApiProjection

variable (I : Interpretation)

/-! ## Readings of whole schemas from those of their parts -/

namespace Schema

theorem optionAccepts_eq (o : Option Schema) : optionAccepts I o = o.map (accepts I) := by
  cases o <;> simp [optionAccepts]

theorem namedAccept_eq (cs : List (String × Schema)) :
    namedAccept I cs = cs.map fun c => (c.1, accepts I c.2) := by
  induction cs with
  | nil => rfl
  | cons c cs ih => simp [namedAccept, ih]

theorem listAccept_eq (cs : List Schema) : listAccept I cs = cs.map (accepts I) := by
  induction cs with
  | nil => rfl
  | cons c cs ih => simp [listAccept, ih]

/-- The meanings of the subschemas of a schema. -/
def meanings (s : Schema) : Parts where
  items := s.items.map (accepts I)
  properties := s.properties.map fun c => (c.1, c.2.accepts I)
  additional := additionalAccepts I s.additional
  patternProperties := s.patternProperties.map fun c => (c.1, c.2.accepts I)
  allOf := s.allOf.map (accepts I)
  anyOf := s.anyOf.map (accepts I)
  oneOf := s.oneOf.map (accepts I)
  notOf := s.notOf.map (accepts I)

theorem accepts_eq (s : Schema) :
    s.accepts I = match nonEmpty s.ref with
      | some target => I.refersTo target
      | none => .all [s.facets.accepts I, (s.meanings I).accepts I] := by
  obtain ⟨ref, _, _, _, _, _, _, _, _, _, _⟩ := s
  cases hr : nonEmpty ref <;>
    simp only [accepts, meanings, optionAccepts_eq, namedAccept_eq, listAccept_eq, hr]

end Schema

namespace Schema30

theorem optionAccepts_eq (o : Option Schema30) : optionAccepts I o = o.map (accepts I) := by
  cases o <;> simp [optionAccepts]

theorem namedAccept_eq (cs : List (String × Schema30)) :
    namedAccept I cs = cs.map fun c => (c.1, accepts I c.2) := by
  induction cs with
  | nil => rfl
  | cons c cs ih => simp [namedAccept, ih]

theorem listAccept_eq (cs : List Schema30) : listAccept I cs = cs.map (accepts I) := by
  induction cs with
  | nil => rfl
  | cons c cs ih => simp [listAccept, ih]

theorem accepts_node (c : Annotations) (k : Keywords30) (items : Option Schema30)
    (properties : List (String × Schema30)) (additional : Further Schema30)
    (allOf anyOf oneOf : List Schema30) (notOf : Option Schema30) :
    accepts I (.node c k items properties additional allOf anyOf oneOf notOf) =
      .all [.all [c.accepts I, k.accepts I], Parts.accepts I {
        items := items.map (accepts I)
        properties := properties.map fun c => (c.1, c.2.accepts I)
        additional := furtherAccepts I additional
        patternProperties := []
        allOf := allOf.map (accepts I)
        anyOf := anyOf.map (accepts I)
        oneOf := oneOf.map (accepts I)
        notOf := notOf.map (accepts I) }] := by
  funext v
  simp [accepts, optionAccepts_eq, namedAccept_eq, listAccept_eq, Meaning.all, Bool.and_assoc]

end Schema30

namespace Schema31

theorem optionAccepts_eq (o : Option Schema31) : optionAccepts I o = o.map (accepts I) := by
  cases o <;> simp [optionAccepts]

theorem namedAccept_eq (cs : List (String × Schema31)) :
    namedAccept I cs = cs.map fun c => (c.1, accepts I c.2) := by
  induction cs with
  | nil => rfl
  | cons c cs ih => simp [namedAccept, ih]

theorem listAccept_eq (cs : List Schema31) : listAccept I cs = cs.map (accepts I) := by
  induction cs with
  | nil => rfl
  | cons c cs ih => simp [listAccept, ih]

theorem accepts_node (c : Annotations) (k : Keywords31) (items : Option Schema31)
    (properties : List (String × Schema31)) (additional : Further Schema31)
    (patternProperties : List (String × Schema31)) (unevaluated : Option Schema31)
    (allOf anyOf oneOf : List Schema31) (notOf : Option Schema31) :
    accepts I (.node c k items properties additional patternProperties unevaluated allOf anyOf oneOf notOf) =
      .all [.all [c.accepts I, k.accepts I], Parts.accepts I {
        items := items.map (accepts I)
        properties := properties.map fun c => (c.1, c.2.accepts I)
        additional := furtherAccepts I additional
        patternProperties := patternProperties.map fun c => (c.1, c.2.accepts I)
        allOf := allOf.map (accepts I)
        anyOf := anyOf.map (accepts I)
        oneOf := oneOf.map (accepts I)
        notOf := notOf.map (accepts I) }] := by
  funext v
  simp [accepts, optionAccepts_eq, namedAccept_eq, listAccept_eq, Meaning.all, Bool.and_assoc]

end Schema31

/-! ## Keywords -/

/-- The empty pattern is found everywhere, so leaving it out changes nothing. -/
theorem accepts_pattern (p : Option String) :
    Meaning.ofOption (.pattern I) (nonEmpty p) = .ofOption (.pattern I) p := by
  unfold nonEmpty
  split
  · funext v
    cases v <;> simp [Meaning.ofOption, Meaning.pattern, I.finds_empty]
  · rfl

/-- A limit with a flag that makes it exclusive is a bound. -/
theorem accepts_flagged (inclusive exclusive : Side) (b : Option Bound) :
    Meaning.ofOption (.limit (if b.any Bound.exclusive then exclusive else inclusive)) (b.map Bound.value) =
      .ofOption (Bound.accepts inclusive exclusive) b := by
  funext v
  cases b with
  | none => rfl
  | some b => simp [Meaning.ofOption, Bound.accepts]

/-- Of an inclusive and an exclusive limit the one that is there is a bound. -/
theorem accepts_boundWhen (inclusive exclusive : Side) (b : Option Bound) (v : Json) :
    (Meaning.ofOption (.limit inclusive) (Schema.boundWhen false b) v &&
      Meaning.ofOption (.limit exclusive) (Schema.boundWhen true b) v) =
      Meaning.ofOption (Bound.accepts inclusive exclusive) b v := by
  cases b with
  | none => rfl
  | some b =>
    cases h : b.exclusive <;> simp [Meaning.ofOption, Bound.accepts, Schema.boundWhen, Option.filter, h]

/-- A constant that becomes the only value of an enumeration is still the only value. -/
theorem accepts_enum30 {f : Facets} (h : f.const.isNull ∨ f.enum.isEmpty) (v : Json) :
    Meaning.unlessEmpty .listed (Schema.enum30 f) v =
      (Meaning.unlessEmpty .listed f.enum v && (f.const.isNull || Meaning.listed [f.const] v)) := by
  unfold Schema.enum30 Meaning.unlessEmpty
  rcases h with h | h
  · simp [h]
  · by_cases hc : f.const.isNull <;> simp [h, hc]

theorem accepts_types31 (f : Facets) (v : Json) :
    (Schema.types31 f).accepts I v =
      Meaning.ofOption (fun k v => Meaning.ofKind I k v || f.nullable && Meaning.ofKind I .null v)
        f.kind v := by
  unfold Schema.types31
  cases hk : f.kind with
  | none => simp [Types31.accepts, Meaning.ofOption]
  | some k => cases k <;> cases hn : f.nullable <;> simp [Types31.accepts, Meaning.ofOption]

/-- The keywords of the newer dialect say what the described ones do. -/
theorem accepts_keywords31 (f : Facets) :
    Meaning.all [(Schema.annotations .v31 f).accepts I, (Schema.keywords31 f).accepts I] = f.accepts I := by
  funext v
  simp only [Facets.accepts, Annotations.accepts, Keywords31.accepts, Meaning.all, List.all_cons,
    List.all_nil, Schema.annotations, Schema.keywords31, accepts_pattern, accepts_types31,
    ← accepts_boundWhen]
  ac_rfl

/-- So do those of the older one, unless null is the type or an enumeration hides a constant. -/
theorem accepts_keywords30 {f : Facets} (hk : f.kind ≠ some .null) (hc : f.const.isNull ∨ f.enum.isEmpty) :
    Meaning.all [(Schema.common30 f).accepts I, (Schema.keywords30 f).accepts I] = f.accepts I := by
  funext v
  simp only [Facets.accepts, Annotations.accepts, Keywords30.accepts, Meaning.all, List.all_cons,
    List.all_nil, Schema.annotations, Schema.common30, Schema.keywords30, accepts_pattern, accepts_enum30 hc,
    accepts_flagged, if_neg hk]
  ac_rfl

/-! ## The newer dialect -/

namespace Schema

theorem accepts_additionalTo31 {o : Option (Additional Schema)}
    (h : ∀ a ∈ o, ∀ c ∈ a.schema, c.to31.accepts I = c.accepts I) :
    Schema31.furtherAccepts I (additionalTo31 o) = additionalAccepts I o := by
  match o with
  | none | some ⟨none, none⟩ | some ⟨some _, none⟩ =>
    simp [additionalTo31, Schema31.furtherAccepts, additionalAccepts]
  | some ⟨_, some c⟩ => simp [additionalTo31, Schema31.furtherAccepts, additionalAccepts, h _ rfl c rfl]

/-- **The newer dialect accepts what is described.** -/
theorem accepts_to31 (s : Schema) : s.to31.accepts I = s.accepts I := by
  induction s using Schema.ind with
  | step s ih =>
    rw [to31_eq, accepts_eq]
    cases nonEmpty s.ref with
    | some target => simp [Schema31.accepts]
    | none =>
      have hnamed {cs : List (String × Schema)} (h : ∀ c ∈ cs, c.2.to31.accepts I = c.2.accepts I) :
          (cs.map fun c => (c.1, c.2.to31)).map (fun c => (c.1, c.2.accepts I)) =
            cs.map fun c => (c.1, c.2.accepts I) := by
        rw [List.map_map]
        exact List.map_congr_left fun c hc => by simp [h c hc]
      have hlist {cs : List Schema} (h : ∀ c ∈ cs, c.to31.accepts I = c.accepts I) :
          (cs.map to31).map (Schema31.accepts I) = cs.map (accepts I) := by
        rw [List.map_map]
        exact List.map_congr_left h
      have hoption {o : Option Schema} (h : ∀ c ∈ o, c.to31.accepts I = c.accepts I) :
          (o.map to31).map (Schema31.accepts I) = o.map (accepts I) := by
        cases o with
        | none => rfl
        | some c => simp [h c rfl]
      simp only [Schema31.accepts_node, accepts_keywords31, meanings, hoption ih.items, hnamed ih.properties,
        accepts_additionalTo31 I ih.additional, hnamed ih.patternProperties, hlist ih.allOf,
        hlist ih.anyOf, hlist ih.oneOf, hoption ih.notOf]

end Schema

/-! ## The older dialect -/

/-- A schema that says nothing about what it accepts that the older dialect cannot say. -/
structure Schema.Downward (s : Schema) : Prop where
  kind : s.facets.kind ≠ some .null
  constOrEnum : s.facets.const.isNull ∨ s.facets.enum.isEmpty
  patternProperties : s.patternProperties = []
  unevaluated : s.unevaluated = none

/-- Whether a visited schema is a reference or one that the older dialect can say. -/
def Subject.Downward : Subject → Prop
  | .schema s => nonEmpty s.ref = none → s.Downward
  | _ => True

namespace Schema

/-- Whether the older dialect can say everything that a projection comes to. -/
def AllDownward (s : Schema) : Prop := ∀ v ∈ s.visits .v30, v.subject.Downward

/-- A schema that is no reference passes the condition on to its parts. -/
theorem AllDownward.each {s : Schema} (h : s.AllDownward) (hr : nonEmpty s.ref = none) :
    s.Downward ∧ s.Each AllDownward := by
  unfold AllDownward at h
  rw [visits_eq, Visit.below, hr] at h
  have hs : s.Downward := h _ List.mem_cons_self hr
  have hp := Visit.forall_gather.1 fun v hv => h v (List.mem_cons_of_mem _ hv)
  simp only [parts, List.forall_mem_cons, Visit.forall_gather, Visit.forall_each, Visit.forall_items,
    Visit.forall_option] at hp
  obtain ⟨hitems, hproperties, hadditional, -, -, hallOf, hanyOf, honeOf, hnotOf, -⟩ := hp
  exact ⟨hs, {
    items := hitems
    properties := hproperties
    additional := fun a ha c hc => hadditional c (by simp [Option.mem_def.1 ha, Option.mem_def.1 hc])
    patternProperties := by simp [hs.patternProperties]
    unevaluated := by simp [hs.unevaluated]
    allOf := hallOf
    anyOf := hanyOf
    oneOf := honeOf
    notOf := hnotOf }⟩

theorem accepts_additionalTo30 {o : Option (Additional Schema)} {p : Pointer}
    (h : ∀ a ∈ o, ∀ c ∈ a.schema, ∀ p, (c.to30 p).value.accepts I = c.accepts I) :
    Schema30.furtherAccepts I (additionalTo30 o p).value = additionalAccepts I o := by
  match o with
  | none | some ⟨none, none⟩ | some ⟨some _, none⟩ =>
    simp [additionalTo30, Schema30.furtherAccepts, additionalAccepts]
  | some ⟨_, some c⟩ => simp [additionalTo30, Schema30.furtherAccepts, additionalAccepts, h _ rfl c rfl]

/-- **The older dialect accepts what is described**, wherever the schema stands. -/
theorem accepts_to30 (s : Schema) (h : s.AllDownward) (p : Pointer) :
    (s.to30 p).value.accepts I = s.accepts I := by
  induction s using Schema.ind generalizing p with
  | step s ih =>
    rw [to30_eq, accepts_eq]
    cases hr : nonEmpty s.ref with
    | some target => simp [Schema30.accepts]
    | none =>
      obtain ⟨hs, hp⟩ := h.each hr
      have hitems := Traced.map_value_option to30 (p.key "items") fun c hc => ih.items c hc (hp.items c hc)
      have hproperties := Traced.map_value_named to30 (p.key "properties") fun c hc =>
        ih.properties c hc (hp.properties c hc)
      have hadditional := accepts_additionalTo30 I (p := p.key "additionalProperties") fun a ha c hc =>
        ih.additional a ha c hc (hp.additional a ha c hc)
      have hallOf := Traced.map_value_items to30 (p.key "allOf") (i := 0) fun c hc =>
        ih.allOf c hc (hp.allOf c hc)
      have hanyOf := Traced.map_value_items to30 (p.key "anyOf") (i := 0) fun c hc =>
        ih.anyOf c hc (hp.anyOf c hc)
      have honeOf := Traced.map_value_items to30 (p.key "oneOf") (i := 0) fun c hc =>
        ih.oneOf c hc (hp.oneOf c hc)
      have hnotOf := Traced.map_value_option to30 (p.key "not") fun c hc => ih.notOf c hc (hp.notOf c hc)
      simp only [Traced.value_bind, Traced.value_pure, Schema30.accepts_node,
        accepts_keywords30 I hs.kind hs.constOrEnum, meanings, hitems, hproperties, hadditional, hallOf,
        hanyOf, honeOf, hnotOf, hs.patternProperties, List.map_nil]

/-- **Neither dialect changes what is accepted.** Under every interpretation a schema, what is
written for it in the older dialect and what is written for it in the newer one accept the same
values. -/
theorem projections_accept (s : Schema)
    (h : ∀ v ∈ s.visits .v30, v.subject.Downward)
    (I : Interpretation) (p : Pointer) (v : Json) :
    (s.accepts I v ↔ (s.to30 p).value.accepts I v) ∧ (s.accepts I v ↔ s.to31.accepts I v) := by
  rw [accepts_to30 I s h p, accepts_to31 I s]
  exact ⟨Iff.rfl, Iff.rfl⟩

/-- An integer above three or null. -/
def quantity : Schema where
  facets := { kind := some .integer, nullable := true, minimum := some ⟨.int 3, true⟩ }

def order : Schema where
  facets := { kind := some .object, required := ["n"] }
  properties := [("n", quantity)]

/-- A reading in which every reference accepts everything. -/
def reading : Interpretation := .ofReferences (fun _ _ => true) true

theorem projections_accept_order :
    (∀ v ∈ order.visits .v30, v.subject.Downward) ∧
      order.accepts reading (.object [("n", .null)]) ∧
      (order.to30 .root).value.accepts reading (.object [("n", .null)]) ∧
      order.to31.accepts reading (.object [("n", .null)]) := by
  have hv : order.visits .v30 = [⟨[], .schema order⟩, ⟨["properties", "n"], .schema quantity⟩] := by rfl
  have h : ∀ v ∈ order.visits .v30, v.subject.Downward := by
    rw [hv]
    simp only [List.forall_mem_cons, Subject.Downward]
    exact ⟨fun _ => ⟨by decide, .inl rfl, rfl, rfl⟩, fun _ => ⟨by decide, .inl rfl, rfl, rfl⟩, by simp⟩
  obtain ⟨h30, h31⟩ := projections_accept order h reading .root (.object [("n", .null)])
  have ha : order.accepts reading (.object [("n", .null)]) := by decide
  exact ⟨h, ha, h30.1 ha, h31.1 ha⟩

end Schema
end ApiProjection
