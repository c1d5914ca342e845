import ApiProjection.Proofs.Agreement.Common
import ApiProjection.Proofs.Lossless
import ApiProjection.Proofs.Reference.Site
/-!
# Nodes that both versions write alike

A node whose visited parts are common to both versions (`Subject.Common`) is written alike in both, up to
the order of keys: `Schema.agrees`, `Response.agrees`, `PathItem.agrees` and so on. The order differs in
schemas only, where the older version writes the limits of properties before the compositions and the
newer one behind them.
-/
namespace ApiProjection

open Node (Agree EntriesAgree EntriesMatch Field agree_object agree_match entriesAgree_flatten)

/-! ## Objects with extensions -/

namespace Extension

theorem Common.isJson {xs : Extensions} (h : Extension.Common xs) (t : Target) :
    ∀ x ∈ allowed t xs, x.2.isJson = true :=
  fun x hx => (h x (List.mem_of_mem_filter hx)).1

/-- Extensions under keys that are not reserved are allowed in both versions or in none. -/
theorem Common.allowed_eq {xs : Extensions} (h : Extension.Common xs) : allowed .v30 xs = allowed .v31 xs := by
  refine List.filter_congr fun x hx => ?_
  have hr : (reserved.any fun r => r.isPrefixOf x.1) = false := by
    rw [List.any_eq_false]
    exact fun r hr => by simp [(h x hx).2 r hr]
  simp [isAllowed, hr, Target.isFeatureRich]

end Extension

theorem option_any_false {α : Type} {c : α → Bool} {o : Option α} (h : ∀ x ∈ o, c x = false) :
    o.any c = false := by
  cases o with
  | none => rfl
  | some x => exact h x rfl

theorem Node.agree_extended {fs gs : List Field} {xs : Extensions} (h : List.Forall₂ EntriesAgree fs gs)
    (hx : Extension.Common xs) : Agree (.extended .v30 fs xs) (.extended .v31 gs xs) := by
  rw [Node.extended, Node.extended, hx.allowed_eq]
  exact agree_object (entriesAgree_flatten h) (hx.isJson .v31)

theorem Node.agree_reference (target : String) : Agree (.reference target) (.reference target) :=
  agree_refl rfl

/-! ## Lists, named parts, optional parts -/

/-- Nodes that both versions write alike at every place. -/
def Agrees (f : Target → Pointer → Traced Node) : Prop := ∀ p, Agree (f .v30 p).value (f .v31 p).value

namespace Agrees

variable {α : Type} {f : Target → α → Pointer → Traced Node} (p : Pointer)

theorem option {o : Option α} (h : ∀ x ∈ o, Agrees fun t => f t x) :
    Option.Rel Agree (Traced.option (f .v30) p o).value (Traced.option (f .v31) p o).value := by
  cases o with
  | none => exact .none
  | some x => exact .some (h x rfl p)

theorem items {xs : List α} (h : ∀ x ∈ xs, Agrees fun t => f t x) :
    List.Forall₂ Agree (Traced.items (f .v30) p 0 xs).value (Traced.items (f .v31) p 0 xs).value := by
  rw [Traced.value_items, Traced.value_items, List.forall₂_map_left_iff, List.forall₂_map_right_iff,
    List.forall₂_same]
  exact fun e he => h e.1 (List.fst_mem_of_mem_zipIdx he) (p.index e.2)

theorem named {xs : List (String × α)} (h : ∀ x ∈ xs, Agrees fun t => f t x.2) :
    EntriesAgree (Traced.named (f .v30) p xs).value (Traced.named (f .v31) p xs).value := by
  rw [Traced.value_named, Traced.value_named, EntriesAgree, List.forall₂_map_left_iff,
    List.forall₂_map_right_iff, List.forall₂_same]
  exact fun x hx => ⟨rfl, h x hx (p.key x.1)⟩

omit p
variable {u : Subject} {parts : List (String × List Visit)}

/-- A node that may be a reference. If it is, both versions write that and nothing else. -/
theorem node {ref : Option String} (href : nonEmpty ref = u.ref?)
    (hall : ∀ v ∈ (⟨[], u⟩ : Visit) :: Visit.below ref parts, v.subject.Common)
    (h : nonEmpty ref = none → u.Common → (∀ b ∈ parts, ∀ v ∈ b.2, v.subject.Common) →
      ∀ p, Agree (u.project .v30 p).value (u.project .v31 p).value) : Agrees fun t => u.project t := by
  intro p
  obtain ⟨hu, hparts⟩ := List.forall_mem_cons.1 hall
  change Agree (u.project .v30 p).value (u.project .v31 p).value
  cases hr : nonEmpty ref with
  | some target =>
    rw [Subject.project_ref (href.symm.trans hr), Subject.project_ref (href.symm.trans hr)]
    exact Node.agree_reference target
  | none => exact h hr hu ((Visit.forall_below_none hr).1 hparts) p

/-- A node that is never a reference. -/
theorem whole (hall : ∀ v ∈ (⟨[], u⟩ : Visit) :: Visit.gather parts, v.subject.Common)
    (h : u.Common → (∀ b ∈ parts, ∀ v ∈ b.2, v.subject.Common) →
      ∀ p, Agree (u.project .v30 p).value (u.project .v31 p).value) : Agrees fun t => u.project t := by
  obtain ⟨hu, hparts⟩ := List.forall_mem_cons.1 hall
  exact h hu (Visit.forall_gather.1 hparts)

end Agrees

section
variable {α : Type} {f : Target → α → Node}

theorem Node.agree_map {xs : List α} (h : ∀ x ∈ xs, Agree (f .v30 x) (f .v31 x)) :
    List.Forall₂ Agree (xs.map (f .v30)) (xs.map (f .v31)) := by
  rw [List.forall₂_map_left_iff, List.forall₂_map_right_iff, List.forall₂_same]
  exact h

theorem Node.entriesAgree_map {xs : List (String × α)} (h : ∀ x ∈ xs, Agree (f .v30 x.2) (f .v31 x.2)) :
    EntriesAgree (xs.map fun x => (x.1, f .v30 x.2)) (xs.map fun x => (x.1, f .v31 x.2)) := by
  rw [EntriesAgree, List.forall₂_map_left_iff, List.forall₂_map_right_iff, List.forall₂_same]
  exact fun x hx => ⟨rfl, h x hx⟩

theorem Node.agree_map? {o : Option α} (h : ∀ x ∈ o, Agree (f .v30 x) (f .v31 x)) :
    Option.Rel Agree (o.map (f .v30)) (o.map (f .v31)) := by
  cases o with
  | none => exact .none
  | some x => exact .some (h x rfl)

end

/-! ## Schemas -/

theorem Node.entriesAgree_texts (es : List (String × String)) :
    EntriesAgree (es.map fun (k, s) => (k, Node.text s)) (es.map fun (k, s) => (k, Node.text s)) :=
  Node.entriesAgree_map (f := fun _ => Node.text) fun _ _ => Node.agree_refl rfl

theorem Discriminator.agree (d : Discriminator) : Agree d.toNode d.toNode :=
  Node.agree_plain (entriesAgree_flatten (by simp [Field.agree_named _ (Node.entriesAgree_texts d.mapping)]))

theorem XmlHints.agree (x : XmlHints) : Agree x.toNode x.toNode :=
  Node.agree_plain (entriesAgree_flatten (by simp))

namespace Schema

/-- Common keywords are written alike, apart from those that are written differently on purpose. -/
theorem common30_eq {f : Facets} (h : f.Common) : common30 f = annotations .v31 f := by
  have hformat : format30 f = nonEmpty f.format := by rw [format30, h.contentEncoding]
  have henum : enum30 f = f.enum := by simp [enum30, h.const]
  have hexample : example30 f = f.sample := by rw [example30, h.examples, List.headD_nil]
  rw [common30, hformat, henum, hexample, annotations, annotations, h.extensions.allowed_eq]

theorem keywords30_eq {f : Facets} (h : f.Common) :
    keywords30 f = { type := f.kind, maximum := f.maximum.map Bound.value, minimum := f.minimum.map Bound.value } := by
  rw [keywords30, option_any_false h.maximum, option_any_false h.minimum, if_neg h.kind, if_neg h.kind,
    h.nullable]

theorem types31_eq {f : Facets} (h : f.Common) : types31 f = f.kind.elim .unset .one := by
  have hkind := h.kind
  unfold types31
  split
  · simp [*]
  · simp_all
  · simp [*, h.nullable]

theorem keywords31_eq {f : Facets} (h : f.Common) :
    keywords31 f = { type := f.kind.elim .unset .one, const := f.const, maximum := f.maximum.map Bound.value,
                     minimum := f.minimum.map Bound.value } := by
  have hwhen {o : Option Bound} (ho : ∀ b ∈ o, b.exclusive = false) :
      boundWhen false o = o.map Bound.value ∧ boundWhen true o = none := by
    cases o with
    | none => exact ⟨rfl, rfl⟩
    | some b => simp [boundWhen, Option.filter, ho b rfl]
  have hexamples : examples31 f = [] := by simp [examples31, h.examples, h.sample]
  rw [keywords31, types31_eq h, hexamples, h.contentEncoding, h.contentMediaType, (hwhen h.maximum).1,
    (hwhen h.maximum).2, (hwhen h.minimum).1, (hwhen h.minimum).2]

theorem agree_type (k : Option Kind) :
    EntriesAgree (Field.text? "type" (k.map Kind.name)) (Types31.field (k.elim .unset .one)) := by
  have hname (k : Kind) : k.name ≠ "" := by cases k <;> decide
  cases k with
  | none => exact .nil
  | some k =>
    rw [Option.map_some, Field.text?, if_neg (hname k)]
    exact Field.agree_text "type" k.name

theorem agree_further (p : Pointer) {o : Option (Additional Schema)}
    (h : ∀ c ∈ o.bind Additional.schema, Agrees fun t => c.project t) :
    EntriesAgree (Schema30.furtherField (additionalTo30 o p).value) (Schema31.furtherField (additionalTo31 o)) := by
  match o with
  | none | some ⟨none, none⟩ => exact .nil
  | some ⟨some b, none⟩ => exact Field.agree_free _ rfl
  | some ⟨_, some c⟩ => exact Field.agree_single _ (h c rfl p)

theorem fieldNames_plain : ∀ k ∈ fieldNames, "x-".isPrefixOf k = false := by
  simp only [Node.isPrefixOf_eq_false]
  decide

/-- Whether both versions write the parts of a schema alike. -/
structure PartsAgree (s : Schema) (p : Pointer) : Prop where
  items : Option.Rel Agree (Traced.option (project .v30) (p.key "items") s.items).value
    (Traced.option (project .v31) (p.key "items") s.items).value
  properties : EntriesAgree (Traced.named (project .v30) (p.key "properties") s.properties).value
    (Traced.named (project .v31) (p.key "properties") s.properties).value
  additional : EntriesAgree
    (Schema30.furtherField (additionalTo30 s.additional (p.key "additionalProperties")).value)
    (Schema31.furtherField (additionalTo31 s.additional))
  allOf : List.Forall₂ Agree (Traced.items (project .v30) (p.key "allOf") 0 s.allOf).value
    (Traced.items (project .v31) (p.key "allOf") 0 s.allOf).value
  anyOf : List.Forall₂ Agree (Traced.items (project .v30) (p.key "anyOf") 0 s.anyOf).value
    (Traced.items (project .v31) (p.key "anyOf") 0 s.anyOf).value
  oneOf : List.Forall₂ Agree (Traced.items (project .v30) (p.key "oneOf") 0 s.oneOf).value
    (Traced.items (project .v31) (p.key "oneOf") 0 s.oneOf).value
  notOf : Option.Rel Agree (Traced.option (project .v30) (p.key "not") s.notOf).value
    (Traced.option (project .v31) (p.key "not") s.notOf).value

/-- A schema that is no reference is written alike in both versions if its parts are. -/
theorem PartsAgree.agree {s : Schema} {p : Pointer} (h : s.PartsAgree p) (hs : s.Common)
    (hr : nonEmpty s.ref = none) : Agree (s.project .v30 p).value (s.project .v31 p).value := by
  rw [value_project30 s hr, value_project31 s hr, common30_eq hs.facets, keywords30_eq hs.facets,
    keywords31_eq hs.facets, Schema30.toNode, Schema31.toNode, option_to30, option_to30, items_to30,
    items_to30, items_to30, named_to30, option_to31 (p.key "items") s.items,
    option_to31 (p.key "not") s.notOf, items_to31 (p.key "allOf") s.allOf, items_to31 (p.key "anyOf") s.anyOf,
    items_to31 (p.key "oneOf") s.oneOf, named_to31 (p.key "properties") s.properties, Node.ofFields,
    Node.ofFields]
  refine agree_match ?_
    (hs.facets.extensions.isJson .v31) fun x hx e he => ?_
  · -- what only one version has is not written
    have hfree (name : String) (v : Value) (hv : v.isNull = true) : Field.free name v = [] := by
      rw [Field.free, if_pos hv]
    have habsent (name : String) : Field.text? name none = [] ∧ Field.flag name false = [] ∧
        Field.frees name [] = [] ∧ Field.number? name none = [] ∧ Field.node? name none = [] ∧
        Field.named name [] = [] := ⟨rfl, rfl, rfl, rfl, rfl, rfl⟩
    have hunevaluated := Option.isNone_iff_eq_none.1 hs.unevaluated
    simp only [List.flatten_cons, List.flatten_nil, List.append_nil, List.nil_append, hs.patternProperties,
      hunevaluated, List.map_nil, Option.map_none, Schema31.namedToNodes, Schema31.optionToNode, annotations,
      habsent, hfree _ _ hs.facets.sample, hfree _ _ hs.facets.const]
    have hdiscriminator : Option.Rel Agree (s.facets.discriminator.map Discriminator.toNode)
        (s.facets.discriminator.map Discriminator.toNode) :=
      Node.agree_map? (f := fun _ => Discriminator.toNode) fun d _ => d.agree
    have hxml : Option.Rel Agree (s.facets.xml.map XmlHints.toNode) (s.facets.xml.map XmlHints.toNode) :=
      Node.agree_map? (f := fun _ => XmlHints.toNode) fun x _ => x.agree
    have hback := List.rel_append (Field.agree_nodes "allOf" h.allOf) <|
      List.rel_append (Field.agree_nodes "anyOf" h.anyOf) <| List.rel_append (Field.agree_nodes "oneOf" h.oneOf) <|
      List.rel_append (Field.agree_node? "not" h.notOf) (Field.agree_free "default" hs.facets.default)
    -- the limits of properties stand in front of these or behind them, all else stands in one order
    have hrest := EntriesMatch.behind (Field.agree_int? "maxProperties" s.facets.maxProperties)
      (Field.agree_int? "minProperties" s.facets.minProperties) hback
    simp only [List.append_assoc] at hrest
    refine .append (Field.agree_text? _ _) <| .append (agree_type _) <| .append (Field.agree_text? _ _) <|
      .append (Field.agree_text? _ _) <| .append (Field.agree_flag _ _) <| .append (Field.agree_flag _ _) <|
      .append (Field.agree_flag _ _) <| .append (Field.agree_node? _ hdiscriminator) <|
      .append (Field.agree_node? _ hxml) <| .append (Field.agree_frees _ hs.facets.enum) <|
      .append (Field.agree_number? _ _) <| .append (Field.agree_number? _ _) <|
      .append (Field.agree_number? _ _) <| .append (Field.agree_text? _ _) <|
      .append (Field.agree_int? _ _) <| .append (Field.agree_int? _ _) <|
      .append (Field.agree_node? _ h.items) <| .append (Field.agree_int? _ _) <|
      .append (Field.agree_int? _ _) <| .append (Field.agree_flag _ _) <|
      .append (Field.agree_named _ h.properties) <| .append (Field.agree_texts _ _) <|
      .append h.additional hrest
  · have hname : e.1 ∈ fieldNames := Field.keys_flatten (by simp [fieldNames]) _ he
    exact (Node.ne_allowed (fieldNames_plain _ hname) x hx).symm

theorem agrees (s : Schema) (h : ∀ v ∈ s.visits .v30, v.subject.Common) : Agrees fun t => s.project t := by
  induction s using Schema.ind with
  | step s ih =>
    rw [visits_eq] at h
    refine Agrees.node (u := .schema s) rfl h fun hr hs hparts p => ?_
    simp only [parts, List.forall_mem_cons, Visit.forall_gather, Visit.forall_each, Visit.forall_items,
      Visit.forall_option] at hparts
    obtain ⟨hitems, hproperties, hadditional, -, -, hallOf, hanyOf, honeOf, hnot, -⟩ := hparts
    refine PartsAgree.agree ?_ (hs hr) hr
    exact {
      items := Agrees.option (f := project) _ fun c hc => ih.items c hc (hitems c hc)
      properties := Agrees.named (f := project) _ fun c hc => ih.properties c hc (hproperties c hc)
      additional := agree_further _ fun c hc => by
        obtain ⟨a, ha, hc'⟩ := Option.bind_eq_some_iff.1 hc
        exact ih.additional a ha c hc' (hadditional c hc)
      allOf := Agrees.items (f := project) _ fun c hc => ih.allOf c hc (hallOf c hc)
      anyOf := Agrees.items (f := project) _ fun c hc => ih.anyOf c hc (hanyOf c hc)
      oneOf := Agrees.items (f := project) _ fun c hc => ih.oneOf c hc (honeOf c hc)
      notOf := Agrees.option (f := project) _ fun c hc => ih.notOf c hc (hnot c hc) }

end Schema

theorem Schema.agree_schema {p : Pointer} {o : Option Schema}
    (h : ∀ s ∈ o, ∀ v ∈ s.visits .v30, v.subject.Common) :
    EntriesAgree (Field.node? "schema" (Traced.option (Schema.project .v30) p o).value)
      (Field.node? "schema" (Traced.option (Schema.project .v31) p o).value) :=
  Field.agree_node? _ (Agrees.option (f := Schema.project) p fun s hs => s.agrees (h s hs))

/-! ## Parts without schemas -/

theorem ExternalDocs.agree {d : ExternalDocs} (h : d.Common) : Agree (d.project .v30) (d.project .v31) :=
  Node.agree_extended (by simp) h

theorem Field.agree_externalDocs {o : Option ExternalDocs} (h : ∀ d ∈ o, d.Common) :
    EntriesAgree (Field.node? "externalDocs" (o.map fun d => d.project .v30))
      (Field.node? "externalDocs" (o.map fun d => d.project .v31)) :=
  Field.agree_node? _ (Node.agree_map? (f := fun t (d : ExternalDocs) => d.project t) fun d hd => ExternalDocs.agree (h d hd))

theorem Tag.agree {g : Tag} (h : g.Common) : Agree (g.project .v30) (g.project .v31) :=
  Node.agree_extended (by simp [Field.agree_externalDocs h.externalDocs]) h.extensions

theorem SecurityRequirement.agree (r : SecurityRequirement) :
    Agree (SecurityRequirement.project r) (SecurityRequirement.project r) := by
  refine Node.agree_plain (List.forall₂_same.2 fun e he => ⟨rfl, ?_⟩)
  obtain ⟨s, _, rfl⟩ := List.mem_map.1 he
  exact Node.agree_list_texts s.2

theorem Example.agree {e : Example} (h : e.Common) : Agree (e.project .v30) (e.project .v31) := by
  unfold Example.project
  cases hr : nonEmpty e.ref with
  | some target => exact Node.agree_reference target
  | none => exact Node.agree_extended (by simp [Field.agree_free _ (h hr).1]) (h hr).2

theorem Example.agree_all {es : List (String × Example)} (h : ∀ e ∈ es, e.2.Common) :
    EntriesAgree (Example.projectAll .v30 es) (Example.projectAll .v31 es) :=
  Field.agree_named _ (Node.entriesAgree_map (f := fun t (e : Example) => e.project t) fun e he =>
    Example.agree (h e he))

/-! ## Servers -/

theorem ServerVariable.agrees {v : ServerVariable} (h : Extension.Common v.extensions) :
    Agrees fun t => v.project t := by
  intro p
  change Agree (v.project .v30 p).value (v.project .v31 p).value
  rw [v.value_project, v.value_project]
  exact Node.agree_extended (by simp) h

theorem Server.agrees {s : Server} (h : ∀ v ∈ s.visits, v.subject.Common) : Agrees fun t => s.project t := by
  refine Agrees.whole (u := .server s) h fun hs hvars p => ?_
  simp only [List.forall_mem_singleton, Visit.forall_gather, Visit.forall_each, ServerVariable.visits] at hvars
  have vars := Agrees.named (f := fun t (v : ServerVariable) => v.project t) (p.key "variables") fun v hv =>
    ServerVariable.agrees (hvars v hv)
  rw [Subject.project, Subject.project, s.value_project, s.value_project]
  exact Node.agree_extended (by simp [Field.agree_named _ vars]) hs

/-! ## Headers and bodies -/

theorem Header.agrees_steps :
    Header.Steps (fun h => (∀ v ∈ h.visits .v30, v.subject.Common) → Agrees fun t => h.project t)
      (fun m => (∀ v ∈ m.visits .v30, v.subject.Common) → Agrees fun t => m.project t)
      fun e => (∀ v ∈ e.visits .v30, v.subject.Common) → Agrees fun t => e.project t where
  header h hm hcommon := by
    rw [Header.visits_eq] at hcommon
    refine Agrees.node (u := .header h) rfl hcommon fun hr hh hparts p => ?_
    obtain ⟨⟨hsample, hexamples⟩, hx⟩ := hh hr
    simp only [List.forall_mem_cons, Visit.forall_gather, Visit.forall_each, Visit.forall_option] at hparts
    obtain ⟨hschema, hcontent, -⟩ := hparts
    have content := Agrees.named (f := MediaType.project) (p.key "content") fun m hm' =>
      hm m hm' (hcontent m hm')
    rw [Subject.project, Subject.project, h.value_project hr, h.value_project hr]
    refine Node.agree_extended ?_ hx
    simp [Field.agree_named _ content, Field.agree_free _ hsample, Example.agree_all hexamples,
      Schema.agree_schema hschema]
  mediaType m he hcommon := by
    rw [MediaType.visits_eq] at hcommon
    refine Agrees.whole (u := .mediaType m) hcommon fun hm hparts p => ?_
    obtain ⟨⟨hsample, hexamples⟩, hx⟩ := hm
    simp only [List.forall_mem_cons, Visit.forall_gather, Visit.forall_each, Visit.forall_option] at hparts
    obtain ⟨hencoding, hschema, -⟩ := hparts
    have encoding := Agrees.named (f := Encoding.project) (p.key "encoding") fun e he' =>
      he e he' (hencoding e he')
    rw [Subject.project, Subject.project, m.value_project, m.value_project]
    exact Node.agree_extended (by simp [Field.agree_named _ encoding, Field.agree_free _ hsample,
      Example.agree_all hexamples, Schema.agree_schema hschema]) hx
  encoding e hh hcommon := by
    rw [Encoding.visits_eq] at hcommon
    refine Agrees.whole (u := .encoding e) hcommon fun hx hparts p => ?_
    rw [List.forall_mem_singleton, Visit.forall_gather, Visit.forall_each] at hparts
    have headers := Agrees.named (f := Header.project) (p.key "headers") fun h hh' => hh h hh' (hparts h hh')
    rw [Subject.project, Subject.project, e.value_project, e.value_project]
    exact Node.agree_extended (by simp [Field.agree_named _ headers]) hx

theorem Header.agrees {h : Header} (hcommon : ∀ v ∈ h.visits .v30, v.subject.Common) :
    Agrees fun t => h.project t :=
  (Header.ind Header.agrees_steps).1 h hcommon

theorem MediaType.agrees {m : MediaType} (h : ∀ v ∈ m.visits .v30, v.subject.Common) :
    Agrees fun t => m.project t :=
  (Header.ind Header.agrees_steps).2.1 m h

theorem MediaType.agree_content {p : Pointer} {ms : List (String × MediaType)}
    (h : ∀ m ∈ ms, ∀ v ∈ m.2.visits .v30, v.subject.Common) :
    EntriesAgree (Traced.named (MediaType.project .v30) p ms).value
      (Traced.named (MediaType.project .v31) p ms).value :=
  Agrees.named (f := MediaType.project) p fun m hm => MediaType.agrees (h m hm)

theorem Parameter.agrees {x : Parameter} (h : ∀ v ∈ x.visits .v30, v.subject.Common) :
    Agrees fun t => x.project t := by
  refine Agrees.node (u := .parameter x) rfl h fun hr hx hparts p => ?_
  obtain ⟨⟨hsample, hexamples⟩, hext⟩ := hx hr
  simp only [List.forall_mem_cons, Visit.forall_gather, Visit.forall_each, Visit.forall_option] at hparts
  obtain ⟨hschema, hcontent, -⟩ := hparts
  rw [Subject.project, Subject.project, x.value_project hr, x.value_project hr]
  exact Node.agree_extended (by simp [Field.agree_named _ (MediaType.agree_content hcontent),
    Field.agree_free _ hsample, Example.agree_all hexamples, Schema.agree_schema hschema]) hext

theorem RequestBody.agrees {b : RequestBody} (h : ∀ v ∈ b.visits .v30, v.subject.Common) :
    Agrees fun t => b.project t := by
  refine Agrees.node (u := .requestBody b) rfl h fun hr hb hparts p => ?_
  rw [List.forall_mem_singleton, Visit.forall_gather, Visit.forall_each] at hparts
  have content := Node.agree_plain (@MediaType.agree_content (p.key "content") _ hparts)
  rw [Subject.project, Subject.project, b.value_project hr, b.value_project hr]
  exact Node.agree_extended (by simp [Field.agree_single _ content]) (hb hr)

/-! ## Responses -/

theorem Link.agrees {l : Link} (h : ∀ v ∈ l.visits, v.subject.Common) : Agrees fun t => l.project t := by
  refine Agrees.node (u := .link l) rfl h fun hr hl hparts p => ?_
  have hl : l.Common := hl hr
  rw [List.forall_mem_singleton, Visit.forall_option] at hparts
  have server := Agrees.option (f := fun t (s : Server) => s.project t) (p.key "server") fun s hs =>
    Server.agrees (hparts s hs)
  have parameters : EntriesAgree (l.parameters.map fun v => (v.1, Node.free v.2))
      (l.parameters.map fun v => (v.1, Node.free v.2)) :=
    Node.entriesAgree_map (f := fun _ => Node.free) fun e he =>
      Node.agree_refl (Value.toJson_ok e.2 (hl.parameters e he)).choose_spec
  rw [Subject.project, Subject.project, l.value_project hr, l.value_project hr]
  exact Node.agree_extended (by simp [Field.agree_named _ parameters, Field.agree_free _ hl.requestBody,
    Field.agree_node? _ server]) hl.extensions

theorem Response.agrees {r : Response} (h : ∀ v ∈ r.visits .v30, v.subject.Common) :
    Agrees fun t => r.project t := by
  refine Agrees.node (u := .response r) rfl h fun hr hx hparts p => ?_
  simp only [List.forall_mem_cons, Visit.forall_gather, Visit.forall_each] at hparts
  obtain ⟨hlinks, hheaders, hcontent, -⟩ := hparts
  have links := Agrees.named (f := fun t (l : Link) => l.project t) (p.key "links") fun l hl =>
    Link.agrees (hlinks l hl)
  have headers := Agrees.named (f := Header.project) (p.key "headers") fun x hx =>
    Header.agrees (hheaders x hx)
  rw [Subject.project, Subject.project, r.value_project hr, r.value_project hr]
  refine Node.agree_extended ?_ (hx hr)
  simp [Field.agree_named _ (MediaType.agree_content hcontent), Field.agree_named _ links,
    Field.agree_named _ headers]

/-! ## Operations -/

theorem Operation.agrees_steps :
    Operation.Steps (fun o => (∀ v ∈ o.visits .v30, v.subject.Common) → Agrees fun t => o.project t)
      (fun i => (∀ v ∈ i.visits .v30, v.subject.Common) → Agrees fun t => i.project t)
      fun c => (∀ v ∈ c.visits .v30, v.subject.Common) → Agrees fun t => c.project t where
  operation o hc hcommon := by
    rw [Operation.visits_eq] at hcommon
    refine Agrees.whole (u := .operation o) hcommon fun ho hparts p => ?_
    obtain ⟨hdocs, hx⟩ := ho
    simp only [List.forall_mem_cons, Visit.forall_gather, Visit.forall_each, Visit.forall_items,
      Visit.forall_option] at hparts
    obtain ⟨hparameters, hbody, hresponses, hcallbacks, hservers, -⟩ := hparts
    have parameters := Agrees.items (f := fun t (x : Parameter) => x.project t) (p.key "parameters")
      fun x hx => Parameter.agrees (hparameters x hx)
    have body := Agrees.option (f := fun t (b : RequestBody) => b.project t) (p.key "requestBody")
      fun b hb => RequestBody.agrees (hbody b hb)
    have responses := Agrees.named (f := fun t (r : Response) => r.project t) (p.key "responses")
      fun r hr => Response.agrees (hresponses r hr)
    have callbacks := Agrees.named (f := Callback.project) (p.key "callbacks") fun c hc' =>
      hc c hc' (hcallbacks c hc')
    have servers := Agrees.items (f := fun t (s : Server) => s.project t) (p.key "servers")
      fun s hs => Server.agrees (hservers s hs)
    have security : List.Forall₂ Agree (o.security.map SecurityRequirement.project)
        (o.security.map SecurityRequirement.project) :=
      Node.agree_map (f := fun _ => SecurityRequirement.project) fun r _ => SecurityRequirement.agree r
    rw [Subject.project, Subject.project, o.value_project, o.value_project]
    refine Node.agree_extended ?_ hx
    simp [Field.agree_externalDocs hdocs, Field.agree_nodes _ parameters, Field.agree_node? _ body,
      Field.agree_single _ (Node.agree_plain responses), Field.agree_named _ callbacks,
      Field.agree_nodes _ security, Field.agree_nodes _ servers]
  pathItem i ho hcommon := by
    rw [PathItem.visits_eq] at hcommon
    refine Agrees.node (u := .pathItem i) rfl hcommon fun hr hi hparts p => ?_
    simp only [List.forall_mem_cons, Visit.forall_gather, Visit.forall_each, Visit.forall_items,
      List.forall_mem_map] at hparts
    obtain ⟨hparameters, hoperations⟩ := hparts
    have parameters := Agrees.items (f := fun t (x : Parameter) => x.project t) (p.key "parameters")
      fun x hx => Parameter.agrees (hparameters x hx)
    have hmethods : ∀ x ∈ i.operations.map fun o => (o.1.name, o.2), Agrees fun t => x.2.project t :=
      List.forall_mem_map.2 fun o ho' => ho o ho' (hoperations o ho')
    have operations := Agrees.named (f := Operation.project) p hmethods
    rw [Subject.project, Subject.project, i.value_project hr, i.value_project hr]
    refine Node.agree_extended ?_ (hi hr)
    simp [Field.agree_nodes _ parameters, operations]
  callback c hi hcommon := by
    rw [Callback.visits_eq] at hcommon
    refine Agrees.node (u := .callback c) rfl hcommon fun hr hc hparts p => ?_
    rw [Visit.forall_each] at hparts
    have items := Agrees.named (f := PathItem.project) p fun i hi' => hi i hi' (hparts i hi')
    rw [Subject.project, Subject.project, c.value_project hr, c.value_project hr]
    refine Node.agree_extended ?_ (hc hr)
    simp [items]

theorem PathItem.agrees {i : PathItem} (h : ∀ v ∈ i.visits .v30, v.subject.Common) :
    Agrees fun t => i.project t :=
  (Operation.ind Operation.agrees_steps).2.1 i h

theorem Callback.agrees {c : Callback} (h : ∀ v ∈ c.visits .v30, v.subject.Common) :
    Agrees fun t => c.project t :=
  (Operation.ind Operation.agrees_steps).2.2 c h

end ApiProjection
