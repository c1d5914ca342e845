import Mathlib.Data.List.Nodup
import ApiProjection.Proofs.Outcome
import ApiProjection.Proofs.Resolve
import ApiProjection.Proofs.Visit.Basic
/-!
# Where visited nodes are written

The place of a visit is found in the written document, and what stands there is what is written for the
visited node at that place (`Shows`). This needs that no map of the description has a key twice
(`Subject.Keyed`) and that nothing on the way is hidden (`Visit.Hides`): the expressions of a callback stand
beside its extensions, and one with the name of an extension is lost. No expression that does not look like
an extension is (`Subject.Plain`).

Each kind of node has its own theorem, `Schema.writes`, `Response.writes` and so on; all of them go
through `Visit.writes_open`, which leaves to show that the key of each part leads to that part.
-/
namespace ApiProjection

open Visit (gather below each newer)

/-! ## Conditions on descriptions -/

/-- No key stands in a list of entries twice. -/
def DistinctKeys {κ α : Type} (es : List (κ × α)) : Prop := (es.map Prod.fst).Nodup

instance {κ α : Type} [DecidableEq κ] (es : List (κ × α)) : Decidable (DistinctKeys es) :=
  inferInstanceAs (Decidable (List.Nodup _))

/-- Whether the maps of a node itself have each key once. -/
def Subject.Keyed : Subject → Prop
  | .schema s => DistinctKeys s.properties ∧ DistinctKeys s.patternProperties
  | .header h => DistinctKeys h.content
  | .mediaType m => DistinctKeys m.encoding
  | .encoding e => DistinctKeys e.headers
  | .parameter x => DistinctKeys x.content
  | .requestBody b => DistinctKeys b.content
  | .serverVariable _ => True
  | .server s => DistinctKeys s.vars
  | .link _ => True
  | .response r => DistinctKeys r.links ∧ DistinctKeys r.headers ∧ DistinctKeys r.content
  | .operation o => DistinctKeys o.responses ∧ DistinctKeys o.callbacks
  | .pathItem i => DistinctKeys i.operations
  | .callback c => DistinctKeys c.pathItems

instance : DecidablePred Subject.Keyed
  | .schema s => inferInstanceAs (Decidable (DistinctKeys s.properties ∧ DistinctKeys s.patternProperties))
  | .header h => inferInstanceAs (Decidable (DistinctKeys h.content))
  | .mediaType m => inferInstanceAs (Decidable (DistinctKeys m.encoding))
  | .encoding e => inferInstanceAs (Decidable (DistinctKeys e.headers))
  | .parameter x => inferInstanceAs (Decidable (DistinctKeys x.content))
  | .requestBody b => inferInstanceAs (Decidable (DistinctKeys b.content))
  | .server s => inferInstanceAs (Decidable (DistinctKeys s.vars))
  | .response r =>
    inferInstanceAs (Decidable (DistinctKeys r.links ∧ DistinctKeys r.headers ∧ DistinctKeys r.content))
  | .operation o => inferInstanceAs (Decidable (DistinctKeys o.responses ∧ DistinctKeys o.callbacks))
  | .pathItem i => inferInstanceAs (Decidable (DistinctKeys i.operations))
  | .callback c => inferInstanceAs (Decidable (DistinctKeys c.pathItems))
  | .serverVariable _ | .link _ => isTrue trivial

/-- Whether a node is no callback with an expression that looks like an extension. -/
def Subject.Plain : Subject → Prop
  | .callback c => nonEmpty c.ref = none → ∀ i ∈ c.pathItems, "x-".isPrefixOf i.1 = false
  | _ => True

instance : DecidablePred Subject.Plain
  | .callback c =>
    inferInstanceAs (Decidable (nonEmpty c.ref = none → ∀ i ∈ c.pathItems, "x-".isPrefixOf i.1 = false))
  | .schema _ | .header _ | .mediaType _ | .encoding _ | .parameter _ | .requestBody _ | .serverVariable _
  | .server _ | .link _ | .response _ | .operation _ | .pathItem _ => isTrue trivial

/-- Whether an extension of a callback takes the place of the expression with a key. -/
def Subject.Hides (t : Target) (k : String) : Subject → Prop
  | .callback c => nonEmpty c.ref = none ∧ k ∈ c.pathItems.map Prod.fst ∧
    ∃ x ∈ Extension.allowed t c.extensions, x.1 = k
  | _ => False

theorem Subject.Plain.not_hides {u : Subject} (h : u.Plain) (t : Target) (k : String) : ¬u.Hides t k := by
  cases u with
  | callback c =>
    rintro ⟨hr, hk, x, hx, rfl⟩
    obtain ⟨i, hi, hix⟩ := List.mem_map.1 hk
    have hplain : "x-".isPrefixOf x.1 = false := hix ▸ h hr i hi
    exact Node.ne_allowed hplain x hx rfl
  | _ => exact id

/-- Whether a place is inside of something that a visited callback hides. -/
def Visit.Hides (t : Target) (v : Visit) (place : List String) : Prop :=
  ∃ k, v.subject.Hides t k ∧ v.place ++ [k] <+: place

/-! ## Showing visited nodes -/

namespace Visit

/-- Whether a node at a place shows what is written for each of the visits counted from there, unless it is
hidden. -/
def Shows (t : Target) (p : Pointer) (n : Node) (vs : List Visit) : Prop :=
  (∀ v ∈ vs, v.subject.Keyed) → ∀ v ∈ vs, (∀ w ∈ vs, ¬w.Hides t v.place) →
    n.follow? v.place = some (v.subject.project t (p.descend v.place)).value

/-- A projection that writes what it visits where it visits it. -/
def Writes (t : Target) (f : Pointer → Traced Node) (vs : List Visit) : Prop :=
  ∀ p, Shows t p (f p).value vs

/-- Whether the key of a part leads to a node that shows the visits in the part. -/
def Part (t : Target) (p : Pointer) (n : Node) (b : String × List Visit) : Prop :=
  b.2 = [] ∨ ∃ m, n.child? b.1 = some m ∧ Shows t (p.key b.1) m b.2

theorem hides_under {t : Target} {k : String} {v : Visit} {place : List String} :
    (v.under k).Hides t (k :: place) ↔ v.Hides t place := by
  simp [Hides, under]

section
variable {t : Target} {p : Pointer} {n : Node}

/-- What a part of a node shows is found below the key of the part. -/
theorem Part.follow {b : String × List Visit} (h : Part t p n b) (hk : ∀ v ∈ b.2, v.subject.Keyed) {v : Visit}
    (hv : v ∈ b.2) (ho : ∀ w ∈ b.2, ¬w.Hides t v.place) :
    n.follow? (b.1 :: v.place) = some (v.subject.project t (p.descend (b.1 :: v.place))).value := by
  rcases h with he | ⟨m, hm, hshow⟩
  · rw [he] at hv
    cases hv
  · rw [Node.follow?, hm, Option.bind_some, hshow hk v hv ho, Pointer.key_descend]

theorem shows_gather {parts : List (String × List Visit)} (h : ∀ b ∈ parts, Part t p n b) :
    Shows t p n (gather parts) := by
  intro hk v hv ho
  obtain ⟨b, hb, hv⟩ := List.mem_flatMap.1 hv
  obtain ⟨v, hmem, rfl⟩ := List.mem_map.1 hv
  refine (h b hb).follow (forall_gather.1 hk b hb) hmem fun w hw hw' => ?_
  exact ho (w.under b.1) (List.mem_flatMap.2 ⟨b, hb, List.mem_map_of_mem hw⟩) (hides_under.2 hw')

/-- A node shows itself and, if it is no reference, those of its parts that it does not hide. -/
theorem writes_open {u : Subject} {ref : Option String} {parts : List (String × List Visit)}
    (h : ∀ p, u.Keyed → nonEmpty ref = none → ∀ b ∈ parts, ¬u.Hides t b.1 → Part t p (u.project t p).value b) :
    Writes t (u.project t) (⟨[], u⟩ :: below ref parts) := by
  intro p hk v hv ho
  rw [List.forall_mem_cons] at hk ho
  rcases List.mem_cons.1 hv with rfl | hv
  · simp [Node.follow?]
  · cases hr : nonEmpty ref with
    | some target => simp [below, hr] at hv
    | none =>
      rw [below, hr] at hk hv ho
      obtain ⟨b, hb, hv⟩ := List.mem_flatMap.1 hv
      obtain ⟨v, hmem, rfl⟩ := List.mem_map.1 hv
      have hshown : ¬u.Hides t b.1 := fun hh => ho.1 ⟨b.1, hh, by simp [under]⟩
      refine (h p hk.1 hr b hb hshown).follow (forall_gather.1 hk.2 b hb) hmem fun w hw hw' => ?_
      exact ho.2 (w.under b.1) (List.mem_flatMap.2 ⟨b, hb, List.mem_map_of_mem hw⟩) (hides_under.2 hw')

/-- A node shows itself and, if it is no reference, its parts. -/
theorem writes_node {u : Subject} {ref : Option String} {parts : List (String × List Visit)}
    (h : ∀ p, u.Keyed → nonEmpty ref = none → ∀ b ∈ parts, Part t p (u.project t p).value b) :
    Writes t (u.project t) (⟨[], u⟩ :: below ref parts) :=
  writes_open fun p hk hr b hb _ => h p hk hr b hb

/-- A node shows itself and its parts. -/
theorem writes_whole {u : Subject} {parts : List (String × List Visit)}
    (h : ∀ p, u.Keyed → ∀ b ∈ parts, Part t p (u.project t p).value b) :
    Writes t (u.project t) (⟨[], u⟩ :: gather parts) :=
  @writes_node t u none parts fun p hk _ => h p hk

/-! ## Lists, named parts, optional parts -/

section
variable {α : Type} {k : String} {f : α → Pointer → Traced Node} {g : α → List Visit}

theorem part_option {o : Option α} (h : ∀ x ∈ o, Writes t (f x) (g x))
    (hc : n.child? k = (Traced.option f (p.key k) o).value) : Part t p n (k, option g o) := by
  cases o with
  | none => exact .inl rfl
  | some x => exact .inr ⟨_, hc, by simpa [option] using h x rfl (p.key k)⟩

theorem lookup_of_mem {β : Type} {es : List (String × β)} (hk : DistinctKeys es) {e : String × β}
    (he : e ∈ es) : es.lookup e.1 = some e.2 := by
  induction es with
  | nil => cases he
  | cons d es ih =>
    obtain ⟨l, b⟩ := d
    obtain ⟨hl, hk⟩ := List.nodup_cons.1 hk
    rcases List.mem_cons.1 he with rfl | he
    · exact List.lookup_cons_self
    · have hne : (e.1 == l) = false := by
        rw [beq_eq_false_iff_ne]
        intro hel
        have hm : e.1 ∈ es.map Prod.fst := List.mem_map_of_mem he
        exact hl (hel ▸ hm)
      rw [List.lookup_cons, hne]
      exact ih hk he

theorem mem_of_lookup {β : Type} {es : List (String × β)} {k : String} {b : β} (h : es.lookup k = some b) :
    (k, b) ∈ es := by
  obtain ⟨front, rest, rfl, _⟩ := List.lookup_eq_some_iff.1 h
  exact List.mem_append_right front List.mem_cons_self

theorem lookup_named {xs : List (String × α)} (hk : DistinctKeys xs) {x : String × α} (hx : x ∈ xs) :
    (Traced.named f p xs).value.lookup x.1 = some (f x.2 (p.key x.1)).value := by
  have hkeys : DistinctKeys (Traced.named f p xs).value := by
    simpa [DistinctKeys, Traced.value_named, Function.comp_def] using hk
  have hmem : (x.1, (f x.2 (p.key x.1)).value) ∈ (Traced.named f p xs).value := by
    rw [Traced.value_named]
    exact List.mem_map_of_mem hx
  exact lookup_of_mem hkeys hmem

/-- A named part that stands in a node, beside other fields perhaps, shows what is visited in it. -/
theorem part_child {xs : List (String × α)} (hk : DistinctKeys xs) (h : ∀ x ∈ xs, Writes t (f x.2) (g x.2))
    {x : String × α} (hx : x ∈ xs) (hc : n.child? x.1 = (Traced.named f p xs).value.lookup x.1) :
    Part t p n (x.1, g x.2) :=
  .inr ⟨_, hc.trans (lookup_named hk hx), h x hx (p.key x.1)⟩

theorem part_beside {xs : List (String × α)} (hk : DistinctKeys xs)
    (h : ∀ x ∈ xs, Writes t (f x.2) (g x.2))
    (hc : ∀ x ∈ xs, n.child? x.1 = (Traced.named f p xs).value.lookup x.1) :
    ∀ b ∈ each g xs, Part t p n b := by
  intro b hb
  obtain ⟨x, hx, rfl⟩ := List.mem_map.1 hb
  exact part_child hk h hx (hc x hx)

/-- An object of named parts shows what is visited in them. -/
theorem shows_named {xs : List (String × α)} (hk : DistinctKeys xs)
    (h : ∀ x ∈ xs, Writes t (f x.2) (g x.2)) :
    Shows t p (.object (Traced.named f p xs).value []) (gather (each g xs)) :=
  shows_gather (part_beside hk h fun _ _ => rfl)

theorem part_named {xs : List (String × α)} (hk : DistinctKeys xs) (h : ∀ x ∈ xs, Writes t (f x.2) (g x.2))
    (hc : xs ≠ [] → n.child? k = some (.object (Traced.named f (p.key k) xs).value [])) :
    Part t p n (k, gather (each g xs)) := by
  by_cases hx : xs = []
  · exact .inl (by simp [hx, gather, each])
  · exact .inr ⟨_, hc hx, shows_named hk h⟩

theorem distinctKeys_positioned {β : Type} (i : Nat) (xs : List β) : DistinctKeys (positioned i xs) := by
  have h : (positioned i xs).map Prod.fst = (List.range' i xs.length).map toString := by
    rw [← List.zipIdx_map_snd i xs, positioned, List.map_map, List.map_map]
    rfl
  rw [DistinctKeys, h]
  exact List.Nodup.map (fun _ _ => Pointer.toString_inj.1) List.nodup_range'

/-- A list of parts shows what is visited in them. -/
theorem shows_items {xs : List α} (h : ∀ x ∈ xs, Writes t (f x) (g x)) :
    Shows t p (.list (Traced.items f p 0 xs).value) (gather (items g 0 xs)) := by
  refine shows_gather ?_
  intro b hb
  obtain ⟨⟨x, j⟩, he, rfl⟩ := List.mem_map.1 hb
  have hmem : (toString j, (f x (p.index j)).value) ∈ positioned 0 (Traced.items f p 0 xs).value := by
    have hj := List.mk_mem_zipIdx_iff_getElem?.1 he
    refine List.mem_map.2 ⟨((f x (p.index j)).value, j), List.mk_mem_zipIdx_iff_getElem?.2 ?_, rfl⟩
    simp [Traced.value_items, hj]
  have hx : x ∈ xs := List.fst_mem_of_mem_zipIdx he
  exact .inr ⟨_, lookup_of_mem (distinctKeys_positioned 0 _) hmem, h x hx (p.index j)⟩

theorem part_items {xs : List α} (h : ∀ x ∈ xs, Writes t (f x) (g x))
    (hc : xs ≠ [] → n.child? k = some (.list (Traced.items f (p.key k) 0 xs).value)) :
    Part t p n (k, gather (items g 0 xs)) := by
  by_cases hx : xs = []
  · exact .inl (by simp [hx, gather, items])
  · exact .inr ⟨_, hc hx, shows_items h⟩

end
end
end Visit

open Visit (Part Shows Writes writes_open writes_whole writes_node part_option part_named part_items part_child
  part_beside)

/-! ## Schemas -/

namespace Schema30

@[simp] theorem lookup_furtherField {k : String} (h : k ≠ "additionalProperties") (a : Further Schema30) :
    (furtherField a).lookup k = none := by
  cases a <;> simp [furtherField, h]

end Schema30

namespace Schema31

@[simp] theorem lookup_furtherField {k : String} (h : k ≠ "additionalProperties") (a : Further Schema31) :
    (furtherField a).lookup k = none := by
  cases a <;> simp [furtherField, h]

end Schema31

@[simp] theorem Types31.lookup_field {k : String} (h : k ≠ "type") (ts : Types31) :
    ts.field.lookup k = none := by
  cases ts <;> simp [Types31.field, h]

namespace Schema

/-- Where the subschemas of a schema are in the node that is written for it. -/
structure Children (t : Target) (s : Schema) (p : Pointer) (n : Node) : Prop where
  items : n.child? "items" = (Traced.option (project t) (p.key "items") s.items).value
  properties : s.properties ≠ [] →
    n.child? "properties" =
      some (.object (Traced.named (project t) (p.key "properties") s.properties).value [])
  additional : n.child? "additionalProperties" = s.additional.bind fun a => match a with
    | ⟨_, some c⟩ => some (c.project t (p.key "additionalProperties")).value
    | ⟨some b, none⟩ => some (.free (.bool b))
    | ⟨none, none⟩ => none
  patternProperties : t = .v31 → s.patternProperties ≠ [] → n.child? "patternProperties" =
    some (.object (Traced.named (project t) (p.key "patternProperties") s.patternProperties).value [])
  unevaluated : t = .v31 → n.child? "unevaluatedProperties" =
    (Traced.option (project t) (p.key "unevaluatedProperties") s.unevaluated).value
  allOf : s.allOf ≠ [] →
    n.child? "allOf" = some (.list (Traced.items (project t) (p.key "allOf") 0 s.allOf).value)
  anyOf : s.anyOf ≠ [] →
    n.child? "anyOf" = some (.list (Traced.items (project t) (p.key "anyOf") 0 s.anyOf).value)
  oneOf : s.oneOf ≠ [] →
    n.child? "oneOf" = some (.list (Traced.items (project t) (p.key "oneOf") 0 s.oneOf).value)
  notOf : n.child? "not" = (Traced.option (project t) (p.key "not") s.notOf).value

theorem children30 (s : Schema) (hr : nonEmpty s.ref = none) (p : Pointer) :
    s.Children .v30 p (s.project .v30 p).value := by
  have hchild {k : String} (hk : k ∈ Node.partNames) (fields : List Node.Field) :
      (Node.ofFields fields (common30 s.facets).extensions).child? k = fields.flatten.lookup k :=
    Node.child_part (t := .v30) hk fields s.facets.extensions
  rw [value_project30 s hr, Schema30.toNode, option_to30, option_to30, items_to30, items_to30, items_to30,
    named_to30]
  constructor
  case items =>
    rw [hchild (by decide)]
    simp [List.lookup_append]
  case properties =>
    intro h
    rw [hchild (by decide)]
    simp [List.lookup_append, Traced.value_named, h]
  case additional =>
    rw [hchild (by decide)]
    match s.additional with
    | none | some ⟨none, none⟩ | some ⟨some b, none⟩ | some ⟨_, some c⟩ =>
      simp [List.lookup_append, additionalTo30, Schema30.furtherField, Node.Field.free_bool, project]
  case patternProperties | unevaluated => simp
  case allOf | anyOf | oneOf =>
    intro h
    rw [hchild (by decide)]
    simp [List.lookup_append, Traced.value_items, h]
  case notOf =>
    rw [hchild (by decide)]
    simp [List.lookup_append]

theorem children31 (s : Schema) (hr : nonEmpty s.ref = none) (p : Pointer) :
    s.Children .v31 p (s.project .v31 p).value := by
  have hchild {k : String} (hk : k ∈ Node.partNames) (fields : List Node.Field) :
      (Node.ofFields fields (annotations .v31 s.facets).extensions).child? k = fields.flatten.lookup k :=
    Node.child_part (t := .v31) hk fields s.facets.extensions
  rw [value_project31 s hr, Schema31.toNode, option_to31 (p.key "items") s.items,
    option_to31 (p.key "unevaluatedProperties") s.unevaluated, option_to31 (p.key "not") s.notOf,
    items_to31 (p.key "allOf") s.allOf, items_to31 (p.key "anyOf") s.anyOf, items_to31 (p.key "oneOf") s.oneOf,
    named_to31 (p.key "properties") s.properties, named_to31 (p.key "patternProperties") s.patternProperties]
  constructor
  case items | notOf =>
    rw [hchild (by decide)]
    simp [List.lookup_append]
  case properties =>
    intro h
    rw [hchild (by decide)]
    simp [List.lookup_append, Traced.value_named, h]
  case additional =>
    rw [hchild (by decide)]
    rcases s.additional with _ | ⟨_ | b, _ | c⟩ <;>
      simp [List.lookup_append, additionalTo31, Schema31.furtherField, Node.Field.free_bool, project]
  case patternProperties =>
    intro _ h
    rw [hchild (by decide)]
    simp [List.lookup_append, Traced.value_named, h]
  case unevaluated =>
    intro
    rw [hchild (by decide)]
    simp [List.lookup_append]
  case allOf | anyOf | oneOf =>
    intro h
    rw [hchild (by decide)]
    simp [List.lookup_append, Traced.value_items, h]

theorem children (t : Target) (s : Schema) (hr : nonEmpty s.ref = none) (p : Pointer) :
    s.Children t p (s.project t p).value := by
  cases t with
  | v30 => exact children30 s hr p
  | v31 => exact children31 s hr p

theorem writes (t : Target) (s : Schema) : Writes t (s.project t) (s.visits t) := by
  induction s using Schema.ind with
  | step s ih =>
    rw [visits_eq]
    refine writes_node (u := .schema s) fun p hs hr => ?_
    have hc : s.Children t p ((Subject.schema s).project t p).value := children t s hr p
    have hadditional : Part t p ((Subject.schema s).project t p).value
        ("additionalProperties", Visit.option (visits t) (s.additional.bind Additional.schema)) := by
      have hchild := hc.additional
      match ha : s.additional with
      | none | some ⟨_, none⟩ => exact .inl rfl
      | some ⟨_, some c⟩ =>
        rw [ha] at hchild
        have hshows := ih.additional _ ha c rfl (p.key "additionalProperties")
        exact .inr ⟨_, hchild, by simpa [Visit.option] using hshows⟩
    have hpattern : Part t p ((Subject.schema s).project t p).value
        ("patternProperties", newer t (gather (each (visits t) s.patternProperties))) := by
      cases t with
      | v30 => exact .inl rfl
      | v31 => exact part_named hs.2 ih.patternProperties (hc.patternProperties rfl)
    have hunevaluated : Part t p ((Subject.schema s).project t p).value
        ("unevaluatedProperties", newer t (Visit.option (visits t) s.unevaluated)) := by
      cases t with
      | v30 => exact .inl rfl
      | v31 => exact part_option ih.unevaluated (hc.unevaluated rfl)
    simp only [parts, List.forall_mem_cons]
    exact ⟨part_option ih.items hc.items, part_named hs.1 ih.properties hc.properties, hadditional,
      hpattern, hunevaluated, part_items ih.allOf hc.allOf, part_items ih.anyOf hc.anyOf,
      part_items ih.oneOf hc.oneOf, part_option ih.notOf hc.notOf, by simp⟩

end Schema

/-! ## Servers -/

section
variable (t : Target)

theorem ServerVariable.writes (v : ServerVariable) : Writes t (v.project t) v.visits :=
  @writes_whole t (.serverVariable v) [] fun _ _ _ hb => by cases hb

theorem Server.writes (s : Server) : Writes t (s.project t) s.visits := by
  refine writes_whole (u := .server s) fun p hs => ?_
  rw [Subject.project, s.value_project, List.forall_mem_singleton]
  refine part_named hs (fun x _ => ServerVariable.writes t x.2) fun h => ?_
  rw [Node.child_part (by decide)]
  simp [List.lookup_append, Traced.value_named, h]

/-! ## Headers and bodies -/

theorem Header.writes_steps :
    Header.Steps (fun h => Writes t (h.project t) (h.visits t)) (fun m => Writes t (m.project t) (m.visits t))
      fun e => Writes t (e.project t) (e.visits t) where
  header h hc := by
    rw [Header.visits_eq]
    refine writes_node (u := .header h) fun p hs hr => ?_
    rw [Subject.project, h.value_project hr, List.forall_mem_cons, List.forall_mem_cons]
    refine ⟨part_option (fun s _ => Schema.writes t s) ?_, part_named hs hc fun h => ?_, by simp⟩
    · rw [Node.child_part (by decide)]
      simp [List.lookup_append, Example.projectAll]
    · rw [Node.child_part (by decide)]
      simp [List.lookup_append, Example.projectAll, Traced.value_named, h]
  mediaType m he := by
    rw [MediaType.visits_eq]
    refine writes_whole (u := .mediaType m) fun p hs => ?_
    rw [Subject.project, m.value_project, List.forall_mem_cons, List.forall_mem_cons]
    refine ⟨part_named hs he fun h => ?_, part_option (fun s _ => Schema.writes t s) ?_, by simp⟩
    · rw [Node.child_part (by decide)]
      simp [List.lookup_append, Example.projectAll, Traced.value_named, h]
    · rw [Node.child_part (by decide)]
      simp [List.lookup_append, Example.projectAll]
  encoding e hh := by
    rw [Encoding.visits_eq]
    refine writes_whole (u := .encoding e) fun p hs => ?_
    rw [Subject.project, e.value_project, List.forall_mem_singleton]
    refine part_named hs hh fun h => ?_
    rw [Node.child_part (by decide)]
    simp [List.lookup_append, Traced.value_named, h]

theorem Header.writes (h : Header) : Writes t (h.project t) (h.visits t) :=
  (Header.ind (Header.writes_steps t)).1 h

theorem MediaType.writes (m : MediaType) : Writes t (m.project t) (m.visits t) :=
  (Header.ind (Header.writes_steps t)).2.1 m

theorem Parameter.writes (x : Parameter) : Writes t (x.project t) (x.visits t) := by
  refine writes_node (u := .parameter x) fun p hs hr => ?_
  rw [Subject.project, x.value_project hr, List.forall_mem_cons, List.forall_mem_cons]
  refine ⟨part_option (fun s _ => Schema.writes t s) ?_, part_named hs (fun m _ => MediaType.writes t m.2)
    fun h => ?_, by simp⟩
  · rw [Node.child_part (by decide)]
    simp [List.lookup_append, Example.projectAll]
  · rw [Node.child_part (by decide)]
    simp [List.lookup_append, Example.projectAll, Traced.value_named, h]

theorem RequestBody.writes (b : RequestBody) : Writes t (b.project t) (b.visits t) := by
  refine writes_node (u := .requestBody b) fun p hs hr => ?_
  rw [Subject.project, b.value_project hr, List.forall_mem_singleton]
  refine part_named hs (fun m _ => MediaType.writes t m.2) fun h => ?_
  rw [Node.child_part (by decide)]
  simp [List.lookup_append]

/-! ## Responses -/

theorem Link.writes (l : Link) : Writes t (l.project t) l.visits := by
  refine writes_node (u := .link l) fun p hs hr => ?_
  rw [Subject.project, l.value_project hr, List.forall_mem_singleton]
  refine part_option (fun s _ => Server.writes t s) ?_
  rw [Node.child_part (by decide)]
  simp [List.lookup_append]

theorem Response.writes (r : Response) : Writes t (r.project t) (r.visits t) := by
  refine writes_node (u := .response r) fun p hs hr => ?_
  obtain ⟨hlinks, hheaders, hcontent⟩ := hs
  rw [Subject.project, r.value_project hr]
  simp only [List.forall_mem_cons]
  refine ⟨part_named hlinks (fun l _ => Link.writes t l.2) fun h => ?_,
    part_named hheaders (fun x _ => Header.writes t x.2) fun h => ?_,
    part_named hcontent (fun m _ => MediaType.writes t m.2) fun h => ?_, by simp⟩
  all_goals
    rw [Node.child_part (by decide)]
    simp [List.lookup_append, Traced.value_named, h]

/-! ## Operations -/

theorem Method.name_inj {m n : Method} (h : m.name = n.name) : m = n := by
  revert h
  cases m <;> cases n <;> decide

/-- Methods have other names than the fields beside them, and none looks like an extension. -/
theorem Method.name_fresh (m : Method) :
    "x-".isPrefixOf m.name = false ∧ m.name ≠ "summary" ∧ m.name ≠ "description" ∧ m.name ≠ "parameters" := by
  rw [Node.isPrefixOf_eq_false]
  cases m <;> decide

theorem Method.distinctKeys_name {α : Type} {os : List (Method × α)} (hk : DistinctKeys os) :
    DistinctKeys (os.map fun o => (o.1.name, o.2)) := by
  have hn : ((os.map Prod.fst).map Method.name).Nodup := List.Nodup.map (fun _ _ => Method.name_inj) hk
  simpa [DistinctKeys, Function.comp_def] using hn

theorem Operation.writes_steps :
    Operation.Steps (fun o => Writes t (o.project t) (o.visits t))
      (fun i => Writes t (i.project t) (i.visits t)) fun c => Writes t (c.project t) (c.visits t) where
  operation o hc := by
    rw [Operation.visits_eq]
    refine writes_whole (u := .operation o) fun p hs => ?_
    obtain ⟨hresponses, hcallbacks⟩ := hs
    rw [Subject.project, o.value_project]
    simp only [List.forall_mem_cons]
    refine ⟨part_items (fun x _ => Parameter.writes t x) fun h => ?_,
      part_option (fun b _ => RequestBody.writes t b) ?_,
      part_named hresponses (fun r _ => Response.writes t r.2) fun h => ?_,
      part_named hcallbacks hc fun h => ?_,
      part_items (fun s _ => Server.writes t s) fun h => ?_, by simp⟩
    all_goals
      rw [Node.child_part (by decide)]
      simp [List.lookup_append, List.lookup_cons, Traced.value_named, Traced.value_items, *]
  pathItem i ho := by
    rw [PathItem.visits_eq]
    refine writes_node (u := .pathItem i) fun p hs hr => ?_
    rw [Subject.project, i.value_project hr, List.forall_mem_cons]
    refine ⟨part_items (fun x _ => Parameter.writes t x) fun h => ?_,
      part_beside (Method.distinctKeys_name hs) (List.forall_mem_map.2 ho) fun x hx => ?_⟩
    · have hnone : (Traced.named (Operation.project t) p
          (i.operations.map fun o => (o.1.name, o.2))).value.lookup "parameters" = none := by
        simp only [Traced.value_named, List.lookup_eq_none_iff, List.forall_mem_map, bne_iff_ne]
        exact fun o _ => o.1.name_fresh.2.2.2.symm
      rw [Node.child_part (by decide)]
      simp [List.lookup_append, hnone, Traced.value_items, h]
    · obtain ⟨o, _, rfl⟩ := List.mem_map.1 hx
      obtain ⟨hx, hsummary, hdescription, hparameters⟩ := o.1.name_fresh
      rw [Node.child_extended hx]
      simp [List.lookup_append, hsummary, hdescription, hparameters]
  callback c hi := by
    rw [Callback.visits_eq]
    refine writes_open (u := .callback c) fun p hs hr b hb hshown => ?_
    obtain ⟨x, hx, rfl⟩ := List.mem_map.1 hb
    rw [Subject.project, c.value_project hr]
    refine part_child hs hi hx ?_
    rw [Node.child_fresh fun e he hex => hshown ⟨hr, List.mem_map_of_mem hx, e, he, hex⟩]
    simp

theorem PathItem.writes (i : PathItem) : Writes t (i.project t) (i.visits t) :=
  (Operation.ind (Operation.writes_steps t)).2.1 i

theorem Callback.writes (c : Callback) : Writes t (c.project t) (c.visits t) :=
  (Operation.ind (Operation.writes_steps t)).2.2 c

end

/-! ## The whole -/

/-- Whether the maps of the reusable parts have each key once. -/
structure Components.Keyed (c : Components) : Prop where
  schemas : DistinctKeys c.schemas
  responses : DistinctKeys c.responses
  parameters : DistinctKeys c.parameters
  requestBodies : DistinctKeys c.requestBodies
  headers : DistinctKeys c.headers
  securitySchemes : DistinctKeys c.securitySchemes
  links : DistinctKeys c.links
  callbacks : DistinctKeys c.callbacks
  pathItems : DistinctKeys c.pathItems

namespace Components

/-- The node that is written for the reusable parts. -/
def written (t : Target) (c : Components) : Node :=
  match t with
  | .v30 => c.written30
  | .v31 => c.project31.value

/-- The security schemes that are written in a version. -/
def schemes (t : Target) (c : Components) : List (String × SecurityScheme) :=
  match t with
  | .v30 => c.securitySchemes.filter fun (_, s) => !isMutualTls s
  | .v31 => c.securitySchemes

/-- The reusable parts of the two versions differ in security schemes and reusable paths only. -/
theorem written_eq (t : Target) (c : Components) : c.written t =
    node t (c.shared t).value ((c.schemes t).map fun (k, s) => (k, s.project t))
      (if t.isFeatureRich then (Traced.named (PathItem.project t) (place.key "pathItems") c.pathItems).value
        else [])
      c.extensions := by
  cases t with
  | v30 => rfl
  | v31 =>
    rw [written, project31, PathItem.projectNamed_eq]
    rfl

theorem shows (t : Target) (c : Components) (hk : c.Keyed) :
    Shows t place (c.written t) (c.visits t) := by
  rw [c.written_eq, node]
  refine Visit.shows_gather ?_
  simp only [List.forall_mem_cons]
  refine ⟨?_, part_named hk.schemas (fun x _ => Schema.writes t x.2) fun h => ?_,
    part_named hk.responses (fun x _ => Response.writes t x.2) fun h => ?_,
    part_named hk.parameters (fun x _ => Parameter.writes t x.2) fun h => ?_,
    part_named hk.requestBodies (fun x _ => RequestBody.writes t x.2) fun h => ?_,
    part_named hk.headers (fun x _ => Header.writes t x.2) fun h => ?_,
    part_named hk.links (fun x _ => Link.writes t x.2) fun h => ?_,
    part_named hk.callbacks (fun x _ => Callback.writes t x.2) fun h => ?_, by simp⟩
  · cases t with
    | v30 => exact .inl rfl
    | v31 =>
      refine part_named hk.pathItems (fun x _ => PathItem.writes .v31 x.2) fun h => ?_
      rw [Node.child_part (by decide)]
      simp [List.lookup_append, shared, Example.projectAll, Target.isFeatureRich, Traced.value_named, h]
  all_goals
    rw [Node.child_part (by decide)]
    simp [List.lookup_append, shared, Example.projectAll, Header.projectNamed_eq, Callback.projectNamed_eq,
      Traced.value_named, h]

end Components

/-- Whether no map of a description has a key twice. -/
structure Api.Keyed (t : Target) (a : Api) : Prop where
  paths : DistinctKeys a.paths
  webhooks : DistinctKeys a.webhooks
  components : ∀ c ∈ a.components, c.Keyed
  visits : ∀ v ∈ a.visits t, v.subject.Keyed

namespace Api

theorem child_components (t : Target) (a : Api) :
    (a.written t).child? "components" = a.components.map (Components.written t) := by
  have hplain : "components" ∈ Node.partNames := by decide
  cases t with
  | v30 =>
    rw [written, written30, Node.child_part hplain]
    simp [List.lookup_append, List.lookup_cons]
    rfl
  | v31 =>
    rw [written, written31, Node.child_part hplain]
    simp [List.lookup_append, List.lookup_cons]
    rfl

theorem shows (t : Target) (a : Api) (hk : a.Keyed t) : Shows t .root (a.written t) (a.visits t) := by
  refine Visit.shows_gather ?_
  have hcomponents :
      Part t .root (a.written t) ("components", Visit.option (Components.visits t) a.components) := by
    have hc := a.child_components t
    cases ha : a.components with
    | none => exact .inl rfl
    | some c =>
      rw [ha] at hc
      exact .inr ⟨_, hc, by simpa [Visit.option, Components.place] using c.shows t (hk.components c ha)⟩
  have hpaths := fun (x : String × PathItem) (_ : x ∈ a.paths) => PathItem.writes t x.2
  simp only [List.forall_mem_cons]
  cases t with
  | v30 =>
    have hchild {k : String} (hk : k ∈ Node.partNames) : (a.written .v30).child? k = _ :=
      Node.child_part hk _ a.extensions
    refine ⟨part_items (fun s _ => Server.writes .v30 s) fun h => ?_,
      part_named hk.paths hpaths fun h => ?_, hcomponents, .inl rfl, by simp⟩
    · rw [hchild (by decide)]
      simp [List.lookup_append, List.lookup_cons, Server.projectAll, Traced.value_items, h]
    · rw [hchild (by decide)]
      simp [List.lookup_append, List.lookup_cons, PathItem.projectNamed_eq]
  | v31 =>
    have hchild {k : String} (hk : k ∈ Node.partNames) : (a.written .v31).child? k = _ :=
      Node.child_part hk _ a.extensions
    refine ⟨part_items (fun s _ => Server.writes .v31 s) fun h => ?_,
      part_named hk.paths hpaths fun h => ?_, hcomponents,
      part_named hk.webhooks (fun x _ => PathItem.writes .v31 x.2) fun h => ?_, by simp⟩
    · rw [hchild (by decide)]
      simp [List.lookup_append, List.lookup_cons, servers31, Server.projectAll, Traced.value_items, h]
    · rw [hchild (by decide)]
      simp [List.lookup_append, List.lookup_cons, PathItem.projectNamed_eq, Traced.value_named, h]
    · rw [hchild (by decide)]
      simp [List.lookup_append, List.lookup_cons, PathItem.projectNamed_eq, Traced.value_named, h]

end Api
end ApiProjection
