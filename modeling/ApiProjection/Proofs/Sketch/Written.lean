import ApiProjection.Api.Reader.Document
import ApiProjection.Proofs.RoundTrip.Keyed
import ApiProjection.Proofs.Sketch.Basic
/-!
# Documents have the sketches of their descriptions

What is drawn from the JSON of a node is the sketch of what it was written for (`Node.Draws`). For an object
this is put together from its fields: each is drawn as a field of the sketch or has no place there
(`Node.Field.Draws`), and extensions never have one.

* `Api.sketch_document`: that for whole documents.
-/
namespace ApiProjection

/-! ## Objects and their fields -/

namespace Element

/-- The names of members that belong to sketches do not look like extensions. -/
theorem members_plain (e : Element) : ∀ m ∈ e.members, "x-".isPrefixOf m.1 = false := by
  simp only [Node.isPrefixOf_eq_false]
  cases e <;> decide

/-- An extension does not belong to a sketch. -/
theorem slot_extension (e : Element) {k : String} (h : "x-".isPrefixOf k = true) : e.slot k = none := by
  have hmembers : e.members.lookup k = none := by
    rw [List.lookup_eq_none_iff]
    intro m hm
    rw [bne_iff_ne]
    rintro rfl
    rw [e.members_plain m hm] at h
    cases h
  cases e with
  | callback => simp [slot, h]
  | _ => exact hmembers

end Element

namespace Json

theorem drawMembers_append (e : Element) (ms ns : List (String × Json)) :
    drawMembers e (ms ++ ns) = drawMembers e ms ++ drawMembers e ns := by
  induction ms with
  | nil => rfl
  | cons m ms ih =>
    obtain ⟨k, j⟩ := m
    rw [List.cons_append, drawMembers, drawMembers, ih]
    cases e.slot k <;> rfl

/-- Members without a slot may be put in anywhere. -/
theorem drawMembers_upsert {e : Element} {k : String} (h : e.slot k = none) (v : Json) (ms : List (String × Json)) :
    drawMembers e (upsert (· == ·) k v ms) = drawMembers e ms := by
  induction ms with
  | nil => simp [upsert, drawMembers, h]
  | cons m ms ih =>
    obtain ⟨l, j⟩ := m
    rw [upsert]
    split
    · rename_i hl
      have hl : l = k := beq_iff_eq.1 hl
      rw [drawMembers, drawMembers, hl, h]
    · rw [drawMembers, drawMembers, ih]

theorem drawMembers_inline {e : Element} {extra : List (String × Json)} (h : ∀ x ∈ extra, e.slot x.1 = none)
    (own : List (String × Json)) : drawMembers e (Node.inline own extra) = drawMembers e own := by
  induction extra generalizing own with
  | nil => rfl
  | cons x extra ih =>
    rw [List.forall_mem_cons] at h
    rw [Node.inline_cons, ih h.2, drawMembers_upsert h.1]

end Json

namespace Node

theorem entriesToJson_append {es fs : List (String × Node)} {ms : List (String × Json)} :
    entriesToJson (es ++ fs) = .ok ms →
      ∃ own rest, entriesToJson es = .ok own ∧ entriesToJson fs = .ok rest ∧ ms = own ++ rest := by
  induction es generalizing ms with
  | nil => exact fun h => ⟨[], ms, rfl, h, rfl⟩
  | cons e es ih =>
    intro h
    obtain ⟨j, rest, hj, hrest, rfl⟩ := entriesToJson_cons.1 h
    obtain ⟨own, rest, hown, hfs, rfl⟩ := ih hrest
    exact ⟨(e.1, j) :: own, rest, entriesToJson_cons.2 ⟨j, own, hj, hown, rfl⟩, hfs, rfl⟩

/-- Whether a sketch is drawn from the JSON of a node. -/
def Draws (r : Slot) (n : Node) (s : Sketch) : Prop := ∀ j, n.toJson = .ok j → j.draw r = s

/-- Whether the fields of a sketch are drawn from those of an object. -/
def Field.Draws (e : Element) (f : Field) (ps : Sketch.Field) : Prop :=
  ∀ ms, entriesToJson f = .ok ms → Json.drawMembers e ms = ps

theorem draws_text (s : String) : Draws .text (.text s) (.text s) := by
  rintro _ ⟨⟩
  rfl

theorem draws_items {e : Element} {ns : List Node} {ss : List Sketch} (h : List.Forall₂ (Draws (.one e)) ns ss) :
    Draws (.each e) (.list ns) (.items ss) := by
  intro j hj
  obtain ⟨js, hjs, hj⟩ := bind_ok hj
  cases hj
  clear hj
  rw [Json.draw]
  congr 1
  induction h generalizing js with
  | nil =>
    cases hjs
    rfl
  | cons hn _ ih =>
    obtain ⟨i, hi, hjs⟩ := bind_ok hjs
    obtain ⟨is, his, hjs⟩ := bind_ok hjs
    cases hjs
    rw [Json.drawItems, hn i hi, ih is his]

theorem draws_parts {e : Element} {ns : List (String × Node)} {ss : List (String × Sketch)}
    (h : List.Forall₂ (fun n s => n.1 = s.1 ∧ Draws (.one e) n.2 s.2) ns ss) :
    Draws (.named e) (.object ns []) (.parts ss) := by
  intro j hj
  obtain ⟨own, hown, hj⟩ := bind_ok hj
  cases hj
  clear hj
  rw [inline, List.foldl_nil, Json.draw]
  congr 1
  induction h generalizing own with
  | nil =>
    cases hown
    rfl
  | cons hn _ ih =>
    obtain ⟨i, rest, hi, hrest, rfl⟩ := entriesToJson_cons.1 hown
    rw [Json.drawNamed, hn.2 i hi, ih rest hrest, hn.1]

theorem draws_reference (e : Element) (target : String) : Draws (.one e) (.reference target) (.ref target) := by
  rintro _ ⟨⟩
  rfl

/-- An object that is no reference, with extensions that do not belong to sketches. -/
theorem draws_object {e : Element} {es : List (String × Node)} {xs : Extensions} {ps : Sketch.Field}
    (hes : Field.Draws e es ps) (hx : ∀ x ∈ xs, "x-".isPrefixOf x.1 = true)
    (hr : ∀ n, es.lookup "$ref" = some n → ∃ fs ys, n = .object fs ys) :
    Draws (.one e) (.object es xs) (.parts ps) := by
  intro j hj
  obtain ⟨own, hown, hj⟩ := bind_ok hj
  obtain ⟨extra, hextra, hj⟩ := bind_ok hj
  cases hj
  have hkeys : ∀ x ∈ extra, "x-".isPrefixOf x.1 = true := by
    intro x hmem
    obtain ⟨y, hy, hyx⟩ := List.mem_map.1 (keys_extensionMembers hextra ▸ List.mem_map_of_mem hmem)
    exact hyx ▸ hx y hy
  have hfresh : "$ref" ∉ extra.map Prod.fst := by
    intro hmem
    obtain ⟨x, hxm, hname⟩ := List.mem_map.1 hmem
    have hlooks := hkeys x hxm
    rw [hname, isPrefixOf_eq_false.2 (by decide)] at hlooks
    cases hlooks
  have htarget : Json.target? (inline own extra) = none := by
    rw [Json.target?, lookup_inline hfresh]
    cases hl : es.lookup "$ref" with
    | none =>
      have hkeys : own.lookup "$ref" = none := by
        rw [List.lookup_eq_none_iff] at hl ⊢
        intro m hm
        obtain ⟨f, hf, hfm⟩ := List.mem_map.1 (keys_entriesToJson hown ▸ List.mem_map_of_mem hm)
        exact hfm ▸ hl f hf
      rw [hkeys]
    | some n =>
      obtain ⟨i, hi, hown⟩ := lookup_entriesToJson hown hl
      obtain ⟨fs, ys, rfl⟩ := hr n hl
      obtain ⟨_, _, hi⟩ := bind_ok hi
      obtain ⟨_, _, hi⟩ := bind_ok hi
      cases hi
      rw [hown]
  rw [Json.draw, htarget]
  simp only
  rw [Json.drawMembers_inline fun x hxm => e.slot_extension (hkeys x hxm), hes own hown]

namespace Field.Draws

variable {e d : Element} {name : String} {r : Slot}

/-- A field without a place in the sketch. -/
theorem absent {f : Field} (h : e.slot name = none) (hu : f.Under name) : Field.Draws e f [] := by
  intro ms hms
  induction f generalizing ms with
  | nil =>
    cases hms
    rfl
  | cons x f ih =>
    obtain ⟨j, rest, _, hrest, rfl⟩ := entriesToJson_cons.1 hms
    have hx : x.1 = name := hu x List.mem_cons_self
    rw [Json.drawMembers, hx, h]
    exact ih (fun y hy => hu y (List.mem_cons_of_mem x hy)) rest hrest

theorem single {n : Node} {s : Sketch} (h : e.slot name = some r) (hn : n.Draws r s) :
    Field.Draws e [(name, n)] [(name, s)] := by
  intro ms hms
  obtain ⟨j, rest, hj, hrest, rfl⟩ := entriesToJson_cons.1 hms
  cases hrest
  simp [Json.drawMembers, h, hn j hj]

theorem nil : Field.Draws e [] [] := by
  rintro _ ⟨⟩
  rfl

/-- A field with members by several keys, all of the same slot. -/
theorem members {ns : List (String × Node)} {ss : List (String × Sketch)} (h : ∀ n ∈ ns, e.slot n.1 = some r)
    (hn : List.Forall₂ (fun n s => n.1 = s.1 ∧ Node.Draws r n.2 s.2) ns ss) : Field.Draws e ns ss := by
  induction hn with
  | nil => exact nil
  | cons hn _ ih =>
    rw [List.forall_mem_cons] at h
    intro ms hms
    obtain ⟨j, rest, hj, hrest, rfl⟩ := entriesToJson_cons.1 hms
    rw [Json.drawMembers, h.1]
    simp [ih h.2 rest hrest, hn.2 j hj, hn.1]

theorem text (h : e.slot name = some .text) (s : String) : Field.Draws e (.text name s) [(name, .text s)] :=
  single h (draws_text s)

theorem text? (h : e.slot name = some .text) (o : Option String) :
    Field.Draws e (.text? name o) (Sketch.text? name o) := by
  match o with
  | none => exact nil
  | some s =>
    by_cases hs : s = ""
    · rw [Field.text?, if_pos hs, hs]
      exact nil
    · have hs' : nonEmpty (some s) = some s := by
        unfold nonEmpty
        split
        · rename_i he
          exact absurd (Option.some.inj he) hs
        · rfl
      rw [Field.text?, if_neg hs, Sketch.text?, hs']
      exact text h s

theorem node? (h : e.slot name = some r) {α : Type} {o : Option α} {f : α → Node} {g : α → Sketch}
    (ho : ∀ x ∈ o, (f x).Draws r (g x)) : Field.Draws e (.node? name (o.map f)) (Sketch.node? name (o.map g)) := by
  cases o with
  | none => exact nil
  | some x => exact single h (ho x rfl)

theorem nodes (h : e.slot name = some (.each d)) {ns : List Node} {ss : List Sketch}
    (hn : List.Forall₂ (Node.Draws (.one d)) ns ss) : Field.Draws e (.nodes name ns) (Sketch.nodes name ss) := by
  cases hn with
  | nil => exact nil
  | cons hn hns => exact single h (draws_items (.cons hn hns))

theorem named (h : e.slot name = some (.named d)) {ns : List (String × Node)} {ss : List (String × Sketch)}
    (hn : List.Forall₂ (fun n s => n.1 = s.1 ∧ Node.Draws (.one d) n.2 s.2) ns ss) :
    Field.Draws e (.named name ns) (Sketch.named name ss) := by
  cases hn with
  | nil => exact nil
  | cons hn hns => exact single h (draws_parts (.cons hn hns))

/-- A field that is drawn and those behind it. -/
theorem cons {f : Field} {fs : List Field} {p : Sketch.Field} {ps : List Sketch.Field} (hf : Field.Draws e f p)
    (hfs : Field.Draws e fs.flatten ps.flatten) : Field.Draws e (f :: fs).flatten (p :: ps).flatten := by
  intro ms hms
  obtain ⟨own, rest, hown, hrest, rfl⟩ := entriesToJson_append hms
  rw [Json.drawMembers_append, hf own hown, hfs rest hrest]
  rfl

/-- A field that is not drawn and those behind it. -/
theorem skip (name : String) {f : Field} {fs : List Field} {p : Sketch.Field} (h : e.slot name = none)
    (hu : f.Under name) (hfs : Field.Draws e fs.flatten p) : Field.Draws e (f :: fs).flatten p := by
  intro ms hms
  obtain ⟨own, rest, hown, hrest, rfl⟩ := entriesToJson_append hms
  rw [Json.drawMembers_append, absent h hu own hown, hfs rest hrest]
  rfl

end Field.Draws

/-- An object of fields of which one may have the name of references, but holds no text then. -/
theorem draws_open {e : Element} {fs : List Field} {t : Target} {xs : Extensions} {ps : Sketch.Field}
    (hf : Field.Draws e fs.flatten ps)
    (hr : ∀ n, fs.flatten.lookup "$ref" = some n → ∃ es ys, n = .object es ys) :
    Draws (.one e) (.extended t fs xs) (.parts ps) := by
  refine draws_object hf (fun x hx => ?_) hr
  have ha := (List.mem_filter.1 hx).2
  simp only [Extension.isAllowed, Bool.and_eq_true] at ha
  exact ha.1

/-- An object of fields with names of its own. -/
theorem draws_extended {e : Element} (names : List String) {fs : List Field} {t : Target} {xs : Extensions}
    {ps : Sketch.Field} (hf : Field.Draws e fs.flatten ps) (hr : "$ref" ∉ names)
    (hu : List.Forall₂ Field.Under names fs) : Draws (.one e) (.extended t fs xs) (.parts ps) := by
  exact draws_open hf fun n hn => absurd (Field.keys_flatten hu _ (Visit.mem_of_lookup hn)) hr

end Node

open Node (draws_extended draws_open draws_reference)
open Node.Field (Draws)

/-! ## Nodes of a description -/

/-- Whether a node has its methods in order, if it is a path item, and no expression that looks like an
extension, if it is a callback. -/
def Subject.Regular (u : Subject) : Prop :=
  u.Plain ∧ match u with
    | .pathItem i => (i.operations.map Prod.fst).Sublist Method.all
    | _ => True

instance : DecidablePred Subject.Regular
  | .pathItem i =>
    inferInstanceAs (Decidable (Subject.Plain (.pathItem i) ∧ (i.operations.map Prod.fst).Sublist Method.all))
  | .callback c => inferInstanceAs (Decidable (Subject.Plain (.callback c) ∧ True))
  | .schema _ | .header _ | .mediaType _ | .encoding _ | .parameter _ | .requestBody _ | .serverVariable _
  | .server _ | .link _ | .response _ | .operation _ => isTrue ⟨trivial, trivial⟩

/-! ### Path items that are read -/

section

open Record

theorem Record.Read.seq_done {α β : Type} {f : Read (α → β)} {x : Read α} {b : β} (h : f <*> x = .done b) :
    ∃ g a, f = .done g ∧ x = .done a ∧ g a = b := by
  cases f <;> cases x <;> cases h
  exact ⟨_, _, rfl, rfl, rfl⟩

theorem Record.Fields.read_seq {γ α β : Type} (f : Fields γ (α → β)) (x : Fields γ α) (v : Value) (es : List (Scalar × γ)) :
    (f <*> x).read v es = f.read v es <*> x.read v es := rfl

theorem Record.Fields.read_map {γ α β : Type} (f : α → β) (x : Fields γ α) (v : Value) (es : List (Scalar × γ)) :
    (f <$> x).read v es = .done f <*> x.read v es := rfl

theorem Record.Fields.closed_done {γ α : Type} {fields : Fields γ α} {name : String} {input : Value}
    {entries : Option (List (Scalar × γ))} {value : γ → Value} {a : α}
    (h : fields.closed name input entries value = .done a) : ∃ es, fields.read input es = .done a := by
  cases entries with
  | none => cases h
  | some es =>
    refine ⟨es, ?_⟩
    unfold closed at h
    simp only at h
    split at h
    · exact h
    · cases hr : fields.read input es <;> rw [hr] at h <;> cases h

theorem PathItem.operationFields_ordered {γ : Type} (value : γ → Value) (read : γ → Read Operation) {v : Value}
    {es : List (Scalar × γ)} {ms : List Method} {os : List (Method × Operation)}
    (h : (operationFields value read ms).read v es = .done os) : (os.map Prod.fst).Sublist ms := by
  induction ms generalizing os with
  | nil =>
    cases h
    exact .slnil
  | cons m ms ih =>
    rw [operationFields, Fields.read_seq, Fields.read_map] at h
    obtain ⟨g, rest, hg, hrest, rfl⟩ := Read.seq_done h
    obtain ⟨g', o, hg', _, rfl⟩ := Read.seq_done hg
    cases hg'
    cases o with
    | none => exact (ih hrest).cons m
    | some o => exact (ih hrest).cons_cons m

/-- The methods of a path item that is read stand in their order. -/
theorem PathItem.read_ordered {v : Value} {i : PathItem} (h : PathItem.read v = .done i) :
    (i.operations.map Prod.fst).Sublist Method.all := by
  rw [PathItem.read, Fields.readBelow] at h
  obtain ⟨es, h⟩ := Fields.closed_done h
  obtain ⟨_, _, hparameters, _, rfl⟩ := Read.seq_done h
  obtain ⟨_, _, hmethods, _, rfl⟩ := Read.seq_done hparameters
  obtain ⟨_, _, htexts, hoperations, rfl⟩ := Read.seq_done hmethods
  obtain ⟨_, _, hsummary, _, rfl⟩ := Read.seq_done htexts
  obtain ⟨_, _, href, _, rfl⟩ := Read.seq_done hsummary
  obtain ⟨_, _, hnode, _, rfl⟩ := Read.seq_done href
  cases hnode
  exact operationFields_ordered _ _ hoperations

end

/-- Whether what is projected at any place has a sketch. -/
def Traced.Draws (e : Element) (f : Pointer → Traced Node) (s : Sketch) : Prop :=
  ∀ p, (f p).value.Draws (.one e) s

namespace Traced.Draws

variable {α : Type} {e : Element} {f : α → Pointer → Traced Node} {g : α → Sketch} (p : Pointer)

theorem named {xs : List (String × α)} (h : ∀ x ∈ xs, Traced.Draws e (f x.2) (g x.2)) :
    List.Forall₂ (fun n s => n.1 = s.1 ∧ Node.Draws (.one e) n.2 s.2) (Traced.named f p xs).value
      (xs.map fun x => (x.1, g x.2)) := by
  rw [Traced.value_named, List.forall₂_map_left_iff, List.forall₂_map_right_iff, List.forall₂_same]
  exact fun x hx => ⟨rfl, h x hx _⟩

theorem items {i : Nat} {xs : List α} (h : ∀ x ∈ xs, Traced.Draws e (f x) (g x)) :
    List.Forall₂ (Node.Draws (.one e)) (Traced.items f p i xs).value (xs.map g) := by
  induction xs generalizing i with
  | nil => exact .nil
  | cons x xs ih =>
    rw [List.forall_mem_cons] at h
    exact .cons (h.1 _) (ih h.2)

theorem option {name : String} {d : Element} (hr : d.slot name = some (.one e)) {o : Option α}
    (h : ∀ x ∈ o, Traced.Draws e (f x) (g x)) :
    Node.Field.Draws d (.node? name (Traced.option f p o).value) (Sketch.node? name (o.map g)) := by
  rw [Traced.value_option]
  exact .node? hr fun x hx => h x hx p

/-- A node that may be a reference. -/
theorem node {t : Target} {u : Subject} {ref : Option String} {ps : List Sketch.Field} (href : nonEmpty ref = u.ref?)
    (h : nonEmpty ref = none → ∀ p, (u.project t p).value.Draws (.one e) (.parts ps.flatten)) :
    Traced.Draws e (u.project t) (Sketch.node ref ps) := by
  intro p
  rw [Sketch.node]
  cases hr : nonEmpty ref with
  | some target =>
    rw [Subject.project_ref (href.symm.trans hr)]
    exact draws_reference e target
  | none => exact h hr p

end Traced.Draws

section
variable (t : Target)

theorem Example.draws (x : Example) : (x.project t).Draws (.one .sample) x.sketch := by
  rw [project, sketch, Sketch.node]
  cases nonEmpty x.ref with
  | some target => exact draws_reference _ _
  | none =>
    refine draws_extended Example.fieldNames ?_ (by decide) (by simp)
    exact .skip "summary" rfl (by simp) <| .cons (.text? rfl _) <| .skip "value" rfl (by simp) <|
      .skip "externalValue" rfl (by simp) .nil

theorem Example.draws_all {e : Element} (h : e.slot "examples" = some (.named .sample)) (xs : List (String × Example)) :
    Draws e (projectAll t xs) (Sketch.named "examples" (sketches xs)) := by
  refine .named h ?_
  rw [sketches, List.forall₂_map_left_iff, List.forall₂_map_right_iff, List.forall₂_same]
  exact fun x _ => ⟨rfl, x.2.draws t⟩

/-! ### Headers and bodies -/

theorem Header.sketches_eq (hs : List (String × Header)) : sketches hs = hs.map fun h => (h.1, h.2.sketch) := by
  induction hs with
  | nil => rfl
  | cons h hs ih => simp [sketches, ih]

theorem MediaType.sketches_eq (ms : List (String × MediaType)) : sketches ms = ms.map fun m => (m.1, m.2.sketch) := by
  induction ms with
  | nil => rfl
  | cons m ms ih => simp [sketches, ih]

theorem Encoding.sketches_eq (es : List (String × Encoding)) : sketches es = es.map fun e => (e.1, e.2.sketch) := by
  induction es with
  | nil => rfl
  | cons e es ih => simp [sketches, ih]

theorem Header.sketch_eq (h : Header) : h.sketch = .node h.ref [Sketch.text? "description" h.description,
    Sketch.named "examples" (Example.sketches h.examples),
    Sketch.named "content" (h.content.map fun m => (m.1, m.2.sketch))] := by
  cases h
  rw [sketch, MediaType.sketches_eq]

theorem MediaType.sketch_eq (m : MediaType) : m.sketch = .parts [
    Sketch.named "examples" (Example.sketches m.examples),
    Sketch.named "encoding" (m.encoding.map fun e => (e.1, e.2.sketch))].flatten := by
  cases m
  rw [sketch, Encoding.sketches_eq]

theorem Encoding.sketch_eq (e : Encoding) : e.sketch = .parts [
    Sketch.named "headers" (e.headers.map fun h => (h.1, h.2.sketch))].flatten := by
  cases e
  rw [sketch, Header.sketches_eq]

theorem Header.draws_steps :
    Header.Steps (fun h => Traced.Draws .header (h.project t) h.sketch)
      (fun m => Traced.Draws .mediaType (m.project t) m.sketch)
      fun e => Traced.Draws .encoding (e.project t) e.sketch where
  header h hc := by
    rw [h.sketch_eq]
    refine .node (u := .header h) rfl fun hr p => ?_
    rw [Subject.project, h.value_project hr]
    refine draws_extended Header.fieldNames ?_ (by decide) (by simp)
    exact .cons (.text? rfl _) <| .skip "required" rfl (by simp) <| .skip "deprecated" rfl (by simp) <|
      .skip "allowEmptyValue" rfl (by simp) <| .skip "style" rfl (by simp) <| .skip "explode" rfl (by simp) <|
      .skip "schema" rfl (by simp) <| .skip "example" rfl (by simp) <| .cons (Example.draws_all t rfl h.examples) <|
      .cons (.named rfl (Traced.Draws.named _ hc)) .nil
  mediaType m he p := by
    rw [m.sketch_eq, m.value_project]
    refine draws_extended MediaType.fieldNames ?_ (by decide) (by simp)
    exact .skip "schema" rfl (by simp) <| .skip "example" rfl (by simp) <|
      .cons (Example.draws_all t rfl m.examples) <| .cons (.named rfl (Traced.Draws.named _ he)) .nil
  encoding e hh p := by
    rw [e.sketch_eq, e.value_project]
    refine draws_extended Encoding.fieldNames ?_ (by decide) (by simp)
    exact .skip "contentType" rfl (by simp) <| .cons (.named rfl (Traced.Draws.named _ hh)) <|
      .skip "style" rfl (by simp) <| .skip "explode" rfl (by simp) <| .skip "allowReserved" rfl (by simp) .nil

theorem Header.draws (h : Header) : Traced.Draws .header (h.project t) h.sketch :=
  (Header.ind (Header.draws_steps t)).1 h

theorem MediaType.draws (m : MediaType) : Traced.Draws .mediaType (m.project t) m.sketch :=
  (Header.ind (Header.draws_steps t)).2.1 m

theorem Parameter.draws (x : Parameter) : Traced.Draws .parameter (x.project t) x.sketch := by
  rw [sketch, MediaType.sketches_eq]
  refine .node (u := .parameter x) rfl fun hr p => ?_
  rw [Subject.project, x.value_project hr]
  refine draws_extended Parameter.fieldNames ?_ (by decide) (by simp)
  exact .cons (.text? rfl _) <| .cons (.text? rfl _) <| .cons (.text? rfl _) <| .skip "required" rfl (by simp) <|
    .skip "deprecated" rfl (by simp) <| .skip "allowEmptyValue" rfl (by simp) <| .skip "style" rfl (by simp) <|
    .skip "explode" rfl (by simp) <| .skip "allowReserved" rfl (by simp) <| .skip "schema" rfl (by simp) <|
    .skip "example" rfl (by simp) <| .cons (Example.draws_all t rfl x.examples) <|
    .cons (.named rfl (Traced.Draws.named _ fun m _ => MediaType.draws t m.2)) .nil

theorem RequestBody.draws (b : RequestBody) : Traced.Draws .requestBody (b.project t) b.sketch := by
  rw [sketch, MediaType.sketches_eq]
  refine .node (u := .requestBody b) rfl fun hr p => ?_
  rw [Subject.project, b.value_project hr]
  refine draws_extended RequestBody.fieldNames ?_ (by decide) (by simp)
  exact .cons (.text? rfl _) <|
    .cons (.single rfl (Node.draws_parts (Traced.Draws.named _ fun m _ => MediaType.draws t m.2))) <|
    .skip "required" rfl (by simp) .nil

/-! ### Responses -/

theorem Link.draws (l : Link) : Traced.Draws .link (l.project t) l.sketch := by
  rw [sketch]
  refine .node (u := .link l) rfl fun hr p => ?_
  rw [Subject.project, l.value_project hr]
  refine draws_extended Link.fieldNames ?_ (by decide) (by simp)
  exact .skip "operationRef" rfl (by simp) <| .cons (.text? rfl _) <| .skip "parameters" rfl (by simp) <|
    .skip "requestBody" rfl (by simp) <| .cons (.text? rfl _) <| .skip "server" rfl (by simp) .nil

theorem Response.draws (r : Response) : Traced.Draws .response (r.project t) r.sketch := by
  rw [sketch, MediaType.sketches_eq, Header.sketches_eq]
  refine .node (u := .response r) rfl fun hr p => ?_
  rw [Subject.project, r.value_project hr]
  refine draws_extended Response.fieldNames ?_ (by decide) (by simp)
  exact .cons (.text rfl _) <| .cons (.named rfl (Traced.Draws.named _ fun h _ => Header.draws t h.2)) <|
    .cons (.named rfl (Traced.Draws.named _ fun m _ => MediaType.draws t m.2)) <|
    .cons (.named rfl (Traced.Draws.named _ fun l _ => Link.draws t l.2)) .nil

/-! ### Operations -/

theorem Operation.sketches_eq (os : List (Method × Operation)) : sketches os = os.map fun o => (o.1, o.2.sketch) := by
  induction os with
  | nil => rfl
  | cons o os ih => simp [sketches, ih]

theorem PathItem.sketches_eq (is : List (String × PathItem)) : sketches is = is.map fun i => (i.1, i.2.sketch) := by
  induction is with
  | nil => rfl
  | cons i is ih => simp [sketches, ih]

theorem Callback.sketches_eq (cs : List (String × Callback)) : sketches cs = cs.map fun c => (c.1, c.2.sketch) := by
  induction cs with
  | nil => rfl
  | cons c cs ih => simp [sketches, ih]

/-- Looking up keys in their order gives the entries, if those are in the same order. -/
theorem filterMap_lookup {κ α β : Type} [DecidableEq κ] {keys : List κ} (hn : keys.Nodup) {es : List (κ × α)}
    (h : (es.map Prod.fst).Sublist keys) (f : κ → α → β) :
    keys.filterMap (fun k => (es.lookup k).map (f k)) = es.map fun e => f e.1 e.2 := by
  induction keys generalizing es with
  | nil =>
    have hes : es = [] := List.map_eq_nil_iff.1 (List.sublist_nil.1 h)
    simp [hes]
  | cons k keys ih =>
    obtain ⟨hfresh, hn⟩ := List.nodup_cons.1 hn
    cases es with
    | nil => simp
    | cons e es =>
      obtain ⟨l, b⟩ := e
      rw [List.map_cons] at h
      by_cases hk : l = k
      · have hrest : ∀ m ∈ keys, (List.lookup m ((l, b) :: es)).map (f m) = (es.lookup m).map (f m) := by
          intro m hm
          have hne : (m == l) = false := beq_eq_false_iff_ne.2 fun hml => hfresh (hk ▸ hml ▸ hm)
          rw [List.lookup_cons, hne]
        rw [hk] at h hrest
        rw [hk, List.filterMap_cons, List.lookup_cons_self, Option.map_some, List.filterMap_congr hrest,
          ih hn (List.cons_sublist_cons.1 h), List.map_cons]
      · have hlate : (l :: es.map Prod.fst).Sublist keys := by
          cases h with
          | cons _ h => exact h
          | cons_cons => exact absurd rfl hk
        have hnone : List.lookup k ((l, b) :: es) = none := by
          rw [List.lookup_eq_none_iff]
          intro e he
          rw [bne_iff_ne]
          rintro rfl
          exact hfresh (hlate.subset (List.mem_map_of_mem he))
        rw [List.filterMap_cons, hnone]
        exact ih hn hlate

theorem Method.name_ne_ref (m : Method) : m.name ≠ "$ref" := by
  cases m <;> decide

theorem Method.slot_name (m : Method) : Element.slot .pathItem m.name = some (.one .operation) := by
  cases m <;> rfl

theorem Operation.sketch_eq (o : Operation) : o.sketch = .parts [Sketch.text? "description" o.description,
    Sketch.text? "operationId" o.operationId, Sketch.nodes "parameters" (o.parameters.map Parameter.sketch),
    Sketch.node? "requestBody" (o.requestBody.map RequestBody.sketch),
    [("responses", .parts (o.responses.map fun r => (r.1, r.2.sketch)))],
    Sketch.named "callbacks" (o.callbacks.map fun c => (c.1, c.2.sketch))].flatten := by
  cases o
  rw [sketch, Callback.sketches_eq]

/-- The sketch of a path item whose methods stand in their order. -/
theorem PathItem.sketch_eq (i : PathItem) (h : (i.operations.map Prod.fst).Sublist Method.all) :
    i.sketch = .node i.ref [Sketch.text? "description" i.description,
      (i.operations.map fun o => (o.1.name, o.2)).map fun x => (x.1, x.2.sketch),
      Sketch.nodes "parameters" (i.parameters.map Parameter.sketch)] := by
  cases i with
  | mk ref summary description operations parameters extensions =>
    have horder : ((operations.map fun o => (o.1, o.2.sketch)).map Prod.fst).Sublist Method.all := by
      rwa [List.map_map]
    rw [sketch, Operation.sketches_eq, filterMap_lookup (by decide) horder fun m s => (m.name, s), List.map_map,
      List.map_map]
    rfl

theorem Callback.sketch_eq (c : Callback) :
    c.sketch = .node c.ref [c.pathItems.map fun i => (i.1, i.2.sketch)] := by
  cases c
  rw [sketch, PathItem.sketches_eq]

/-- What is written for operations by their methods is drawn as their sketches, and nothing of it is a reference. -/
theorem Operation.draws_methods {p : Pointer} {os : List (Method × Operation)}
    (h : ∀ x ∈ os.map fun o => (o.1.name, o.2), Traced.Draws .operation (x.2.project t) x.2.sketch) :
    Draws .pathItem (Traced.named (Operation.project t) p (os.map fun o => (o.1.name, o.2))).value
        ((os.map fun o => (o.1.name, o.2)).map fun x => (x.1, x.2.sketch)) ∧
      (Traced.named (Operation.project t) p (os.map fun o => (o.1.name, o.2))).value.lookup "$ref" = none := by
  refine ⟨.members (fun n hn => ?_) (Traced.Draws.named p h), ?_⟩
  · rw [Traced.value_named, List.map_map] at hn
    obtain ⟨o, _, rfl⟩ := List.mem_map.1 hn
    exact o.1.slot_name
  · simp only [Traced.value_named, List.lookup_eq_none_iff, List.forall_mem_map, bne_iff_ne]
    exact fun o _ => o.1.name_ne_ref.symm

theorem Operation.draws_steps :
    Operation.Steps (fun o => (∀ v ∈ o.visits t, v.subject.Regular) → Traced.Draws .operation (o.project t) o.sketch)
      (fun i => (∀ v ∈ i.visits t, v.subject.Regular) → Traced.Draws .pathItem (i.project t) i.sketch)
      fun c => (∀ v ∈ c.visits t, v.subject.Regular) → Traced.Draws .callback (c.project t) c.sketch where
  operation o hc h p := by
    simp only [Operation.visits_eq, List.forall_mem_cons, Visit.forall_gather, Visit.forall_each] at h
    obtain ⟨-, -, -, -, hcallbacks, -⟩ := h
    rw [o.sketch_eq, o.value_project]
    refine draws_extended Operation.fieldNames ?_ (by decide) (by simp)
    exact .skip "tags" rfl (by simp) <| .skip "summary" rfl (by simp) <| .cons (.text? rfl _) <|
      .skip "externalDocs" rfl (by simp) <| .cons (.text? rfl _) <|
      .cons (.nodes rfl (Traced.Draws.items _ fun x _ => Parameter.draws t x)) <|
      .cons (Traced.Draws.option _ rfl fun b _ => RequestBody.draws t b) <|
      .cons (.single rfl (Node.draws_parts (Traced.Draws.named _ fun r _ => Response.draws t r.2))) <|
      .cons (.named rfl (Traced.Draws.named _ fun c hm => hc c hm (hcallbacks c hm))) <|
      .skip "deprecated" rfl (by simp) <| .skip "security" rfl (by simp) <| .skip "servers" rfl (by simp) .nil
  pathItem i ho h := by
    rw [PathItem.visits_eq, List.forall_mem_cons] at h
    obtain ⟨⟨-, horder⟩, hparts⟩ := h
    rw [i.sketch_eq horder]
    refine .node (u := .pathItem i) rfl fun hr p => ?_
    rw [Visit.forall_below_none hr, List.forall_mem_cons, Visit.forall_each, List.forall_mem_map] at hparts
    obtain ⟨hmethods, hnone⟩ := Operation.draws_methods t (p := p)
      (List.forall_mem_map.2 fun o hm => ho o hm (hparts.2 o hm))
    rw [Subject.project, i.value_project hr]
    refine draws_open (.skip "summary" rfl (by simp) <| .cons (.text? rfl _) <| .cons hmethods <|
      .cons (.nodes rfl (Traced.Draws.items _ fun x _ => Parameter.draws t x)) .nil) fun n hn => ?_
    simp [List.lookup_append, hnone] at hn
  callback c hi h := by
    rw [Callback.visits_eq, List.forall_mem_cons] at h
    obtain ⟨⟨hplain, -⟩, hparts⟩ := h
    rw [c.sketch_eq]
    refine .node (u := .callback c) rfl fun hr p => ?_
    rw [Visit.forall_below_none hr, Visit.forall_each] at hparts
    have hplain : ∀ i ∈ c.pathItems, "x-".isPrefixOf i.1 = false := hplain hr
    rw [Subject.project, c.value_project hr]
    refine draws_open (.cons (.members (fun n hn => ?_) (Traced.Draws.named p fun i hm => hi i hm (hparts i hm))) .nil)
      fun n hn => ?_
    · rw [Traced.value_named] at hn
      obtain ⟨i, hm, rfl⟩ := List.mem_map.1 hn
      simp [Element.slot, hplain i hm]
    · rw [List.flatten_cons, List.flatten_nil, List.append_nil] at hn
      have hn := Visit.mem_of_lookup hn
      rw [Traced.value_named] at hn
      obtain ⟨i, _, hin⟩ := List.mem_map.1 hn
      rw [← (Prod.mk.inj hin).2]
      exact Subject.pathItem_object t i.2 _

theorem PathItem.draws {i : PathItem} (h : ∀ v ∈ i.visits t, v.subject.Regular) :
    Traced.Draws .pathItem (i.project t) i.sketch := (Operation.ind (Operation.draws_steps t)).2.1 i h

theorem Callback.draws {c : Callback} (h : ∀ v ∈ c.visits t, v.subject.Regular) :
    Traced.Draws .callback (c.project t) c.sketch := (Operation.ind (Operation.draws_steps t)).2.2 c h

/-! ### The whole -/

theorem SecurityScheme.draws (s : SecurityScheme) : (s.project t).Draws (.one .scheme) s.sketch := by
  rw [project, sketch, Sketch.node]
  cases nonEmpty s.ref with
  | some target => exact draws_reference _ _
  | none =>
    refine draws_extended SecurityScheme.fieldNames ?_ (by decide) (by simp)
    exact .skip "type" rfl (by simp) <| .cons (.text? rfl _) <| .cons (.text? rfl _) <| .cons (.text? rfl _) <|
      .skip "scheme" rfl (by simp) <| .skip "bearerFormat" rfl (by simp) <| .skip "flows" rfl (by simp) <|
      .skip "openIdConnectUrl" rfl (by simp) .nil

/-- Fields none of which has a place in a sketch. -/
theorem Node.Field.Draws.none {e : Element} (names : List String) {fs : List Node.Field} (h : ∀ k, e.slot k = none)
    (hf : List.Forall₂ Node.Field.Under names fs) : Draws e fs.flatten [] := by
  induction hf with
  | nil => exact .nil
  | cons hf _ ih => exact .skip _ (h _) hf ih

theorem Schema.draws (s : Schema) : Traced.Draws .schema (s.project t) s.sketch := by
  rw [sketch]
  refine .node (u := .schema s) rfl fun hr p => ?_
  have hslot : ∀ k, Element.slot .schema k = none := fun _ => rfl
  cases t with
  | v30 =>
    rw [Subject.project, value_project30 s hr, Schema30.toNode]
    exact draws_extended fieldNames30 (.none fieldNames30 hslot (by simp)) (by decide) (by simp)
  | v31 =>
    rw [Subject.project, value_project31 s hr, Schema31.toNode]
    exact draws_extended fieldNames (.none fieldNames hslot (by simp [fieldNames])) (by decide) (by simp [fieldNames])

theorem Components.draws {c : Components} (h : ∀ v ∈ c.visits t, v.subject.Regular) :
    (c.written t).Draws (.one .components) (c.sketch t) := by
  simp only [visits, Visit.forall_gather, List.forall_mem_cons, Visit.forall_each] at h
  obtain ⟨hpathItems, -, -, -, -, -, -, hcallbacks, -⟩ := h
  have hschemes : List.Forall₂ (fun n s => n.1 = s.1 ∧ Node.Draws (.one .scheme) n.2 s.2)
      ((c.schemes t).map fun s => (s.1, s.2.project t)) ((c.securitySchemes.filter fun s =>
        t = .v31 || s.2.type != some "mutualTLS").map fun s => (s.1, s.2.sketch)) := by
    have heq : c.schemes t = c.securitySchemes.filter fun s => t = .v31 || s.2.type != some "mutualTLS" := by
      cases t with
      | v30 => rfl
      | v31 => simp [schemes]
    rw [heq, List.forall₂_map_left_iff, List.forall₂_map_right_iff, List.forall₂_same]
    exact fun s _ => ⟨rfl, s.2.draws t⟩
  have hpathItems : List.Forall₂ (fun n s => n.1 = s.1 ∧ Node.Draws (.one .pathItem) n.2 s.2)
      (if t.isFeatureRich then (Traced.named (PathItem.project t) (place.key "pathItems") c.pathItems).value else [])
      (if t = .v31 then PathItem.sketches c.pathItems else []) := by
    cases t with
    | v30 => exact .nil
    | v31 =>
      rw [PathItem.sketches_eq]
      exact Traced.Draws.named _ fun i hi => PathItem.draws .v31 (Visit.forall_each.1 (Visit.forall_gather.1 hpathItems) i hi)
  rw [written_eq, sketch, Header.sketches_eq, Callback.sketches_eq]
  refine draws_extended sectionNames ?_ (by decide) ?_
  · simp only [shared, Header.projectNamed_eq, Callback.projectNamed_eq, Traced.value_bind, Traced.value_pure]
    exact .cons (.named rfl (Traced.Draws.named _ fun s _ => Schema.draws t s.2)) <|
      .cons (.named rfl (Traced.Draws.named _ fun r _ => Response.draws t r.2)) <|
      .cons (.named rfl (Traced.Draws.named _ fun x _ => Parameter.draws t x.2)) <|
      .cons (Example.draws_all t rfl c.examples) <|
      .cons (.named rfl (Traced.Draws.named _ fun b _ => RequestBody.draws t b.2)) <|
      .cons (.named rfl (Traced.Draws.named _ fun x _ => Header.draws t x.2)) <|
      .cons (.named rfl hschemes) <|
      .cons (.named rfl (Traced.Draws.named _ fun l _ => Link.draws t l.2)) <|
      .cons (.named rfl (Traced.Draws.named _ fun x hx => Callback.draws t (hcallbacks x hx))) <|
      .cons (.named rfl hpathItems) .nil
  · exact c.under_sections t

theorem Api.draws {a : Api} (h : ∀ v ∈ a.visits t, v.subject.Regular) :
    (a.written t).Draws (.one .document) (a.sketch t) := by
  simp only [visits, Visit.forall_gather, List.forall_mem_cons, Visit.forall_each, Visit.forall_option] at h
  obtain ⟨-, hpaths, hcomponents, hwebhooks, -⟩ := h
  have hpaths := Traced.Draws.named (Pointer.root.key "paths") fun i hi => PathItem.draws t (hpaths i hi)
  have hcomponents : Draws .document (.node? "components" (a.components.map fun c => c.written t))
      (Sketch.node? "components" (a.components.map fun c => c.sketch t)) :=
    .node? rfl fun c hc => Components.draws t (hcomponents c hc)
  cases t with
  | v30 =>
    rw [written, written30, PathItem.projectNamed_eq, sketch, PathItem.sketches_eq]
    refine draws_extended (fieldNames .v30) ?_ (by decide) (by simp)
    exact .skip "openapi" rfl (by simp) <| .skip "info" rfl (by simp) <| .skip "servers" rfl (by simp) <|
      .cons (.single rfl (Node.draws_parts hpaths)) <| .cons hcomponents <| .skip "security" rfl (by simp) <|
      .skip "tags" rfl (by simp) <| .skip "externalDocs" rfl (by simp) .nil
  | v31 =>
    have hwebhooks := Visit.forall_each.1 (Visit.forall_gather.1 hwebhooks)
    rw [written, written31, PathItem.projectNamed_eq, PathItem.projectNamed_eq, sketch, PathItem.sketches_eq,
      PathItem.sketches_eq]
    refine draws_extended (fieldNames .v31) ?_ (by decide) (by simp)
    exact .skip "openapi" rfl (by simp) <| .skip "jsonSchemaDialect" rfl (by simp) <| .skip "info" rfl (by simp) <|
      .skip "servers" rfl (by simp) <| .cons (.named rfl hpaths) <|
      .cons (.named rfl (Traced.Draws.named _ fun i hi => PathItem.draws .v31 (hwebhooks i hi))) <|
      .cons hcomponents <| .skip "security" rfl (by simp) <| .skip "tags" rfl (by simp) <|
      .skip "externalDocs" rfl (by simp) .nil

end

/-- **Documents have the sketches of their descriptions.** Of a projection that succeeds: what is drawn from the
document is the sketch of the description, with nothing left out, put in twice or moved. The methods of a path
item are taken to stand in their order, and no expression of a callback to look like an extension. -/
theorem Api.sketch_document {t : Target} {strict : Bool} {a : Api} {doc : Node} {j : Json}
    (hdoc : (a.toDocument t strict).value = .ok doc) (hj : doc.toJson = .ok j)
    (hr : ∀ v ∈ a.visits t, v.subject.Regular) : j.draw (.one .document) = a.sketch t := by
  rw [eq_written hdoc] at hj
  exact a.draws t hr j hj

/-- An interface with reusable parts of which the older version drops two. -/
def parcel : Api where
  info := { title := "Parcel", version := "1" }
  paths := [("/p", { operations := [
    (.get, { operationId := some "find", responses := [("200", { content := [("text/plain", {})] }), ("404", {})] }),
    (.post, {
      parameters := [{ name := some "to", place := some "query", description := some "" }]
      callbacks := [("done", { pathItems := [("$url", {})] })] })] })]
  components := some {
    securitySchemes := [("key", { type := some "apiKey", place := some "header" }), ("tls", { type := some "mutualTLS" })]
    pathItems := [("spare", {})] }

/-- The document of that interface in the older version. -/
def parcelJson : Json := .object [("openapi", .text "3.0.4"),
  ("info", .object [("title", .text "Parcel"), ("version", .text "1")]),
  ("paths", .object [("/p", .object [
    ("get", .object [("operationId", .text "find"), ("responses", .object [
      ("200", .object [("description", .text ""), ("content", .object [("text/plain", .object [])])]),
      ("404", .object [("description", .text "")])])]),
    ("post", .object [("parameters", .list [.object [("name", .text "to"), ("in", .text "query")]]),
      ("responses", .object []),
      ("callbacks", .object [("done", .object [("$url", .object [])])])])])]),
  ("components", .object [("securitySchemes", .object [
    ("key", .object [("type", .text "apiKey"), ("in", .text "header")])])])]

theorem Api.sketch_document_parcel :
    (∃ doc, (parcel.toDocument .v30 false).value = .ok doc ∧ doc.toJson = .ok parcelJson) ∧
      (∀ v ∈ parcel.visits .v30, v.subject.Regular) ∧ parcelJson.draw (.one .document) = parcel.sketch .v30 := by
  have hdoc : (parcel.toDocument .v30 false).value = .ok parcel.written30 := by
    rw [toDocument, project30_run]
    rfl
  have hj : parcel.written30.toJson = .ok parcelJson := by rfl
  have hr : ∀ v ∈ parcel.visits .v30, v.subject.Regular := by decide +kernel
  exact ⟨⟨_, hdoc, hj⟩, hr, sketch_document hdoc hj hr⟩

end ApiProjection
