import Mathlib.Data.List.Nodup
import ApiProjection.Proofs.Fields
import ApiProjection.Proofs.Resolve
import ApiProjection.Proofs.RoundTrip.Json
import ApiProjection.Proofs.Validity.Closed
/-!
# What is read of a written node

A node is written as JSON text, and the text is read as a value. The value of an object has the entries of the
object under their names, each read for itself, and the extensions beside them.

* `Node.ReadsAs`: that a value is read where a node is written.
* `Node.readsAs_object`: the members of what is read of an object.
-/
namespace ApiProjection

/-! ## Ordered entries -/

section
variable {β : Type} {k : String} {v : β} {es : List (String × β)}

theorem mem_of_mem_upsert {e : String × β} (h : e ∈ upsert (· == ·) k v es) : e = (k, v) ∨ e ∈ es := by
  induction es with
  | nil => exact .inl (List.mem_singleton.1 h)
  | cons x es ih =>
    rw [upsert] at h
    split at h
    · rename_i hk
      rw [beq_iff_eq] at hk
      rcases List.mem_cons.1 h with rfl | h
      · exact .inl (by rw [hk])
      · exact .inr (List.mem_cons_of_mem x h)
    · rcases List.mem_cons.1 h with rfl | h
      · exact .inr List.mem_cons_self
      · exact (ih h).imp_right (List.mem_cons_of_mem x)

theorem keys_upsert (name : String) :
    name ∈ (upsert (· == ·) k v es).map Prod.fst ↔ name ∈ es.map Prod.fst ∨ name = k := by
  induction es with
  | nil => simp [upsert]
  | cons x es ih =>
    rw [upsert]
    split
    · rename_i hk
      rw [beq_iff_eq] at hk
      simp only [List.map_cons, List.mem_cons, hk]
      tauto
    · simp only [List.map_cons, List.mem_cons, ih, or_assoc]

end

namespace Node

theorem mem_of_mem_inline {own extra : List (String × Json)} {e : String × Json} (h : e ∈ inline own extra) :
    e ∈ own ∨ e ∈ extra := by
  unfold inline at h
  induction extra generalizing own with
  | nil => exact .inl h
  | cons x extra ih =>
    rcases ih h with h | h
    · rcases mem_of_mem_upsert h with rfl | h
      · exact .inr List.mem_cons_self
      · exact .inl h
    · exact .inr (List.mem_cons_of_mem x h)

theorem keys_inline (own extra : List (String × Json)) (name : String) :
    name ∈ (inline own extra).map Prod.fst ↔ name ∈ own.map Prod.fst ∨ name ∈ extra.map Prod.fst := by
  unfold inline
  induction extra generalizing own with
  | nil => simp
  | cons x extra ih =>
    rw [List.foldl_cons, ih, keys_upsert, List.map_cons, List.mem_cons, or_assoc]

theorem collapse_eq (ms : List (String × Json)) : collapse (· == ·) ms = inline [] ms := rfl

end Node

namespace Json

theorem rereadItems_eq (xs : List Json) : rereadItems xs = xs.map reread := by
  induction xs with
  | nil => rfl
  | cons x xs ih => rw [rereadItems, ih, List.map_cons]

theorem rereadMembers_eq (ms : List (String × Json)) : rereadMembers ms = ms.map fun m => (m.1, m.2.reread) := by
  induction ms with
  | nil => rfl
  | cons m ms ih =>
    obtain ⟨k, x⟩ := m
    rw [rereadMembers, ih, List.map_cons]

theorem listToValues_eq (xs : List Json) : listToValues xs = xs.map toValue := by
  induction xs with
  | nil => rfl
  | cons x xs ih => rw [listToValues, ih, List.map_cons]

theorem membersToEntries_eq (ms : List (String × Json)) :
    membersToEntries ms = ms.map fun m => (.text m.1, m.2.toValue) := by
  induction ms with
  | nil => rfl
  | cons m ms ih =>
    obtain ⟨k, x⟩ := m
    rw [membersToEntries, ih, List.map_cons]

theorem hasMember_membersToEntries {ms : List (String × Json)} {name : String} :
    HasMember (membersToEntries ms) name ↔ name ∈ ms.map Prod.fst := by
  simp [membersToEntries_eq, HasMember]

/-- The value that is read where a JSON value is written. -/
def valueRead (j : Json) : Value := j.reread.toValue

theorem valueRead_list (xs : List Json) : valueRead (.list xs) = .list (xs.map valueRead) := by
  rw [valueRead, reread, toValue, rereadItems_eq, listToValues_eq, List.map_map]
  rfl

/-- The members that are read where an object is written. -/
theorem valueRead_object (ms : List (String × Json)) : ∃ entries, valueRead (.object ms) = .map entries ∧
    (∀ e ∈ entries, ∃ m ∈ ms, e = (.text m.1, m.2.valueRead)) ∧
    ∀ name, HasMember entries name ↔ name ∈ ms.map Prod.fst := by
  refine ⟨membersToEntries (collapse (· == ·) (rereadMembers ms)), by rw [valueRead, reread, toValue], ?_, ?_⟩
  · intro e he
    rw [membersToEntries_eq, Node.collapse_eq] at he
    obtain ⟨x, hx, rfl⟩ := List.mem_map.1 he
    rcases Node.mem_of_mem_inline hx with hx | hx
    · cases hx
    · rw [rereadMembers_eq] at hx
      obtain ⟨m, hm, rfl⟩ := List.mem_map.1 hx
      exact ⟨m, hm, rfl⟩
  · intro name
    rw [hasMember_membersToEntries, Node.collapse_eq, Node.keys_inline, rereadMembers_eq, List.map_map]
    exact or_iff_right (List.not_mem_nil)

end Json

/-! ## Nodes -/

namespace Node

/-- Whether a value is read where a node is written. -/
def ReadsAs (n : Node) (v : Value) : Prop := ∃ j, n.toJson = .ok j ∧ j.valueRead = v

variable {v : Value}

theorem readsAs_text {s : String} (h : (Node.text s).ReadsAs v) : v = .text s := by
  obtain ⟨j, hj, rfl⟩ := h
  cases hj
  rfl

theorem mem_listToJson {ns : List Node} {js : List Json} (h : listToJson ns = .ok js) :
    js.length = ns.length ∧ ∀ j ∈ js, ∃ n ∈ ns, n.toJson = .ok j := by
  induction ns generalizing js with
  | nil =>
    cases h
    simp
  | cons n ns ih =>
    obtain ⟨j, hj, h⟩ := bind_ok h
    obtain ⟨js', hjs', heq⟩ := bind_ok h
    cases heq
    obtain ⟨hlen, hmem⟩ := ih hjs'
    refine ⟨congrArg Nat.succ hlen, List.forall_mem_cons.2 ⟨⟨n, List.mem_cons_self, hj⟩, fun j' hj' => ?_⟩⟩
    obtain ⟨m, hm, hjm⟩ := hmem j' hj'
    exact ⟨m, List.mem_cons_of_mem n hm, hjm⟩

/-- What is read of a list is a list of what is read of its items. -/
theorem readsAs_list {ns : List Node} (h : (Node.list ns).ReadsAs v) :
    ∃ vs, v = .list vs ∧ vs.length = ns.length ∧ ∀ x ∈ vs, ∃ n ∈ ns, n.ReadsAs x := by
  obtain ⟨j, hj, rfl⟩ := h
  obtain ⟨js, hjs, hj⟩ := bind_ok hj
  cases hj
  obtain ⟨hlen, hmem⟩ := mem_listToJson hjs
  refine ⟨js.map Json.valueRead, Json.valueRead_list js, by rw [List.length_map, hlen], ?_⟩
  rw [List.forall_mem_map]
  intro j hj
  obtain ⟨n, hn, hjn⟩ := hmem j hj
  exact ⟨n, hn, j, hjn, rfl⟩

/-- The members that are read of an object: its entries, each read for itself, and its extensions. -/
structure Members (es : List (String × Node)) (xs : Extensions) (entries : List (Scalar × Value)) : Prop where
  own_or_extension : ∀ e ∈ entries, ∃ name, e.1 = .text name ∧
    ((∃ n, (name, n) ∈ es ∧ n.ReadsAs e.2) ∨ name ∈ xs.map Prod.fst)
  hasMember : ∀ name, HasMember entries name ↔ name ∈ es.map Prod.fst ∨ name ∈ xs.map Prod.fst

theorem mem_entriesToJson {es : List (String × Node)} {ms : List (String × Json)} (h : entriesToJson es = .ok ms) :
    ∀ m ∈ ms, ∃ n, (m.1, n) ∈ es ∧ n.toJson = .ok m.2 := by
  induction es generalizing ms with
  | nil =>
    cases h
    simp
  | cons e es ih =>
    obtain ⟨j, rest, hj, hrest, rfl⟩ := entriesToJson_cons.1 h
    rw [List.forall_mem_cons]
    refine ⟨⟨e.2, List.mem_cons_self, hj⟩, fun m hm => ?_⟩
    obtain ⟨n, hn, hjn⟩ := ih hrest m hm
    exact ⟨n, List.mem_cons_of_mem e hn, hjn⟩

/-- What is read of an object is an object with its members. -/
theorem readsAs_object {es : List (String × Node)} {xs : Extensions} (h : (Node.object es xs).ReadsAs v) :
    ∃ entries, v = .map entries ∧ Members es xs entries := by
  obtain ⟨j, hj, rfl⟩ := h
  obtain ⟨own, hown, hj⟩ := bind_ok hj
  obtain ⟨extra, hextra, hj⟩ := bind_ok hj
  cases hj
  obtain ⟨entries, hread, hmem, hkeys⟩ := Json.valueRead_object (inline own extra)
  refine ⟨entries, hread, ⟨fun e he => ?_, fun name => ?_⟩⟩
  · obtain ⟨m, hm, rfl⟩ := hmem e he
    refine ⟨m.1, rfl, ?_⟩
    rcases mem_of_mem_inline hm with hm | hm
    · obtain ⟨n, hn, hjn⟩ := mem_entriesToJson hown m hm
      exact .inl ⟨n, hn, m.2, hjn, rfl⟩
    · exact .inr (keys_extensionMembers hextra ▸ List.mem_map_of_mem hm)
  · rw [hkeys, keys_inline, keys_entriesToJson hown, keys_extensionMembers hextra]

end Node

/-! ## Closed objects -/

theorem Extension.isExtension_allowed {t : Target} {xs : Extensions} {name : String}
    (h : name ∈ (allowed t xs).map Prod.fst) : MetaSchema.IsExtension name := by
  obtain ⟨x, hx, rfl⟩ := List.mem_map.1 h
  have hx : isAllowed t x.1 = true := (List.mem_filter.1 hx).2
  rw [isAllowed, Bool.and_eq_true] at hx
  by_contra hno
  exact absurd hx.1 (by rw [Node.isPrefixOf_eq_false.2 hno]; exact Bool.false_ne_true)

namespace MetaSchema

/-- Whether whatever is read of a node keeps a rule. -/
def Keeps (schema : Value) (n : Node) : Prop := ∀ v, n.ReadsAs v → Accepts schema v

/-- Whether the entries of a field are those of a property, and whatever is read of them decides a statement. -/
def Fits (q : String → Prop) (f : Node.Field) (p : String × Value) : Prop :=
  f.Under p.1 ∧ ∀ e ∈ f, ∀ v, e.2.ReadsAs v → Decides p.2 v (q p.1)

/-- The properties that the rule of a closed object may have: each name once, and no name of an extension. -/
structure Table (props : List (String × Value)) : Prop where
  objects : ∀ p ∈ props, isMap p.2 = true
  nodup : (props.map Prod.fst).Nodup
  plain : ∀ p ∈ props, ¬IsExtension p.1

section
variable {t : Target} {fields : List Node.Field} {xs : Extensions} {props : List (String × Value)} {names : List String}
  {q : String → Prop} {v : Value}

/-- An object that is written of fields which fit its properties is a closed object. -/
theorem readsAs_extended (h : (Node.extended t fields xs).ReadsAs v) (names : List String) (hp : Table props)
    (hfits : ∀ f ∈ fields, ∃ p ∈ props, Fits q f p) (hnames : ∀ n ∈ names, n ∈ fields.flatten.map Prod.fst) :
    ∃ es, v = .map es ∧ Closed props names es ∧
      (∀ p ∈ props, ∀ x, (Scalar.text p.1, x) ∈ es → Decides p.2 x (q p.1)) ∧
      ∀ n, ¬IsExtension n → (HasMember es n ↔ n ∈ fields.flatten.map Prod.fst) := by
  obtain ⟨es, rfl, hmem⟩ := Node.readsAs_object h
  -- an entry of the object is one of a field, and so of the property that the field fits
  have hown : ∀ e ∈ fields.flatten, ∃ p ∈ props, e.1 = p.1 ∧ ∀ v, e.2.ReadsAs v → Decides p.2 v (q p.1) := by
    intro e he
    obtain ⟨f, hf, hef⟩ := List.mem_flatten.1 he
    obtain ⟨p, hpm, hunder, hdec⟩ := hfits f hf
    exact ⟨p, hpm, hunder e hef, hdec e hef⟩
  refine ⟨es, rfl, ⟨fun n hn => (hmem.hasMember n).2 (.inl (hnames n hn)), fun e he => ?_⟩, fun p hpm x hx => ?_,
    fun n hn => (hmem.hasMember n).trans (or_iff_left fun hx => hn (Extension.isExtension_allowed hx))⟩
  · obtain ⟨name, hname, ⟨n, hn, -⟩ | hx⟩ := hmem.own_or_extension e he
    · obtain ⟨p, hpm, hkey, -⟩ := hown _ hn
      exact ⟨name, hname, .inl (List.mem_map.2 ⟨p, hpm, hkey.symm⟩)⟩
    · exact ⟨name, hname, .inr (Extension.isExtension_allowed hx)⟩
  · obtain ⟨name, hname, ⟨n, hn, hread⟩ | hext⟩ := hmem.own_or_extension _ hx
    · cases hname
      obtain ⟨p', hpm', hkey, hdec⟩ := hown _ hn
      rw [List.inj_on_of_nodup_map hp.nodup hpm hpm' hkey]
      exact hdec x hread
    · cases hname
      exact absurd (Extension.isExtension_allowed hext) (hp.plain p hpm)

/-- An object that is written of fields which fit its properties keeps its rule. -/
theorem keeps_closed (hp : Table props) (hfits : ∀ f ∈ fields, ∃ p ∈ props, Fits (fun _ => True) f p)
    (hnames : ∀ n ∈ names, n ∈ fields.flatten.map Prod.fst) : Keeps (closed props names) (.extended t fields xs) := by
  intro v h
  obtain ⟨es, rfl, hclosed, hrules, -⟩ := readsAs_extended h names hp hfits hnames
  exact accepts_closed hp.objects hclosed hrules

end

end MetaSchema
end ApiProjection
