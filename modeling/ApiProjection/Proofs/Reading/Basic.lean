import ApiProjection.Api.Reader.Schema
import ApiProjection.Proofs.RoundTrip.Document
/-!
# What is read of JSON

The readers say what is wrong with a value; here only their results count (`Read.result?`), and values that
come as JSON, whose objects have each name once. What the fields of a record make of the members of an object
(`Fields.get?`) is put together from what each field makes of the member under its first spelling that is
there (`Json.member?`).

* `Record.Fields.readClosed_eq_some`: records.
* `Record.listOf_eq_some`, `Record.mapOf_eq_some`: lists and maps, item by item.
-/
namespace ApiProjection

open Record

/-! ## Results -/

namespace Record.Read

variable {α β : Type}

/-- The result of reading a value, if it can be read. -/
def result? : Read α → Option α
  | done a => some a
  | failed _ => none

@[simp] theorem result?_done (a : α) : (done a).result? = some a := rfl

@[simp] theorem result?_failed (issues : List Issue) : (failed issues : Read α).result? = none := rfl

@[simp] theorem result?_fail (cause : Cause) (input : Value) : (fail cause input : Read α).result? = none := rfl

theorem result?_eq_some {r : Read α} {a : α} : r.result? = some a ↔ r = .done a := by
  cases r <;> simp

@[simp] theorem result?_map (f : α → β) (r : Read α) : (r.map f).result? = r.result?.map f := by
  cases r <;> rfl

theorem result?_both (r : Read α) (s : Read β) :
    (both r s).result? = r.result?.bind fun a => s.result?.map fun b => (a, b) := by
  cases r <;> cases s <;> rfl

theorem result?_seq (f : Read (α → β)) (x : Read α) :
    (f <*> x).result? = f.result?.bind fun g => x.result?.map g := by
  cases f <;> cases x <;> rfl

@[simp] theorem result?_under (step : Step) (r : Read α) : (r.under step).result? = r.result? := by
  cases r <;> rfl

/-- A list is read as the results of its items. -/
theorem result?_all {rs : List (Read α)} {as : List α} :
    (all rs).result? = some as ↔ List.Forall₂ (fun r a => r.result? = some a) rs as := by
  induction rs generalizing as with
  | nil => simp [all, eq_comm]
  | cons r rs ih =>
    rw [all, result?_map, result?_both]
    constructor
    · intro h
      obtain ⟨_, hboth, rfl⟩ := Option.map_eq_some_iff.1 h
      obtain ⟨a, ha, hboth⟩ := Option.bind_eq_some_iff.1 hboth
      obtain ⟨as', has, rfl⟩ := Option.map_eq_some_iff.1 hboth
      exact .cons ha (ih.1 has)
    · rintro (_ | ⟨ha, has⟩)
      rw [ha, ih.2 has]
      rfl

theorem result?_all_congr {rs ss : List (Read α)} (h : List.Forall₂ (fun r s => r.result? = s.result?) rs ss) :
    (all rs).result? = (all ss).result? := by
  induction h with
  | nil => rfl
  | cons hr _ ih => rw [all, all, result?_map, result?_map, result?_both, result?_both, hr, ih]

theorem result?_all_none {rs : List (Read α)} {r : Read α} (hr : r ∈ rs) (h : r.result? = none) :
    (all rs).result? = none := by
  induction rs with
  | nil => cases hr
  | cons s rs ih =>
    rw [all, result?_map, result?_both]
    rcases List.mem_cons.1 hr with rfl | hr
    · rw [h]
      rfl
    · rw [ih hr]
      cases s.result? <;> rfl

theorem result?_all_mapIdx {f : β → Read α} {g : Nat → β → Read α} (h : ∀ i x, (g i x).result? = (f x).result?)
    (xs : List β) : (all (xs.mapIdx g)).result? = (all (xs.map f)).result? := by
  induction xs generalizing g with
  | nil => rfl
  | cons x xs ih =>
    rw [List.mapIdx_cons, List.map_cons, all, all, result?_map, result?_map, result?_both, result?_both, h 0 x,
      ih fun i => h (i + 1)]

end Record.Read

/-! ## Members -/

theorem lookup_eq_none {β : Type} {k : String} {es : List (String × β)} (h : k ∉ es.map Prod.fst) :
    es.lookup k = none := by
  rw [List.lookup_eq_none_iff]
  intro e he
  rw [bne_iff_ne]
  exact fun hk => h (hk ▸ List.mem_map_of_mem he)

theorem mem_of_lookup {β : Type} {k : String} {v : β} {es : List (String × β)} (h : es.lookup k = some v) :
    (k, v) ∈ es := by
  induction es with
  | nil => cases h
  | cons e es ih =>
    obtain ⟨l, x⟩ := e
    rw [List.lookup_cons] at h
    split at h
    · rename_i hk
      cases h
      rw [beq_iff_eq.1 hk]
      exact List.mem_cons_self
    · exact List.mem_cons_of_mem _ (ih h)

theorem lookup_of_mem {β : Type} {k : String} {v : β} {es : List (String × β)} (hd : DistinctKeys es)
    (h : (k, v) ∈ es) : es.lookup k = some v := by
  induction es with
  | nil => cases h
  | cons e es ih =>
    obtain ⟨l, x⟩ := e
    obtain ⟨hfresh, hes⟩ := List.nodup_cons.1 hd
    rcases List.mem_cons.1 h with h | h
    · cases h
      exact List.lookup_cons_self
    · have hmem : k ∈ es.map Prod.fst := List.mem_map_of_mem h
      have hne : k ≠ l := fun hk => hfresh (hk ▸ hmem)
      rw [List.lookup_cons, beq_eq_false_iff_ne.2 hne]
      exact ih hes h

theorem DistinctKeys.of_forall₂ {α β : Type} {R : String × α → String × β → Prop} {ms : List (String × α)}
    {es : List (String × β)} (hms : DistinctKeys ms) (h : List.Forall₂ (fun m e => m.1 = e.1 ∧ R m e) ms es) :
    DistinctKeys es := by
  have hkeys : ms.map Prod.fst = es.map Prod.fst := by
    rw [← List.forall₂_eq_eq_eq, List.forall₂_map_left_iff, List.forall₂_map_right_iff]
    exact h.imp fun _ _ h => h.1
  rwa [DistinctKeys, ← hkeys]

/-- Entries with distinct keys are left as they are. -/
theorem foldl_upsert_of_distinctKeys {β : Type} {es own : List (String × β)} (h : DistinctKeys (own ++ es)) :
    es.foldl (fun acc (k, v) => upsert (· == ·) k v acc) own = own ++ es := by
  induction es generalizing own with
  | nil => exact (List.append_nil own).symm
  | cons e es ih =>
    have hfresh : e.1 ∉ own.map Prod.fst := by
      rw [DistinctKeys, List.map_append, List.nodup_append] at h
      exact fun hm => h.2.2 e.1 hm e.1 (List.mem_map_of_mem List.mem_cons_self) rfl
    rw [List.append_cons] at h ⊢
    rw [← ih h, ← upsert_of_not_mem hfresh]
    rfl

theorem collapse_of_distinctKeys {β : Type} {es : List (String × β)} (h : DistinctKeys es) :
    collapse (· == ·) es = es :=
  foldl_upsert_of_distinctKeys h

namespace Json

/-- The member of an object under the first of some spellings that is there. -/
def member? (spellings : List String) (ms : List (String × Json)) : Option (String × Json) :=
  spellings.findSome? fun s => (ms.lookup s).map fun j => (s, j)

theorem mem_of_member? {spellings : List String} {ms : List (String × Json)} {m : String × Json}
    (h : member? spellings ms = some m) : m.1 ∈ spellings ∧ m ∈ ms := by
  obtain ⟨s, hs, h⟩ := List.exists_of_findSome?_eq_some h
  obtain ⟨j, hj, rfl⟩ := Option.map_eq_some_iff.1 h
  exact ⟨hs, mem_of_lookup hj⟩

theorem member?_congr {spellings : List String} {ms ns : List (String × Json)}
    (h : ∀ s ∈ spellings, ms.lookup s = ns.lookup s) : member? spellings ms = member? spellings ns := by
  induction spellings with
  | nil => rfl
  | cons s spellings ih =>
    have htail := ih fun t ht => h t (List.mem_cons_of_mem s ht)
    unfold member? at htail ⊢
    rw [List.findSome?_cons, List.findSome?_cons, h s List.mem_cons_self, htail]

theorem lookupText_members (k : String) (ms : List (String × Json)) :
    lookupText k (membersToEntries ms) = (ms.lookup k).map toValue := by
  induction ms with
  | nil => rfl
  | cons m ms ih =>
    obtain ⟨l, j⟩ := m
    rw [membersToEntries, lookupText, List.lookup_cons]
    by_cases hk : k = l
    · simp [hk]
    · rw [if_neg (Ne.symm hk), beq_eq_false_iff_ne.2 hk, ih]

theorem find?_members (spellings : List String) (ms : List (String × Json)) :
    Fields.find? spellings (membersToEntries ms) = (member? spellings ms).map fun (s, j) => (s, j.toValue) := by
  unfold Fields.find? member?
  rw [List.map_findSome?]
  congr 1
  funext s
  rw [lookupText_members, Function.comp_apply]
  cases ms.lookup s <;> rfl

end Json

/-! ## Fields -/

namespace Record.Fields

variable {α β : Type}

/-- What fields make of the members of an object, if they can be read. -/
def get? (F : Fields Value α) (ms : List (String × Json)) : Option α :=
  (F.read (Json.object ms).toValue (Json.membersToEntries ms)).result?

theorem get?_seq (F : Fields Value (α → β)) (x : Fields Value α) (ms : List (String × Json)) :
    (F <*> x).get? ms = (F.get? ms).bind fun g => (x.get? ms).map g :=
  Read.result?_seq _ _

theorem get?_map (f : α → β) (x : Fields Value α) (ms : List (String × Json)) :
    (f <$> x).get? ms = (x.get? ms).map f :=
  Read.result?_seq _ _

theorem get?_optional (spellings : List String) (default : α) (read : Value → Read α) (ms : List (String × Json)) :
    (optional spellings default read).get? ms =
      (Json.member? spellings ms).elim (some default) fun m => (read m.2.toValue).result? := by
  unfold get? optional
  simp only
  rw [Json.find?_members]
  cases Json.member? spellings ms with
  | none => rfl
  | some m => exact Read.result?_under _ _

theorem get?_required (spellings : List String) (read : Value → Read α) (ms : List (String × Json)) :
    (required spellings read).get? ms =
      (Json.member? spellings ms).elim none fun m => (read m.2.toValue).result? := by
  unfold get? required
  simp only
  rw [Json.find?_members]
  cases Json.member? spellings ms with
  | none => rfl
  | some m => exact Read.result?_under _ _

/-! ## Records -/

/-- Whether every member of an object is used: it stands under the first spelling of some field. -/
def Uses (spellings : List (List String)) (ms : List (String × Json)) : Prop :=
  ∀ m ∈ ms, ∃ ss ∈ spellings, ∃ j, Json.member? ss ms = some (m.1, j)

/-- A record is read of just those objects that have no other members, field by field. -/
theorem readClosed_eq_some (name : String) (F : Fields Value α) {ms : List (String × Json)} {a : α} :
    (F.readClosed name (Json.object ms).toValue).result? = some a ↔ Uses F.spellings ms ∧ F.get? ms = some a := by
  have hused : ∀ k, k ∈ (F.spellings.filterMap fun ss => (find? ss (Json.membersToEntries ms)).map (·.1)) ↔
      ∃ ss ∈ F.spellings, ∃ j, Json.member? ss ms = some (k, j) := by
    intro k
    simp [Json.find?_members, List.mem_filterMap]
  have hnone : (Json.membersToEntries ms).filterMap
        (unexpected? id (F.spellings.filterMap fun ss => (find? ss (Json.membersToEntries ms)).map (·.1))) = [] ↔
      Uses F.spellings ms := by
    simp only [List.filterMap_eq_nil_iff, Json.membersToEntries_eq, List.forall_mem_map, unexpected?, Uses]
    simp only [← Json.membersToEntries_eq, ← hused]
    refine forall₂_congr fun m _ => ?_
    split <;> simp_all
  unfold readClosed closed
  simp only [Json.toValue]
  split
  · rename_i h
    simp [hnone.1 h, get?, Json.toValue]
  · rename_i issues h
    have hnot : ¬ Uses F.spellings ms := fun hu => h (hnone.2 hu)
    simp [hnot, Read.result?_both]

/-- No record is read of anything but an object. -/
theorem readClosed_eq_none (name : String) (F : Fields Value α) {j : Json} (h : ∀ ms, j ≠ .object ms) :
    (F.readClosed name j.toValue).result? = none := by
  cases j with
  | object ms => exact absurd rfl (h ms)
  | _ => rfl

end Record.Fields

/-! ## Lists, maps and nulls -/

namespace Record

variable {α : Type}

/-- A list is read item by item. -/
theorem listOf_eq (read : Value → Read α) (xs : List Json) :
    (listOf read (Json.list xs).toValue).result? = (Read.all (xs.map fun x => read x.toValue)).result? := by
  unfold listOf readList
  simp only [Json.toValue, itemsBelow?, Option.map_some, Json.listToValues_eq, List.map_map, Function.comp_def,
    List.attach_map_subtype_val]
  rw [Read.result?_all_mapIdx (f := read) fun i x => Read.result?_under _ _, List.map_map]
  rfl

/-- A map is read entry by entry. -/
theorem mapOf_eq (read : Value → Read α) (ms : List (String × Json)) :
    (mapOf read (Json.object ms).toValue).result? =
      (Read.all (ms.map fun m => (read m.2.toValue).map fun a => (m.1, a))).result?.map (collapse (· == ·)) := by
  unfold mapOf readMap
  simp only [Json.toValue, Json.membersToEntries_eq, List.map_map, Read.result?_map]
  congr 1
  refine Read.result?_all_congr ?_
  rw [List.forall₂_map_left_iff, List.forall₂_map_right_iff, List.forall₂_same]
  intro m _
  simp only [Function.comp_apply, Read.result?_both, Read.result?_under, Read.result?_map, readText, textOrBytes?]
  cases (read m.2.toValue).result? <;> rfl

/-- The entries of a map with distinct keys stay as they are. -/
theorem mapOf_eq_some {read : Value → Read α} {ms : List (String × Json)} (hms : DistinctKeys ms)
    {as : List (String × α)} :
    (mapOf read (Json.object ms).toValue).result? = some as ↔
      List.Forall₂ (fun m e => m.1 = e.1 ∧ (read m.2.toValue).result? = some e.2) ms as := by
  have hall : ∀ es, (Read.all (ms.map fun m => (read m.2.toValue).map fun a => (m.1, a))).result? = some es ↔
      List.Forall₂ (fun m e => m.1 = e.1 ∧ (read m.2.toValue).result? = some e.2) ms es := by
    intro es
    rw [Read.result?_all, List.forall₂_map_left_iff]
    simp only [Read.result?_map, Option.map_eq_some_iff]
    constructor <;> refine List.Forall₂.imp fun m e => ?_
    · rintro ⟨a, ha, rfl⟩
      exact ⟨rfl, ha⟩
    · exact fun ⟨hk, he⟩ => ⟨e.2, he, by rw [hk]⟩
  rw [mapOf_eq, Option.map_eq_some_iff]
  constructor
  · rintro ⟨es, hes, rfl⟩
    have h := (hall es).1 hes
    rwa [collapse_of_distinctKeys (hms.of_forall₂ h)]
  · exact fun h => ⟨as, (hall as).2 h, collapse_of_distinctKeys (hms.of_forall₂ h)⟩

theorem nullable_eq (read : Value → Read α) {j : Json} (h : j ≠ .null) :
    (nullable read j.toValue).result? = (read j.toValue).result?.map some := by
  have hvalue : j.toValue.isNull = false := by
    cases j <;> first | rfl | exact absurd rfl h
  unfold nullable orNull
  rw [id, hvalue, if_neg Bool.false_ne_true, Read.result?_map]

end Record
end ApiProjection
