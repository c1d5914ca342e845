import Mathlib.Data.List.Nodup
import Mathlib.Data.List.Pairwise
import ApiProjection.Proofs.Reading.Basic
import ApiProjection.Proofs.Reading.Model
/-!
# Readers and spellings

A reader respects what a value is to be (`Respects`) if it makes the same of the value in other words, and
nothing of a value with a record in it that has a key too many. The fields of a record do so together
(`Obeys`) if each does: then the record is read of the same objects in all their spellings
(`Record.Fields.closed_same`), and of none with a key that it does not know or a field under two spellings
(`Record.Fields.closed_faulty`). Both are said of values up to a size, for the induction over recursive records.
-/
namespace ApiProjection

open Record

/-! ## Sizes -/

namespace Json

theorem sizeOf_item {x : Json} {xs : List Json} (h : x ∈ xs) : sizeOf x < sizeOf (Json.list xs) := by
  have := List.sizeOf_lt_of_mem h
  simp only [Json.list.sizeOf_spec]
  omega

theorem sizeOf_member {e : String × Json} {ms : List (String × Json)} (h : e ∈ ms) :
    sizeOf e.2 < sizeOf (Json.object ms) := by
  have := List.sizeOf_lt_of_mem h
  have hp : sizeOf e = 1 + sizeOf e.1 + sizeOf e.2 := by cases e; rfl
  simp only [Json.object.sizeOf_spec]
  omega

/-- Members that are values of less than a size, with no name twice in an object. -/
def Small (n : Nat) (ms : List (String × Json)) : Prop := ∀ e ∈ ms, sizeOf e.2 < n ∧ e.2.Keyed

theorem small_of_object {n : Nat} {ms : List (String × Json)} (h : (Json.object ms).Keyed)
    (hn : sizeOf (Json.object ms) ≤ n) : Small n ms := fun e he =>
  ⟨Nat.lt_of_lt_of_le (sizeOf_member he) hn, keyedMembers_iff.1 h.2 e he⟩

theorem Keyed.items {xs : List Json} (h : (Json.list xs).Keyed) : ∀ x ∈ xs, x.Keyed :=
  keyedItems_iff.1 h

theorem Keyed.members {ms : List (String × Json)} (h : (Json.object ms).Keyed) : ∀ e ∈ ms, e.2.Keyed :=
  keyedMembers_iff.1 h.2

end Json

/-! ## Spellings -/

/-- Spellings of different fields are different. -/
theorem slot_of_spelling {slots : List Model.Slot} (hd : (slots.map Model.Slot.spellings).flatten.Nodup)
    {a b : Model.Slot} {k : String} (ha : a ∈ slots) (hb : b ∈ slots) (hka : k ∈ a.spellings) (hkb : k ∈ b.spellings) : a = b := by
  have hdisjoint := (List.nodup_flatten.1 hd).2
  rw [List.pairwise_map] at hdisjoint
  have hsymm : Std.Symm fun a b : Model.Slot => a.spellings.Disjoint b.spellings := ⟨fun _ _ h _ ha hb => h hb ha⟩
  by_contra hne
  exact hdisjoint.forall ha hb hne hka hkb

namespace Model

/-- Whether an object has a key too many to be a record. -/
def Misspelled (m : Model) (ms : List (String × Json)) : Prop := m.Unknown ms ∨ m.Doubled ms

/-- Two keys of one field, or one key. -/
def Paired (m : Model) (a b : String × Json) : Prop :=
  b.1 = a.1 ∨ ∃ slot ∈ m.slots, a.1 ∈ slot.spellings ∧ b.1 ∈ slot.spellings

variable {m : Model} {ms ns : List (String × Json)}

theorem Paired.symm {a b : String × Json} (h : m.Paired a b) : m.Paired b a := by
  rcases h with h | ⟨slot, hslot, ha, hb⟩
  · exact .inl h.symm
  · exact .inr ⟨slot, hslot, hb, ha⟩

/-- Two keys of one field, or one key, are spellings of the same fields. -/
theorem Paired.mem (hd : (m.slots.map Model.Slot.spellings).flatten.Nodup) {a b : String × Json} (h : m.Paired a b)
    {slot : Model.Slot} (hslot : slot ∈ m.slots) (ha : a.1 ∈ slot.spellings) : b.1 ∈ slot.spellings := by
  rcases h with h | ⟨slot', hslot', ha', hb⟩
  · rwa [h]
  · rwa [slot_of_spelling hd hslot hslot' ha ha']

theorem unknown_of_paired (hd : (m.slots.map Model.Slot.spellings).flatten.Nodup) (h : List.Forall₂ m.Paired ms ns)
    (hu : m.Unknown ms) : m.Unknown ns := by
  obtain ⟨e, he, hno⟩ := hu
  obtain ⟨i, hi, rfl⟩ := List.getElem_of_mem he
  obtain ⟨hlength, hpaired⟩ := List.forall₂_iff_get.1 h
  refine ⟨ns.get ⟨i, hlength ▸ hi⟩, List.get_mem _ _, fun slot hslot hk => ?_⟩
  exact hno slot hslot ((hpaired i hi (hlength ▸ hi)).symm.mem hd hslot hk)

theorem doubled_of_paired (hd : (m.slots.map Model.Slot.spellings).flatten.Nodup) (hns : DistinctKeys ns)
    (h : List.Forall₂ m.Paired ms ns) (hu : m.Doubled ms) : m.Doubled ns := by
  obtain ⟨slot, hslot, k, hk, l, hl, hne, hkm, hlm⟩ := hu
  obtain ⟨a, ha, rfl⟩ := List.mem_map.1 hkm
  obtain ⟨b, hb, rfl⟩ := List.mem_map.1 hlm
  obtain ⟨i, hi, rfl⟩ := List.getElem_of_mem ha
  obtain ⟨j, hj, rfl⟩ := List.getElem_of_mem hb
  obtain ⟨hlength, hpaired⟩ := List.forall₂_iff_get.1 h
  have hi' : i < ns.length := hlength ▸ hi
  have hj' : j < ns.length := hlength ▸ hj
  refine ⟨slot, hslot, _, (hpaired i hi hi').mem hd hslot hk, _, (hpaired j hj hj').mem hd hslot hl, fun heq => ?_,
    List.mem_map_of_mem (List.get_mem _ _), List.mem_map_of_mem (List.get_mem _ _)⟩
  have hij : i = j := by
    have hentry := List.inj_on_of_nodup_map hns (List.get_mem _ _) (List.get_mem _ _) heq
    exact congrArg Fin.val ((List.Nodup.of_map _ hns).get_inj_iff.1 hentry)
  subst hij
  exact hne rfl

theorem misspelled_iff (hd : (m.slots.map Model.Slot.spellings).flatten.Nodup) (hms : DistinctKeys ms)
    (hns : DistinctKeys ns) (h : List.Forall₂ m.Paired ms ns) : m.Misspelled ms ↔ m.Misspelled ns := by
  have hflip : List.Forall₂ m.Paired ns ms := (h.imp fun _ _ h => h.symm).flip
  exact ⟨.imp (unknown_of_paired hd h) (doubled_of_paired hd hns h),
    .imp (unknown_of_paired hd hflip) (doubled_of_paired hd hms hflip)⟩

/-- A field that is there once is found under its spelling. -/
theorem member?_of_mem (hms : DistinctKeys ms) (hnot : ¬ m.Doubled ms) {slot : Model.Slot} (hslot : slot ∈ m.slots)
    {k : String} {j : Json} (hk : k ∈ slot.spellings) (hj : (k, j) ∈ ms) :
    Json.member? slot.spellings ms = some (k, j) := by
  cases hm : Json.member? slot.spellings ms with
  | none =>
    have hnone := List.findSome?_eq_none_iff.1 hm k hk
    rw [lookup_of_mem hms hj] at hnone
    cases hnone
  | some e =>
    obtain ⟨l, i⟩ := e
    obtain ⟨hl, hi⟩ := Json.mem_of_member? hm
    have hlk : l = k := by
      by_contra hne
      exact hnot ⟨slot, hslot, l, hl, k, hk, hne, List.mem_map_of_mem hi, List.mem_map_of_mem hj⟩
    subst hlk
    have hij : some i = some j := (lookup_of_mem hms hi).symm.trans (lookup_of_mem hms hj)
    rw [Option.some.inj hij]

end Model

theorem RespelledMember.paired {m : Model} {a b : String × Json} (h : RespelledMember m a b) : m.Paired a b := by
  cases h with
  | same => exact .inl rfl
  | field hslot hk hk' => exact .inr ⟨_, hslot, hk, hk'⟩

/-- Null is null in all words. -/
theorem Respelled.null_iff {s : Shape} {j j' : Json} (h : Respelled s j j') : j = .null ↔ j' = .null := by
  cases h with
  | same => rfl
  | bound h => cases j <;> simp [Json.IsNumber] at h ⊢
  | _ => simp

/-! ## Readers -/

namespace Record

/-- Whether a reader of values up to a size makes the same of a value in other words, and nothing of one with a
record in it that has a key too many. -/
structure Respects {α : Type} (n : Nat) (read : Value → Read α) (s : Shape) : Prop where
  same : ∀ {j j' : Json}, sizeOf j < n → j.Keyed → j'.Keyed → Respelled s j j' →
    (read j.toValue).result? = (read j'.toValue).result?
  faulty : ∀ {j : Json} {m : Model} {ms : List (String × Json)}, sizeOf j < n → j.Keyed → At s j m ms →
    m.Misspelled ms → (read j.toValue).result? = none

/-- Two objects with a field in the same words, whatever its spelling. -/
def Alike (ms ns : List (String × Json)) (slot : Model.Slot) : Prop :=
  Option.Rel (fun a b => Respelled slot.shape a.2 b.2) (Json.member? slot.spellings ms) (Json.member? slot.spellings ns)

/-- Whether fields together respect what they are to be. -/
structure Obeys {α : Type} (n : Nat) (F : Fields Value α) (slots : List Model.Slot) : Prop where
  spellings : F.spellings = slots.map Model.Slot.spellings
  same : ∀ {ms ns : List (String × Json)}, Json.Small n ms → (∀ e ∈ ns, e.2.Keyed) →
    (∀ slot ∈ slots, Alike ms ns slot) → F.get? ms = F.get? ns
  faulty : ∀ {ms : List (String × Json)} {slot : Model.Slot} {k : String} {j : Json} {m : Model}
    {os : List (String × Json)}, Json.Small n ms → slot ∈ slots → Json.member? slot.spellings ms = some (k, j) → At slot.shape j m os →
      m.Misspelled os → F.get? ms = none

variable {α β : Type} {n : Nat}

theorem Respects.leaf (read : Value → Read α) : Respects n read .leaf where
  same _ _ _ h := by
    cases h with
    | same => rfl
    | object hm => cases hm
  faulty _ _ h := by
    cases h with
    | here hm => cases hm
    | field hm => cases hm

theorem Respects.listOf {read : Value → Read α} {s : Shape} (h : Respects n read s) :
    Respects n (listOf read) (.list s) where
  same hn hk hk' hr := by
    cases hr with
    | same => rfl
    | object hm => cases hm
    | list hlength hr =>
      rw [listOf_eq, listOf_eq]
      refine Read.result?_all_congr ?_
      rw [List.forall₂_map_left_iff, List.forall₂_map_right_iff, List.forall₂_iff_zip]
      refine ⟨hlength, fun {x y} hxy => ?_⟩
      have hx := (List.of_mem_zip hxy).1
      have hy := (List.of_mem_zip hxy).2
      exact h.same (Nat.lt_trans (Json.sizeOf_item hx) hn) (hk.items x hx) (hk'.items y hy) (hr hxy)
  faulty hn hk ha hm := by
    cases ha with
    | here hm => cases hm
    | field hm => cases hm
    | item hx ha =>
      rw [listOf_eq]
      exact Read.result?_all_none (List.mem_map_of_mem hx)
        (h.faulty (Nat.lt_trans (Json.sizeOf_item hx) hn) (hk.items _ hx) ha hm)

theorem Respects.mapOf {read : Value → Read α} {s : Shape} (h : Respects n read s) :
    Respects n (mapOf read) (.map s) where
  same hn hk hk' hr := by
    cases hr with
    | same => rfl
    | object hm => cases hm
    | map hlength hr =>
      rw [mapOf_eq, mapOf_eq]
      congr 1
      refine Read.result?_all_congr ?_
      rw [List.forall₂_map_left_iff, List.forall₂_map_right_iff, List.forall₂_iff_zip]
      refine ⟨hlength, fun {a b} hab => ?_⟩
      obtain ⟨ha, hb⟩ := List.of_mem_zip hab
      cases hr hab with
      | mk hj =>
        rw [Read.result?_map, Read.result?_map,
          h.same (Nat.lt_trans (Json.sizeOf_member ha) hn) (hk.members _ ha) (hk'.members _ hb) hj]
  faulty hn hk ha hm := by
    cases ha with
    | here hm => cases hm
    | field hm => cases hm
    | entry hj ha =>
      have hnone := h.faulty (Nat.lt_trans (Json.sizeOf_member hj) hn) (hk.members _ hj) ha hm
      rw [mapOf_eq, Read.result?_all_none (List.mem_map_of_mem hj) (by rw [Read.result?_map, hnone]; rfl)]
      rfl

theorem Respects.nullable {read : Value → Read α} {s : Shape} (h : Respects n read s) :
    Respects n (nullable read) s where
  same {j j'} hn hk hk' hr := by
    by_cases hnull : j = .null
    · rw [hnull, (Respelled.null_iff hr).1 hnull]
    · rw [nullable_eq read hnull, nullable_eq read fun h => hnull ((Respelled.null_iff hr).2 h), h.same hn hk hk' hr]
  faulty {j m ms} hn hk ha hm := by
    have hnull : j ≠ .null := by
      rintro rfl
      cases ha
    rw [nullable_eq read hnull, h.faulty hn hk ha hm]
    rfl

/-! ## Fields -/

namespace Obeys

theorem pure (a : α) : Obeys n (Pure.pure a : Fields Value α) [] where
  spellings := rfl
  same _ _ _ := rfl
  faulty _ h := by cases h

theorem seq {F : Fields Value (α → β)} {x : Fields Value α} {slots slots' : List Model.Slot} (hF : Obeys n F slots)
    (hx : Obeys n x slots') : Obeys n (F <*> x) (slots ++ slots') where
  spellings := by
    rw [List.map_append, ← hF.spellings, ← hx.spellings]
    rfl
  same hms hns h := by
    rw [Fields.get?_seq, Fields.get?_seq, hF.same hms hns fun slot hs => h slot (List.mem_append_left _ hs),
      hx.same hms hns fun slot hs => h slot (List.mem_append_right _ hs)]
  faulty hms hslot hm ha hbad := by
    rw [Fields.get?_seq]
    rcases List.mem_append.1 hslot with hslot | hslot
    · rw [hF.faulty hms hslot hm ha hbad]
      rfl
    · rw [hx.faulty hms hslot hm ha hbad]
      cases F.get? _ <;> rfl

/-- What a field makes of its member, given how it is read and what stands for it where it is left out. -/
theorem field {x : Fields Value α} {spellings : List String} {read : Value → Read α} {s : Shape} {absent : Option α}
    (hs : x.spellings = [spellings])
    (hget : ∀ ms, x.get? ms = (Json.member? spellings ms).elim absent fun e => (read e.2.toValue).result?)
    (h : Respects n read s) : Obeys n x [⟨spellings, s⟩] where
  spellings := hs
  same {ms ns} hms hns halike := by
    have hrel : Option.Rel _ _ _ := halike _ (List.mem_singleton_self _)
    rw [hget, hget]
    cases hm : Json.member? spellings ms with
    | none =>
      simp only [hm] at hrel
      cases hn : Json.member? spellings ns with
      | none => rfl
      | some e => rw [hn] at hrel; cases hrel
    | some a =>
      simp only [hm] at hrel
      cases hn : Json.member? spellings ns with
      | none => rw [hn] at hrel; cases hrel
      | some b =>
        rw [hn] at hrel
        cases hrel with
        | some hr =>
          obtain ⟨hsize, hk⟩ := hms a (Json.mem_of_member? hm).2
          exact h.same hsize hk (hns b (Json.mem_of_member? hn).2) hr
  faulty {ms slot k j m os} hms hslot hm ha hbad := by
    cases List.mem_singleton.1 hslot
    obtain ⟨hsize, hk⟩ := hms _ (Json.mem_of_member? hm).2
    rw [hget, hm]
    exact h.faulty hsize hk ha hbad

theorem optional {spellings : List String} {default : α} {read : Value → Read α} {s : Shape} (h : Respects n read s) :
    Obeys n (Fields.optional spellings default read) [⟨spellings, s⟩] :=
  .field rfl (Fields.get?_optional spellings default read) h

theorem required {spellings : List String} {read : Value → Read α} {s : Shape} (h : Respects n read s) :
    Obeys n (Fields.required spellings read) [⟨spellings, s⟩] :=
  .field rfl (Fields.get?_required spellings read) h

end Obeys

/-! ## Records -/

section
variable {m : Model} {ms ns : List (String × Json)}

theorem exists_of_forall₂ {γ δ : Type} {R : γ → δ → Prop} {as : List γ} {bs : List δ} (h : List.Forall₂ R as bs)
    {a : γ} (ha : a ∈ as) : ∃ b ∈ bs, R a b := by
  induction h with
  | nil => cases ha
  | cons hr _ ih =>
    rcases List.mem_cons.1 ha with rfl | ha
    · exact ⟨_, List.mem_cons_self, hr⟩
    · obtain ⟨b, hb, hr⟩ := ih ha
      exact ⟨b, List.mem_cons_of_mem _ hb, hr⟩

/-- The members of an object are all used if none is a key too many. -/
theorem Fields.uses_iff (hd : (m.slots.map Model.Slot.spellings).flatten.Nodup) (hms : DistinctKeys ms) :
    Fields.Uses (m.slots.map Model.Slot.spellings) ms ↔ ¬ m.Misspelled ms := by
  simp only [Fields.Uses, List.mem_map, exists_exists_and_eq_and]
  constructor
  · rintro hu (⟨e, he, hno⟩ | ⟨slot, hslot, k, hk, l, hl, hne, hkm, hlm⟩)
    · obtain ⟨slot, hslot, j, hj⟩ := hu e he
      exact hno slot hslot (Json.mem_of_member? hj).1
    · obtain ⟨a, ha, rfl⟩ := List.mem_map.1 hkm
      obtain ⟨b, hb, rfl⟩ := List.mem_map.1 hlm
      obtain ⟨slot₁, hslot₁, j, hj⟩ := hu a ha
      obtain ⟨slot₂, hslot₂, j', hj'⟩ := hu b hb
      cases slot_of_spelling hd hslot hslot₁ hk (Json.mem_of_member? hj).1
      cases slot_of_spelling hd hslot hslot₂ hl (Json.mem_of_member? hj').1
      have hpair : (a.1, j) = (b.1, j') := Option.some.inj (hj.symm.trans hj')
      exact hne (Prod.mk.inj hpair).1
  · intro hnot e he
    have hknown : ∃ slot ∈ m.slots, e.1 ∈ slot.spellings := by
      by_contra hno
      exact hnot (.inl ⟨e, he, fun slot hslot hk => hno ⟨slot, hslot, hk⟩⟩)
    obtain ⟨slot, hslot, hk⟩ := hknown
    exact ⟨slot, hslot, e.2, Model.member?_of_mem hms (fun h => hnot (.inr h)) hslot hk he⟩

/-- Objects in the same words have their fields so. -/
theorem alike_of_respelled (hd : (m.slots.map Model.Slot.spellings).flatten.Nodup) (hms : DistinctKeys ms)
    (hns : DistinctKeys ns) (hnot : ¬ m.Doubled ns) (h : List.Forall₂ (RespelledMember m) ms ns) {slot : Model.Slot}
    (hslot : slot ∈ m.slots) : Alike ms ns slot := by
  unfold Alike
  cases hm : Json.member? slot.spellings ms with
  | none =>
    cases hn : Json.member? slot.spellings ns with
    | none => exact .none
    | some b =>
      obtain ⟨hk, hb⟩ := Json.mem_of_member? hn
      obtain ⟨a, ha, hab⟩ := exists_of_forall₂ h.flip hb
      have hka := hab.paired.symm.mem hd hslot hk
      have hnone := List.findSome?_eq_none_iff.1 hm a.1 hka
      rw [lookup_of_mem hms ha] at hnone
      cases hnone
  | some a =>
    obtain ⟨hk, ha⟩ := Json.mem_of_member? hm
    obtain ⟨b, hb, hab⟩ := exists_of_forall₂ h ha
    have hkb := hab.paired.mem hd hslot hk
    rw [Model.member?_of_mem hns hnot hslot hkb hb]
    cases hab with
    | same => exact .some (.same _ _)
    | field hslot' hk' _ _ hr =>
      cases slot_of_spelling hd hslot hslot' hk hk'
      exact .some hr

namespace Fields

variable {name : String} {F : Fields Value α}

/-- A record is read of the same objects in all their spellings. -/
theorem closed_same (h : Obeys n F m.slots) (hd : (m.slots.map Model.Slot.spellings).flatten.Nodup)
    (hms : Json.Small n ms) (hkeys : DistinctKeys ms) (hns : (Json.object ns).Keyed) (hlength : ms.length = ns.length)
    (hr : ∀ {a b}, (a, b) ∈ ms.zip ns → RespelledMember m a b) :
    (F.readClosed name (Json.object ms).toValue).result? = (F.readClosed name (Json.object ns).toValue).result? := by
  have hforall : List.Forall₂ (RespelledMember m) ms ns := List.forall₂_iff_zip.2 ⟨hlength, hr⟩
  have hmis := Model.misspelled_iff hd hkeys hns.1 (hforall.imp fun _ _ h => h.paired)
  refine Option.ext fun a => ?_
  rw [readClosed_eq_some, readClosed_eq_some, h.spellings, uses_iff hd hkeys, uses_iff hd hns.1, hmis]
  refine and_congr_right fun hnot => ?_
  rw [h.same hms hns.members fun slot hslot =>
    alike_of_respelled hd hkeys hns.1 (fun h => hnot (.inr h)) hforall hslot]

/-- No record is read of an object with a key too many, be it in a part of it. -/
theorem closed_faulty (h : Obeys n F m.slots) (hd : (m.slots.map Model.Slot.spellings).flatten.Nodup)
    (hms : Json.Small n ms) (hkeys : DistinctKeys ms) {s : Shape} (hs : s.model? ms = some m) {m' : Model}
    {os : List (String × Json)} (ha : At s (.object ms) m' os) (hbad : m'.Misspelled os) :
    (F.readClosed name (Json.object ms).toValue).result? = none := by
  rw [Option.eq_none_iff_forall_ne_some]
  intro a heq
  rw [readClosed_eq_some, h.spellings, uses_iff hd hkeys] at heq
  obtain ⟨hnot, hget⟩ := heq
  cases ha with
  | here hm =>
    rw [hs] at hm
    cases hm
    exact hnot hbad
  | field hm hslot hk hj ha =>
    rw [hs] at hm
    cases hm
    have hmember := Model.member?_of_mem hkeys (fun h => hnot (.inr h)) hslot hk hj
    rw [h.faulty hms hslot hmember ha hbad] at hget
    cases hget
  | entry => cases hs

end Fields

/-- A record respects its spellings if its fields do. -/
theorem Respects.record {name : String} {F : Fields Value α} (hd : (m.slots.map Model.Slot.spellings).flatten.Nodup)
    (h : ∀ k < n, Obeys k F m.slots) : Respects n (F.readClosed name) (.record m) where
  same {j j'} hn hk hk' hr := by
    cases hr with
    | same => rfl
    | object hm hlength hr =>
      cases hm
      exact Fields.closed_same (h _ hn) hd (Json.small_of_object hk le_rfl) hk.1 hk' hlength hr
  faulty {j m' os} hn hk ha hbad := by
    cases j with
    | object ms => exact Fields.closed_faulty (h _ hn) hd (Json.small_of_object hk le_rfl) hk.1 rfl ha hbad
    | _ => exact Fields.readClosed_eq_none _ _ (by simp)

end

end Record
end ApiProjection
