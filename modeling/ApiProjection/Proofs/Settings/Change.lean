import ApiProjection.Proofs.Settings.Kept
import ApiProjection.Settings.Change
/-!
# Changes of one setting

A change of a setting gives what the keys of its name lead to another value and leaves all else as it was. It goes
through whenever there is a setting with the name and the word is a value for it.

* `Json.leaf_setLeaf`: what keys lead to after a change.
* `Settings.of_change`: what has changed.
-/
namespace ApiProjection

/-! ## What keys lead to -/

namespace Json

variable {value old : Json} {keys : List String} {ms : List (String × Json)}

theorem leaf_single {key : String} :
    leaf ms [key] = .ok old ↔ ms.lookup key = some old ∧ ∀ ns, old ≠ .object ns := by
  rw [leaf]
  cases ms.lookup key with
  | none => simp
  | some j =>
    cases j <;> simp only [reduceCtorEq, Except.ok.injEq, Option.some.injEq, false_iff, not_and, not_forall,
      iff_self_and] <;> rintro rfl <;> simp

theorem leaf_of_object {ns : List (String × Json)} {key : String} (h : ms.lookup key = some (.object ns)) (next : String)
    (keys : List String) : leaf ms (key :: next :: keys) = leaf ns (next :: keys) := by
  simp [leaf, h]

theorem leaf_of_not_object {key : String} (h : ∀ ns, ms.lookup key ≠ some (.object ns)) (next : String)
    (keys : List String) : leaf ms (key :: next :: keys) = .error .invalid := by
  unfold leaf
  split
  · rename_i hns
    exact absurd hns (h _)
  · rfl

theorem leaf_cons {key next : String} :
    leaf ms (key :: next :: keys) = .ok old ↔
      ∃ ns, ms.lookup key = some (.object ns) ∧ leaf ns (next :: keys) = .ok old := by
  constructor
  · intro h
    by_cases hns : ∃ ns, ms.lookup key = some (.object ns)
    · obtain ⟨ns, hns⟩ := hns
      exact ⟨ns, hns, by rwa [← leaf_of_object hns]⟩
    · rw [leaf_of_not_object (not_exists.1 hns)] at h
      cases h
  · rintro ⟨ns, hns, h⟩
    rwa [leaf_of_object hns]

/-- What keys lead to is found through the member that the first of them names. -/
theorem leaf_congr {ns : List (String × Json)} {key : String} (h : ms.lookup key = ns.lookup key) (keys : List String) :
    leaf ms (key :: keys) = leaf ns (key :: keys) := by
  cases keys <;> simp [leaf, h]

theorem setLeaf_of_object {ns : List (String × Json)} {key : String} (h : ms.lookup key = some (.object ns)) (next : String)
    (keys : List String) :
    setLeaf value ms (key :: next :: keys) = upsert (· == ·) key (.object (setLeaf value ns (next :: keys))) ms := by
  simp [setLeaf, h]

/-- With another value at the end of some keys, these lead to it, and all others to what they led to before. -/
theorem leaf_setLeaf (hvalue : ∀ ns, value ≠ .object ns) (h : leaf ms keys = .ok old) (path : List String) :
    leaf (setLeaf value ms keys) path = if path = keys then .ok value else leaf ms path := by
  induction keys generalizing ms path with
  | nil => cases h
  | cons key keys ih =>
    cases path with
    | nil => rfl
    | cons k path =>
      by_cases hk : k = key
      · subst hk
        cases keys with
        | nil =>
          obtain ⟨hold, hleaf⟩ := leaf_single.1 h
          have hset : (setLeaf value ms [k]).lookup k = some value := lookup_upsert_self _ _ _
          cases path with
          | nil =>
            rw [if_pos rfl]
            exact leaf_single.2 ⟨hset, hvalue⟩
          | cons next path =>
            rw [if_neg (by simp), leaf_of_not_object (by simpa [hset] using hvalue),
              leaf_of_not_object (by simpa [hold] using hleaf)]
        | cons next keys =>
          obtain ⟨ns, hns, hleaf⟩ := leaf_cons.1 h
          have hset : (setLeaf value ms (k :: next :: keys)).lookup k =
              some (.object (setLeaf value ns (next :: keys))) := by
            rw [setLeaf_of_object hns, lookup_upsert_self]
          cases path with
          | nil => simp [leaf, hset, hns]
          | cons next' path =>
            rw [leaf_of_object hset, leaf_of_object hns, ih hleaf]
            simp only [List.cons.injEq, true_and]
      · have hne : ¬ k :: path = key :: keys := fun h => hk (List.cons.inj h).1
        have hset : (setLeaf value ms (key :: keys)).lookup k = ms.lookup k := by
          cases keys with
          | nil => exact Node.lookup_upsert_ne hk _ _
          | cons next keys =>
            obtain ⟨ns, hns, -⟩ := leaf_cons.1 h
            rw [setLeaf_of_object hns]
            exact Node.lookup_upsert_ne hk _ _
        rw [if_neg hne, leaf_congr hset]

end Json

/-! ## Settings with another value -/

namespace Settings

open Record

/-- The name of a meta-schema has another file. -/
theorem upsert_schemas (k file : String) (schemas : List (String × String)) :
    upsert (· == ·) k (.text file) (schemas.map fun (k, v) => (k, Json.text v)) =
      (upsert (· == ·) k file schemas).map fun (k, v) => (k, Json.text v) := by
  induction schemas with
  | nil => rfl
  | cons e schemas ih =>
    obtain ⟨l, v⟩ := e
    rw [List.map_cons, upsert, upsert, ih]
    split <;> rfl

/-- Members of settings with other values of the same kind are members of settings again. -/
inductive Bears (s : Settings) (keys : List String) : Json → Prop
  | flag (b : Bool)
      (h : ∀ b', ∃ s' : Settings, Json.setLeaf (.bool b') s.members keys = s'.members ∧ DistinctKeys s'.metaSchemas) :
      Bears s keys (.bool b)
  | word (t : String)
      (h : ∀ t', ∃ s' : Settings, Json.setLeaf (.text t') s.members keys = s'.members ∧ DistinctKeys s'.metaSchemas) :
      Bears s keys (.text t)

theorem bears_of_leaf {s : Settings} (hs : DistinctKeys s.metaSchemas) {keys : List String} {old : Json}
    (h : Json.leaf s.members keys = .ok old) : Bears s keys old := by
  match keys with
  | [] => cases h
  | [key] =>
    obtain ⟨hold, hleaf⟩ := Json.leaf_single.1 h
    have hmem := mem_of_lookup hold
    simp only [members, List.mem_cons, Prod.mk.injEq, List.not_mem_nil, or_false] at hmem
    rcases hmem with ⟨rfl, rfl⟩ | ⟨rfl, rfl⟩ | ⟨rfl, rfl⟩ | ⟨rfl, rfl⟩ | ⟨rfl, rfl⟩
    · exact .word _ fun t => ⟨{ s with target := t }, rfl, hs⟩
    · exact .flag _ fun b => ⟨{ s with strict := b }, rfl, hs⟩
    · exact .flag _ fun b => ⟨{ s with validate := b }, rfl, hs⟩
    · exact absurd rfl (hleaf _)
    · exact absurd rfl (hleaf _)
  | key :: next :: keys =>
    obtain ⟨ns, hns, hleaf⟩ := Json.leaf_cons.1 h
    have hmem := mem_of_lookup hns
    simp only [members, OutputSettings.toJson, List.mem_cons, Prod.mk.injEq, reduceCtorEq, and_false, false_or,
      List.not_mem_nil, or_false, Json.object.injEq] at hmem
    rcases hmem with ⟨rfl, rfl⟩ | ⟨rfl, rfl⟩
    · cases keys with
      | nil =>
        obtain ⟨hold, -⟩ := Json.leaf_single.1 hleaf
        rw [lookup_schemas] at hold
        obtain ⟨file, -, rfl⟩ := Option.map_eq_some_iff.1 hold
        refine .word _ fun t => ⟨{ s with metaSchemas := upsert (· == ·) next t s.metaSchemas }, ?_, distinctKeys_upsert hs⟩
        have hset := upsert_schemas next t s.metaSchemas
        exact congrArg (fun ms => upsert (· == ·) "meta_schemas" (.object ms) s.members) hset
      | cons last keys =>
        obtain ⟨os, hos, -⟩ := Json.leaf_cons.1 hleaf
        rw [lookup_schemas] at hos
        obtain ⟨file, -, hfile⟩ := Option.map_eq_some_iff.1 hos
        cases hfile
    · cases keys with
      | nil =>
        obtain ⟨hold, -⟩ := Json.leaf_single.1 hleaf
        have hmem := mem_of_lookup hold
        simp only [List.mem_cons, Prod.mk.injEq, List.not_mem_nil, or_false] at hmem
        rcases hmem with ⟨rfl, rfl⟩ | ⟨rfl, rfl⟩
        · exact .word _ fun t => ⟨{ s with output := { s.output with format := t } }, rfl, hs⟩
        · exact .word _ fun t => ⟨{ s with output := { s.output with document := t } }, rfl, hs⟩
      | cons last keys =>
        obtain ⟨os, hos, -⟩ := Json.leaf_cons.1 hleaf
        have hmem := mem_of_lookup hos
        simp at hmem

/-! ## Changing -/

section
variable {s s' : Settings} {key word : String} {old value : Json}

/-- A word becomes a truth value in the place of one, and a text in the place of one. -/
theorem coerce_bool (b : Bool) (h : coerce key word (.bool b) = .ok value) : ∃ b', value = .bool b' := by
  cases h
  exact ⟨_, rfl⟩

theorem coerce_text (t : String) (h : coerce key word (.text t) = .ok value) : ∃ t', value = .text t' := by
  unfold coerce at h
  dsimp only at h
  split at h
  · split at h
    · cases h
      exact ⟨_, rfl⟩
    · cases h
  · cases h
    exact ⟨_, rfl⟩

/-- A setting changes if there is one with the name and the word is a value for it. -/
theorem change_eq (hs' : DistinctKeys s'.metaSchemas) (hold : Json.leaf s.members (Text.splitAt '.' key) = .ok old)
    (hvalue : coerce key word old = .ok value)
    (hset : Json.setLeaf value s.members (Text.splitAt '.' key) = s'.members) : s.change key word = .ok (s', value) := by
  have hread : read (Json.object s'.members).toValue = .done s' := read_toJson hs'
  have hmembers : s.toJson = .object s.members := rfl
  unfold change
  rw [hmembers]
  simp only [hold, Except.mapError, bind, Except.bind, hvalue, hset, hread]
  rfl

theorem change_of_leaf (hs : DistinctKeys s.metaSchemas) (hold : Json.leaf s.members (Text.splitAt '.' key) = .ok old)
    (hvalue : coerce key word old = .ok value) :
    ∃ s', s.change key word = .ok (s', value) ∧ s'.members = Json.setLeaf value s.members (Text.splitAt '.' key) ∧
      DistinctKeys s'.metaSchemas ∧ ∀ ns, value ≠ .object ns := by
  have hchanged : (∃ s' : Settings, Json.setLeaf value s.members (Text.splitAt '.' key) = s'.members ∧
      DistinctKeys s'.metaSchemas) ∧ ∀ ns, value ≠ .object ns := by
    cases bears_of_leaf hs hold with
    | flag b h =>
      obtain ⟨b', rfl⟩ := coerce_bool b hvalue
      exact ⟨h b', nofun⟩
    | word t h =>
      obtain ⟨t', rfl⟩ := coerce_text t hvalue
      exact ⟨h t', nofun⟩
  obtain ⟨⟨s', hset, hdistinct⟩, hplain⟩ := hchanged
  exact ⟨s', change_eq hdistinct hold hvalue hset, hset.symm, hdistinct, hplain⟩

/-- **A change gives a setting another value and leaves the others as they were.** -/
theorem of_change (hs : DistinctKeys s.metaSchemas) (h : s.change key word = .ok (s', value)) :
    DistinctKeys s'.metaSchemas ∧
      ∃ old, Json.leaf s.members (Text.splitAt '.' key) = .ok old ∧ coerce key word old = .ok value ∧
        ∀ path, Json.leaf s'.members path =
          if path = Text.splitAt '.' key then .ok value else Json.leaf s.members path := by
  obtain ⟨old, hold, hrest⟩ := Node.bind_ok h
  obtain ⟨v, hv, -⟩ := Node.bind_ok hrest
  have hleaf : Json.leaf s.members (Text.splitAt '.' key) = .ok old := by
    change (Json.leaf s.members (Text.splitAt '.' key)).mapError (KeyFault.message key) = .ok old at hold
    cases hl : Json.leaf s.members (Text.splitAt '.' key) with
    | error fault =>
      rw [hl] at hold
      cases hold
    | ok j =>
      rw [hl] at hold
      cases hold
      rfl
  obtain ⟨s'', hchange, hmembers, hdistinct, hplain⟩ := change_of_leaf hs hleaf hv
  rw [h] at hchange
  cases hchange
  refine ⟨hdistinct, old, hleaf, hv, fun path => ?_⟩
  rw [hmembers]
  exact Json.leaf_setLeaf hplain hleaf path

end

end Settings
end ApiProjection
