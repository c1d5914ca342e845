import ApiProjection.Proofs.Reading.Basic
import ApiProjection.Settings.Overlay
/-!
# Objects laid over one another

What stands at a name of an object that is laid over another (`Json.lookup_overlay`). An object that has been
read has each name once (`Json.keyed_read`), so this holds for whatever files hold.
-/
namespace ApiProjection

theorem lookup_upsert_self {β : Type} (k : String) (v : β) (es : List (String × β)) :
    (upsert (· == ·) k v es).lookup k = some v := by
  induction es with
  | nil => simp [upsert]
  | cons e es ih =>
    obtain ⟨l, x⟩ := e
    rw [upsert]
    split
    · rename_i hl
      rw [beq_iff_eq.1 hl, List.lookup_cons_self]
    · rename_i hl
      have hne : (k == l) = false := beq_eq_false_iff_ne.2 fun h => hl (beq_iff_eq.2 h.symm)
      rw [List.lookup_cons, hne]
      exact ih

namespace Json

/-- A value is laid over another only where that is an object. -/
theorem layer_of_not_object {o : Option Json} (h : ∀ ms, o ≠ some (.object ms)) (j : Json) : layer o j = j := by
  unfold layer
  split
  · exact absurd rfl (h _)
  · rfl

/-- At each name stands what the upper object has there, laid over what the lower one has; where it has
nothing the lower one shows. -/
theorem lookup_overlay {top : List (String × Json)} (h : DistinctKeys top) (base : List (String × Json))
    (k : String) :
    (overlay base top).lookup k = match top.lookup k with
      | some j => some (layer (base.lookup k) j)
      | none => base.lookup k := by
  induction top generalizing base with
  | nil => rfl
  | cons e top ih =>
    obtain ⟨l, j⟩ := e
    obtain ⟨hfresh, htop⟩ := List.nodup_cons.1 h
    rw [overlay, ih htop]
    by_cases hk : k = l
    · subst hk
      rw [lookup_eq_none hfresh, List.lookup_cons_self]
      exact lookup_upsert_self k _ base
    · rw [Node.lookup_upsert_ne hk, List.lookup_cons, beq_eq_false_iff_ne.2 hk]

mutual
theorem keyed_layer {o : Option Json} : ∀ {j : Json}, (∀ b ∈ o, b.Keyed) → j.Keyed → (layer o j).Keyed
  | .object ns, ho, hj => by
    rcases o with _ | b
    · simpa only [layer] using hj
    · cases b with
      | object ms =>
        rw [layer]
        exact keyed_overlay (ho _ rfl) hj.2
      | _ => simpa only [layer] using hj
  | .null, _, _ | .bool _, _, _ | .int _, _, _ | .float _, _, _ | .text _, _, _ => by
    rw [layer]
    · trivial
    · simp
  | .list xs, _, hj => by
    rw [layer]
    · exact hj
    · simp

/-- An object laid over another has no name twice if neither has. -/
theorem keyed_overlay {base : List (String × Json)} :
    ∀ {top : List (String × Json)}, (object base).Keyed → KeyedMembers top → (object (overlay base top)).Keyed
  | [], hbase, _ => hbase
  | (k, j) :: top, hbase, htop => by
    rw [overlay]
    have hlayer := keyed_layer (o := base.lookup k) (fun b hb => keyedMembers_iff.1 hbase.2 _ (mem_of_lookup hb)) htop.1
    refine keyed_overlay ⟨distinctKeys_upsert hbase.1, keyedMembers_iff.2 fun m hm => ?_⟩ htop.2
    rcases mem_of_mem_upsert hm with rfl | hm
    · exact hlayer
    · exact keyedMembers_iff.1 hbase.2 m hm
end

/-! ## Objects that are read -/

theorem keyed_collapse {ms : List (String × Json)} (h : KeyedMembers ms) : (object (collapse (· == ·) ms)).Keyed := by
  rw [Keyed, Node.collapse_eq, keyedMembers_iff]
  have hnil : DistinctKeys ([] : List (String × Json)) := List.nodup_nil
  refine ⟨Node.distinctKeys_inline hnil ms, fun m hm => ?_⟩
  rcases Node.mem_of_mem_inline hm with hm | hm
  · cases hm
  · exact keyedMembers_iff.1 h m hm

theorem keyed_readNumber {cs rest : List Char} {j : Json} (h : readNumber cs = .ok (j, rest)) : j.Keyed := by
  unfold readNumber failAt at h
  repeat' split at h
  all_goals cases h
  all_goals trivial

theorem keyed_readWord? {cs rest : List Char} {j : Json} (h : readWord? cs = some (j, rest)) : j.Keyed := by
  obtain ⟨⟨word, k⟩, hword, h⟩ := List.exists_of_findSome?_eq_some h
  obtain ⟨left, -, h⟩ := Option.map_eq_some_iff.1 h
  cases h
  simp only [List.mem_cons, Prod.mk.injEq, List.not_mem_nil, or_false] at hword
  rcases hword with h | h | h | h | h | h <;> rw [h.2] <;> trivial

/-- Whether what the readers of values, items and members give, with that much fuel, has no name twice in an object. -/
structure KeyedReaders (fuel : Nat) : Prop where
  value {cs rest : List Char} {j : Json} : readValue fuel cs = .ok (j, rest) → j.Keyed
  items {cs rest : List Char} {xs : List Json} : readItems fuel cs = .ok (xs, rest) → KeyedItems xs
  members {cs rest : List Char} {ms : List (String × Json)} : readMembers fuel cs = .ok (ms, rest) → KeyedMembers ms

section
variable {fuel : Nat} {cs rest : List Char}

theorem KeyedReaders.readValue (hk : KeyedReaders fuel) {j : Json} (h : readValue (fuel + 1) cs = .ok (j, rest)) :
    j.Keyed := by
  cases cs with
  | nil => cases h
  | cons c cs =>
    rw [Json.readValue] at h
    split at h
    · obtain ⟨⟨s, left⟩, -, h⟩ := Node.bind_ok h
      cases h
      trivial
    · split at h
      · split at h
        · cases h
          trivial
        · obtain ⟨⟨items, left⟩, hitems, h⟩ := Node.bind_ok h
          cases h
          exact hk.items hitems
      · split at h
        · split at h
          · cases h
            exact ⟨List.nodup_nil, trivial⟩
          · obtain ⟨⟨members, left⟩, hmembers, h⟩ := Node.bind_ok h
            cases h
            exact keyed_collapse (hk.members hmembers)
        · split at h
          · rename_i hword
            cases h
            exact keyed_readWord? hword
          · exact keyed_readNumber h

theorem KeyedReaders.readItems (hk : KeyedReaders fuel) {xs : List Json} (h : readItems (fuel + 1) cs = .ok (xs, rest)) :
    KeyedItems xs := by
  rw [Json.readItems] at h
  obtain ⟨⟨x, left⟩, hx, h⟩ := Node.bind_ok h
  dsimp only at h
  split at h
  · cases h
    exact ⟨hk.value hx, trivial⟩
  · obtain ⟨⟨xs', left'⟩, hxs, h⟩ := Node.bind_ok h
    cases h
    exact ⟨hk.value hx, hk.items hxs⟩
  · cases h

theorem KeyedReaders.readMembers (hk : KeyedReaders fuel) {ms : List (String × Json)}
    (h : readMembers (fuel + 1) cs = .ok (ms, rest)) : KeyedMembers ms := by
  unfold Json.readMembers at h
  split at h
  · obtain ⟨⟨name, left⟩, -, h⟩ := Node.bind_ok h
    dsimp only at h
    split at h
    · obtain ⟨⟨x, left'⟩, hx, h⟩ := Node.bind_ok h
      dsimp only at h
      split at h
      · cases h
        exact ⟨hk.value hx, trivial⟩
      · obtain ⟨⟨ms', left''⟩, hms, h⟩ := Node.bind_ok h
        cases h
        exact ⟨hk.value hx, hk.members hms⟩
      · cases h
    · cases h
  · cases h

end

theorem keyedReaders (fuel : Nat) : KeyedReaders fuel := by
  induction fuel with
  | zero => exact ⟨by simp [readValue, failAt], by simp [readItems, failAt], by simp [readMembers, failAt]⟩
  | succ fuel ih => exact ⟨ih.readValue, ih.readItems, ih.readMembers⟩

theorem keyed_read {s : String} {j : Json} (h : read s = .ok j) : j.Keyed := by
  unfold read readAll at h
  split at h
  · cases h
  · obtain ⟨⟨k, rest⟩, hk, h⟩ := Node.bind_ok h
    dsimp only at h
    split at h
    · cases h
      exact (keyedReaders _).value hk
    · cases h

end Json
end ApiProjection
