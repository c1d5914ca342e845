import ApiProjection.Proofs.Nested
import ApiProjection.Proofs.Settings.Overlay
/-!
# The upper object has its way

An object laid over another decides wherever it has something that is no object; where it has nothing, or an object,
the lower one shows, however deep. The names keep their order, those that are new come last, and nothing changes when
an object is laid over itself or for a second time.

* `Json.reach?_layer`: what every path leads to.
* `Json.overlay_of_settled`: an object that has already been laid over another.
* `Json.overlay_rightBiased`: all this for any two objects.
-/
namespace ApiProjection

/-! ## Ordered entries -/

section
variable {β : Type} {k : String} {v : β} {es : List (String × β)}

theorem upsert_of_lookup (h : es.lookup k = some v) : upsert (· == ·) k v es = es := by
  induction es with
  | nil => cases h
  | cons e es ih =>
    obtain ⟨l, x⟩ := e
    rw [List.lookup_cons] at h
    rw [upsert]
    by_cases hl : l = k
    · subst hl
      rw [beq_self_eq_true] at h ⊢
      cases h
      rfl
    · rw [beq_eq_false_iff_ne.2 (Ne.symm hl)] at h
      rw [beq_eq_false_iff_ne.2 hl, ih h]
      rfl

theorem map_fst_upsert_of_mem (h : k ∈ es.map Prod.fst) : (upsert (· == ·) k v es).map Prod.fst = es.map Prod.fst := by
  induction es with
  | nil => cases h
  | cons e es ih =>
    rw [upsert]
    by_cases hl : e.1 = k
    · rw [beq_iff_eq.2 hl]
      rfl
    · rw [beq_eq_false_iff_ne.2 hl]
      have hrest := (List.mem_cons.1 h).resolve_left (Ne.symm hl)
      exact congrArg (e.1 :: ·) (ih hrest)

end

namespace Json

variable {b o : List (String × Json)} {j : Json} {k : String} {path : List String}

@[simp] theorem layer_none (j : Json) : layer none j = j := layer_of_not_object (by simp) j

theorem layer_of_upper (h : ¬j.IsObject) (old : Option Json) : layer old j = j := by
  cases j with
  | object ms => exact absurd (isObject_object ms) h
  | _ =>
    rw [layer]
    simp

theorem isObject_layer (h : j.IsObject) (old : Option Json) : (layer old j).IsObject := by
  obtain ⟨ns, rfl⟩ := h
  by_cases hold : ∃ ms, old = some (.object ms)
  · obtain ⟨ms, rfl⟩ := hold
    rw [layer]
    exact isObject_object _
  · rw [layer_of_not_object (not_exists.1 hold)]
    exact isObject_object ns

theorem lookup_overlay_of_upper (ho : DistinctKeys o) (hj : o.lookup k = some j)
    (hno : ∀ ms, b.lookup k = some (.object ms) → ¬j.IsObject) : (overlay b o).lookup k = some j := by
  rw [lookup_overlay ho, hj]
  by_cases hold : ∃ ms, b.lookup k = some (.object ms)
  · obtain ⟨ms, hms⟩ := hold
    exact congrArg some (layer_of_upper (hno ms hms) _)
  · exact congrArg some (layer_of_not_object (not_exists.1 hold) j)

/-! ## What paths lead to -/

theorem get?_layer (hj : j.Keyed) (hobject : j.IsObject) (old : Option Json) (k : String) :
    (layer old j).get? k =
      (j.get? k).elim (old.bind (·.get? k)) fun m => some (layer (old.bind (·.get? k)) m) := by
  obtain ⟨ns, rfl⟩ := hobject
  by_cases hold : ∃ ms, old = some (.object ms)
  · obtain ⟨ms, rfl⟩ := hold
    rw [layer, get?_object, lookup_overlay hj.1, get?_object]
    cases ns.lookup k <;> rfl
  · have hnone : old.bind (·.get? k) = none := by
      refine Option.bind_eq_none_iff.2 fun u hu => get?_of_not_isObject ?_ k
      rintro ⟨ms, rfl⟩
      exact hold ⟨ms, hu⟩
    rw [layer_of_not_object (not_exists.1 hold), hnone]
    cases (object ns).get? k with
    | none => rfl
    | some m => exact congrArg some (layer_none m).symm

/-- The law of every path: what the upper value leads to lies over what the lower one leads to, and where the upper
value leads nowhere the lower one shows, unless something blocks the path. -/
theorem reach?_layer (hj : j.Keyed) (old : Option Json) (path : List String) :
    (¬j.Blocked path → (layer old j).reach? path =
      (j.reach? path).elim (old.bind (·.reach? path)) fun m => some (layer (old.bind (·.reach? path)) m)) ∧
    (j.Blocked path → (layer old j).reach? path = none) := by
  induction path generalizing j old with
  | nil => exact ⟨fun _ => by cases old <;> rfl, fun h => absurd h (not_blocked_nil j)⟩
  | cons k ks ih =>
    by_cases hobject : j.IsObject
    · have hblocked : j.Blocked (k :: ks) ↔ ∃ m, j.get? k = some m ∧ m.Blocked ks := by
        rw [blocked_cons, or_iff_right (not_not.2 hobject)]
      have hold : old.bind (·.reach? (k :: ks)) = (old.bind (·.get? k)).bind (·.reach? ks) := by
        rw [Option.bind_assoc]
        rfl
      rw [reach?_cons, get?_layer hj hobject, reach?_cons, hblocked, hold]
      cases hm : j.get? k with
      | none => simp
      | some m =>
        obtain ⟨ns, rfl⟩ := hobject
        have hkeyed : m.Keyed := keyedMembers_iff.1 hj.2 _ (mem_of_lookup hm)
        simpa using ih hkeyed (old.bind (·.get? k))
    · refine ⟨fun h => absurd (blocked_cons.2 (.inl hobject)) h, fun _ => ?_⟩
      rw [layer_of_upper hobject]
      exact reach?_of_not_isObject hobject k ks

theorem reach?_overlay (ho : (object o).Keyed) (h : ¬(object o).Blocked path) :
    (object (overlay b o)).reach? path =
      ((object o).reach? path).elim ((object b).reach? path) fun m => some (layer ((object b).reach? path) m) := by
  have hlayer := (reach?_layer ho (some (.object b)) path).1 h
  rwa [layer] at hlayer

theorem reach?_overlay_of_blocked (ho : (object o).Keyed) (h : (object o).Blocked path) :
    (object (overlay b o)).reach? path = none := by
  have hlayer := (reach?_layer ho (some (.object b)) path).2 h
  rwa [layer] at hlayer

/-- What is no object and not there above either has come from below. -/
theorem reach?_overlay_iff (ho : (object o).Keyed) (hno : ¬j.IsObject) :
    (object (overlay b o)).reach? path = some j ↔ (object o).reach? path = some j ∨
      (object b).reach? path = some j ∧ (object o).reach? path = none ∧ ¬(object o).Blocked path := by
  by_cases hpath : (object o).Blocked path
  · have hnone : (object o).reach? path ≠ some j := fun h => not_blocked_of_reach? h hpath
    simp [reach?_overlay_of_blocked ho hpath, hnone, hpath]
  · rw [reach?_overlay ho hpath]
    cases hu : (object o).reach? path with
    | none => simp [hpath]
    | some u =>
      simp only [Option.elim_some, Option.some.injEq, reduceCtorEq, false_and, and_false, or_false]
      by_cases hobject : u.IsObject
      · have hlayer : (layer ((object b).reach? path) u).IsObject := isObject_layer hobject _
        exact ⟨fun h => absurd (h ▸ hlayer) hno, fun h => absurd (h ▸ hobject) hno⟩
      · rw [layer_of_upper hobject]

/-- An object from below makes way only to what is no object, at its path or on the way there. -/
theorem isObject_reach?_overlay_iff {ms : List (String × Json)} (ho : (object o).Keyed)
    (hms : (object b).reach? path = some (.object ms)) :
    (∃ u, (object (overlay b o)).reach? path = some u ∧ u.IsObject) ↔
      (∀ j, (object o).reach? path = some j → j.IsObject) ∧ ¬(object o).Blocked path := by
  by_cases hpath : (object o).Blocked path
  · simp [reach?_overlay_of_blocked ho hpath, hpath]
  · rw [reach?_overlay ho hpath, hms]
    cases hu : (object o).reach? path with
    | none => simp [isObject_object, hpath]
    | some u =>
      simp only [Option.elim_some, Option.some.injEq, forall_eq', exists_eq_left', hpath, not_false_eq_true, and_true]
      refine ⟨fun hlayer => ?_, fun hobject => isObject_layer hobject _⟩
      by_contra hobject
      exact hobject (layer_of_upper hobject _ ▸ hlayer)

/-! ## Names -/

/-- The names of the lower object come first, then those that are new. -/
theorem map_fst_overlay (ho : DistinctKeys o) (b : List (String × Json)) :
    (overlay b o).map Prod.fst = b.map Prod.fst ++ (o.map Prod.fst).filter (· ∉ b.map Prod.fst) := by
  induction o generalizing b with
  | nil => rw [overlay, List.map_nil, List.filter_nil, List.append_nil]
  | cons e o ih =>
    obtain ⟨k, j⟩ := e
    obtain ⟨hfresh, ho⟩ := List.nodup_cons.1 ho
    rw [overlay, ih ho, List.map_cons]
    by_cases hk : k ∈ b.map Prod.fst
    · rw [map_fst_upsert_of_mem hk, List.filter_cons_of_neg (by simpa using hk)]
    · have hrest : (o.map Prod.fst).filter (· ∉ (b ++ [(k, layer (b.lookup k) j)]).map Prod.fst) =
          (o.map Prod.fst).filter (· ∉ b.map Prod.fst) := by
        refine List.filter_congr fun l hl => ?_
        have hne : l ≠ k := fun h => hfresh (h ▸ hl)
        simp only [List.map_append, List.map_cons, List.map_nil, List.mem_append, List.mem_singleton, hne, or_false]
      rw [upsert_of_not_mem hk, hrest, List.filter_cons_of_pos (by simpa using hk), List.map_append, List.append_assoc]
      rfl

/-! ## Nothing to lay -/

/-- Members with names that the lower object does not have are put behind its own. -/
theorem overlay_of_fresh (h : DistinctKeys (b ++ o)) : overlay b o = b ++ o := by
  induction o generalizing b with
  | nil => rw [overlay, List.append_nil]
  | cons e o ih =>
    obtain ⟨k, j⟩ := e
    have hfresh : k ∉ b.map Prod.fst := by
      rw [DistinctKeys, List.map_append, List.nodup_append] at h
      exact fun hm => h.2.2 k hm k (List.mem_map_of_mem List.mem_cons_self) rfl
    rw [List.append_cons] at h
    rw [overlay, lookup_eq_none hfresh, layer_none, upsert_of_not_mem hfresh, ih h, ← List.append_cons]

/-- Nothing changes where each member lies over the lower one already. -/
theorem overlay_of_settled (h : ∀ m ∈ o, ∃ u, b.lookup m.1 = some u ∧ layer (some u) m.2 = u) : overlay b o = b := by
  induction o with
  | nil => rfl
  | cons e o ih =>
    obtain ⟨k, j⟩ := e
    obtain ⟨⟨u, hu, hlayer⟩, hrest⟩ := List.forall_mem_cons.1 h
    rw [overlay, hu, hlayer, upsert_of_lookup hu]
    exact ih hrest

mutual
theorem layer_self : ∀ {j : Json}, j.Keyed → layer (some j) j = j
  | .object ms, h => by
    rw [layer, overlay_of_settled]
    exact fun m hm => ⟨m.2, lookup_of_mem h.1 hm, layer_self_of_mem h.2 m hm⟩
  | .null, _ | .bool _, _ | .int _, _ | .float _, _ | .text _, _ | .list _, _ => layer_of_upper (by rintro ⟨_, ⟨⟩⟩) _

theorem layer_self_of_mem : ∀ {ms : List (String × Json)}, KeyedMembers ms → ∀ m ∈ ms, layer (some m.2) m.2 = m.2
  | [], _, _, hm => by cases hm
  | (_, j) :: ms, h, m, hm => by
    rcases List.mem_cons.1 hm with rfl | hm
    · exact layer_self h.1
    · exact layer_self_of_mem h.2 m hm
end

theorem overlay_self (h : (object b).Keyed) : overlay b b = b := by
  have hself := layer_self h
  rw [layer] at hself
  exact Json.object.inj hself

mutual
/-- What has been laid over a value may be laid over the result without a change. -/
theorem layer_layer : ∀ {j : Json}, j.Keyed → ∀ old : Option Json, layer (some (layer old j)) j = layer old j
  | .object ns, h, old => by
    by_cases hold : ∃ ms, old = some (.object ms)
    · obtain ⟨ms, rfl⟩ := hold
      rw [layer, layer, overlay_of_settled]
      intro m hm
      refine ⟨layer (ms.lookup m.1) m.2, ?_, layer_layer_of_mem h.2 m hm _⟩
      rw [lookup_overlay h.1, lookup_of_mem h.1 hm]
    · rw [layer_of_not_object (not_exists.1 hold), layer_self h]
  | .null, _, _ | .bool _, _, _ | .int _, _, _ | .float _, _, _ | .text _, _, _ | .list _, _, _ => by
    rw [layer_of_upper, layer_of_upper] <;> rintro ⟨_, ⟨⟩⟩

theorem layer_layer_of_mem : ∀ {ns : List (String × Json)}, KeyedMembers ns →
    ∀ m ∈ ns, ∀ old : Option Json, layer (some (layer old m.2)) m.2 = layer old m.2
  | [], _, _, hm => by cases hm
  | (_, j) :: ns, h, m, hm => by
    rcases List.mem_cons.1 hm with rfl | hm
    · exact layer_layer h.1
    · exact layer_layer_of_mem h.2 m hm
end

/-! ## Right bias -/

/-- What the members `o` come to that are laid over the members `b`. -/
structure RightBiased (b o : List (String × Json)) : Prop where
  /-- Objects that both have are laid over one another. -/
  both : ∀ {k ms ns}, b.lookup k = some (.object ms) → o.lookup k = some (.object ns) →
    (overlay b o).lookup k = some (.object (overlay ms ns))
  upper : ∀ {k j}, o.lookup k = some j → (∀ ms, b.lookup k = some (.object ms) → ¬j.IsObject) →
    (overlay b o).lookup k = some j
  lower : ∀ {k}, o.lookup k = none → (overlay b o).lookup k = b.lookup k
  /-- What is no object of the upper ones is there. -/
  wins : ∀ {p j}, ¬j.IsObject → (object o).reach? p = some j → (object (overlay b o)).reach? p = some j
  /-- What is no object and not there above either has come from below: nothing is at its path above, and nothing
  blocks that. -/
  survives : ∀ {p j}, ¬j.IsObject → ((object (overlay b o)).reach? p = some j ↔ (object o).reach? p = some j ∨
    (object b).reach? p = some j ∧ (object o).reach? p = none ∧ ¬(object o).Blocked p)
  /-- Where an object was below one is left just if nothing but an object is at its path above and nothing blocks that. -/
  remains : ∀ {p ms}, (object b).reach? p = some (.object ms) →
    ((∃ u, (object (overlay b o)).reach? p = some u ∧ u.IsObject) ↔
      (∀ j, (object o).reach? p = some j → j.IsObject) ∧ ¬(object o).Blocked p)
  /-- Such an object has the one above laid over it. -/
  nested : ∀ {p ms ns}, (object b).reach? p = some (.object ms) → (object o).reach? p = some (.object ns) →
    (object (overlay b o)).reach? p = some (.object (overlay ms ns))
  /-- What is below stays as it is, with all it holds, where nothing is at its path above and nothing blocks that. -/
  intact : ∀ {p}, (object o).reach? p = none → ¬(object o).Blocked p →
    (object (overlay b o)).reach? p = (object b).reach? p
  names : (overlay b o).map Prod.fst = b.map Prod.fst ++ (o.map Prod.fst).filter (· ∉ b.map Prod.fst)
  over_nil : overlay b [] = b
  nil_over : overlay [] o = o
  self : overlay b b = b
  again : overlay (overlay b o) o = overlay b o

/-- **Laying objects over one another is biased to the upper one,** at every key and along every path. -/
theorem overlay_rightBiased (hb : (object b).Keyed) (ho : (object o).Keyed) : RightBiased b o where
  both := by
    intro k ms ns hms hns
    rw [lookup_overlay ho.1, hns, hms]
    simp only [layer]
  upper := lookup_overlay_of_upper ho.1
  lower := by
    intro k hk
    rw [lookup_overlay ho.1, hk]
  wins := by
    intro p j hno hj
    rw [reach?_overlay ho (not_blocked_of_reach? hj), hj]
    exact congrArg some (layer_of_upper hno _)
  survives := reach?_overlay_iff ho
  remains := isObject_reach?_overlay_iff ho
  nested := by
    intro p ms ns hms hns
    rw [reach?_overlay ho (not_blocked_of_reach? hns), hns, hms]
    simp only [layer, Option.elim_some]
  intact := by
    intro p hnone hp
    rw [reach?_overlay ho hp, hnone]
    rfl
  names := map_fst_overlay ho.1 b
  over_nil := by rw [overlay]
  nil_over := overlay_of_fresh ho.1
  self := overlay_self hb
  again := by
    have hagain := layer_layer ho (some (.object b))
    rw [layer, layer] at hagain
    exact Json.object.inj hagain

/-- The settings of a project over those of a user: an object over an object, a text over an object and an object over a
text. -/
theorem overlay_rightBiased_project :
    RightBiased [("target", .text "3.0"), ("output", .object [("format", .text "rich"), ("document", .object [])])]
      [("output", .object [("document", .text "yaml")]), ("target", .object [])] :=
  overlay_rightBiased (by simp [Keyed, KeyedMembers, DistinctKeys]) (by simp [Keyed, KeyedMembers, DistinctKeys])

end Json
end ApiProjection
