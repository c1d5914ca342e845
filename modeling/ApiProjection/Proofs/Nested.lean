import ApiProjection.Proofs.Reading.Basic
/-!
# Paths in nested objects

A path is a list of keys. It leads from a value through the members of objects and of nothing else (`Json.reach?`), so
a value that is no object ends every path that goes on (`Json.Blocked`).
-/
namespace ApiProjection.Json

/-- Whether a value is an object. -/
def IsObject (j : Json) : Prop := ∃ ms, j = .object ms

/-- The value that the keys on a path lead to. -/
def reach? (j : Json) : List String → Option Json
  | [] => some j
  | k :: ks => (j.get? k).bind (reach? · ks)

/-- Whether there is a value that is no object before the end of a path. -/
def Blocked (j : Json) (path : List String) : Prop :=
  ∃ way u, way <+: path ∧ way ≠ path ∧ j.reach? way = some u ∧ ¬u.IsObject

theorem isObject_object (ms : List (String × Json)) : (object ms).IsObject := ⟨ms, rfl⟩

variable {j m : Json} {k : String} {ks : List String} {ms : List (String × Json)}

@[simp] theorem reach?_nil (j : Json) : j.reach? [] = some j := rfl

theorem reach?_cons (j : Json) (k : String) (ks : List String) : j.reach? (k :: ks) = (j.get? k).bind (reach? · ks) :=
  rfl

theorem get?_object (ms : List (String × Json)) (k : String) : (object ms).get? k = ms.lookup k := rfl

theorem get?_of_not_isObject (h : ¬j.IsObject) (k : String) : j.get? k = none := by
  cases j with
  | object ms => exact absurd (isObject_object ms) h
  | _ => rfl

theorem isObject_of_get? (h : j.get? k = some m) : j.IsObject := by
  by_contra hj
  rw [get?_of_not_isObject hj] at h
  cases h

/-- A path leads nowhere beyond a value that is no object. -/
theorem reach?_of_not_isObject (h : ¬j.IsObject) (k : String) (ks : List String) : j.reach? (k :: ks) = none := by
  rw [reach?_cons, get?_of_not_isObject h, Option.bind_none]

/-! ## Blocked paths -/

@[simp] theorem not_blocked_nil (j : Json) : ¬j.Blocked [] := by
  rintro ⟨way, u, hway, hne, -⟩
  exact hne (List.prefix_nil.1 hway)

/-- A path is blocked by the value that it starts from, or further on. -/
theorem blocked_cons : j.Blocked (k :: ks) ↔ ¬j.IsObject ∨ ∃ m, j.get? k = some m ∧ m.Blocked ks := by
  constructor
  · rintro ⟨way, u, hway, hne, hu, hno⟩
    cases way with
    | nil =>
      cases hu
      exact .inl hno
    | cons l way =>
      obtain ⟨hl, htail⟩ := List.cons_prefix_cons.1 hway
      obtain ⟨m, hm, hu⟩ := Option.bind_eq_some_iff.1 hu
      subst hl
      exact .inr ⟨m, hm, way, u, htail, fun h => hne (congrArg (l :: ·) h), hu, hno⟩
  · rintro (hj | ⟨m, hm, way, u, hway, hne, hu, hno⟩)
    · exact ⟨[], j, List.nil_prefix, (List.cons_ne_nil k ks).symm, rfl, hj⟩
    · refine ⟨k :: way, u, List.cons_prefix_cons.2 ⟨rfl, hway⟩, fun h => hne (List.cons.inj h).2, ?_, hno⟩
      rw [reach?_cons, hm]
      exact hu

/-- Nothing is reached beyond what blocks a path. -/
theorem not_blocked_of_reach? {path : List String} (h : j.reach? path = some m) : ¬j.Blocked path := by
  induction path generalizing j with
  | nil => exact not_blocked_nil j
  | cons k ks ih =>
    obtain ⟨l, hl, h⟩ := Option.bind_eq_some_iff.1 h
    rw [blocked_cons, not_or, not_not]
    refine ⟨isObject_of_get? hl, ?_⟩
    rintro ⟨l', hl', hblocked⟩
    cases hl.symm.trans hl'
    exact ih h hblocked

/-- What a path leads to in a value whose objects have each name once is such a value. -/
theorem Keyed.reach? {path : List String} (hj : j.Keyed) (h : j.reach? path = some m) : m.Keyed := by
  induction path generalizing j with
  | nil =>
    cases h
    exact hj
  | cons k ks ih =>
    obtain ⟨l, hl, hrest⟩ := Option.bind_eq_some_iff.1 h
    obtain ⟨ms, rfl⟩ := isObject_of_get? hl
    exact ih (keyedMembers_iff.1 hj.2 _ (mem_of_lookup hl)) hrest

end ApiProjection.Json
