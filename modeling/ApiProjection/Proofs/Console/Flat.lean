import ApiProjection.Console.Flat
import ApiProjection.Proofs.Nested
/-!
# The leaves that a flat list shows

The leaves of nested objects are listed with the paths that lead to them (`Json.leavesOfMembers`): each once, in the
order of the keys. A flat list shows them one by one, each under the keys of its path with dots between them. Empty keys
at the beginning of a path get lost, since a member without a name is taken for one of the whole.

* `Json.mem_leavesOfMembers`, `Json.leavesOfMembers_ordered`: the leaves and their order.
* `Json.foldl_dotted`: the names that the leaves get.
* `Json.flat_leaves`: flat lists.
-/
namespace ApiProjection.Json

/-- Whether nothing is to be listed within a value. -/
def IsLeaf (j : Json) : Prop := ∀ m ms, j ≠ .object (m :: ms)

mutual
/-- The leaves of a value with the paths that lead to them. -/
def leaves : Json → List (List String × Json)
  | .object [] => [([], .object [])]
  | .object ms => leavesOfMembers ms
  | j => [([], j)]

def leavesOfMembers : List (String × Json) → List (List String × Json)
  | [] => []
  | (k, j) :: ms => (leaves j).map (fun l => (k :: l.1, l.2)) ++ leavesOfMembers ms
end

/-- Whether two paths part at an object that has the key of the first before that of the second. -/
def Before (j : Json) (p q : List String) : Prop :=
  ∃ way ms k l ks ls, j.reach? way = some (.object ms) ∧ p = way ++ k :: ks ∧ q = way ++ l :: ls ∧
    [k, l].Sublist (ms.map Prod.fst)

variable {j u : Json} {m : String × Json} {ms : List (String × Json)} {p q : List String}

theorem leaves_of_isLeaf (h : j.IsLeaf) : leaves j = [([], j)] := by
  cases j with
  | object ms =>
    cases ms with
    | nil => rfl
    | cons m ms => exact absurd rfl (h m ms)
  | _ => rfl

theorem leaves_cons (m : String × Json) (ms : List (String × Json)) :
    leaves (.object (m :: ms)) = leavesOfMembers (m :: ms) := rfl

theorem not_isLeaf_cons (m : String × Json) (ms : List (String × Json)) : ¬(object (m :: ms)).IsLeaf :=
  fun h => h m ms rfl

theorem leavesOfMembers_eq (ms : List (String × Json)) :
    leavesOfMembers ms = ms.flatMap fun m => (leaves m.2).map fun l => (m.1 :: l.1, l.2) := by
  induction ms with
  | nil => rfl
  | cons m ms ih => rw [leavesOfMembers, ih, List.flatMap_cons]

/-! ## Which leaves there are -/

theorem mem_leavesOfMembers_iff {l : List String × Json} :
    l ∈ leavesOfMembers ms ↔ ∃ m ∈ ms, ∃ below ∈ leaves m.2, (m.1 :: below.1, below.2) = l := by
  simp only [leavesOfMembers_eq, List.mem_flatMap, List.mem_map]

mutual
/-- The leaves of a value are those that paths lead to. -/
theorem mem_leaves : ∀ {j : Json}, j.Keyed → ∀ {p : List String} {u : Json},
    (p, u) ∈ leaves j ↔ j.reach? p = some u ∧ u.IsLeaf
  | .object (m :: ms), h, p, u => by
    rw [leaves_cons, mem_leavesOfMembers h]
    refine ⟨fun hmem => hmem.2, fun hreach => ⟨?_, hreach⟩⟩
    rintro rfl
    cases hreach.1
    exact not_isLeaf_cons m ms hreach.2
  | .object [], _, p, u | .null, _, p, u | .bool _, _, p, u | .int _, _, p, u | .float _, _, p, u | .text _, _, p, u
  | .list _, _, p, u => by
    rw [leaves_of_isLeaf (by rintro m ms ⟨⟩), List.mem_singleton, Prod.mk.injEq]
    cases p with
    | nil =>
      simp only [reach?_nil, Option.some.injEq, true_and]
      refine ⟨?_, fun hu => hu.1.symm⟩
      rintro rfl
      exact ⟨rfl, by rintro m ms ⟨⟩⟩
    | cons k ks => simp [reach?_cons, get?]

/-- The leaves of members are those that paths lead to within the object. -/
theorem mem_leavesOfMembers : ∀ {ms : List (String × Json)}, (object ms).Keyed → ∀ {p : List String} {u : Json},
    (p, u) ∈ leavesOfMembers ms ↔ p ≠ [] ∧ (object ms).reach? p = some u ∧ u.IsLeaf
  | [], _, p, u => by cases p <;> simp [leavesOfMembers, reach?_cons, get?]
  | (k, j) :: ms, h, p, u => by
    obtain ⟨hfresh, hdistinct⟩ := List.nodup_cons.1 h.1
    have hhead : ∀ {ls : List String}, (ls, u) ∈ leaves j ↔ j.reach? ls = some u ∧ u.IsLeaf := mem_leaves h.2.1
    have htail : (p, u) ∈ leavesOfMembers ms ↔ p ≠ [] ∧ (object ms).reach? p = some u ∧ u.IsLeaf :=
      mem_leavesOfMembers ⟨hdistinct, h.2.2⟩
    rw [leavesOfMembers, List.mem_append, htail, List.mem_map]
    cases p with
    | nil => simp
    | cons l ls =>
      simp only [reach?_cons, get?_object, List.lookup_cons, ne_eq, reduceCtorEq, not_false_eq_true, true_and,
        Prod.mk.injEq, List.cons.injEq]
      by_cases hl : l = k
      · subst hl
        rw [lookup_eq_none hfresh, beq_self_eq_true]
        simp only [Option.bind_none, reduceCtorEq, false_and, or_false, Option.bind_some]
        rw [← hhead]
        exact ⟨by rintro ⟨l, hl, ⟨-, rfl⟩, rfl⟩; exact hl, fun hmem => ⟨_, hmem, ⟨trivial, rfl⟩, rfl⟩⟩
      · rw [beq_eq_false_iff_ne.2 hl]
        refine or_iff_right ?_
        rintro ⟨l', -, ⟨rfl, -⟩, -⟩
        exact hl rfl
end

/-- Every value has a leaf. -/
theorem leaves_ne_nil : ∀ j, leaves j ≠ []
  | .object ((k, j) :: ms) => by
    rw [leaves_cons, leavesOfMembers]
    exact List.append_ne_nil_of_left_ne_nil (mt List.map_eq_nil_iff.1 (leaves_ne_nil j)) _
  | .object [] | .null | .bool _ | .int _ | .float _ | .text _ | .list _ => List.cons_ne_nil _ _

/-! ## The order of the leaves -/

theorem Before.cons {k : String} (hk : ms.lookup k = some j) (h : j.Before p q) :
    (object ms).Before (k :: p) (k :: q) := by
  obtain ⟨way, ns, k', l, ks, ls, hway, rfl, rfl, hkeys⟩ := h
  refine ⟨k :: way, ns, k', l, ks, ls, ?_, rfl, rfl, hkeys⟩
  rw [reach?_cons, get?_object, hk]
  exact hway

theorem Before.ne (hj : j.Keyed) (h : j.Before p q) : p ≠ q := by
  obtain ⟨way, ns, k, l, ks, ls, hway, rfl, rfl, hkeys⟩ := h
  have hdistinct : k ≠ l := by
    have hpair := (hj.reach? hway).1.sublist hkeys
    simpa using hpair
  exact fun heq => hdistinct (List.cons.inj (List.append_cancel_left heq)).1

mutual
theorem leaves_ordered : ∀ {j : Json}, j.Keyed → (leaves j).Pairwise fun a b => j.Before a.1 b.1
  | .object (m :: ms), h => by
    rw [leaves_cons, leavesOfMembers_eq, List.pairwise_flatMap]
    refine ⟨fun m' hm => ?_, List.pairwise_iff_forall_sublist.2 fun hab => ?_⟩
    · have hmember := leaves_ordered_of_mem h.2 m' hm
      exact List.pairwise_map.2 (hmember.imp fun hbefore => hbefore.cons (lookup_of_mem h.1 hm))
    · intro x hx y hy
      obtain ⟨below, -, rfl⟩ := List.mem_map.1 hx
      obtain ⟨below', -, rfl⟩ := List.mem_map.1 hy
      exact ⟨[], _, _, _, _, _, rfl, rfl, rfl, hab.map Prod.fst⟩
  | .object [], _ | .null, _ | .bool _, _ | .int _, _ | .float _, _ | .text _, _ | .list _, _ => by
    rw [leaves_of_isLeaf (by rintro m ms ⟨⟩)]
    exact List.pairwise_singleton _ _

theorem leaves_ordered_of_mem : ∀ {ms : List (String × Json)}, KeyedMembers ms →
    ∀ m ∈ ms, (leaves m.2).Pairwise fun a b => m.2.Before a.1 b.1
  | [], _, _, hm => by cases hm
  | (_, j) :: ms, h, m, hm => by
    rcases List.mem_cons.1 hm with rfl | hm
    · exact leaves_ordered h.1
    · exact leaves_ordered_of_mem h.2 m hm
end

/-! ## Names -/

mutual
theorem flatUnder_eq (name : String) : ∀ j, flatUnder name j = (leaves j).map fun l => (l.1.foldl dotted name, l.2)
  | .object (m :: ms) => by
    rw [leaves_cons, ← flatMembers_eq name (m :: ms), flatUnder]
    exact List.cons_ne_nil m ms
  | .object [] | .null | .bool _ | .int _ | .float _ | .text _ | .list _ => rfl

/-- The names in a flat list come from the paths of the leaves, key by key. -/
theorem flatMembers_eq (name : String) :
    ∀ ms, flatMembers name ms = (leavesOfMembers ms).map fun l => (l.1.foldl dotted name, l.2)
  | [] => rfl
  | (k, j) :: ms => by
    rw [flatMembers, leavesOfMembers, flatUnder_eq (dotted name k) j, flatMembers_eq name ms, List.map_append, List.map_map]
    rfl
end

theorem foldl_dotted_of_ne_empty {name : String} (h : name ≠ "") (path : List String) :
    path.foldl dotted name = ".".intercalate (name :: path) := by
  induction path generalizing name with
  | nil => rw [List.foldl_nil, String.intercalate_singleton]
  | cons k ks ih =>
    have hdotted : dotted name k = name ++ "." ++ k := if_neg h
    have hne : dotted name k ≠ "" := by simp [hdotted]
    rw [List.foldl_cons, ih hne, hdotted, String.intercalate_cons_append, String.intercalate_cons_cons]

/-- The name of a leaf has the keys of its path but for the empty ones that the path begins with. -/
theorem foldl_dotted (path : List String) : path.foldl dotted "" = ".".intercalate (path.dropWhile (· = "")) := by
  induction path with
  | nil => rw [List.foldl_nil, List.dropWhile_nil, String.intercalate_nil]
  | cons k ks ih =>
    rw [List.foldl_cons, dotted, if_pos rfl]
    by_cases hk : k = ""
    · rw [hk, ih, List.dropWhile_cons_of_pos (by simp)]
    · rw [foldl_dotted_of_ne_empty hk, List.dropWhile_cons_of_neg (by simpa using hk)]

/-- Without its empty keys at the beginning a path has a shorter name, unless there is only one key. -/
theorem length_foldl_dotted_le (path : List String) :
    (path.foldl dotted "").length ≤ (".".intercalate path).length := by
  rw [foldl_dotted]
  induction path with
  | nil => rfl
  | cons k ks ih =>
    by_cases hk : k = ""
    · subst hk
      rw [List.dropWhile_cons_of_pos (by simp)]
      refine ih.trans ?_
      cases ks with
      | nil => simp
      | cons l ls => simp
    · rw [List.dropWhile_cons_of_neg (by simpa using hk)]

/-- The keys of a path are all in the name of its leaf just if the path does not go on from an empty key. -/
theorem foldl_dotted_eq_iff {k : String} {ks : List String} :
    (k :: ks).foldl dotted "" = ".".intercalate (k :: ks) ↔ k ≠ "" ∨ ks = [] := by
  rw [List.foldl_cons, dotted, if_pos rfl]
  by_cases hk : k = ""
  · subst hk
    cases ks with
    | nil => simp
    | cons l ls =>
      have hlength := length_foldl_dotted_le (l :: ls)
      simp only [ne_eq, not_true_eq_false, reduceCtorEq, or_self, iff_false]
      intro h
      rw [h, String.intercalate_cons_cons] at hlength
      simp at hlength
  · simp [foldl_dotted_of_ne_empty hk, hk]

/-! ## Flat lists -/

theorem reach?_of_isLeaf (h : j.IsLeaf) {path : List String} (hpath : path ≠ []) : j.reach? path = none := by
  obtain ⟨k, ks, rfl⟩ := List.exists_cons_of_ne_nil hpath
  cases j with
  | object ms =>
    cases ms with
    | nil => rfl
    | cons m ms => exact absurd h (not_isLeaf_cons m ms)
  | _ => rfl

/-- Names have all keys of the paths just if a member without a name holds no others. -/
theorem names_complete_iff (h : (object ms).Keyed) :
    (∀ l ∈ leavesOfMembers ms, l.1.foldl dotted "" = ".".intercalate l.1) ↔ ∀ j, ms.lookup "" = some j → j.IsLeaf := by
  constructor
  · intro hnames j hj
    by_contra hleaf
    obtain ⟨l, hl⟩ := List.exists_mem_of_ne_nil _ (leaves_ne_nil j)
    have hreach := (mem_leaves (keyedMembers_iff.1 h.2 _ (mem_of_lookup hj))).1 hl
    have hmem : ("" :: l.1, l.2) ∈ leavesOfMembers ms := mem_leavesOfMembers_iff.2 ⟨("", j), mem_of_lookup hj, l, hl, rfl⟩
    have hone : l.1 = [] := (foldl_dotted_eq_iff.1 (hnames _ hmem)).resolve_left (not_not.2 rfl)
    rw [hone] at hreach
    cases hreach.1
    exact hleaf hreach.2
  · intro hmember l hl
    obtain ⟨hpath, hreach, -⟩ := (mem_leavesOfMembers h).1 hl
    obtain ⟨k, ks, hpath⟩ := List.exists_cons_of_ne_nil hpath
    rw [hpath, foldl_dotted_eq_iff]
    by_contra hlost
    rw [not_or, not_not] at hlost
    obtain ⟨rfl, hks⟩ := hlost
    rw [hpath] at hreach
    obtain ⟨j, hj, hbelow⟩ := Option.bind_eq_some_iff.1 hreach
    rw [reach?_of_isLeaf (hmember j hj) hks] at hbelow
    cases hbelow

theorem leavesOfMembers_ordered (h : (object ms).Keyed) :
    (leavesOfMembers ms).Pairwise fun a b => (object ms).Before a.1 b.1 := by
  cases ms with
  | nil => exact List.Pairwise.nil
  | cons m ms => exact leaves_ordered h

/-- **A flat list shows each leaf once,** in the order of the keys, under the keys of its path but for the empty ones
that the path begins with. The names have all keys just if a member without a name holds no others. -/
theorem flat_leaves (h : (object ms).Keyed) :
    flat (.object ms) = (leavesOfMembers ms).map (fun l => (".".intercalate (l.1.dropWhile (· = "")), l.2)) ∧
      (∀ p u, (p, u) ∈ leavesOfMembers ms ↔ p ≠ [] ∧ (object ms).reach? p = some u ∧ u.IsLeaf) ∧
      ((leavesOfMembers ms).map Prod.fst).Nodup ∧
      (leavesOfMembers ms).Pairwise (fun a b => (object ms).Before a.1 b.1) ∧
      (flat (.object ms) = (leavesOfMembers ms).map (fun l => (".".intercalate l.1, l.2)) ↔
        ∀ j, ms.lookup "" = some j → j.IsLeaf) := by
  have hflat : flat (.object ms) = (leavesOfMembers ms).map fun l => (l.1.foldl dotted "", l.2) := flatMembers_eq "" ms
  have hordered := leavesOfMembers_ordered h
  refine ⟨?_, fun p u => mem_leavesOfMembers h, ?_, hordered, ?_⟩
  · rw [hflat]
    exact List.map_congr_left fun l _ => by rw [foldl_dotted]
  · exact List.pairwise_map.2 (hordered.imp fun hbefore => hbefore.ne h)
  · rw [hflat, List.map_inj_left, ← names_complete_iff h]
    simp only [Prod.mk.injEq, and_true]

theorem flat_leaves_nested :
    flat (.object [("output", .object [("format", .text "json"), ("", .object [])]), ("", .int 1)]) =
      [("output.format", .text "json"), ("output.", .object []), ("", .int 1)] := by
  have hkeyed : (object [("output", .object [("format", .text "json"), ("", .object [])]), ("", .int 1)]).Keyed := by
    simp [Keyed, KeyedMembers, DistinctKeys]
  exact (flat_leaves hkeyed).1.trans rfl

/-- The name of a leaf below a member without a name does not have all keys of its path. -/
theorem flat_unnamed :
    flat (.object [("", .object [("a", .int 1)])]) = [("a", .int 1)] ∧
      (object [("", .object [("a", .int 1)])]).reach? ["", "a"] = some (.int 1) ∧
      ".".intercalate ["", "a"] = ".a" := ⟨rfl, rfl, rfl⟩

end ApiProjection.Json
