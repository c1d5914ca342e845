import ApiProjection.Proofs.Validity.Prefix
/-!
# What rules decide

A rule decides a statement about a value if its check comes to an end, whatever references lead to, and finds
nothing exactly if the statement holds. What a rule decides follows from what its keywords decide one by one.

* `Findings.Decides`, `Rule.Decides`, `Keyword.Decides`: the notions.
* `Keyword.decides_properties`, `Keyword.decides_noExtras` and their like: one for each keyword that the bundled
  meta-schemas have.
-/
namespace ApiProjection

/-! ## Findings -/

/-- Whether a search comes to its end and finds nothing exactly if a statement holds. -/
structure Findings.Decides (f : Findings) (p : Prop) : Prop where
  ends : f.defect = Option.none
  iff : f.violations = [] ↔ p

namespace Findings

variable {f g : Findings} {p q : Prop}

theorem Decides.congr (h : f.Decides p) (hpq : p ↔ q) : f.Decides q := ⟨h.ends, h.iff.trans hpq⟩

@[simp] theorem decides_none : none.Decides True := ⟨rfl, by simp [none]⟩

@[simp] theorem decides_violation (m : String) : (violation m).Decides False := ⟨rfl, by simp [violation]⟩

theorem Decides.append (hf : f.Decides p) (hg : g.Decides q) : (f ++ g).Decides (p ∧ q) := by
  have happ : f ++ g = ⟨f.violations ++ g.violations, g.defect⟩ := by
    show f.append g = _
    rw [Findings.append, hf.ends]
  rw [happ]
  exact ⟨hg.ends, by rw [List.append_eq_nil_iff, hf.iff, hg.iff]⟩

theorem Decides.under (h : f.Decides p) (step : Record.Step) : (f.under step).Decides p :=
  ⟨h.ends, by rw [Findings.under, List.map_eq_nil_iff, h.iff]⟩

theorem decides_when (c : Bool) (m : String) : (when c m).Decides (c = false) := by
  cases c with
  | true => exact (decides_violation m).congr (by simp)
  | false => exact decides_none.congr (by simp)

theorem decides_concat {α : Type} {xs : List α} {h : α → Findings} {r : α → Prop}
    (hr : ∀ x ∈ xs, (h x).Decides (r x)) : (concat (xs.map h)).Decides (∀ x ∈ xs, r x) := by
  induction xs with
  | nil => exact decides_none.congr (by simp)
  | cons x xs ih =>
    rw [List.forall_mem_cons] at hr
    exact (hr.1.append (ih hr.2)).congr List.forall_mem_cons.symm

/-- A search that decides a statement shows whether it holds. -/
theorem Decides.holds (h : f.Decides p) : ∃ b, f.holds = .ok b ∧ (b = true ↔ p) := by
  have hends := h.ends
  have hiff := h.iff
  unfold Findings.holds
  cases hv : f.violations with
  | nil =>
    rw [hends]
    exact ⟨true, rfl, iff_of_true rfl (hiff.1 hv)⟩
  | cons v vs =>
    refine ⟨false, rfl, iff_of_false Bool.false_ne_true fun hp => ?_⟩
    rw [hiff.2 hp] at hv
    cases hv

end Findings

theorem Rule.decides_place {f : Findings} {p : Prop} (r : Rule) (step : Record.Step) (h : f.Decides p) :
    (r.place step f).Decides p := by
  unfold place
  split
  · exact h
  · exact h.under step

/-! ## Rules and keywords -/

/-- Whether a rule decides a statement about a value, whatever references lead to. -/
def Rule.Decides (r : Rule) (v : Value) (p : Prop) : Prop := ∀ follow, (r.check follow v).Decides p

theorem Rule.Decides.congr {r : Rule} {v : Value} {p q : Prop} (h : r.Decides v p) (hpq : p ↔ q) : r.Decides v q :=
  fun follow => (h follow).congr hpq

/-- Whether a keyword decides a statement about a value. -/
def Keyword.Decides (k : Keyword) (v : Value) (p : Prop) : Prop :=
  ∀ follow condition, (k.check follow condition v).Decides p

/-- Whether several keywords decide a statement about a value. -/
def Keyword.AllDecide (ks : List Keyword) (v : Value) (p : Prop) : Prop :=
  ∀ follow condition, (Keyword.checkEach follow condition ks v).Decides p

theorem Rule.decides_all {ks : List Keyword} {v : Value} {p : Prop} (h : Keyword.AllDecide ks v p) :
    (Rule.all ks).Decides v p := by
  intro follow
  rw [Rule.check]
  exact h follow _

namespace Keyword

variable {v : Value} {p q : Prop}

theorem allDecide_nil : AllDecide [] v True := by
  intro follow condition
  rw [checkEach]
  exact Findings.decides_none

theorem Decides.cons {k : Keyword} {ks : List Keyword} (hk : k.Decides v p) (hks : AllDecide ks v q) :
    AllDecide (k :: ks) v (p ∧ q) := by
  intro follow condition
  rw [checkEach]
  exact (hk follow condition).append (hks follow condition)

/-- A keyword that is kept adds nothing. -/
theorem Decides.cons_accepted {k : Keyword} {ks : List Keyword} (hk : k.Decides v True) (hks : AllDecide ks v p) :
    AllDecide (k :: ks) v p :=
  fun follow condition => (Decides.cons hk hks follow condition).congr (iff_of_eq (true_and p))

theorem AllDecide.congr {ks : List Keyword} (h : AllDecide ks v p) (hpq : p ↔ q) : AllDecide ks v q :=
  fun follow condition => (h follow condition).congr hpq

theorem Decides.congr {k : Keyword} (h : k.Decides v p) (hpq : p ↔ q) : k.Decides v q :=
  fun follow condition => (h follow condition).congr hpq

theorem decides_type {w : Bool} {names : List Value} (h : hasSomeType w v names = .ok true) :
    Keyword.Decides (.type w names) v True := by
  intro follow condition
  simp only [check_type, checkSimple, h, Findings.given]
  exact (Findings.decides_when _ _).congr (by simp)

theorem decides_pattern {pattern : Pattern} {s : String} (h : pattern.matches? s = .ok true) :
    Keyword.Decides (.pattern pattern) (.text s) True := by
  intro follow condition
  simp only [check_pattern, checkSimple, h, Findings.given]
  exact (Findings.decides_when _ _).congr (by simp)

end Keyword

/-! ### Members of objects -/

/-- Whether an object has a member of a name. -/
def HasMember (es : List (Scalar × Value)) (name : String) : Prop := ∃ x, (Scalar.text name, x) ∈ es

theorem lookupText_mem {es : List (Scalar × Value)} {name : String} {x : Value} (h : lookupText name es = some x) :
    (Scalar.text name, x) ∈ es := by
  induction es with
  | nil => cases h
  | cons e es ih =>
    obtain ⟨k, v⟩ := e
    cases k with
    | text s =>
      rw [lookupText] at h
      by_cases hs : s = name
      · rw [if_pos hs] at h
        cases h
        exact hs ▸ List.mem_cons_self
      · rw [if_neg hs] at h
        exact List.mem_cons_of_mem _ (ih h)
    | _ => exact List.mem_cons_of_mem _ (ih h)

theorem lookupText_ne_none {es : List (Scalar × Value)} {name : String} {x : Value} (h : (Scalar.text name, x) ∈ es) :
    lookupText name es ≠ none := by
  induction es with
  | nil => cases h
  | cons e es ih =>
    obtain ⟨k, v⟩ := e
    cases k with
    | text s =>
      rw [lookupText]
      by_cases hs : s = name
      · simp [hs]
      · rw [if_neg hs]
        refine ih ((List.mem_cons.1 h).resolve_left fun he => ?_)
        cases he
        exact hs rfl
    | _ => exact ih ((List.mem_cons.1 h).resolve_left fun he => by cases he)

/-- Nothing but a text is equal to a text as a key. -/
theorem Scalar.same_text {k : Scalar} {name : String} : k.same (.text name) = true ↔ k = .text name := by
  cases k with
  | float x => cases h : x.toInt? <;> simp [Scalar.same, Scalar.whole?, h]
  | _ => simp [Scalar.same, Scalar.whole?]

theorem lookupScalar_isNone {es : List (Scalar × Value)} {name : String} :
    (lookupScalar (.text name) es).isNone = false ↔ HasMember es name := by
  induction es with
  | nil => simp [lookupScalar, HasMember]
  | cons e es ih =>
    obtain ⟨k, v⟩ := e
    rw [lookupScalar]
    by_cases hk : k = .text name
    · rw [if_pos (Scalar.same_text.2 hk)]
      exact iff_of_true rfl ⟨v, hk ▸ List.mem_cons_self⟩
    · rw [if_neg fun h => hk (Scalar.same_text.1 h), ih]
      simp [HasMember, Ne.symm hk]

namespace Keyword

theorem decides_required {es : List (Scalar × Value)} (names : List String) :
    Keyword.Decides (.required (names.map .text)) (.map es) (∀ n ∈ names, HasMember es n) := by
  intro follow condition
  simp only [check_required, checkSimple, List.map_map]
  exact Findings.decides_concat fun n _ => (Findings.decides_when _ _).congr lookupScalar_isNone

/-- What the properties decide is what their rules decide of the members that are there. -/
theorem decides_properties {es : List (Scalar × Value)} {rules : List (String × Rule)} {q : String → Prop}
    (h : ∀ p ∈ rules, ∀ x, (Scalar.text p.1, x) ∈ es → p.2.Decides x (q p.1)) :
    Keyword.Decides (.properties rules) (.map es) (∀ p ∈ rules, HasMember es p.1 → q p.1) := by
  intro follow condition
  rw [check]
  induction rules with
  | nil =>
    rw [Rule.checkNamed]
    exact Findings.decides_none.congr (by simp)
  | cons p rules ih =>
    obtain ⟨name, r⟩ := p
    rw [List.forall_mem_cons] at h
    rw [Rule.checkNamed]
    refine (Findings.Decides.append ?_ (ih h.2)).congr List.forall_mem_cons.symm
    cases hx : lookupText name es with
    | some x =>
      have hmem := lookupText_mem hx
      exact (Rule.decides_place r _ (h.1 x hmem follow)).congr ⟨fun hq _ => hq, fun hq => hq ⟨x, hmem⟩⟩
    | none =>
      refine Findings.decides_none.congr (iff_of_true trivial fun hm => ?_)
      obtain ⟨x, hmem⟩ := hm
      exact absurd hx (lookupText_ne_none hmem)

/-- The members that a pattern tells keep the rule of the pattern. -/
theorem decides_patternProperties {es : List (Scalar × Value)} {rules : List (Pattern × Rule)}
    (h : ∀ p ∈ rules, ∀ e ∈ es,
      ∃ b, p.1.matches? (Value.scalar e.1).display = .ok b ∧ (b = true → p.2.Decides e.2 True)) :
    Keyword.Decides (.patternProperties rules) (.map es) True := by
  intro follow condition
  rw [check]
  induction rules with
  | nil =>
    rw [Rule.checkPatterns]
    exact Findings.decides_none
  | cons p rules ih =>
    obtain ⟨pattern, r⟩ := p
    rw [List.forall_mem_cons] at h
    rw [Rule.checkPatterns]
    refine (Findings.Decides.append ?_ (ih h.2)).congr (iff_true_intro ⟨trivial, trivial⟩)
    have heach := h.1
    clear ih h
    induction es with
    | nil =>
      rw [eachMember]
      exact Findings.decides_none
    | cons e es ih =>
      obtain ⟨k, x⟩ := e
      rw [List.forall_mem_cons] at heach
      obtain ⟨⟨b, hb, hr⟩, heach⟩ := heach
      rw [eachMember]
      simp only [hb, Findings.given]
      refine (Findings.Decides.append ?_ (ih heach)).congr (iff_true_intro ⟨trivial, trivial⟩)
      cases b with
      | false => exact Findings.decides_none
      | true => exact Rule.decides_place r _ (hr rfl follow)

/-- Which members are neither listed nor told by a pattern. -/
theorem extraMembers_ok {listed : List String} {ps : List Pattern} {told : String → Bool}
    (h : ∀ s, Pattern.anyMatches ps s = .ok (told s)) (es : List (Scalar × Value)) :
    extraMembers listed ps es =
      .ok ((es.map fun e => ((Value.scalar e.1).display, e.2)).filter fun e => !(listed.contains e.1 || told e.1)) := by
  induction es with
  | nil => rfl
  | cons e es ih =>
    obtain ⟨k, x⟩ := e
    simp only [extraMembers, ih, h, List.map_cons, List.filter_cons]
    cases hl : listed.contains (Value.scalar k).display <;> cases ht : told (Value.scalar k).display <;> rfl

/-- No member but those that are listed or told by a pattern. -/
theorem decides_noExtras {es : List (Scalar × Value)} {listed : List String} {ps : List Pattern} {has : Bool}
    {told : String → Bool} (h : ∀ s, Pattern.anyMatches ps s = .ok (told s)) :
    Keyword.Decides (.additionalProperties listed ps has (.always false)) (.map es)
      (∀ e ∈ es, (Value.scalar e.1).display ∈ listed ∨ told (Value.scalar e.1).display = true) := by
  intro follow condition
  rw [check]
  simp only [extraMembers_ok h, isNever, if_true]
  refine (Findings.decides_when _ _).congr ?_
  rw [Bool.not_eq_false', List.isEmpty_iff, List.filter_eq_nil_iff, List.forall_mem_map]
  simp [or_iff_not_imp_left]

/-- Every member keeps one rule. -/
theorem decides_everyMember {es : List (Scalar × Value)} {r : Rule} {has : Bool} (hr : isNever r = false)
    (h : ∀ e ∈ es, r.Decides e.2 True) : Keyword.Decides (.additionalProperties [] [] has r) (.map es) True := by
  intro follow condition
  have hnone : ∀ s, Pattern.anyMatches [] s = .ok ((fun _ => false) s) := fun _ => rfl
  rw [check]
  simp only [extraMembers_ok hnone, hr, Bool.false_eq_true, if_false]
  have heach :
      ∀ p ∈ (es.map fun e => ((Value.scalar e.1).display, e.2)).filter fun e =>
        !(([] : List String).contains e.1 || false),
      (r.place (.key p.1) (r.check follow p.2)).Decides True := by
    intro p hp
    obtain ⟨e, he, rfl⟩ := List.mem_map.1 (List.mem_filter.1 hp).1
    exact Rule.decides_place r _ (h e he follow)
  exact (Findings.decides_concat heach).congr (iff_true_intro fun _ _ => trivial)

/-! ### Lists and choices -/

theorem decides_items {xs : List Value} {r : Rule} (hr : isNever r = false) (h : ∀ x ∈ xs, r.Decides x True) :
    Keyword.Decides (.items 0 r) (.list xs) True := by
  intro follow condition
  have heach : ∀ (xs : List Value) (i : Nat), (∀ x ∈ xs, r.Decides x True) →
      (eachItem (fun step x => r.place step (r.check follow x)) i xs).Decides True := by
    intro xs
    induction xs with
    | nil =>
      intro i _
      rw [eachItem]
      exact Findings.decides_none
    | cons x xs ih =>
      intro i h
      rw [List.forall_mem_cons] at h
      rw [eachItem]
      exact ((Rule.decides_place r _ (h.1 follow)).append (ih _ h.2)).congr (iff_true_intro ⟨trivial, trivial⟩)
  rw [check]
  simp only [List.drop_zero, hr, Bool.false_and, Bool.false_eq_true, if_false]
  exact heach xs 0 h

theorem decides_someItem {x : Value} {xs : List Value} :
    Keyword.Decides (.least .items (.int 1)) (.list (x :: xs)) True := by
  intro follow condition
  have hcount : ((Scalar.int (x :: xs).length).compare? (.int 1) == some .lt) = false := by
    have hle : ¬((x :: xs).length : Int) < 1 := by
      rw [List.length_cons]
      omega
    have hcompare : compare ((x :: xs).length : Int) 1 ≠ .lt := by
      show compareOfLessAndEq _ _ ≠ _
      unfold compareOfLessAndEq
      rw [if_neg hle]
      split <;> decide
    simpa [Scalar.compare?, Scalar.infiniteSign?, Scalar.ratio?] using hcompare
  simp only [check_least, checkSimple, Extent.of?, hcount]
  exact Findings.decides_none

theorem decides_not {r : Rule} {source v : Value} {p : Prop} (h : r.Decides v p) :
    Keyword.Decides (.not source r) v ¬p := by
  intro follow condition
  obtain ⟨b, hb, hp⟩ := (h follow).holds
  rw [check]
  simp only [hb, Findings.given]
  exact (Findings.decides_when _ _).congr (by rw [← hp, Bool.not_eq_true])

theorem decides_anyOf {α : Type} {xs : List α} {f : α → Rule} {v : Value} {q : α → Prop}
    (h : ∀ x ∈ xs, (f x).Decides v (q x)) : Keyword.Decides (.anyOf (xs.map f)) v (∃ x ∈ xs, q x) := by
  intro follow condition
  rw [check]
  induction xs with
  | nil =>
    rw [List.map_nil, Rule.checkAny]
    exact (Findings.decides_violation _).congr (by simp)
  | cons x xs ih =>
    rw [List.forall_mem_cons] at h
    have hx := h.1 follow
    rw [List.map_cons, Rule.checkAny]
    simp only [hx.ends]
    cases hv : ((f x).check follow v).violations with
    | nil => exact Findings.decides_none.congr (iff_of_true trivial ⟨x, List.mem_cons_self, hx.iff.1 hv⟩)
    | cons w ws =>
      have hnot : ¬q x := fun hq => by
        rw [hx.iff.2 hq] at hv
        cases hv
      exact (ih h.2).congr (by simp [hnot])

end Keyword

end ApiProjection
