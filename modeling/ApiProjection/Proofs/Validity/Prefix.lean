import Mathlib.Data.List.Induction
import ApiProjection.Validation.Bundled
import ApiProjection.Validation.Check
/-!
# Expressions for beginnings

An expression that is a text behind a mark of the start is found in the texts that begin with that text, and
nowhere else.

* `Regex.search_beginning`: for any beginning.
* `Pattern.extension_matches`, `Pattern.path_matches`: for the two expressions of the meta-schemas.
* `Pattern.version30_matches`, `Pattern.version31_matches`: the versions written are those that are asked for.
-/
namespace ApiProjection

namespace Regex

/-- The set of one character. -/
def exactly1 (c : Char) : Regex := .one { items := [.range c.toNat c.toNat] }

/-- The expression for the texts that begin with given characters. -/
def beginning (cs : List Char) : Regex := cs.foldl (fun r c => .both r (exactly1 c)) (.both .empty .textStart)

theorem beginning_concat (cs : List Char) (c : Char) : beginning (cs ++ [c]) = .both (beginning cs) (exactly1 c) := by
  rw [beginning, List.foldl_append]
  rfl

theorem ends_exactly1 (c : Char) (x : Place) : ends (exactly1 c) x = (x.step? fun d => d == c).toList := by
  have hhas : ∀ d : Char, CharSet.has { items := [.range c.toNat c.toNat] } d = (d == c) := by
    intro d
    rw [Bool.eq_iff_iff]
    simp only [CharSet.has, CaseRule.variants, CharItem.has, List.any_cons, List.any_nil, Bool.or_false, bne_iff_ne,
      ne_eq, Bool.not_eq_false, Bool.and_eq_true, decide_eq_true_eq, beq_iff_eq, Char.ext_iff, UInt32.ext_iff]
    show c.toNat ≤ d.toNat ∧ d.toNat ≤ c.toNat ↔ d.toNat = c.toNat
    omega
  rw [exactly1, ends, funext hhas]

theorem concat_prefix {cs : List Char} {c : Char} {text : List Char} :
    cs ++ [c] <+: text ↔ cs <+: text ∧ (text.drop cs.length).head? = some c := by
  constructor
  · rintro ⟨rest, rfl⟩
    exact ⟨⟨c :: rest, by simp⟩, by simp⟩
  · rintro ⟨⟨rest, rfl⟩, h⟩
    rw [List.drop_left, List.head?_eq_some_iff] at h
    obtain ⟨rest, rfl⟩ := h
    exact ⟨rest, by simp⟩

/-- A match of a beginning is at the start of the text, and one there takes its characters. -/
theorem ends_beginning (cs : List Char) (x : Place) :
    (x.before = [] ∧ cs <+: x.after → ∃ y, ends (beginning cs) x = [y] ∧ y.after = x.after.drop cs.length) ∧
      (¬(x.before = [] ∧ cs <+: x.after) → ends (beginning cs) x = []) := by
  induction cs using List.reverseRecOn with
  | nil =>
    have hstart : ends (beginning []) x = x.when x.before.isEmpty := by
      rw [beginning, List.foldl_nil, ends, ends, List.flatMap_singleton, ends, Place.when]
      split <;> rfl
    rw [hstart]
    constructor
    · rintro ⟨hb, -⟩
      exact ⟨x, by rw [hb]; rfl, rfl⟩
    · intro h
      have hb : x.before ≠ [] := fun hb => h ⟨hb, List.nil_prefix⟩
      rw [Place.when, if_neg]
      simpa using hb
  | append_singleton cs c ih =>
    rw [beginning_concat, ends, concat_prefix, ← and_assoc]
    by_cases h : x.before = [] ∧ cs <+: x.after
    · obtain ⟨y, hy, hafter⟩ := ih.1 h
      rw [hy, List.flatMap_singleton, ends_exactly1, ← hafter, Place.step?]
      cases hrest : y.after with
      | nil => simp [distinct]
      | cons d rest =>
        by_cases hd : d = c
        · have hdrop : x.after.drop (cs.length + 1) = rest := by
            rw [← List.drop_drop, ← hafter, hrest]
            rfl
          simp [distinct, add, h, hd, hdrop]
        · simp [distinct, hd]
    · rw [ih.2 h]
      simp [distinct, h]

/-- A beginning is found in the texts that have it. -/
theorem search_beginning (cs : List Char) (s : String) : (beginning cs).search s = cs.isPrefixOf s.toList := by
  have hlater : ∀ (text before : List Char) (index : Nat), before ≠ [] →
      searchFrom (beginning cs) index before text = false := by
    intro text
    induction text with
    | nil =>
      intro before index hb
      rw [searchFrom, (ends_beginning cs _).2 fun h => hb h.1]
      rfl
    | cons c text ih =>
      intro before index hb
      rw [searchFrom, (ends_beginning cs _).2 fun h => hb h.1, ih _ _ (List.cons_ne_nil c before)]
      rfl
  have hfirst : ∀ text,
      (!(ends (beginning cs) { index := 0, before := [], after := text }).isEmpty) = cs.isPrefixOf text := by
    intro text
    by_cases h : cs <+: text
    · obtain ⟨y, hy, -⟩ := (ends_beginning cs { index := 0, before := [], after := text }).1 ⟨rfl, h⟩
      rw [hy, List.isPrefixOf_iff_prefix.2 h]
      rfl
    · rw [(ends_beginning cs { index := 0, before := [], after := text }).2 fun hp => h hp.2]
      rw [← List.isPrefixOf_iff_prefix, Bool.not_eq_true] at h
      rw [h]
      rfl
  rw [search]
  cases s.toList with
  | nil => rw [searchFrom, hfirst]
  | cons c text => rw [searchFrom, hfirst, hlater _ _ _ (List.cons_ne_nil c []), Bool.or_false]

end Regex

namespace Pattern

theorem ofText_beginning {source : String} {cs : List Char} (h : Regex.parse source = .ok (Regex.beginning cs))
    (s : String) : (ofText source).matches? s = .ok (cs.isPrefixOf s.toList) := by
  simp only [matches?, ofText, h, Regex.search_beginning]

/-- The expression for the names of extensions. -/
theorem extension_matches (s : String) : (ofText "^x-").matches? s = .ok ("x-".toList.isPrefixOf s.toList) :=
  ofText_beginning (by rfl) s

/-- The expression for paths. -/
theorem path_matches (s : String) : (ofText "^/").matches? s = .ok ("/".toList.isPrefixOf s.toList) :=
  ofText_beginning (by rfl) s

/-- A document's version is one that the meta-schema of the version asks for. -/
theorem version30_matches : (ofText "^3\\.0\\.\\d+(-.+)?$").matches? Target.v30.version = .ok true := by
  rfl

theorem version31_matches : (ofText "^3\\.1\\.\\d+(-.+)?$").matches? Target.v31.version = .ok true := by
  rfl

end Pattern
end ApiProjection
