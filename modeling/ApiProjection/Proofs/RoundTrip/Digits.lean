import Mathlib.Data.List.Basic
import Mathlib.Tactic.IntervalCases
import ApiProjection.Json.Printer
import ApiProjection.Json.Reader
/-!
# Digits that are written and read

Decimal digits are read as the number that they are written for, and a run of digits ends where they end.

* `Json.digitsValue_toDigits`, `Json.takeDigits_append`.
* `Json.Whole`: digits that may stand before a point, as those of a natural number do.
-/
namespace ApiProjection

namespace Json

theorem isDigit_eq (c : Char) : isDigit c = c.isDigit := by
  rw [isDigit, Char.isDigit, Bool.eq_iff_iff]
  simp [Char.le_def]

theorem isDigit_toDigits {n : Nat} {c : Char} (h : c ∈ Nat.toDigits 10 n) : isDigit c = true := by
  rw [isDigit_eq]
  exact Nat.isDigit_of_mem_toDigits (by decide) (by decide) h

theorem digitsValue_eq (cs : List Char) : digitsValue cs = Nat.ofDigitChars 10 cs 0 := by
  rw [digitsValue, Nat.ofDigitChars_eq_foldl]
  simp only [Nat.mul_comm]
  rfl

/-- Digits are read as the number that they are written for. -/
theorem digitsValue_toDigits (n : Nat) : digitsValue (Nat.toDigits 10 n) = n := by
  rw [digitsValue_eq, Nat.ofDigitChars_ten_toDigits]

theorem digitsValue_append (cs ds : List Char) :
    digitsValue (cs ++ ds) = 10 ^ ds.length * digitsValue cs + digitsValue ds := by
  rw [digitsValue_eq, digitsValue_eq, digitsValue_eq, Nat.ofDigitChars_append, Nat.ofDigitChars_eq_ofDigitChars_zero]

/-- The digits of a positive number do not begin with a zero. -/
theorem toDigits_positive {n : Nat} (h : 0 < n) : ∃ c cs, Nat.toDigits 10 n = c :: cs ∧ c ≠ '0' := by
  induction n using Nat.strongRecOn with
  | ind n ih =>
    rcases Nat.lt_or_ge n 10 with hlt | hge
    · refine ⟨n.digitChar, [], Nat.toDigits_of_lt_base hlt, ?_⟩
      interval_cases n <;> decide
    · obtain ⟨c, cs, hcs, hc⟩ := ih (n / 10) (by omega) (by omega)
      exact ⟨c, cs ++ [(n % 10).digitChar], by rw [Nat.toDigits_of_base_le (by decide) hge, hcs]; rfl, hc⟩

/-- Whether a text does not go on with a digit. -/
def EndsDigits (rest : List Char) : Prop := ∀ c ∈ rest.head?, isDigit c = false

theorem takeDigits_append {ds rest : List Char} (hd : ∀ c ∈ ds, isDigit c = true) (hr : EndsDigits rest) :
    takeDigits (ds ++ rest) = (ds, rest) := by
  have hrest : rest.takeWhile isDigit = [] ∧ rest.dropWhile isDigit = rest := by
    cases rest with
    | nil => exact ⟨rfl, rfl⟩
    | cons c cs =>
      have hc : isDigit c = false := hr c rfl
      simp [hc]
  rw [takeDigits, List.takeWhile_append_of_pos hd, List.dropWhile_append_of_pos hd, hrest.1, hrest.2,
    List.append_nil]

/-- Digits that may stand before a point: a zero alone, or digits that do not begin with one. -/
inductive Whole : List Char → Prop
  | zero : Whole ['0']
  | run {c : Char} {cs : List Char} : c ≠ '0' → (∀ d ∈ c :: cs, isDigit d = true) → Whole (c :: cs)

namespace Whole

variable {ds : List Char}

theorem isDigit (h : Whole ds) : ∀ d ∈ ds, isDigit d = true := by
  cases h with
  | zero => exact List.forall_mem_singleton.2 rfl
  | run _ hd => exact hd

theorem ne_nil (h : Whole ds) : ds ≠ [] := by
  cases h <;> simp

theorem append {es : List Char} (h : Whole ds) (h0 : ds ≠ ['0']) (he : ∀ d ∈ es, Json.isDigit d = true) :
    Whole (ds ++ es) := by
  cases h with
  | zero => exact absurd rfl h0
  | run hc hd => exact run hc (List.forall_mem_append.2 ⟨hd, he⟩)

theorem wholePart (h : Whole ds) {rest : List Char} (hr : EndsDigits rest) :
    wholePart? (ds ++ rest) = some (ds, rest) := by
  cases h with
  | zero => rfl
  | @run c cs hc hd =>
    rw [wholePart?, takeDigits_append hd hr]
    simpa using hc

end Whole

theorem whole_toDigits (n : Nat) : Whole (Nat.toDigits 10 n) := by
  rcases Nat.eq_zero_or_pos n with rfl | h
  · exact .zero
  · obtain ⟨c, cs, hcs, hc⟩ := toDigits_positive h
    rw [hcs]
    exact .run hc fun d hd => isDigit_toDigits (n := n) (hcs ▸ hd)

end Json
end ApiProjection
