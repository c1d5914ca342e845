import Mathlib.Algebra.Order.Field.Power
import Mathlib.Data.Int.Log
import Mathlib.Data.Rat.Floor
import Mathlib.Tactic.FieldSimp
import Mathlib.Tactic.Linarith
import Mathlib.Tactic.NormNum
import Mathlib.Tactic.Positivity
import ApiProjection.Number.Binary64
/-!
# Rounding and scale

What a quotient is rounded to depends on its value and not on the numerator and denominator it is given by, so a zero
behind the last digit of a decimal number changes nothing.

* `Binary64.exponentFor_eq`: the exponent of a quotient is told by its binary logarithm.
* `Binary64.ofRatio_mul`, `Binary64.ofDecimal_mul_ten`.
-/
namespace ApiProjection.Binary64

section
variable {n d k : Nat} {e : Int}

theorem scaleDown_pos (hd : 0 < d) (e : Int) : 0 < (scaleDown 2 n d e).2 := by
  unfold scaleDown
  split
  · exact Nat.mul_pos hd (Nat.pow_pos (by decide))
  · exact hd

/-- What a quotient is once it is scaled down. -/
theorem scaleDown_ratio (hd : 0 < d) (e : Int) :
    ((scaleDown 2 n d e).1 : ℚ) / (scaleDown 2 n d e).2 = n / d / 2 ^ e := by
  have hd : (d : ℚ) ≠ 0 := by positivity
  unfold scaleDown
  split
  · rename_i h
    obtain ⟨m, rfl⟩ := Int.eq_ofNat_of_zero_le h
    simp [div_div]
  · rename_i h
    obtain ⟨m, rfl⟩ : ∃ m : Nat, e = -m := ⟨(-e).toNat, by omega⟩
    simp
    ring

theorem pow_le_scaleDown (hn : 0 < n) (hd : 0 < d) (m : Nat) (e : Int) :
    2 ^ m ≤ (scaleDown 2 n d e).1 / (scaleDown 2 n d e).2 ↔ (m : Int) + e ≤ Int.log 2 ((n : ℚ) / d) := by
  have hpos : (0 : ℚ) < (scaleDown 2 n d e).2 := by exact_mod_cast scaleDown_pos hd e
  have hquotient : (0 : ℚ) < n / d := by positivity
  rw [Nat.le_div_iff_mul_le (scaleDown_pos hd e), ← Int.zpow_le_iff_le_log (by decide) hquotient]
  have hscale : (0 : ℚ) < 2 ^ e := by positivity
  calc 2 ^ m * (scaleDown 2 n d e).2 ≤ (scaleDown 2 n d e).1
      ↔ (2 : ℚ) ^ m * (scaleDown 2 n d e).2 ≤ (scaleDown 2 n d e).1 := by exact_mod_cast Iff.rfl
    _ ↔ (2 : ℚ) ^ m ≤ (scaleDown 2 n d e).1 / (scaleDown 2 n d e).2 := (le_div_iff₀ hpos).symm
    _ ↔ (2 : ℚ) ^ m ≤ n / d / 2 ^ e := by rw [scaleDown_ratio hd]
    _ ↔ ((2 : Nat) : ℚ) ^ ((m : Int) + e) ≤ n / d := by
      rw [le_div_iff₀ hscale, zpow_add₀ (by norm_num), zpow_natCast, Nat.cast_ofNat]

/-- The binary logarithm of a quotient is that of the numerator less that of the denominator, or one less. -/
theorem log_ratio (hn : 0 < n) (hd : 0 < d) :
    (n.log2 : Int) - d.log2 - 1 ≤ Int.log 2 ((n : ℚ) / d) ∧ Int.log 2 ((n : ℚ) / d) < (n.log2 : Int) - d.log2 + 1 := by
  have hquotient : (0 : ℚ) < n / d := by positivity
  have hdpos : (0 : ℚ) < d := by positivity
  have hnlo : (2 : ℚ) ^ n.log2 ≤ n := by exact_mod_cast Nat.log2_self_le hn.ne'
  have hnhi : (n : ℚ) < 2 ^ (n.log2 + 1) := by exact_mod_cast Nat.lt_log2_self
  have hdlo : (2 : ℚ) ^ d.log2 ≤ d := by exact_mod_cast Nat.log2_self_le hd.ne'
  have hdhi : (d : ℚ) < 2 ^ (d.log2 + 1) := by exact_mod_cast Nat.lt_log2_self
  constructor
  · rw [← Int.zpow_le_iff_le_log (by decide) hquotient, le_div_iff₀ hdpos, Nat.cast_ofNat]
    calc (2 : ℚ) ^ ((n.log2 : Int) - d.log2 - 1) * d ≤ 2 ^ ((n.log2 : Int) - d.log2 - 1) * 2 ^ (d.log2 + 1) := by
          gcongr
      _ = 2 ^ n.log2 := by
        rw [← zpow_natCast, ← zpow_add₀ (by norm_num), ← zpow_natCast]
        congr 1
        push_cast
        ring
      _ ≤ n := hnlo
  · rw [← Int.lt_zpow_iff_log_lt (by decide) hquotient, div_lt_iff₀ hdpos, Nat.cast_ofNat]
    calc (n : ℚ) < 2 ^ (n.log2 + 1) := hnhi
      _ = 2 ^ ((n.log2 : Int) - d.log2 + 1) * 2 ^ d.log2 := by
        rw [← zpow_natCast, ← zpow_natCast, ← zpow_add₀ (by norm_num)]
        congr 1
        push_cast
        ring
      _ ≤ 2 ^ ((n.log2 : Int) - d.log2 + 1) * d := by gcongr

/-- The exponent of a quotient is told by its binary logarithm. -/
theorem exponentFor_eq (hn : 0 < n) (hd : 0 < d) :
    exponentFor n d = max leastExponent (Int.log 2 ((n : ℚ) / d) - 52) := by
  obtain ⟨hlo, hhi⟩ := log_ratio hn hd
  have hmantissa := pow_le_scaleDown hn hd 53 ((n.log2 : Int) - d.log2 - 53)
  unfold exponentFor
  simp only [Nat.pow_eq]
  congr 1
  split
  · rename_i h
    have := hmantissa.1 h
    push_cast at this
    omega
  · rename_i h
    have := fun hle => h (hmantissa.2 hle)
    push_cast at this
    omega

theorem scaleDown_mul (k : Nat) (e : Int) :
    scaleDown 2 (k * n) (k * d) e = (k * (scaleDown 2 n d e).1, k * (scaleDown 2 n d e).2) := by
  unfold scaleDown
  split <;> simp [Nat.mul_assoc]

theorem roundHalfEven_mul (hk : 0 < k) (n d : Nat) : roundHalfEven (k * n) (k * d) = roundHalfEven n d := by
  have hless (a b : Nat) : k * a < k * b ↔ a < b := Nat.mul_lt_mul_left hk
  unfold roundHalfEven
  simp only [Nat.mul_div_mul_left n d hk, Nat.mul_mod_mul_left, Nat.mul_left_comm 2 k, hless]

/-- A quotient is rounded alike however it is given. -/
theorem ofRatio_mul (hk : 0 < k) (hd : 0 < d) (negative : Bool) (n : Nat) :
    ofRatio negative (k * n) (k * d) = ofRatio negative n d := by
  rcases Nat.eq_zero_or_pos n with rfl | hn
  · rfl
  · have hexponent : exponentFor (k * n) (k * d) = exponentFor n d := by
      rw [exponentFor_eq (Nat.mul_pos hk hn) (Nat.mul_pos hk hd), exponentFor_eq hn hd]
      push_cast
      rw [mul_div_mul_left]
      positivity
    unfold ofRatio
    rw [if_neg (Nat.mul_pos hk hn).ne', if_neg hn.ne', hexponent]
    simp only [scaleDown_mul, roundHalfEven_mul hk]

end

theorem toDigits_mul_ten {n : Nat} (hn : 0 < n) :
    (Nat.toDigits 10 (10 * n)).length = (Nat.toDigits 10 n).length + 1 := by
  rw [Nat.toDigits_of_base_le (by decide) (by omega), Nat.mul_div_cancel_left n (by decide), List.length_append,
    List.length_singleton]

/-- A zero behind the last digit, one place further to the right, changes nothing. -/
theorem ofDecimal_mul_ten (negative : Bool) (digits : Nat) (e : Int) :
    ofDecimal negative (10 * digits) (e - 1) = ofDecimal negative digits e := by
  rcases Nat.eq_zero_or_pos digits with rfl | hdigits
  · rfl
  · have hplaces : ((Nat.toDigits 10 (10 * digits)).length : Int) + (e - 1) = (Nat.toDigits 10 digits).length + e := by
      rw [toDigits_mul_ten hdigits]
      push_cast
      ring
    have hround : (if 0 ≤ e - 1 then ofRatio negative (10 * digits * 10 ^ (e - 1).toNat) 1
          else ofRatio negative (10 * digits) (10 ^ (-(e - 1)).toNat)) =
        if 0 ≤ e then ofRatio negative (digits * 10 ^ e.toNat) 1 else ofRatio negative digits (10 ^ (-e).toNat) := by
      rcases Int.lt_trichotomy e 0 with he | rfl | he
      · rw [if_neg (by omega), if_neg (by omega), show (-(e - 1)).toNat = (-e).toNat + 1 by omega, Nat.pow_succ',
          ofRatio_mul (by decide) (Nat.pow_pos (by decide))]
      · rw [if_neg (by omega), if_pos (Int.le_refl 0), show (-(0 - 1 : Int)).toNat = 1 by decide, Nat.pow_one,
          Int.toNat_zero, Nat.pow_zero, Nat.mul_one]
        exact ofRatio_mul (k := 10) (d := 1) (by decide) (by decide) negative digits
      · rw [if_pos (by omega), if_pos he.le, show e.toNat = (e - 1).toNat + 1 by omega, Nat.pow_succ',
          Nat.mul_left_comm,
          Nat.mul_assoc]
    unfold ofDecimal
    rw [if_neg (by omega), if_neg hdigits.ne', hplaces]
    simp only [Nat.pow_eq, hround]

/-- The sign of a decimal number is put on after it is read. -/
theorem neg_ofDecimal (digits : Nat) (e : Int) : (ofDecimal false digits e).neg = ofDecimal true digits e := by
  have hratio (n d : Nat) : (ofRatio false n d).neg = ofRatio true n d := by
    unfold ofRatio
    rw [apply_ite neg]
    simp only
    generalize (if roundHalfEven _ _ = _ then _ else _ : Nat × Int) = x
    rw [apply_ite neg]
    rfl
  unfold ofDecimal
  simp only [apply_ite neg, hratio]
  rfl

end ApiProjection.Binary64
