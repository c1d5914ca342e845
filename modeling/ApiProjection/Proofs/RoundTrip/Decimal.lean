import ApiProjection.Proofs.RoundTrip.Digits
/-!
# The text of a floating-point number

A finite floating-point number is written as a `Decimal`: digits before a point, digits behind it, an
exponent. What such a text is read as depends on its parts alone.

* `Binary64.chars_finite`: what is written for a finite number is a decimal text.
* `Json.readNumber_decimal`: what a decimal text is read as.
-/
namespace ApiProjection

/-- The parts of a decimal text. Without digits behind a point there is no point, and without digits
of an exponent no exponent. -/
structure Decimal where
  isNegative : Bool
  whole : List Char
  fraction : List Char
  exponentIsNegative : Bool
  exponent : List Char

namespace Decimal

/-- The point with the digits behind it. -/
def point (d : Decimal) : List Char := if d.fraction = [] then [] else '.' :: d.fraction

/-- The exponent with its letter and sign. -/
def power (d : Decimal) : List Char :=
  if d.exponent = [] then [] else 'e' :: (if d.exponentIsNegative then '-' else '+') :: d.exponent

/-- The text without its sign. -/
def body (d : Decimal) : List Char := d.whole ++ (d.point ++ d.power)

def chars (d : Decimal) : List Char := if d.isNegative then '-' :: d.body else d.body

/-- The power of ten that the exponent is. -/
def scale (d : Decimal) : Int :=
  if d.exponentIsNegative then -(Json.digitsValue d.exponent : Int) else Json.digitsValue d.exponent

/-- The number that is read. -/
def value (d : Decimal) : Binary64 :=
  .ofDecimal d.isNegative (Json.digitsValue (d.whole ++ d.fraction)) (d.scale - d.fraction.length)

/-- Whether the parts are of digits, and there is a point or an exponent. -/
structure WellFormed (d : Decimal) : Prop where
  whole : Json.Whole d.whole
  fraction : ∀ c ∈ d.fraction, Json.isDigit c = true
  exponent : ∀ c ∈ d.exponent, Json.isDigit c = true
  isNoInteger : d.fraction ≠ [] ∨ d.exponent ≠ []

end Decimal

/-! ## Writing -/

namespace Binary64

theorem ratioLe_zero {lo : Nat × Nat} {d : Nat} (hlo : 0 < lo.1) (hd : 0 < d) : ratioLe lo (0, d) = false := by
  simp only [ratioLe, Nat.zero_mul, Nat.le_zero_eq, decide_eq_false_iff_not]
  exact Nat.ne_of_gt (Nat.mul_pos hlo hd)

theorem magnitude_positive {m : Nat} (h : 0 < m) (e : Int) : 0 < (magnitude m e).1 := by
  unfold magnitude
  split
  · exact Nat.mul_pos h (Nat.pow_pos (by decide))
  · exact h

/-- No positive number is read back from a zero. -/
theorem readsBack_zero {m : Nat} (h : 0 < m) (e k : Int) : readsBack m e 0 k = false := by
  have hten : ∀ x : Nat, 0 < Nat.pow 10 x := fun x => Nat.pow_pos (by decide)
  have hlower : 0 < (if m = Nat.pow 2 52 && leastExponent < e then 4 * m - 1 else 4 * m - 2) := by
    split <;> omega
  have hlo := magnitude_positive hlower (e - 2)
  have hx : ∃ d, 0 < d ∧
      (if 0 ≤ k then (0 * Nat.pow 10 k.toNat, 1) else (0, Nat.pow 10 (-k).toNat)) = (0, d) := by
    split
    · exact ⟨1, by decide, by rw [Nat.zero_mul]⟩
    · exact ⟨_, hten _, rfl⟩
  obtain ⟨d, hd, hx⟩ := hx
  unfold readsBack
  simp only [hx]
  split
  · rw [ratioLe_zero hlo hd, Bool.false_and]
  · simp [ratioLe]

theorem gridHit_positive {m : Nat} (hm : 0 < m) {e : Int} {n d : Nat} {k : Int} {digits : Nat}
    (h : gridHit? m e n d k = some digits) : 0 < digits := by
  have hback : ∀ digits, readsBack m e digits k = true → 0 < digits := by
    intro digits hd
    refine Nat.pos_of_ne_zero fun h0 => ?_
    rw [h0, readsBack_zero hm] at hd
    cases hd
  unfold gridHit? at h
  generalize scaleDown 10 n d k = x at h
  simp only at h
  split at h
  · rename_i hb _
    have := hback _ hb
    repeat' split at h
    all_goals cases h; omega
  · rename_i hb _
    cases h
    exact hback _ hb
  · cases h
    exact Nat.succ_pos _
  · cases h

theorem stripZeros_positive (fuel : Nat) {digits : Nat} (h : 0 < digits) (k : Int) :
    0 < (stripZeros fuel digits k).1 := by
  induction fuel generalizing digits k with
  | zero => exact h
  | succ fuel ih =>
    rw [stripZeros]
    split
    · exact ih (by omega) _
    · exact h

/-- The digits of a positive number are not all zero. -/
theorem shortest_positive {m : Nat} (h : 0 < m) (e : Int) : 0 < (shortest m e).1 := by
  unfold shortest
  generalize magnitude m e = x
  obtain ⟨n, d⟩ := x
  simp only
  split
  · rename_i digits k hhit
    obtain ⟨i, -, hi⟩ := List.exists_of_findSome?_eq_some hhit
    obtain ⟨digits', hg, heq⟩ := Option.map_eq_some_iff.1 hi
    cases heq
    exact stripZeros_positive 18 (gridHit_positive h hg) _
  · exact h

/-- What is written for positive digits is a decimal text without a sign. -/
theorem write_eq {digits : Nat} (h : 0 < digits) (k : Int) :
    ∃ d : Decimal, Layout.standard.write digits k = d.body ∧ d.WellFormed ∧ d.isNegative = false := by
  obtain ⟨c, cs, hds, hc⟩ := Json.toDigits_positive h
  have hdigits : ∀ x ∈ c :: cs, Json.isDigit x = true := fun x hx => Json.isDigit_toDigits (n := digits) (hds ▸ hx)
  have hzeros (n : Nat) : ∀ x ∈ List.replicate n '0', Json.isDigit x = true := by
    intro x hx
    rw [List.eq_of_mem_replicate hx]
    rfl
  have hnezero : c :: cs ≠ ['0'] := by simp [hc]
  unfold Layout.write
  rw [hds]
  simp only
  split
  · split
    · exact ⟨⟨false, ['0'], List.replicate (-((c :: cs).length + k)).toNat '0' ++ c :: cs, false, []⟩,
        by simp [Decimal.body, Decimal.point, Decimal.power],
        ⟨.zero, List.forall_mem_append.2 ⟨hzeros _, hdigits⟩, by simp, .inl (by simp)⟩, rfl⟩
    · split
      · exact ⟨⟨false, c :: cs ++ List.replicate k.toNat '0', ['0'], false, []⟩,
          by simp [Decimal.body, Decimal.point, Decimal.power],
          ⟨(Json.Whole.run hc hdigits).append hnezero (hzeros _), hzeros 1, by simp, .inl (by simp)⟩, rfl⟩
      · rename_i hplace hk
        obtain ⟨p, hp⟩ : ∃ p : Nat, ((c :: cs).length + k).toNat = p + 1 := ⟨((c :: cs).length + k).toNat - 1, by omega⟩
        rw [hp]
        have hdrop : (c :: cs).drop (p + 1) ≠ [] := by
          intro he
          have := List.drop_eq_nil_iff.1 he
          omega
        refine ⟨⟨false, (c :: cs).take (p + 1), (c :: cs).drop (p + 1), false, []⟩, ?_,
          ⟨?_, fun x hx => hdigits x (List.mem_of_mem_drop hx), by simp, .inl hdrop⟩, rfl⟩
        · simp only [Decimal.body, Decimal.point, Decimal.power, if_neg hdrop, if_true, List.append_nil]
        · rw [List.take_succ_cons]
          exact .run hc fun x hx => hdigits x (List.mem_of_mem_take (i := p + 1) hx)
  · have hexp (n : Nat) : ∀ x ∈ padded Layout.standard.exponentDigits n, Json.isDigit x = true := by
      unfold padded
      exact List.forall_mem_append.2 ⟨hzeros _, fun x hx => Json.isDigit_toDigits hx⟩
    have hne (n : Nat) : padded Layout.standard.exponentDigits n ≠ [] := by
      unfold padded
      simp [Nat.toDigits_ne_nil]
    generalize ((c :: cs).length : Int) + k - 1 = x
    refine ⟨⟨false, [c], cs, decide (x < 0), padded Layout.standard.exponentDigits x.natAbs⟩, ?_,
      ⟨.run hc (List.forall_mem_singleton.2 (hdigits c List.mem_cons_self)),
        fun y hy => hdigits y (List.mem_cons_of_mem c hy), hexp _, .inr (hne _)⟩, rfl⟩
    cases cs <;> simp [Decimal.body, Decimal.point, Decimal.power, hne]

/-- What is written for a finite number is a decimal text. -/
theorem chars_finite (s : Bool) (m : Nat) (e : Int) :
    ∃ d : Decimal, (Binary64.finite s m e).chars = d.chars ∧ d.WellFormed := by
  have hsigned : ∀ d : Decimal, d.WellFormed →
      ∃ d' : Decimal, (if s then '-' :: d.body else d.body) = d'.chars ∧ d'.WellFormed :=
    fun d h => ⟨{ d with isNegative := s }, rfl, ⟨h.whole, h.fraction, h.exponent, h.isNoInteger⟩⟩
  unfold chars
  simp only
  by_cases hm : m = 0
  · rw [if_pos hm]
    exact hsigned ⟨false, ['0'], ['0'], false, []⟩ ⟨.zero, List.forall_mem_singleton.2 rfl, by simp, .inl (by simp)⟩
  · obtain ⟨d, hd, hwf, -⟩ := write_eq (shortest_positive (Nat.pos_of_ne_zero hm) e) (shortest m e).2
    rw [if_neg hm, hd]
    exact hsigned d hwf

end Binary64

/-! ## Reading -/

namespace Json

/-- Whether a text does not go on with a number. -/
def EndsNumber (rest : List Char) : Prop :=
  ∀ c ∈ rest.head?, isDigit c = false ∧ c ≠ '.' ∧ c ≠ 'e' ∧ c ≠ 'E'

theorem EndsNumber.endsDigits {rest : List Char} (h : EndsNumber rest) : EndsDigits rest := fun c hc => (h c hc).1

theorem fractionPart_none {cs : List Char} (h : ∀ c ∈ cs.head?, c ≠ '.') : fractionPart cs = (none, cs) := by
  unfold fractionPart
  split
  · exact absurd rfl (h '.' rfl)
  · rfl

theorem exponentPart_none {cs : List Char} (h : ∀ c ∈ cs.head?, c ≠ 'e' ∧ c ≠ 'E') : exponentPart cs = (none, cs) := by
  cases cs with
  | nil => rfl
  | cons c cs => simp [exponentPart, h c rfl]

section
variable {d : Decimal} {rest : List Char}

/-- The scale of a number without an exponent is zero. -/
theorem scale_getD (d : Decimal) : (if d.exponent = [] then none else some d.scale).getD 0 = d.scale := by
  split
  · rename_i h
    rw [Decimal.scale, h]
    cases d.exponentIsNegative <;> rfl
  · rfl

theorem exponentPart_power (hd : d.WellFormed) (hr : EndsNumber rest) :
    exponentPart (d.power ++ rest) = (if d.exponent = [] then none else some d.scale, rest) := by
  unfold Decimal.power Decimal.scale
  by_cases h : d.exponent = []
  · simp only [h, if_true, List.nil_append]
    exact exponentPart_none fun c hc => (hr c hc).2.2
  · have htake := takeDigits_append hd.exponent hr.endsDigits
    obtain ⟨c, cs, hcs⟩ := List.exists_cons_of_ne_nil h
    simp only [if_neg h]
    rw [hcs] at htake ⊢
    rw [List.cons_append] at htake
    cases d.exponentIsNegative <;> simp [exponentPart, htake]

/-- The digits before the exponent end there. -/
theorem power_ends (hr : EndsNumber rest) : EndsDigits (d.power ++ rest) ∧ ∀ c ∈ (d.power ++ rest).head?, c ≠ '.' := by
  unfold Decimal.power
  split
  · exact ⟨hr.endsDigits, fun c hc => (hr c hc).2.1⟩
  · refine ⟨?_, ?_⟩ <;> (rintro c ⟨⟩; decide)

theorem fractionPart_point (hd : d.WellFormed) (hr : EndsNumber rest) :
    fractionPart (d.point ++ (d.power ++ rest)) =
      (if d.fraction = [] then none else some d.fraction, d.power ++ rest) := by
  obtain ⟨hdigits, hpoint⟩ := power_ends (d := d) hr
  unfold Decimal.point
  by_cases h : d.fraction = []
  · simp only [h, if_true, List.nil_append]
    exact fractionPart_none hpoint
  · have htake := takeDigits_append hd.fraction hdigits
    obtain ⟨c, cs, hcs⟩ := List.exists_cons_of_ne_nil h
    simp only [if_neg h]
    rw [hcs] at htake ⊢
    rw [List.cons_append, fractionPart, htake]

theorem wholePart_body (hd : d.WellFormed) (hr : EndsNumber rest) :
    wholePart? (d.body ++ rest) = some (d.whole, d.point ++ (d.power ++ rest)) := by
  rw [Decimal.body, List.append_assoc, List.append_assoc, hd.whole.wholePart]
  unfold Decimal.point
  split
  · exact (power_ends hr).1
  · rintro c ⟨⟩
    decide

theorem body_ne_minus (hd : d.WellFormed) : ∀ cs, d.body ++ rest ≠ '-' :: cs := by
  intro cs h
  obtain ⟨c, ds, hds⟩ := List.exists_cons_of_ne_nil hd.whole.ne_nil
  have hc := hd.whole.isDigit c (hds ▸ List.mem_cons_self)
  rw [Decimal.body, hds] at h
  cases (List.cons.inj h).1
  exact absurd hc (by decide)

/-- What a decimal text is read as. -/
theorem readNumber_decimal (hd : d.WellFormed) (hr : EndsNumber rest) :
    readNumber (d.chars ++ rest) = .ok (.float d.value, rest) := by
  have hfloat : ((if d.fraction = [] then none else some d.fraction).isNone &&
      (if d.exponent = [] then none else some d.scale).isNone) = false := by
    rcases hd.isNoInteger with h | h
    · rw [if_neg h]
      rfl
    · rw [if_neg h]
      exact Bool.and_false _
  have hfraction : (if d.fraction = [] then none else some d.fraction).getD [] = d.fraction := by
    split
    · rename_i h
      rw [h]
      rfl
    · rfl
  rw [Decimal.value, Decimal.chars]
  cases d.isNegative with
  | false =>
    rw [if_neg Bool.false_ne_true]
    unfold readNumber
    split
    rename_i h
    split at h
    · rename_i hminus
      exact absurd hminus (body_ne_minus hd _)
    · cases h
      simp only [wholePart_body hd hr, fractionPart_point hd hr, exponentPart_power hd hr, hfloat, hfraction, scale_getD,
        Bool.false_eq_true, if_false]
  | true =>
    rw [if_pos rfl, List.cons_append]
    unfold readNumber
    simp only [wholePart_body hd hr, fractionPart_point hd hr, exponentPart_power hd hr, hfloat, hfraction, scale_getD,
      Bool.false_eq_true, if_false]

end

end Json
end ApiProjection
