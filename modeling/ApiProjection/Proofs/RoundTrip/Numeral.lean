import ApiProjection.Proofs.RoundTrip.Json
import ApiProjection.Proofs.RoundTrip.Plain
import ApiProjection.Proofs.RoundTrip.Rounding
import ApiProjection.Yaml.Number
/-!
# Numbers in YAML

The text of a number stands plain, is told from other plain text by its form, and is read as the number that it is
written for.

* `standsPlain_numeral`: a text of digits, signs, points and exponents stands plain.
* `Number.int_writeInt`: an integer is read back as it was written.
* `Number.float_floatChars`: a finite floating-point number is read as the number that comes back of it in JSON.
-/
namespace ApiProjection.Yaml

open Json

/-! ## Characters -/

/-- A character of a number. -/
def isNumeral (c : Char) : Bool := Json.isDigit c || c == '-' || c == '+' || c == '.' || c == 'e'

section
variable {c : Char} {cs ds : List Char}

theorem isNumeral_of_isDigit (h : Json.isDigit c = true) : isNumeral c = true := by simp [isNumeral, h]

theorem isNumeral_ne {d : Char} (h : isNumeral c = true) (hd : isNumeral d = false) : c ≠ d := by
  rintro rfl
  rw [h] at hd
  cases hd

/-- The characters of numbers have codes from that of the plus sign to that of the small e. -/
theorem isNumeral_code (h : isNumeral c = true) : 0x2b ≤ c.toNat ∧ c.toNat ≤ 0x65 := by
  simp only [isNumeral, Json.isDigit, Bool.or_eq_true, Bool.and_eq_true, decide_eq_true_eq, beq_iff_eq] at h
  rcases h with (((h | rfl) | rfl) | rfl) | rfl
  · have hlo : '0'.toNat ≤ c.toNat := h.1
    have hhi : c.toNat ≤ '9'.toNat := h.2
    have h0 : '0'.toNat = 0x30 := rfl
    have h9 : '9'.toNat = 0x39 := rfl
    omega
  all_goals decide

theorem isPlainChar_of_isNumeral (h : isNumeral c = true) : isPlainChar c = true := by
  obtain ⟨hlo, hhi⟩ := isNumeral_code h
  have hrange : (0x20 ≤ c.toNat && c.toNat ≤ 0x7e) = true := by
    rw [Bool.and_eq_true, decide_eq_true_eq, decide_eq_true_eq]
    omega
  simp [isPlainChar, hrange]

theorem isBreak_of_isNumeral (h : isNumeral c = true) : isBreak c = false := by
  simp [isBreak, isNumeral_ne h (d := '\n') rfl, isNumeral_ne h (d := '\x85') rfl, isNumeral_ne h (d := '\u2028') rfl,
    isNumeral_ne h (d := '\u2029') rfl]

theorem isGap_of_isNumeral (h : isNumeral c = true) : isGap c = false :=
  isGap_of_isPlainChar (isPlainChar_of_isNumeral h) (by simpa [isSpace] using isNumeral_ne h (d := ' ') rfl)
    (isBreak_of_isNumeral h)

theorem isLeadingMark_digit (h : Json.isDigit c = true) (next : Option Char) : isLeadingMark c next = false := by
  have hne {d : Char} (hd : Json.isDigit d = false) : c ≠ d := (isDigit_ne h hd).symm
  have hlist : "#,[]\x7b\x7d&*!|>'\"%@\x60".toList.contains c = false := by
    rw [Bool.eq_false_iff, ne_eq, List.contains_iff_mem]
    intro hc
    have hnone : ∀ d ∈ "#,[]\x7b\x7d&*!|>'\"%@\x60".toList, Json.isDigit d = false := by
      simp [Json.isDigit]
    exact hne (hnone c hc) rfl
  unfold isLeadingMark
  rw [hlist, beq_false_of_ne (hne (d := '?') rfl), beq_false_of_ne (hne (d := ':') rfl),
    beq_false_of_ne (hne (d := '-') rfl)]
  rfl

theorem hasInnerMark_numeral (h : ∀ c ∈ cs, isNumeral c = true) : hasInnerMark cs = false := by
  induction cs with
  | nil => rfl
  | cons c cs ih =>
    cases cs with
    | nil => rfl
    | cons d ds =>
      have hd := h d (by simp)
      rw [hasInnerMark, ih fun x hx => h x (List.mem_cons_of_mem c hx)]
      simp [isInnerMark, isNumeral_ne hd (d := ':') rfl, isNumeral_ne hd (d := '#') rfl]

/-! ## Numbers stand plain -/

theorem hasMark_numeral (hopens : OpensNumber cs) (h : ∀ c ∈ cs, isNumeral c = true) : hasMark cs = false := by
  have hinner := hasInnerMark_numeral h
  obtain ⟨d, rest, hd, rfl | rfl⟩ := hopens
  · have hminus : d ≠ '-' := (isDigit_ne hd rfl).symm
    have hpoint : d ≠ '.' := (isDigit_ne hd rfl).symm
    simp [hasMark, hinner, isLeadingMark_digit hd, List.isPrefixOf, hminus.symm, hpoint.symm]
  · have hminus : d ≠ '-' := (isDigit_ne hd rfl).symm
    have hgap := isGap_of_isNumeral (isNumeral_of_isDigit hd)
    simp [hasMark, hinner, isLeadingMark, List.isPrefixOf, hminus.symm, hgap]

theorem hasLooseEnd_numeral (h : ∀ c ∈ cs, isNumeral c = true) : hasLooseEnd cs = false := by
  have hloose (o : Option Char) (ho : ∀ c ∈ o, c ∈ cs) : (o.any fun c => isSpace c || isBreak c) = false := by
    cases o with
    | none => rfl
    | some c =>
      have hc := h c (ho c rfl)
      simp [isBreak_of_isNumeral hc, isSpace, isNumeral_ne hc (d := ' ') rfl]
  have hhead := hloose cs.head? fun c hc => List.mem_of_mem_head? hc
  have hlast := hloose cs.getLast? fun c hc => List.mem_of_getLast? hc
  exact Bool.or_eq_false_iff.2 ⟨hhead, hlast⟩

/-- A text of digits, signs, points and exponents stands plain. -/
theorem standsPlain_numeral (hopens : OpensNumber cs) (h : ∀ c ∈ cs, isNumeral c = true) : StandsPlain cs where
  nonempty := by
    obtain ⟨d, rest, -, rfl | rfl⟩ := hopens <;> exact List.cons_ne_nil _ _
  plain c hc := isPlainChar_of_isNumeral (h c hc)
  unbroken c hc := isBreak_of_isNumeral (h c hc)
  tight := hasLooseEnd_numeral h
  unmarked := hasMark_numeral hopens h

/-! ## Words stand plain -/

theorem standsPlain_null : StandsPlain "null".toList :=
  ⟨by decide, by simp [isPlainChar], by simp [isBreak], rfl, rfl⟩

theorem standsPlain_true : StandsPlain "true".toList :=
  ⟨by decide, by simp [isPlainChar], by simp [isBreak], rfl, rfl⟩

theorem standsPlain_false : StandsPlain "false".toList :=
  ⟨by decide, by simp [isPlainChar], by simp [isBreak], rfl, rfl⟩

theorem isNumeral_writeInt (n : Int) : ∀ c ∈ writeInt n, isNumeral c = true := by
  have hdigits (n : Nat) : ∀ c ∈ writeNat n, isNumeral c = true := fun c hc =>
    isNumeral_of_isDigit (isDigit_toDigits (n := n) hc)
  cases n with
  | ofNat n => exact hdigits n
  | negSucc n => exact List.forall_mem_cons.2 ⟨rfl, hdigits (n + 1)⟩

theorem standsPlain_writeInt (n : Int) : StandsPlain (writeInt n) :=
  standsPlain_numeral (by simpa using opensNumber_writeInt n []) (isNumeral_writeInt n)

section
variable {d : Decimal}

theorem isNumeral_power (hd : d.WellFormed) : ∀ c ∈ d.power, isNumeral c = true := by
  unfold Decimal.power
  split
  · exact nofun
  · have hexponent : ∀ c ∈ d.exponent, isNumeral c = true := fun c hc => isNumeral_of_isDigit (hd.exponent c hc)
    refine List.forall_mem_cons.2 ⟨rfl, List.forall_mem_cons.2 ⟨?_, hexponent⟩⟩
    split <;> rfl

theorem isNumeral_body (hd : d.WellFormed) : ∀ c ∈ d.body, isNumeral c = true := by
  refine List.forall_mem_append.2 ⟨fun c hc => isNumeral_of_isDigit (hd.whole.isDigit c hc),
    List.forall_mem_append.2 ⟨?_, isNumeral_power hd⟩⟩
  unfold Decimal.point
  split
  · exact nofun
  · exact List.forall_mem_cons.2 ⟨rfl, fun c hc => isNumeral_of_isDigit (hd.fraction c hc)⟩

theorem isNumeral_decimal (hd : d.WellFormed) : ∀ c ∈ d.chars, isNumeral c = true := by
  unfold Decimal.chars
  split
  · exact List.forall_mem_cons.2 ⟨rfl, isNumeral_body hd⟩
  · exact isNumeral_body hd

theorem opensNumber_decimal (hd : d.WellFormed) : OpensNumber d.chars := by
  have h := hd.whole.opensNumber d.isNegative (d.point ++ d.power)
  unfold Decimal.chars Decimal.body
  cases hs : d.isNegative <;> simpa [hs] using h

theorem standsPlain_decimal (hd : d.WellFormed) : StandsPlain d.chars :=
  standsPlain_numeral (opensNumber_decimal hd) (isNumeral_decimal hd)

end

/-! ## A point before the exponent -/

/-- The same text with a point and a zero before the exponent. -/
def withPoint (d : Decimal) : Decimal := { d with fraction := ['0'] }

theorem value_withPoint {d : Decimal} (h : d.fraction = []) : (withPoint d).value = d.value := by
  have hdigits : digitsValue (d.whole ++ ['0']) = 10 * digitsValue d.whole := by
    rw [digitsValue_append]
    rfl
  calc (withPoint d).value = .ofDecimal d.isNegative (digitsValue (d.whole ++ ['0'])) (d.scale - 1) := rfl
    _ = .ofDecimal d.isNegative (digitsValue d.whole) d.scale := by rw [hdigits, Binary64.ofDecimal_mul_ten]
    _ = d.value := by rw [Decimal.value, h, List.append_nil, List.length_nil, Int.natCast_zero, Int.sub_zero]

/-- Without a fraction there is no point. -/
theorem decimal_ne_point {d : Decimal} (hd : d.WellFormed) (h : d.fraction = []) : ∀ c ∈ d.chars, c ≠ '.' := by
  have hdigits {cs : List Char} (hcs : ∀ c ∈ cs, Json.isDigit c = true) : ∀ c ∈ cs, c ≠ '.' :=
    fun c hc => (isDigit_ne (hcs c hc) rfl).symm
  have hpower : ∀ c ∈ d.power, c ≠ '.' := by
    unfold Decimal.power
    split
    · exact nofun
    · refine List.forall_mem_cons.2 ⟨by decide, List.forall_mem_cons.2 ⟨?_, hdigits hd.exponent⟩⟩
      split <;> decide
  have hbody : ∀ c ∈ d.body, c ≠ '.' := by
    rw [Decimal.body, Decimal.point, if_pos h, List.nil_append]
    exact List.forall_mem_append.2 ⟨hdigits hd.whole.isDigit, hpower⟩
  unfold Decimal.chars
  split
  · exact List.forall_mem_cons.2 ⟨by decide, hbody⟩
  · exact hbody

/-- A point and a zero are put in before the letter of an exponent. -/
def pointed (cs : List Char) : List Char := cs.flatMap fun c => if c == 'e' then ['.', '0', 'e'] else [c]

theorem pointed_of_ne (h : ∀ c ∈ cs, c ≠ 'e') : pointed cs = cs := by
  induction cs with
  | nil => rfl
  | cons c cs ih =>
    obtain ⟨hc, hcs⟩ := List.forall_mem_cons.1 h
    rw [pointed, List.flatMap_cons, ← pointed, ih hcs, if_neg (by simpa using hc)]
    rfl

theorem pointed_digits (h : ∀ c ∈ cs, Json.isDigit c = true) : pointed cs = cs :=
  pointed_of_ne fun c hc => (isDigit_ne (h c hc) rfl).symm

theorem pointed_append (cs ds : List Char) : pointed (cs ++ ds) = pointed cs ++ pointed ds := List.flatMap_append

theorem pointed_decimal {d : Decimal} (hd : d.WellFormed) (h : d.fraction = []) :
    pointed d.chars = (withPoint d).chars := by
  have hexponent : d.exponent ≠ [] := hd.isNoInteger.resolve_left (not_not_intro h)
  have hpoint : d.point = [] := if_pos h
  have hpower : d.power = 'e' :: (if d.exponentIsNegative then '-' else '+') :: d.exponent := if_neg hexponent
  have hsign : pointed [if d.exponentIsNegative then '-' else '+'] = [if d.exponentIsNegative then '-' else '+'] := by
    cases d.exponentIsNegative <;> rfl
  have hrest : pointed d.power = '.' :: '0' :: d.power := by
    have h : pointed d.power =
        pointed ['e'] ++ (pointed [if d.exponentIsNegative then '-' else '+'] ++ pointed d.exponent) := by
      rw [hpower, ← pointed_append, ← pointed_append]
      rfl
    rw [h, hsign, pointed_digits hd.exponent, hpower]
    rfl
  have hbody : pointed d.body = (withPoint d).body := by
    rw [Decimal.body, hpoint, List.nil_append, pointed_append, pointed_digits hd.whole.isDigit, hrest]
    rfl
  have hnegative : (withPoint d).isNegative = d.isNegative := rfl
  rw [Decimal.chars, Decimal.chars, hnegative]
  cases d.isNegative with
  | false => exact hbody
  | true =>
    rw [if_pos rfl, if_pos rfl, ← hbody]
    rfl

end

/-- What is written for a finite number is a decimal text with a point. -/
theorem floatChars_finite (s : Bool) (m : Nat) (e : Int) :
    ∃ d : Decimal, floatChars (.finite s m e) = d.chars ∧ d.WellFormed ∧ d.fraction ≠ [] ∧
      d.value = (Binary64.finite s m e).reread := by
  obtain ⟨d, hd, hwf⟩ := Binary64.chars_finite s m e
  have hreread := reread_decimal hd hwf
  have hchars : floatChars (.finite s m e) = if d.chars.contains '.' then d.chars else pointed d.chars := by
    rw [← hd]
    rfl
  by_cases h : d.fraction = []
  · have hnone : d.chars.contains '.' = false := by simpa using fun hc => decimal_ne_point hwf h '.' hc rfl
    have hwf' : (withPoint d).WellFormed :=
      ⟨hwf.whole, List.forall_mem_singleton.2 rfl, hwf.exponent, .inl (List.cons_ne_nil _ _)⟩
    rw [hnone, if_neg Bool.false_ne_true, pointed_decimal hwf h] at hchars
    exact ⟨withPoint d, hchars, hwf', List.cons_ne_nil _ _, (value_withPoint h).trans hreread.symm⟩
  · have hpoint : d.chars.contains '.' = true := by
      have hbody : '.' ∈ d.body := by simp [Decimal.body, Decimal.point, h]
      rw [List.contains_iff_mem, Decimal.chars]
      split
      · exact List.mem_cons_of_mem _ hbody
      · exact hbody
    rw [hpoint, if_pos rfl] at hchars
    exact ⟨d, hchars, hwf, h, hreread.symm⟩

/-! ## What form a number has -/

section
variable {cs ds : List Char} {d : Decimal}

theorem ofList_ne (hopens : OpensNumber cs) {w : String} (hw : ∀ c ∈ w.toList.head?, Json.isDigit c = false ∧ c ≠ '-') :
    String.ofList cs ≠ w := by
  rintro rfl
  rw [String.toList_ofList] at hw
  obtain ⟨c, rest, hc, rfl | rfl⟩ := hopens
  · have := (hw c rfl).1
    rw [hc] at this
    cases this
  · exact (hw '-' rfl).2 rfl

theorem notWord (hopens : OpensNumber cs) {words : List String}
    (hw : ∀ w ∈ words, ∀ c ∈ w.toList.head?, Json.isDigit c = false ∧ c ≠ '-') :
    words.contains (String.ofList cs) = false := by
  rw [Bool.eq_false_iff, ne_eq, List.contains_iff_mem]
  exact fun hmem => ofList_ne hopens (hw _ hmem) rfl

theorem opensNumber_whole (h : Whole ds) (rest : List Char) : OpensNumber (ds ++ rest) := h.opensNumber false rest

theorem afterSign_whole (h : Whole ds) (rest : List Char) (negative : Bool) :
    Plain.afterSign (if negative then '-' :: (ds ++ rest) else ds ++ rest) = ds ++ rest := by
  cases negative with
  | true => rfl
  | false =>
    obtain ⟨c, cs, rfl⟩ := List.exists_cons_of_ne_nil h.ne_nil
    have hc := h.isDigit c List.mem_cons_self
    have hminus : c ≠ '-' := (isDigit_ne hc rfl).symm
    have hplus : c ≠ '+' := (isDigit_ne hc rfl).symm
    rw [if_neg Bool.false_ne_true, List.cons_append]
    unfold Plain.afterSign
    split
    · rename_i heq
      exact absurd (List.cons.inj heq).1 hminus
    · rename_i heq
      exact absurd (List.cons.inj heq).1 hplus
    · rfl

theorem isDigitRun_digits (hne : cs ≠ []) (h : ∀ c ∈ cs, Json.isDigit c = true) : Plain.isDigitRun cs = true := by
  obtain ⟨c, cs, rfl⟩ := List.exists_cons_of_ne_nil hne
  obtain ⟨hc, hcs⟩ := List.forall_mem_cons.1 h
  have hall : cs.all Plain.isDigitOrScore = true := List.all_eq_true.2 fun d hd => by
    simp [Plain.isDigitOrScore, Plain.isDigit, hcs d hd]
  rw [Plain.isDigitRun, hall, Plain.isDigit, hc]
  rfl

theorem isInt_whole (h : Whole ds) (negative : Bool) : Plain.isInt (if negative then '-' :: ds else ds) = true := by
  have hbody := afterSign_whole h [] negative
  rw [List.append_nil] at hbody
  have hrun := isDigitRun_digits h.ne_nil h.isDigit
  unfold Plain.isInt
  rw [hbody]
  cases h with
  | zero => rfl
  | @run c cs hc hd =>
    have hwhole : Plain.isWhole (c :: cs) = true := by
      unfold Plain.isWhole
      split
      · rfl
      · rename_i heq
        exact absurd (List.cons.inj heq).1 hc
      · exact hrun
    simp only
    split
    · rename_i heq
      exact absurd (List.cons.inj heq).1 hc
    · rename_i heq
      exact absurd (List.cons.inj heq).1 hc
    · rename_i heq
      exact absurd (List.cons.inj heq).1 hc
    · rw [hwhole, Bool.true_or]

theorem splitPoint_append {before after : List Char} (h : ∀ c ∈ before, c ≠ '.') :
    Plain.splitPoint? (before ++ '.' :: after) = some (before, after) := by
  have hne : ∀ c ∈ before, (c != '.') = true := fun c hc => by simpa using h c hc
  unfold Plain.splitPoint?
  rw [List.dropWhile_append_of_pos hne, List.takeWhile_append_of_pos hne]
  simp

theorem splitPoint_none (h : ∀ c ∈ cs, c ≠ '.') : Plain.splitPoint? cs = none := by
  have hdrop : (cs ++ []).dropWhile (· != '.') = [] :=
    List.dropWhile_append_of_pos fun c hc => by simpa using h c hc
  rw [List.append_nil] at hdrop
  rw [Plain.splitPoint?, hdrop]

/-- A number without a point is no float. -/
theorem isFloat_of_none (hopens : OpensNumber cs) (hbody : OpensNumber (Plain.afterSign cs))
    (h : Plain.splitPoint? (Plain.afterSign cs) = none) : Plain.isFloat cs = false := by
  have hinf : [".inf", ".Inf", ".INF"].contains (String.ofList (Plain.afterSign cs)) = false :=
    notWord hbody (by simp [Json.isDigit])
  have hnan : [".nan", ".NaN", ".NAN"].contains (String.ofList cs) = false :=
    notWord hopens (by simp [Json.isDigit])
  unfold Plain.isFloat
  simp only [hinf, hnan, Bool.false_eq_true, if_false, h]

theorem isFloat_of_point (hopens : OpensNumber cs) (hbody : OpensNumber (Plain.afterSign cs)) {before after : List Char}
    (h : Plain.splitPoint? (Plain.afterSign cs) = some (before, after)) (hrun : Plain.isDigitRun before = true)
    (hexponent : Plain.isExponent (after.dropWhile Plain.isDigitOrScore) = true) : Plain.isFloat cs = true := by
  have hinf : [".inf", ".Inf", ".INF"].contains (String.ofList (Plain.afterSign cs)) = false :=
    notWord hbody (by simp [Json.isDigit])
  have hnan : [".nan", ".NaN", ".NAN"].contains (String.ofList cs) = false :=
    notWord hopens (by simp [Json.isDigit])
  cases before with
  | nil => cases hrun
  | cons c before =>
    unfold Plain.isFloat
    simp only [hinf, hnan, Bool.false_eq_true, if_false, h, hrun, hexponent, Bool.and_self, Bool.true_or]

theorem isFloat_whole (h : Whole ds) (negative : Bool) :
    Plain.isFloat (if negative then '-' :: ds else ds) = false := by
  have hbody := afterSign_whole h [] negative
  have hopens := opensNumber_whole h []
  have hsigned := h.opensNumber negative []
  rw [List.append_nil] at hbody hopens hsigned
  refine isFloat_of_none hsigned (by rwa [hbody]) ?_
  rw [hbody, splitPoint_none fun c hc => (isDigit_ne (h.isDigit c hc) rfl).symm]

theorem isExponent_power (hd : d.WellFormed) : Plain.isExponent d.power = true := by
  unfold Decimal.power
  split
  · rfl
  · rename_i h
    have hdigits : Plain.isNonemptyOf Plain.isDigit d.exponent = true := by
      rw [Plain.isNonemptyOf, Bool.and_eq_true, Bool.not_eq_true', List.all_eq_true]
      exact ⟨List.isEmpty_eq_false_iff.2 h, hd.exponent⟩
    cases d.exponentIsNegative <;> simp [Plain.isExponent, hdigits]

theorem isFloat_decimal (hd : d.WellFormed) (hpoint : d.fraction ≠ []) : Plain.isFloat d.chars = true := by
  have hrest : d.body = d.whole ++ '.' :: (d.fraction ++ d.power) := by
    rw [Decimal.body, Decimal.point, if_neg hpoint]
    rfl
  have hbody : Plain.afterSign d.chars = d.body := afterSign_whole hd.whole _ d.isNegative
  have hpower : (d.fraction ++ d.power).dropWhile Plain.isDigitOrScore = d.power := by
    have hfraction : ∀ c ∈ d.fraction, Plain.isDigitOrScore c = true := fun c hc => by
      simp [Plain.isDigitOrScore, Plain.isDigit, hd.fraction c hc]
    rw [List.dropWhile_append_of_pos hfraction]
    unfold Decimal.power
    split <;> rfl
  have hpoints : Plain.splitPoint? (Plain.afterSign d.chars) = some (d.whole, d.fraction ++ d.power) := by
    rw [hbody, hrest, splitPoint_append fun c hc => (isDigit_ne (hd.whole.isDigit c hc) rfl).symm]
  exact isFloat_of_point (opensNumber_decimal hd) (by rw [hbody]; exact opensNumber_whole hd.whole _) hpoints
    (isDigitRun_digits hd.whole.ne_nil hd.whole.isDigit) (by rw [hpower]; exact isExponent_power hd)

theorem ofChars_number (hopens : OpensNumber cs) (hrest : Plain.isFloat cs || Plain.isInt cs) :
    Plain.ofChars cs = if Plain.isFloat cs then .float else .int := by
  have htrue : Plain.trueWords.contains (String.ofList cs) = false :=
    notWord hopens (by simp [Plain.trueWords, Json.isDigit])
  have hfalse : Plain.falseWords.contains (String.ofList cs) = false :=
    notWord hopens (by simp [Plain.falseWords, Json.isDigit])
  unfold Plain.ofChars
  simp only [htrue, hfalse, Bool.or_self, Bool.false_eq_true, if_false]
  cases hfloat : Plain.isFloat cs with
  | true => rfl
  | false =>
    rw [hfloat, Bool.false_or] at hrest
    rw [hrest]
    rfl

/-- The form of an integer. -/
theorem ofChars_writeInt (n : Int) : Plain.ofChars (writeInt n) = .int := by
  have hwhole (ds : List Char) (h : Whole ds) (negative : Bool) :
      Plain.ofChars (if negative then '-' :: ds else ds) = .int := by
    have hopens := h.opensNumber negative []
    rw [List.append_nil] at hopens
    rw [ofChars_number hopens (by rw [isInt_whole h, Bool.or_true]), isFloat_whole h]
    rfl
  cases n with
  | ofNat n => exact hwhole _ (whole_toDigits n) false
  | negSucc n => exact hwhole _ (whole_toDigits (n + 1)) true

/-- The form of a decimal number with a point. -/
theorem ofChars_decimal (hd : d.WellFormed) (hpoint : d.fraction ≠ []) : Plain.ofChars d.chars = .float := by
  have hfloat := isFloat_decimal hd hpoint
  rw [ofChars_number (opensNumber_decimal hd) (by rw [hfloat, Bool.true_or]), hfloat]
  rfl

end

/-! ## What a number is read as -/

section
variable {cs ds : List Char} {d : Decimal}

theorem filter_numeral (h : ∀ c ∈ cs, isNumeral c = true) : cs.filter (· != '_') = cs :=
  List.filter_eq_self.2 fun c hc => by simpa using isNumeral_ne (h c hc) (d := '_') rfl

theorem isSpace_numeral {c : Char} (h : isNumeral c = true) : Text.isSpace c = false := by
  obtain ⟨hlo, hhi⟩ := isNumeral_code h
  generalize hn : c.toNat = n at hlo hhi
  simp only [Text.isSpace, hn]
  interval_cases n <;> rfl

theorem signed_number {c : Char} (hc : Json.isDigit c = true) (h : ∀ d ∈ c :: cs, isNumeral d = true) :
    Number.signed (c :: cs) = (false, c :: cs) := by
  have hkeep (ds : List Char) (hds : ∀ d ∈ ds, isNumeral d = true) : ds.dropWhile Text.isSpace = ds := by
    cases ds with
    | nil => rfl
    | cons d ds => rw [List.dropWhile_cons, isSpace_numeral (hds d List.mem_cons_self), if_neg Bool.false_ne_true]
  have htrim : Text.trimBy Text.isSpace (c :: cs) = c :: cs := by
    rw [Text.trimBy, hkeep _ h, hkeep _ fun d hd => h d (List.mem_reverse.1 hd), List.reverse_reverse]
  have hminus : c ≠ '-' := (isDigit_ne hc rfl).symm
  have hplus : c ≠ '+' := (isDigit_ne hc rfl).symm
  unfold Number.signed
  rw [htrim]
  split
  · rename_i heq
    exact absurd (List.cons.inj heq).1 hminus
  · rename_i heq
    exact absurd (List.cons.inj heq).1 hplus
  · rfl

/-! ### Integers -/

theorem digitIn_ten {c : Char} (h : Json.isDigit c = true) : Number.digitIn? 10 c = some (c.toNat - 48) := by
  have hrange : ('0' ≤ c && c ≤ '9') = true := h
  have hle : c.toNat ≤ 57 := by
    rw [Bool.and_eq_true, decide_eq_true_eq, decide_eq_true_eq] at hrange
    exact hrange.2
  have hlt : decide (c.toNat - 48 < 10) = true := by
    rw [decide_eq_true_eq]
    omega
  rw [Number.digitIn?, Json.hexValue?, if_pos hrange, Option.filter_some, hlt, if_pos rfl]

theorem natOf_digits (hne : ds ≠ []) (h : ∀ c ∈ ds, Json.isDigit c = true) :
    Number.natOf? 10 ds = some (digitsValue ds) := by
  have hfold (acc : Nat) : ds.foldlM (fun n c => (Number.digitIn? 10 c).map (10 * n + ·)) acc =
      some (ds.foldl (fun n c => n * 10 + (c.toNat - 48)) acc) := by
    clear hne
    induction ds generalizing acc with
    | nil => rfl
    | cons c ds ih =>
      obtain ⟨hc, hds⟩ := List.forall_mem_cons.1 h
      rw [List.foldlM_cons, digitIn_ten hc, List.foldl_cons, Nat.mul_comm acc 10]
      exact ih hds _
  rw [Number.natOf?, List.isEmpty_eq_false_iff.2 hne, if_neg Bool.false_ne_true, hfold]
  rfl

theorem magnitude_whole (h : Whole ds) (hlen : ds.length ≤ maxDigits) :
    Number.magnitude ds = .ok (digitsValue ds : Int) := by
  have hnat := natOf_digits h.ne_nil h.isDigit
  have hnumeral : ∀ c ∈ ds, isNumeral c = true := fun c hc => isNumeral_of_isDigit (h.isDigit c hc)
  have hcolon : ds.contains ':' = false := by
    simpa using fun hc => isNumeral_ne (hnumeral _ hc) (d := ':') rfl rfl
  cases h with
  | zero => rfl
  | @run c cs hc hd =>
    have hmark : Number.withoutMark 10 (c :: cs) = c :: cs := by
      unfold Number.withoutMark
      split
      · rename_i heq
        exact absurd (List.cons.inj heq).1 hc
      · rfl
    have hin : Number.intIn 10 (c :: cs) = .ok (digitsValue (c :: cs) : Int) := by
      rw [Number.intIn, signed_number (hd c List.mem_cons_self) hnumeral]
      simp only [hmark, hnat, Nat.not_lt.2 hlen, decide_false, Bool.and_false, Bool.false_eq_true, if_false]
    unfold Number.magnitude
    split
    · rename_i heq
      cases heq
    · rename_i heq
      exact absurd (List.cons.inj heq).1 hc
    · rename_i heq
      exact absurd (List.cons.inj heq).1 hc
    · rename_i heq
      exact absurd (List.cons.inj heq).1 hc
    · rename_i heq
      exact absurd (List.cons.inj heq).1 hc
    · rw [hcolon, if_neg Bool.false_ne_true, hin]

/-- An integer that is not too long is read back as it was written. -/
theorem Number.int_writeInt {n : Int} (hn : n.natAbs < firstLong) :
    Number.int (String.ofList (writeInt n)) = .ok n := by
  have hwhole (m : Nat) (hm : m < firstLong) : Number.magnitude (writeNat m) = .ok (m : Int) := by
    have h := magnitude_whole (whole_toDigits m) (length_toDigits hm)
    rwa [digitsValue_toDigits] at h
  rw [Number.int, String.toList_ofList, filter_numeral (isNumeral_writeInt n)]
  cases n with
  | ofNat m =>
    obtain ⟨c, cs, hcs⟩ := List.exists_cons_of_ne_nil (whole_toDigits m).ne_nil
    have hc := (whole_toDigits m).isDigit c (hcs ▸ List.mem_cons_self)
    have hminus : c ≠ '-' := (isDigit_ne hc rfl).symm
    have hplus : c ≠ '+' := (isDigit_ne hc rfl).symm
    have hmagnitude := hwhole m hn
    rw [writeInt]
    rw [writeNat, hcs] at hmagnitude ⊢
    split
    · rename_i heq
      exact absurd (List.cons.inj heq).1 hminus
    · rename_i heq
      exact absurd (List.cons.inj heq).1 hplus
    · exact hmagnitude
  | negSucc m =>
    rw [writeInt]
    simp only [hwhole (m + 1) hn]
    rfl

/-! ### Floating-point numbers -/

theorem toLower_digit {c : Char} (h : Json.isDigit c = true) : c.toLower = c := by
  have hcapital : ¬('A'.val ≤ c.val ∧ c.val ≤ 'Z'.val) := fun hc => by
    have hlo : 'A'.toNat ≤ c.toNat := hc.1
    have hhi : c.toNat ≤ '9'.toNat := by
      rw [Json.isDigit, Bool.and_eq_true, decide_eq_true_eq, decide_eq_true_eq] at h
      exact h.2
    exact absurd (Nat.le_trans hlo hhi) (by decide)
  unfold Char.toLower
  exact dif_neg hcapital

theorem lower_numeral (h : ∀ c ∈ cs, isNumeral c = true) : (Text.lowerAscii (String.ofList cs)).toList = cs := by
  have hlower : ∀ c ∈ cs, c.toLower = id c := fun c hc => by
    have hc := h c hc
    simp only [isNumeral, Bool.or_eq_true, beq_iff_eq] at hc
    rcases hc with (((hc | rfl) | rfl) | rfl) | rfl
    · exact toLower_digit hc
    all_goals rfl
  rw [Text.lowerAscii, String.toList_map, String.toList_ofList, List.map_congr_left hlower, List.map_id]

theorem decimal_body (hd : d.WellFormed) (hpoint : d.fraction ≠ []) :
    Number.decimal d.body =
      .ok (.ofDecimal false (digitsValue (d.whole ++ d.fraction)) (d.scale - d.fraction.length)) := by
  have hbody : d.body = d.whole ++ '.' :: (d.fraction ++ d.power) := by
    rw [Decimal.body, Decimal.point, if_neg hpoint]
    rfl
  have hends : EndsDigits ('.' :: (d.fraction ++ d.power)) := by
    rintro c ⟨⟩
    decide
  have hnumber : EndsNumber [] := by rintro c ⟨⟩
  have hpower : EndsDigits d.power := by simpa using (power_ends (d := d) hnumber).1
  have hsigned : Number.signed d.body = (false, d.body) := by
    obtain ⟨c, cs, hcs⟩ := List.exists_cons_of_ne_nil hd.whole.ne_nil
    have hnumeral := isNumeral_body hd
    rw [hbody, hcs] at hnumeral ⊢
    exact signed_number (hd.whole.isDigit c (hcs ▸ List.mem_cons_self)) hnumeral
  have hword : ∀ w ∈ ["inf", "infinity", "nan"], String.ofList d.body ≠ w := fun w hw =>
    ofList_ne (opensNumber_whole hd.whole _) (by revert w; simp [Json.isDigit])
  have hexponent : exponentPart d.power = (if d.exponent = [] then none else some d.scale, []) := by
    simpa using exponentPart_power hd hnumber
  have hread : Number.decimal? d.body =
      some (.ofDecimal false (digitsValue (d.whole ++ d.fraction)) (d.scale - d.fraction.length)) := by
    unfold Number.decimal?
    simp only [hsigned]
    split
    · exact absurd (by assumption) (hword "inf" (by decide))
    · exact absurd (by assumption) (hword "infinity" (by decide))
    · exact absurd (by assumption) (hword "nan" (by decide))
    · simp only [hbody, takeDigits_append hd.whole.isDigit hends, takeDigits_append hd.fraction hpower, hexponent,
        scale_getD, List.isEmpty_eq_false_iff.2 hd.whole.ne_nil, List.isEmpty_nil, Bool.false_and, Bool.not_true, Bool.or_self,
        Bool.false_eq_true, if_false]
  rw [Number.decimal, hread]

theorem floatMagnitude_body (hd : d.WellFormed) (hpoint : d.fraction ≠ []) :
    Number.floatMagnitude d.body =
      .ok (.ofDecimal false (digitsValue (d.whole ++ d.fraction)) (d.scale - d.fraction.length)) := by
  have hword : ∀ w ∈ [".inf", ".nan"], String.ofList d.body ≠ w := fun w hw =>
    ofList_ne (opensNumber_whole hd.whole _) (by revert w; simp [Json.isDigit])
  have hcolon : d.body.contains ':' = false := by
    simpa using fun hc => isNumeral_ne (isNumeral_body hd _ hc) (d := ':') rfl rfl
  unfold Number.floatMagnitude
  split
  · exact absurd (by assumption) (hword ".inf" (by decide))
  · exact absurd (by assumption) (hword ".nan" (by decide))
  · rw [hcolon, if_neg Bool.false_ne_true, decimal_body hd hpoint]

/-- A decimal number with a point is read as the number that it stands for. -/
theorem Number.float_decimal (hd : d.WellFormed) (hpoint : d.fraction ≠ []) :
    Number.float (String.ofList d.chars) = .ok d.value := by
  have hnumeral := isNumeral_decimal hd
  have hmagnitude := floatMagnitude_body hd hpoint
  rw [Number.float, lower_numeral hnumeral, filter_numeral hnumeral, Decimal.value, Decimal.chars]
  cases d.isNegative with
  | true =>
    rw [if_pos rfl, ← Binary64.neg_ofDecimal]
    simp only [hmagnitude]
    rfl
  | false =>
    rw [if_neg Bool.false_ne_true]
    obtain ⟨c, cs, hcs⟩ := List.exists_cons_of_ne_nil hd.whole.ne_nil
    have hc := hd.whole.isDigit c (hcs ▸ List.mem_cons_self)
    have hminus : c ≠ '-' := (isDigit_ne hc rfl).symm
    have hplus : c ≠ '+' := (isDigit_ne hc rfl).symm
    have hcons : d.body = c :: (cs ++ (d.point ++ d.power)) := by rw [Decimal.body, hcs, List.cons_append]
    rw [hcons] at hmagnitude ⊢
    split
    · rename_i heq
      cases heq
    · rename_i heq
      exact absurd (List.cons.inj heq).1 hminus
    · rename_i heq
      exact absurd (List.cons.inj heq).1 hplus
    · exact hmagnitude

end

end ApiProjection.Yaml
