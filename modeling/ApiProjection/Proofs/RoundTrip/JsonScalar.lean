import ApiProjection.Projection.Rendering
import ApiProjection.Proofs.RoundTrip.Decimal
/-!
# JSON scalars that are written and read

Each text is read back as it was written, character by character, and so is each number, whatever comes
after it. A floating-point number comes back as the number that its digits are read as.

* `Json.readText_writeText`, `Json.readNumber_writeInt`, `Json.readNumber_writeFloat`.
-/
namespace ApiProjection.Json

/-! ## Texts -/

/-- Puts a character before what has been read. -/
def before (c : Char) (x : List Char × List Char) : List Char × List Char := (c :: x.1, x.2)

section
variable {start : Nat}

theorem readChars_letter {l c : Char} (h : letterEscape? l = some c) (hl : l ≠ 'u') (rest : List Char) :
    readChars start ('\\' :: l :: rest) = (readChars start rest).map (before c) := by
  rw [readChars]
  · rw [h]
    cases readChars start rest <;> rfl
  all_goals simp_all

theorem readChars_plain {c : Char} (h : 0x20 ≤ c.toNat) (hq : c ≠ '"') (hb : c ≠ '\\') (rest : List Char) :
    readChars start (c :: rest) = (readChars start rest).map (before c) := by
  rw [readChars]
  · rw [if_neg (Nat.not_lt.2 h)]
    cases readChars start rest <;> rfl
  all_goals simp_all

/-- An escape by code of a character that is no half of a pair. A second escape may follow it. -/
theorem readChars_unit {a b c d : Char} {n : Nat} (h : hexCode? a b c d = some n) (hn : n < 0xd800 ∨ 0xe000 ≤ n)
    {rest : List Char} (hr : rest ≠ []) :
    readChars start ('\\' :: 'u' :: a :: b :: c :: d :: rest) =
      (readChars start rest).map (before (Char.ofNat n)) := by
  have hcode : charOfCode n = Char.ofNat n := by
    rw [charOfCode, if_neg (by simp; omega)]
  have hhigh : isHighSurrogate n = false := by simp [isHighSurrogate]; omega
  by_cases hs : ∃ a' b' c' d' e more, rest = '\\' :: 'u' :: a' :: b' :: c' :: d' :: e :: more
  · obtain ⟨a', b', c', d', e, more, rfl⟩ := hs
    rw [readChars, h]
    simp only [hhigh, hcode]
    generalize readChars start ('\\' :: 'u' :: a' :: b' :: c' :: d' :: e :: more) = x
    cases x <;> rfl
  · rw [readChars, h]
    · simp only [hcode]
      cases readChars start rest <;> rfl
    · exact hr
    · exact fun a' b' c' d' e more he => hs ⟨a', b', c', d', e, more, he⟩

/-- Two escapes by code that are the halves of a pair. -/
theorem readChars_pair {a b c d a' b' c' d' e : Char} {n m : Nat} (h : hexCode? a b c d = some n)
    (h' : hexCode? a' b' c' d' = some m) (hn : isHighSurrogate n = true) (hm : isLowSurrogate m = true)
    (he : 0x10000 + (n - 0xd800) * 0x400 + (m - 0xdc00) = e.toNat) {rest : List Char} (hr : rest ≠ []) :
    readChars start ('\\' :: 'u' :: a :: b :: c :: d :: '\\' :: 'u' :: a' :: b' :: c' :: d' :: rest) =
      (readChars start rest).map (before e) := by
  obtain ⟨r, more, rfl⟩ := List.exists_cons_of_ne_nil hr
  rw [readChars, h]
  simp only [hn, h', hm, he, Char.ofNat_toNat, if_true]
  cases readChars start (r :: more) <;> rfl

end

/-! ### Hexadecimal codes -/

theorem hexValue?_digitChar : ∀ n < 16, hexValue? n.digitChar = some n := by decide

/-- The last hexadecimal digit, and those before it. -/
theorem hexDigits_succ {width : Nat} (hwidth : 0 < width) (n : Nat) :
    Text.hexDigits (width + 1) n = Text.hexDigits width (n / 16) ++ [(n % 16).digitChar] := by
  unfold Text.hexDigits
  rcases Nat.lt_or_ge n 16 with h | h
  · have hzeros : List.replicate width '0' = List.replicate (width - 1) '0' ++ ['0'] := by
      rw [← List.replicate_succ', Nat.sub_add_cancel hwidth]
    rw [Nat.toDigits_of_lt_base h, Nat.div_eq_of_lt h, Nat.mod_eq_of_lt h, Nat.toDigits_zero]
    simp only [List.length_singleton, Nat.add_sub_cancel]
    rw [hzeros]
  · rw [Nat.toDigits_of_base_le (by decide) h]
    simp

/-- The four hexadecimal digits of a code are read as the code. -/
theorem hexDigits_code {n : Nat} (h : n < 0x10000) :
    ∃ a b c d, Text.hexDigits 4 n = [a, b, c, d] ∧ hexCode? a b c d = some n := by
  have hfirst : Text.hexDigits 1 (n / 16 / 16 / 16) = [(n / 16 / 16 / 16).digitChar] := by
    rw [Text.hexDigits, Nat.toDigits_of_lt_base (by omega)]
    rfl
  have hdigits : Text.hexDigits 4 n = [(n / 16 / 16 / 16).digitChar, (n / 16 / 16 % 16).digitChar, (n / 16 % 16).digitChar,
      (n % 16).digitChar] := by
    rw [hexDigits_succ (by decide), hexDigits_succ (by decide), hexDigits_succ (by decide), hfirst]
    rfl
  refine ⟨_, _, _, _, hdigits, ?_⟩
  have hdigit (m : Nat) : hexValue? (m % 16).digitChar = some (m % 16) := hexValue?_digitChar _ (Nat.mod_lt m (by decide))
  rw [hexCode?, hexValue?_digitChar _ (by omega), hdigit, hdigit, hdigit]
  simp only [Option.bind_eq_bind, Option.bind_some, Option.pure_def, Option.some.injEq]
  omega

/-! ### Characters -/

/-- The ways to write a character in a text: by a letter, by its code, or as it is. -/
inductive Spelled (c : Char) : List Char → Prop
  | letter {l : Char} (h : letterEscape? l = some c) (hl : l ≠ 'u') : Spelled c ['\\', l]
  | unit (hc : c.toNat < 0x20) : Spelled c (unitEscape c.toNat)
  | code : Spelled c (charEscape c)
  | plain (h : 0x20 ≤ c.toNat) (hq : c ≠ '"') (hb : c ≠ '\\') : Spelled c [c]

theorem spelled_writeChar (ascii : Bool) (c : Char) : Spelled c (writeChar ascii c) := by
  have letter {l d : Char} (hd : (c == d) = true) (h : letterEscape? l = some d) (hl : l ≠ 'u') :
      Spelled c ['\\', l] := .letter (h.trans (congrArg some (beq_iff_eq.1 hd).symm)) hl
  unfold writeChar
  split
  · exact letter (by assumption) rfl (by decide)
  rename_i hq
  split
  · exact letter (by assumption) rfl (by decide)
  rename_i hb
  split
  · exact letter (by assumption) rfl (by decide)
  split
  · exact letter (by assumption) rfl (by decide)
  split
  · exact letter (by assumption) rfl (by decide)
  split
  · exact letter (by assumption) rfl (by decide)
  split
  · exact letter (by assumption) rfl (by decide)
  split
  · exact .unit (by assumption)
  rename_i hc
  split
  · exact .code
  · exact .plain (Nat.not_lt.1 hc) (fun h => hq (beq_iff_eq.2 h)) fun h => hb (beq_iff_eq.2 h)

section
variable {start : Nat} (ascii : Bool)

/-- An escape by code is read as the character, be it by one code or by a pair. -/
theorem readChars_charEscape (c : Char) {rest : List Char} (hr : rest ≠ []) :
    readChars start (charEscape c ++ rest) = (readChars start rest).map (before c) := by
  have hvalid : c.toNat < 0xd800 ∨ 0xdfff < c.toNat ∧ c.toNat < 0x110000 := c.valid
  unfold charEscape
  dsimp only
  split
  · rename_i hn
    obtain ⟨x, y, z, w, hd, hcode⟩ := hexDigits_code hn
    rw [unitEscape, hd]
    have hunit := @readChars_unit start _ _ _ _ _ hcode (by omega) rest hr
    rwa [Char.ofNat_toNat] at hunit
  · rename_i hn
    obtain ⟨x, y, z, w, hd, hcode⟩ := hexDigits_code (n := 0xd800 + (c.toNat - 0x10000) / 0x400) (by omega)
    obtain ⟨x', y', z', w', hd', hcode'⟩ := hexDigits_code (n := 0xdc00 + (c.toNat - 0x10000) % 0x400) (by omega)
    rw [unitEscape, unitEscape, hd, hd']
    exact readChars_pair hcode hcode' (by simp [isHighSurrogate]; omega) (by simp [isLowSurrogate]; omega) (by omega) hr

/-- What is written for a character is read as that character. -/
theorem readChars_writeChar (c : Char) {rest : List Char} (hr : rest ≠ []) :
    readChars start (writeChar ascii c ++ rest) = (readChars start rest).map (before c) := by
  have hspelled := spelled_writeChar ascii c
  generalize writeChar ascii c = written at hspelled ⊢
  cases hspelled with
  | letter h hl => exact readChars_letter h hl rest
  | unit hc =>
    obtain ⟨x, y, z, w, hd, hcode⟩ := hexDigits_code (Nat.lt_trans hc (by decide))
    rw [unitEscape, hd]
    simpa using readChars_unit hcode (.inl (Nat.lt_trans hc (by decide))) hr
  | code => exact readChars_charEscape c hr
  | plain h hq hb => exact readChars_plain h hq hb rest

theorem readChars_writeChars (cs rest : List Char) :
    readChars start (cs.flatMap (writeChar ascii) ++ '"' :: rest) = .ok (cs, rest) := by
  induction cs with
  | nil => rw [List.flatMap_nil, List.nil_append, readChars]
  | cons c cs ih =>
    rw [List.flatMap_cons, List.append_assoc, readChars_writeChar ascii c (by simp), ih]
    rfl

end

/-- A text is read back as it was written, once its opening quote has been taken. -/
theorem readText_writeText (ascii : Bool) (s : String) (rest : List Char) :
    readText ((writeText ascii s).tail ++ rest) = .ok (s, rest) := by
  have h : (writeText ascii s).tail ++ rest = s.toList.flatMap (writeChar ascii) ++ '"' :: rest := by
    simp [writeText]
  rw [h, readText, readChars_writeChars]
  simp [bind, Except.bind, pure, Except.pure]

/-! ## Numbers -/

theorem wholePart_ne_minus {ds rest : List Char} (h : Whole ds) : ∀ cs, ds ++ rest ≠ '-' :: cs := by
  intro cs he
  obtain ⟨c, ds', hds⟩ := List.exists_cons_of_ne_nil h.ne_nil
  have hc := h.isDigit c (hds ▸ List.mem_cons_self)
  rw [hds] at he
  cases (List.cons.inj he).1
  exact absurd hc (by decide)

section
variable {rest : List Char}

theorem readNumber_whole {ds : List Char} (negative : Bool) (hw : Whole ds) (hlen : ds.length ≤ maxDigits)
    (hr : EndsNumber rest) :
    readNumber ((if negative then '-' :: ds else ds) ++ rest) =
      .ok (.int (if negative then -(digitsValue ds : Int) else digitsValue ds), rest) := by
  have hwhole := hw.wholePart hr.endsDigits
  have hfraction := fractionPart_none fun c hc => (hr c hc).2.1
  have hexponent := exponentPart_none fun c hc => (hr c hc).2.2
  cases negative with
  | false =>
    rw [if_neg Bool.false_ne_true]
    unfold readNumber
    split
    rename_i h
    split at h
    · rename_i hminus
      exact absurd hminus (wholePart_ne_minus hw _)
    · cases h
      simp only [hwhole, hfraction, hexponent, Option.isNone_none, Bool.and_self, if_true, if_neg (Nat.not_lt.2 hlen)]
  | true =>
    rw [if_pos rfl, List.cons_append]
    unfold readNumber
    simp only [hwhole, hfraction, hexponent, Option.isNone_none, Bool.and_self, if_true, if_neg (Nat.not_lt.2 hlen)]

theorem firstLong_eq : firstLong = 10 ^ maxDigits := by
  have h : digitLimit = maxDigits := rfl
  unfold firstLong
  simp only [h, Nat.pow_eq]

theorem length_toDigits {n : Nat} (h : n < firstLong) : (Nat.toDigits 10 n).length ≤ maxDigits := by
  rw [firstLong_eq] at h
  exact (Nat.length_toDigits_le_iff (by decide) (by decide)).2 h

/-- An integer that is not too long is read back as it was written. -/
theorem readNumber_writeInt {n : Int} (hn : n.natAbs < firstLong) (hr : EndsNumber rest) :
    readNumber (writeInt n ++ rest) = .ok (.int n, rest) := by
  cases n with
  | ofNat n =>
    have h := readNumber_whole false (whole_toDigits n) (length_toDigits hn) hr
    rw [digitsValue_toDigits] at h
    exact h
  | negSucc n =>
    have h := readNumber_whole true (whole_toDigits (n + 1)) (length_toDigits hn) hr
    rw [digitsValue_toDigits] at h
    exact h

end

end ApiProjection.Json

namespace ApiProjection

/-- The number that the text of a number is read as. -/
def Binary64.reread (x : Binary64) : Binary64 :=
  match Json.readNumber (Json.writeFloat x) with
  | .ok (.float y, _) => y
  | _ => x

namespace Json

/-- A finite number comes back as what its decimal text stands for. -/
theorem reread_decimal {s : Bool} {m : Nat} {e : Int} {d : Decimal} (hd : (Binary64.finite s m e).chars = d.chars)
    (hwf : d.WellFormed) : (Binary64.finite s m e).reread = d.value := by
  have hwrite : writeFloat (.finite s m e) = d.chars := hd
  have h : readNumber (d.chars ++ []) = _ := readNumber_decimal hwf (by simp [EndsNumber])
  rw [List.append_nil] at h
  rw [Binary64.reread, hwrite, h]

/-- A finite number comes back as what its text is read as, whatever comes after it. -/
theorem readNumber_writeFloat (s : Bool) (m : Nat) (e : Int) {rest : List Char} (hr : EndsNumber rest) :
    readNumber (writeFloat (.finite s m e) ++ rest) = .ok (.float (Binary64.finite s m e).reread, rest) := by
  obtain ⟨d, hd, hwf⟩ := Binary64.chars_finite s m e
  have hwrite : writeFloat (.finite s m e) = d.chars := hd
  rw [hwrite, reread_decimal hd hwf, readNumber_decimal hwf hr]

end Json
end ApiProjection
