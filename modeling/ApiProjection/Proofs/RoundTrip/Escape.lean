import Mathlib.Algebra.Group.Nat.Defs
import Mathlib.Data.List.TakeWhile
import ApiProjection.Proofs.RoundTrip.Quotes
/-!
# Escapes that are written and read

Between double quotes each character can be put down as an escape, by a letter or by its code, and is read back from
it. A backslash at the end of a line joins it with the next.

* `escaped_reads`: an escape is read as its character.
* `escapeText_lineStart`: the end of a line.
* `Quotes.of_escape`, `Quotes.of_bare`: what stands between double quotes.
-/
namespace ApiProjection.Yaml

open Pen Cursor

/-! ## Codes -/

/-- A hexadecimal digit as it is put down. -/
def isCapitalHex (c : Char) : Bool := (Json.hexValue? c).isSome && isPlainChar c && !isBreak c

theorem digitChar_capital : ∀ d < 16, Json.hexValue? d.digitChar.toUpper = some d ∧
    isCapitalHex d.digitChar.toUpper = true := by decide

theorem hexNumber?_append_digit {cs : List Char} {n d : Nat} (h : hexNumber? cs = some n) (hd : d < 16) :
    hexNumber? (cs ++ [d.digitChar.toUpper]) = some (16 * n + d) := by
  rw [hexNumber?, List.foldlM_append]
  rw [hexNumber?] at h
  rw [h]
  simp [(digitChar_capital d hd).1]

/-- The digits of a number in capitals are read as the number. -/
theorem hexNumber?_toDigits (n : Nat) :
    hexNumber? ((Nat.toDigits 16 n).map Char.toUpper) = some n ∧
      ∀ c ∈ (Nat.toDigits 16 n).map Char.toUpper, isCapitalHex c = true := by
  induction n using Nat.strongRecOn with
  | ind n ih =>
    rcases Nat.lt_or_ge n 16 with hlt | hge
    · rw [Nat.toDigits_of_lt_base hlt]
      refine ⟨?_, by simpa using (digitChar_capital n hlt).2⟩
      have h := @hexNumber?_append_digit [] 0 n rfl hlt
      rwa [Nat.mul_zero, Nat.zero_add] at h
    · obtain ⟨hvalue, hdigits⟩ := ih (n / 16) (by omega)
      have hmod : n % 16 < 16 := Nat.mod_lt n (by decide)
      rw [Nat.toDigits_of_base_le (by decide) hge, List.map_append]
      refine ⟨?_, List.forall_mem_append.2 ⟨hdigits, by simpa using (digitChar_capital _ hmod).2⟩⟩
      have h := hexNumber?_append_digit hvalue hmod
      rwa [Nat.div_add_mod] at h

theorem hexNumber?_zeros (n : Nat) (cs : List Char) : hexNumber? (List.replicate n '0' ++ cs) = hexNumber? cs := by
  induction n with
  | zero => rfl
  | succ n ih =>
    rw [List.replicate_succ, List.cons_append, hexNumber?, List.foldlM_cons]
    exact ih

/-- A code that is not too large is read as it was put down. -/
theorem capitalHex_reads {width n : Nat} (hwidth : 0 < width) (hn : n < 16 ^ width) :
    hexNumber? (capitalHex width n) = some n ∧ (capitalHex width n).length = width ∧
      ∀ c ∈ capitalHex width n, isCapitalHex c = true := by
  obtain ⟨hvalue, hdigits⟩ := hexNumber?_toDigits n
  have hlen : (Nat.toDigits 16 n).length ≤ width := (Nat.length_toDigits_le_iff (by decide) hwidth).2 hn
  have hzeros : (List.replicate (width - (Nat.toDigits 16 n).length) '0').map Char.toUpper =
      List.replicate (width - (Nat.toDigits 16 n).length) '0' := by
    rw [List.map_replicate]
    rfl
  rw [capitalHex, Text.hexDigits, List.map_append, hzeros]
  refine ⟨by rw [hexNumber?_zeros, hvalue], by simp; omega, List.forall_mem_append.2 ⟨fun c hc => ?_, hdigits⟩⟩
  rw [List.eq_of_mem_replicate hc]
  rfl

/-! ## Escapes -/

section
variable {p q : Pen} {c : Char} {cs rest t : List Char} {x y z : Cursor}

/-- A character that may be put down as it is. -/
def IsPut (c : Char) : Prop := isPlainChar c = true ∧ isBreak c = false

theorem Writes.put_all (h : ∀ c ∈ cs, IsPut c) (p : Pen) : Writes p cs (p.put cs) :=
  .put_plain (fun c hc => (h c hc).1) (fun c hc => (h c hc).2) p

theorem IsPut.next (h : IsPut c) (p : Pen) (rest : List Char) :
    (p.place (c :: rest)).next = (p.put [c]).place rest := next_put (isInline_of_isPlainChar h.1 h.2) p rest

theorem lookup_of_all {f : Char × Char → Bool} {table : List (Char × Char)} {l : Char} (hall : table.all f = true)
    (h : table.lookup c = some l) : f (c, l) = true := by
  obtain ⟨before, behind, rfl, -⟩ := List.lookup_eq_some_iff.1 h
  exact List.all_eq_true.1 hall (c, l) (by simp)

theorem escapeLetter_reads {l : Char} (h : escapeLetter? c = some l) : escapes.lookup l = some c ∧ IsPut l := by
  have hall := lookup_of_all
    (f := fun e => decide (escapes.lookup e.2 = some e.1) && isPlainChar e.2 && !isBreak e.2) (by decide) h
  simp only [Bool.and_eq_true, decide_eq_true_eq, Bool.not_eq_true'] at hall
  exact ⟨hall.1.1, hall.1.2, hall.2⟩

theorem toNat_le (c : Char) : c.toNat ≤ 0x10ffff := by
  have h := c.valid
  simp only [UInt32.isValidChar, Nat.isValidChar] at h
  rw [Char.toNat]
  omega

theorem escapeText_code {u : Char} {width : Nat} (hu : escapes.lookup u = none) (hwidth : escapeWidth? u = some width)
    (hput : IsPut u) (hpos : 0 < width) (hn : c.toNat < 16 ^ width) (p : Pen) (rest : List Char) :
    escapeText (p.place (u :: capitalHex width c.toNat ++ rest)) =
      .ok ([c], (p.put (u :: capitalHex width c.toNat)).place rest) := by
  obtain ⟨hvalue, hlen, hdigits⟩ := capitalHex_reads hpos hn
  have hall : ∀ d ∈ capitalHex width c.toNat, IsPut d := fun d hd => by
    have h := hdigits d hd
    simp only [isCapitalHex, Bool.and_eq_true, Bool.not_eq_true'] at h
    exact ⟨h.1.2, h.2⟩
  have htake : (capitalHex width c.toNat ++ rest).take width = capitalHex width c.toNat := List.take_left' hlen
  have hskip := (Writes.put_all hall (p.put [u])).place rest
  rw [hlen, put_put] at hskip
  rw [List.cons_append]
  unfold escapeText
  simp only [place_peek, hu, hwidth, hput.next, place_rest, htake, hvalue, hlen, Nat.lt_irrefl, if_false,
    if_neg (Nat.not_lt.2 (toNat_le c)), Char.ofNat_toNat]
  rw [hskip]
  rfl

/-- The escape of a character, behind its backslash, is read as the character. -/
theorem escaped_reads (c : Char) : ∃ ls, escaped c = '\\' :: ls ∧ (∀ d ∈ ls, IsPut d) ∧
    ∀ (p : Pen) (rest : List Char), escapeText (p.place (ls ++ rest)) = .ok ([c], (p.put ls).place rest) := by
  unfold escaped
  split
  · rename_i l h
    obtain ⟨hlookup, hput⟩ := escapeLetter_reads h
    refine ⟨[l], rfl, List.forall_mem_singleton.2 hput, fun p rest => ?_⟩
    rw [List.singleton_append, escapeText, place_peek, hlookup, ← hput.next]
  · have hput {u : Char} {width : Nat} (hu : IsPut u) (hpos : 0 < width) (hn : c.toNat < 16 ^ width) :
        ∀ d ∈ u :: capitalHex width c.toNat, IsPut d := List.forall_mem_cons.2 ⟨hu, fun d hd => by
      have h := (capitalHex_reads hpos hn).2.2 d hd
      simp only [isCapitalHex, Bool.and_eq_true, Bool.not_eq_true'] at h
      exact ⟨h.1.2, h.2⟩⟩
    have hx : IsPut 'x' := ⟨rfl, rfl⟩
    have hu : IsPut 'u' := ⟨rfl, rfl⟩
    have hU : IsPut 'U' := ⟨rfl, rfl⟩
    simp only
    split
    · have hn : c.toNat < 16 ^ 2 := by omega
      exact ⟨_, rfl, hput hx (by decide) hn, escapeText_code rfl rfl hx (by decide) hn⟩
    · split
      · have hn : c.toNat < 16 ^ 4 := by omega
        exact ⟨_, rfl, hput hu (by decide) hn, escapeText_code rfl rfl hu (by decide) hn⟩
      · have hn : c.toNat < 16 ^ 8 := Nat.lt_of_le_of_lt (toNat_le c) (by decide)
        exact ⟨_, rfl, hput hU (by decide) hn, escapeText_code rfl rfl hU (by decide) hn⟩

/-- A backslash at the end of a line stands for nothing. -/
theorem escapeText_lineStart (hr : EndsGap rest) {n : Nat} (hn : 0 < n) (hw : Writes p (lineStart n) q) :
    escapeText (p.place (lineStart n ++ rest)) = .ok ([], q.place rest) := by
  have hbreaks := @quotedBreaks_eq rest hr n hn [] _ _ (by simp) (hw.of_newLine rfl)
  have hlookup : escapes.lookup '\n' = none := by decide
  have hwidth : escapeWidth? '\n' = none := rfl
  rw [lineStart, List.cons_append, escapeText]
  simp only [place_peek, hlookup, hwidth, lineBreak?_break (c := '\n') rfl (by decide)]
  exact hbreaks _ (Nat.succ_pos _)

/-! ## Between double quotes -/

theorem quotedText_escape (hc : x.peek = '\\') (fuel : Nat) :
    quotedText true (fuel + 1) x =
      (escapeText x.next).bind fun r => (quotedText true fuel r.2).map (after r.1) := by
  rw [quotedText]
  simp only [hc]
  rfl

/-- A backslash with what is read behind it. -/
theorem Quotes.of_escape {text : List Char} (hgap : escapeText ((p.put ['\\']).place rest) = .ok (text, y))
    (hlen : y.rest.length ≤ rest.length) (h : Quotes true y t z) :
    Quotes true (p.place ('\\' :: rest)) (text ++ t) z := by
  refine h.of_step text (by simp; omega) fun fuel => ?_
  have hput : IsPut '\\' := ⟨rfl, rfl⟩
  rw [quotedText_escape rfl, hput.next, hgap]
  rfl

theorem isBare_iff (h : isBare c = true) : IsPut c ∧ (c = ' ' ∨ standsInQuotes true c = true ∧ c ≠ '\ufeff') := by
  have hne {d : Char} (hd : isBare d = false) : c ≠ d := by
    rintro rfl
    rw [h] at hd
    cases hd
  have hmark : c ≠ '\ufeff' := hne rfl
  have hcode : c.toNat ≠ 0xfeff := fun he => hmark (by rw [← Char.ofNat_toNat c, he])
  have hbreak : isBreak c = false := by
    simp [isBreak, hne (d := '\n') rfl, hne (d := '\x85') rfl, hne (d := '\u2028') rfl, hne (d := '\u2029') rfl]
  have hplain : isPlainChar c = true := by
    simp only [isBare, Bool.and_eq_true, Bool.or_eq_true, decide_eq_true_eq] at h
    simp only [isPlainChar, Bool.and_eq_true, Bool.or_eq_true, decide_eq_true_eq, bne_iff_ne, ne_eq]
    rcases h.2 with (h | h) | h
    · exact .inl (.inr h)
    · exact .inr ⟨.inl (.inl (.inr h)), hcode⟩
    · exact .inr ⟨.inl (.inr h), hcode⟩
  refine ⟨⟨hplain, hbreak⟩, ?_⟩
  by_cases hs : c = ' '
  · exact .inl hs
  · refine .inr ⟨?_, hmark⟩
    have hgap := isGap_of_isPlainChar hplain (by simpa [isSpace] using hs) hbreak
    simp [standsInQuotes, hgap, quoteMark, hne (d := '"') rfl, hne (d := '\\') rfl]

/-- Characters that stand for themselves, the blanks among them. -/
theorem Quotes.of_bare (hr : EndsGap rest) : ∀ {n : Nat} {cs : List Char} {p : Pen}, cs.length ≤ n →
    (∀ c ∈ cs, isBare c = true) → Quotes true ((p.put cs).place rest) t z →
    Quotes true (p.place (cs ++ rest)) (cs ++ t) z
  | _, [], _, _, _, h => h
  | n + 1, c :: cs, p, hlen, hbare, h => by
    obtain ⟨hput, hc⟩ := isBare_iff (hbare c List.mem_cons_self)
    have hbare' : ∀ d ∈ cs, isBare d = true := fun d hd => hbare d (List.mem_cons_of_mem c hd)
    rw [List.length_cons] at hlen
    rcases hc with rfl | ⟨hstands, hmark⟩
    · -- all the blanks here are read at once
      obtain ⟨k, ds, hcs, hds⟩ : ∃ k ds, cs = List.replicate k ' ' ++ ds ∧ ∀ d ∈ ds.head?, d ≠ ' ' := by
        refine ⟨(cs.takeWhile isSpace).length, cs.dropWhile isSpace, ?_, fun d hd he => ?_⟩
        · rw [← List.eq_replicate_of_mem fun d hd => by simpa [isSpace] using List.mem_takeWhile_imp hd,
            List.takeWhile_append_dropWhile]
        · have hnot := List.head?_dropWhile_not isSpace cs
          rw [Option.mem_def.1 hd, he] at hnot
          exact absurd hnot (by decide)
      subst hcs
      have hends : EndsGap (ds ++ rest) := by
        cases ds with
        | nil => exact hr
        | cons d ds =>
          obtain ⟨hput, hd⟩ := isBare_iff (hbare' d (by simp))
          refine ⟨d, ds ++ rest, rfl, ?_⟩
          exact isGap_of_isPlainChar hput.1 (by simpa [isSpace] using hds d rfl) hput.2
      have hrec := @Quotes.of_bare hr n ds (p.put (List.replicate (k + 1) ' '))
        (by simp at hlen; omega) (fun d hd => hbare' d (by simp [hd])) (by rw [put_put]; exact h)
      have hspaces := Writes.put_spaces (k + 1) p
      have hgap := hrec.of_gap (x := p.place (List.replicate (k + 1) ' ' ++ (ds ++ rest))) rfl
        (quotedGap_blanks hends hspaces) (by simp)
      simpa [List.replicate_succ] using hgap
    · exact Quotes.char hstands hmark (Quotes.of_bare hr (n := n) (by omega) hbare' (by rw [put_put]; exact h))

end

end ApiProjection.Yaml
