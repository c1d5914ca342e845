import ApiProjection.Proofs.RoundTrip.Pen
/-!
# Reading between quotes

What a reader makes of characters between quotes, one kind after the other: words, blanks, breaks.

* `Quotes`: what stands between quotes from a place on, and where its quote ends.
* `Quotes.char`, `Quotes.blanks`, `Quotes.breaks`, `Quotes.fold`.
-/
namespace ApiProjection.Yaml

open Cursor Pen

/-- A text stands between quotes from one place on, and its quote ends at another. -/
def Quotes (double : Bool) (c : Cursor) (cs : List Char) (after : Cursor) : Prop :=
  ∀ fuel, c.rest.length < fuel → quotedText double fuel c = .ok (cs, after)

/-- The mark at the end of a quote. -/
def quoteMark (double : Bool) : Char := if double then '"' else '\''

/-- Whether a character stands for itself between quotes. -/
def standsInQuotes (double : Bool) (c : Char) : Bool :=
  !isGap c && c != quoteMark double && !(double && c == '\\')

/-- Puts what has been read before what is read next. -/
def after (text : List Char) (r : List Char × Cursor) : List Char × Cursor := (text ++ r.1, r.2)

section
variable {double : Bool} {p q : Pen} {c : Char} {cs rest : List Char} {x y z : Cursor}

/-! ## One step -/

theorem quotedText_stands (hc : standsInQuotes double x.peek = true) (fuel : Nat) :
    quotedText double (fuel + 1) x = (quotedText double fuel x.next).map (after [x.peek]) := by
  simp only [standsInQuotes, Bool.and_eq_true, Bool.not_eq_true', bne_iff_ne, ne_eq] at hc
  obtain ⟨⟨hgap, hquote⟩, hslash⟩ := hc
  rw [quotedText]
  simp only
  split
  · rename_i heq
    cases double with
    | false => exact absurd heq hquote
    | true =>
      rw [if_pos rfl, heq]
      rfl
  · rename_i heq
    cases double with
    | false =>
      rw [if_neg Bool.false_ne_true, heq]
      rfl
    | true => exact absurd heq hquote
  · rename_i heq
    cases double with
    | false =>
      rw [if_neg Bool.false_ne_true, heq]
      rfl
    | true => simp [heq] at hslash
  · rw [hgap, if_neg Bool.false_ne_true]
    rfl

theorem quotedText_gap (hc : isGap x.peek = true) (fuel : Nat) :
    quotedText double (fuel + 1) x =
      (quotedGap x).bind fun r => (quotedText double fuel r.2).map (after r.1) := by
  have hne : ∀ d, isGap d = false → x.peek ≠ d := by
    rintro d hd rfl
    rw [hc] at hd
    cases hd
  rw [quotedText]
  simp only
  split
  · rename_i heq
    exact absurd heq (hne _ rfl)
  · rename_i heq
    exact absurd heq (hne _ rfl)
  · rename_i heq
    exact absurd heq (hne _ rfl)
  · rw [hc, if_pos rfl]
    rfl

theorem Quotes.of_step (text : List Char) (hlen : y.rest.length < x.rest.length)
    (hstep : ∀ fuel, quotedText double (fuel + 1) x = (quotedText double fuel y).map (after text))
    (h : Quotes double y cs z) :
    Quotes double x (text ++ cs) z := by
  intro fuel hfuel
  obtain ⟨fuel, rfl⟩ : ∃ f, fuel = f + 1 := ⟨fuel - 1, by omega⟩
  rw [hstep, h fuel (by omega)]
  rfl

theorem Quotes.of_gap {text : List Char} (hc : isGap x.peek = true) (hgap : quotedGap x = .ok (text, y))
    (hlen : y.rest.length < x.rest.length) (h : Quotes double y cs z) : Quotes double x (text ++ cs) z :=
  h.of_step text hlen fun fuel => by
    rw [quotedText_gap hc, hgap]
    rfl

/-! ## Words -/

theorem isInline_of_standsInQuotes (h : standsInQuotes double c = true) (hm : c ≠ '\ufeff') : isInline c = true := by
  simp only [standsInQuotes, isGap, Bool.and_eq_true, Bool.not_eq_true', Bool.or_eq_false_iff, beq_eq_false_iff_ne,
    ne_eq] at h
  obtain ⟨⟨⟨⟨-, hr⟩, hb⟩, -⟩, -⟩ := h
  simp [isInline, isLineEnd, hr, hb, hm]

/-- A character that stands for itself. -/
theorem Quotes.char (hc : standsInQuotes double c = true) (hm : c ≠ '\ufeff')
    (h : Quotes double ((p.put [c]).place rest) cs z) : Quotes double (p.place (c :: rest)) (c :: cs) z := by
  refine h.of_step [c] (by simp) fun fuel => ?_
  rw [quotedText_stands (by simpa using hc), next_put (isInline_of_standsInQuotes hc hm)]
  rfl

/-- An apostrophe is written twice between apostrophes. -/
theorem Quotes.apostrophe (h : Quotes false ((p.put ['\'', '\'']).place rest) cs z) :
    Quotes false (p.place ('\'' :: '\'' :: rest)) ('\'' :: cs) z := by
  refine h.of_step ['\''] (by simp only [place_rest, List.length_cons]; omega) fun fuel => ?_
  have hinline : ∀ c ∈ ['\'', '\''], isInline c = true :=
    List.forall_mem_cons.2 ⟨rfl, List.forall_mem_singleton.2 rfl⟩
  have hskip : (p.place ('\'' :: '\'' :: rest)).skip 2 = (p.put ['\'', '\'']).place rest := skip_put hinline p rest
  rw [← hskip]
  rfl

/-- The quote at the end. -/
theorem Quotes.close_double (p : Pen) (rest : List Char) :
    Quotes true (p.place ('"' :: rest)) [] ((p.put ['"']).place rest) := by
  intro fuel hfuel
  obtain ⟨fuel, rfl⟩ : ∃ f, fuel = f + 1 := ⟨fuel - 1, by omega⟩
  rw [← next_put (c := '"') rfl]
  rfl

theorem Quotes.close_single (p : Pen) {rest : List Char} (h : ∀ c ∈ rest.head?, c ≠ '\'') :
    Quotes false (p.place ('\'' :: rest)) [] ((p.put ['\'']).place rest) := by
  intro fuel hfuel
  obtain ⟨fuel, rfl⟩ : ∃ f, fuel = f + 1 := ⟨fuel - 1, by omega⟩
  have hnext : ((p.place ('\'' :: rest)).peekAt 1 == '\'') = false := by
    cases rest with
    | nil => rfl
    | cons c rest => simpa [peekAt, place] using h c rfl
  rw [← next_put (c := '\'') rfl, quotedText]
  simp [hnext]

/-! ## Gaps -/

/-- Whether a text goes on with something else than a blank or a break. -/
def EndsGap (rest : List Char) : Prop := ∃ c cs, rest = c :: cs ∧ isGap c = false

theorem EndsGap.lineBreak? (h : EndsGap rest) (p : Pen) : (p.place rest).lineBreak? = none := by
  obtain ⟨c, cs, rfl, hc⟩ := h
  have hr : c ≠ '\r' := by rintro rfl; cases hc
  have hb := isBreak_of_not_isGap hc
  have hsep : c ≠ '\u2028' ∧ c ≠ '\u2029' := by constructor <;> (rintro rfl; cases hb)
  unfold Cursor.lineBreak?
  simp only [place_rest]
  split
  · rename_i h
    exact absurd (List.cons.inj h).1 hr
  · rename_i h
    obtain ⟨rfl, -⟩ := List.cons.inj h
    simp [isLineEnd, hr, hb, hsep]
  · rename_i h
    cases h

/-- A break of a text as it is read. -/
theorem lineBreak?_break (hb : isBreak c = true) (hn : c ≠ '\x85') (p : Pen) (rest : List Char) :
    (p.place (c :: rest)).lineBreak? = some (c, (p.newLine c).place rest) := by
  rw [← next_newLine hb]
  simp only [isBreak, Bool.or_eq_true, beq_iff_eq] at hb
  rcases hb with ((rfl | rfl) | rfl) | rfl
  · rfl
  · exact absurd rfl hn
  · rfl
  · rfl

def isQuoteBlank (c : Char) : Bool := c == ' ' || c == '\t'

theorem isQuoteBlank_of_isGap (h : isGap c = false) : isQuoteBlank c = false := by
  simp only [isGap, Bool.or_eq_false_iff] at h
  simp [isQuoteBlank, h.1.1.1.2, h.1.1.2]

theorem isQuoteBlank_of_isBreak (h : isBreak c = true) : isQuoteBlank c = false := by
  simp only [isBreak, Bool.or_eq_true, beq_iff_eq] at h
  rcases h with ((rfl | rfl) | rfl) | rfl <;> rfl

theorem EndsGap.takeWhile_blanks (h : EndsGap rest) (n : Nat) :
    (List.replicate n ' ' ++ rest).takeWhile isQuoteBlank = List.replicate n ' ' := by
  obtain ⟨c, cs, rfl, hc⟩ := h
  rw [List.takeWhile_append_of_pos fun d hd => by rw [List.eq_of_mem_replicate hd]; rfl, List.takeWhile_cons,
    isQuoteBlank_of_isGap hc]
  simp

/-- The blanks before something else, with the place behind them. -/
theorem EndsGap.span_blanks (h : EndsGap rest) {n : Nat} (hw : Writes p (List.replicate n ' ') q) :
    (p.place (List.replicate n ' ' ++ rest)).span isQuoteBlank = (List.replicate n ' ', q.place rest) := by
  rw [Cursor.span]
  simp only [place_rest, h.takeWhile_blanks, hw.place]

theorem quotedGap_blanks (hr : EndsGap rest) {n : Nat} (hw : Writes p (List.replicate n ' ') q) :
    quotedGap (p.place (List.replicate n ' ' ++ rest)) = .ok (List.replicate n ' ', q.place rest) := by
  obtain ⟨c, cs, rfl, hc⟩ := hr
  have hr : EndsGap (c :: cs) := ⟨c, cs, rfl, hc⟩
  have hspan := hr.span_blanks hw
  unfold quotedGap
  unfold isQuoteBlank at hspan
  rw [hspan]
  simp only [hr.lineBreak? q, place_rest, List.isEmpty_cons, Bool.false_eq_true, if_false]

theorem isAtSeparator_of_peek (h : x.peek ≠ '-' ∧ x.peek ≠ '.') : x.isAtSeparator = false := by
  simp [isAtSeparator, isMarked, h.1, h.2]

/-- Breaks and the blanks before something else. -/
theorem quotedBreaks_eq (hr : EndsGap rest) {n : Nat} (hn : 0 < n) :
    ∀ {bs : List Char} {p q : Pen}, (∀ b ∈ bs, isBreak b = true ∧ b ≠ '\x85') →
      Writes p (bs ++ List.replicate n ' ') q → ∀ fuel, bs.length < fuel →
      quotedBreaks fuel (p.place (bs ++ (List.replicate n ' ' ++ rest))) = .ok (bs, q.place rest)
  | [], p, q, _, hw, fuel + 1, _ => by
    have hsep : (p.place (List.replicate n ' ' ++ rest)).isAtSeparator = false := by
      obtain ⟨m, rfl⟩ : ∃ m, n = m + 1 := ⟨n - 1, by omega⟩
      exact isAtSeparator_of_peek ⟨(by decide : ' ' ≠ '-'), (by decide : ' ' ≠ '.')⟩
    have hspan := hr.span_blanks hw
    unfold isQuoteBlank at hspan
    rw [List.nil_append, quotedBreaks, hsep, skipWhile, hspan]
    simp only [Bool.false_eq_true, if_false, hr.lineBreak? q]
  | b :: bs, p, q, hbs, hw, fuel + 1, hfuel => by
    obtain ⟨hb, hn85⟩ := hbs b List.mem_cons_self
    have hblank := isQuoteBlank_of_isBreak hb
    have hsep : (p.place (b :: (bs ++ (List.replicate n ' ' ++ rest)))).isAtSeparator = false := by
      refine isAtSeparator_of_peek ⟨?_, ?_⟩ <;> (rintro rfl; cases hb)
    have hskip : (p.place (b :: (bs ++ (List.replicate n ' ' ++ rest)))).skipWhile isQuoteBlank =
        p.place (b :: (bs ++ (List.replicate n ' ' ++ rest))) := by
      rw [skipWhile, Cursor.span]
      simp [hblank, skip]
    have ih := quotedBreaks_eq hr hn (fun c hc => hbs c (List.mem_cons_of_mem b hc)) (hw.of_newLine hb) fuel
      (by simpa using hfuel)
    unfold isQuoteBlank at hskip
    rw [List.cons_append, quotedBreaks, hsep, hskip]
    simp only [Bool.false_eq_true, if_false, lineBreak?_break hb hn85, ih]
    rfl

/-- Breaks and the blanks before something else, folded. -/
theorem quotedGap_breaks (hr : EndsGap rest) {n : Nat} (hn : 0 < n) {b : Char} {bs : List Char}
    (hbs : ∀ c ∈ b :: bs, isBreak c = true ∧ c ≠ '\x85') (hw : Writes p (b :: bs ++ List.replicate n ' ') q) :
    quotedGap (p.place (b :: (bs ++ (List.replicate n ' ' ++ rest)))) = .ok (folded b bs, q.place rest) := by
  obtain ⟨hb, hn85⟩ := hbs b List.mem_cons_self
  have hblank : isQuoteBlank b = false := isQuoteBlank_of_isBreak hb
  have hspan : (p.place (b :: (bs ++ (List.replicate n ' ' ++ rest)))).span isQuoteBlank =
      ([], p.place (b :: (bs ++ (List.replicate n ' ' ++ rest)))) := by
    rw [Cursor.span]
    simp [hblank, skip]
  have hbreaks := quotedBreaks_eq hr hn (fun c hc => hbs c (List.mem_cons_of_mem b hc)) (hw.of_newLine hb)
  unfold isQuoteBlank at hspan
  unfold quotedGap
  rw [hspan]
  simp only [lineBreak?_break hb hn85]
  rw [hbreaks _ (by rw [place_rest, List.length_append]; omega)]
  rfl

/-! ## Whole quotes -/

/-- What is put down between two pens is a quote, and is read as a text. -/
structure ReadsQuoted (p : Pen) (ws : List Char) (q : Pen) (cs : List Char) : Prop where
  writes : Writes p ws q
  opens : ∃ double us, ws = quoteMark double :: us
  reads {rest : List Char} : (∀ c ∈ rest.head?, c ≠ '\'') →
    quotedScalar (p.place (ws ++ rest)) = .ok (String.ofList cs, q.place rest)

theorem ReadsQuoted.of_quotes (double : Bool) {ws : List Char}
    (hw : Writes (p.word [quoteMark double]) ws q)
    (h : ∀ {rest : List Char}, (∀ c ∈ rest.head?, c ≠ '\'') →
      Quotes double ((p.word [quoteMark double]).place (ws ++ quoteMark double :: rest)) cs
        ((q.put [quoteMark double]).place rest)) :
    ReadsQuoted p.gap (quoteMark double :: (ws ++ [quoteMark double])) (q.close (quoteMark double)) cs where
  writes := by
    have hmark : ∀ p, Writes p [quoteMark double] (p.put [quoteMark double]) := fun p => by
      cases double <;> exact .put_char rfl rfl p
    have hword : Writes p.gap [quoteMark double] (p.word [quoteMark double]) := (hmark p.gap).flags false false
    exact (hword.trans (hw.trans (hmark q))).flags false false
  opens := ⟨double, _, rfl⟩
  reads {rest} hr := by
    have hinline : isInline (quoteMark double) = true := by cases double <;> rfl
    have hpeek : (quoteMark double == '"') = double := by cases double <;> rfl
    have hquotes := h hr
    rw [quotedScalar, List.cons_append, place_peek, hpeek, next_put hinline, List.append_assoc]
    have hplace : (p.gap.put [quoteMark double]).place (ws ++ ([quoteMark double] ++ rest)) =
        (p.word [quoteMark double]).place (ws ++ quoteMark double :: rest) := rfl
    rw [hplace, hquotes _ (by simp only [place_rest, List.length_append, List.length_cons]; omega)]
    rfl

end

end ApiProjection.Yaml
