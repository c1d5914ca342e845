import ApiProjection.Proofs.RoundTrip.Single
/-!
# Text without quotes

A text that stands plain is put down as it is, but that a blank can make way for a break. A reader of plain text stops at
the colon of a key and at the next line that is indented less.

* `StandsPlain`: what a text is like that stands plain.
* `StopsAt`: where plain text ends.
* `putPlain_reads`: what is put down plain is read as the text.
-/
namespace ApiProjection.Yaml

open Pen Cursor

/-- Whether a text is of words and blanks on one line, and nothing in it marks something else. -/
structure StandsPlain (cs : List Char) : Prop where
  nonempty : cs ≠ []
  plain : ∀ c ∈ cs, isPlainChar c = true
  unbroken : ∀ c ∈ cs, isBreak c = false
  tight : hasLooseEnd cs = false
  unmarked : hasMark cs = false

section
variable {p q : Pen} {c d : Char} {cs ds rest t w tail : List Char} {x y z : Cursor} {i : Int}

/-! ## Marks -/

theorem hasInnerMark_append (cs : List Char) (h : hasInnerMark (cs ++ ds) = false) : hasInnerMark ds = false := by
  induction cs with
  | nil => exact h
  | cons c cs ih =>
    refine ih ?_
    cases hcs : cs ++ ds with
    | nil => rfl
    | cons d es =>
      rw [List.cons_append, hcs, hasInnerMark, Bool.or_eq_false_iff] at h
      exact h.2

/-- A character that marks nothing at the beginning of a text marks nothing behind a blank. -/
theorem hasInnerMark_blank (h : hasMark (c :: cs) = false) : hasInnerMark (' ' :: c :: cs) = false := by
  simp only [hasMark, Bool.or_eq_false_iff] at h
  obtain ⟨⟨-, hlead⟩, hinner⟩ := h
  rw [hasInnerMark, hinner, Bool.or_false]
  simp only [isLeadingMark, Bool.or_eq_false_iff] at hlead
  obtain ⟨hlist, hgap⟩ := hlead
  have hhash : (c == '#') = false := by
    simp at hlist
    simpa using hlist.1
  simp only [isInnerMark, hhash, Bool.false_and, Bool.or_false]
  cases hc : c == ':' with
  | false => rfl
  | true => simpa [hc] using hgap

/-- The last character of a word is no colon, and the first no sharp. -/
theorem word_unmarked (hne : w ≠ []) (hds : ∀ d ∈ ds.head?, isGap d = true)
    (h : hasInnerMark (c :: (w ++ ds)) = false) :
    ∀ l ∈ w.getLast?, l ≠ ':' := by
  induction w generalizing c with
  | nil => exact absurd rfl hne
  | cons a w ih =>
    rw [List.cons_append, hasInnerMark, Bool.or_eq_false_iff] at h
    cases w with
    | nil =>
      rintro l ⟨⟩ rfl
      simp only [isInnerMark, Bool.or_eq_false_iff] at h
      cases ds with
      | nil => simp at h
      | cons d ds => simp [hds d rfl] at h
    | cons b w =>
      intro l hl
      exact ih (by simp) h.2 l (by simpa using hl)

theorem word_ne_sharp (h : hasInnerMark (' ' :: cs) = false) : ∀ c ∈ cs.head?, c ≠ '#' := by
  rintro c hc rfl
  cases cs with
  | nil => cases hc
  | cons d ds =>
    cases hc
    rw [hasInnerMark] at h
    simp [isInnerMark, isGap] at h

/-! ## Reading words -/

/-- Whether plain text in a block ends before a text. -/
def EndsRun (tail : List Char) : Prop := ∀ c ∈ tail.head?, endsPlain false c (tail.tail.headD '\x00') = true

theorem plainRun_word (hw : ∀ c ∈ w, isGap c = false) (hl : ∀ c ∈ w.getLast?, c ≠ ':') (ht : EndsRun tail) :
    plainRun false (w ++ tail) = w := by
  induction w with
  | nil =>
    cases tail with
    | nil => rfl
    | cons c tail =>
      have hend : endsPlain false c (tail.headD '\x00') = true := ht c rfl
      rw [List.nil_append, plainRun, if_pos hend]
  | cons c w ih =>
    have hc := hw c List.mem_cons_self
    have hw' : ∀ d ∈ w, isGap d = false := fun d hd => hw d (List.mem_cons_of_mem c hd)
    have hgoes : endsPlain false c ((w ++ tail).headD '\x00') = false := by
      cases w with
      | nil => simp [endsPlain, hc, hl c rfl]
      | cons d w => simp [endsPlain, hc, hw' d List.mem_cons_self]
    rw [List.cons_append, plainRun, if_neg (Bool.eq_false_iff.1 hgoes), ih hw' fun d hd => hl d ?_]
    cases w with
    | nil => cases hd
    | cons e w => simpa using hd

/-- Plain text stands in a block from one place on, and ends at another. -/
def PlainFrom (i : Int) (x : Cursor) (cs : List Char) (after : Cursor) (hasBreak : Bool) : Prop :=
  ∀ gap fuel, x.rest.length < fuel → plainRuns false i gap fuel x = ⟨gap.text ++ cs, after, hasBreak⟩

/-- Plain text that is not indented as far as given ends before a text. -/
structure StopsAt (i : Int) (q : Pen) (tail : List Char) (after : Cursor) (hasBreak : Bool) : Prop where
  endsRun : EndsRun tail
  gap : ∃ text, plainGap (q.place tail) = ⟨text, after, hasBreak⟩ ∧
    (text.isEmpty || after.peek == '#' || decide ((after.column : Int) < i)) = true

/-- Whether a text goes on with something else than a blank, a break or a comment. -/
def OpensWord (rest : List Char) : Prop := ∃ c cs, rest = c :: cs ∧ isGap c = false ∧ c ≠ '#'

theorem OpensWord.endsGap (h : OpensWord rest) : EndsGap rest := by
  obtain ⟨c, cs, rfl, hc, -⟩ := h
  exact ⟨c, cs, rfl, hc⟩

theorem OpensWord.peek (h : OpensWord rest) (p : Pen) : (p.place rest).peek ≠ '#' := by
  obtain ⟨c, cs, rfl, -, hc⟩ := h
  exact hc

/-- The characters of a word. -/
structure IsWord (w : List Char) : Prop where
  nonempty : w ≠ []
  plain : ∀ c ∈ w, isPlainChar c = true
  nongap : ∀ c ∈ w, isGap c = false
  head : ∀ c ∈ w.head?, c ≠ '#'
  last : ∀ c ∈ w.getLast?, c ≠ ':'

theorem IsWord.writes (h : IsWord w) (p : Pen) : Writes p w (p.put w) :=
  .put_plain h.plain (fun c hc => isBreak_of_not_isGap (h.nongap c hc)) p

theorem IsWord.opens (h : IsWord w) (rest : List Char) : OpensWord (w ++ rest) := by
  obtain ⟨c, us, rfl⟩ := List.exists_cons_of_ne_nil h.nonempty
  exact ⟨c, us ++ rest, rfl, h.nongap c List.mem_cons_self, h.head c rfl⟩

/-- What is read at a word, up to the gap behind it. -/
theorem IsWord.plainRuns_eq (h : IsWord w) (ht : EndsRun tail) (p : Pen) (gap : PlainGap) (fuel : Nat) :
    plainRuns false i gap (fuel + 1) (p.place (w ++ tail)) =
      let next := plainGap ((p.put w).place tail)
      if next.text.isEmpty || next.after.peek == '#' || decide ((next.after.column : Int) < i) then
        ⟨gap.text ++ w, next.after, next.hasBreak⟩
      else
        let more := plainRuns false i next fuel next.after
        { more with text := gap.text ++ w ++ more.text } := by
  obtain ⟨c, us, rfl⟩ := List.exists_cons_of_ne_nil h.nonempty
  have hpeek : (p.place ((c :: us) ++ tail)).peek ≠ '#' := h.head c rfl
  have hskip := (h.writes p).place tail
  rw [plainRuns]
  simp only [beq_iff_eq, if_neg hpeek, place_rest, plainRun_word h.nongap h.last ht, List.isEmpty_cons,
    Bool.false_eq_true,
    if_false, hskip, Bool.not_false, Bool.true_and]

/-- The last word of a plain text. -/
theorem PlainFrom.last (h : IsWord w) {hasBreak : Bool} (hstop : StopsAt i (p.put w) tail z hasBreak) :
    PlainFrom i (p.place (w ++ tail)) w z hasBreak := by
  intro gap fuel hfuel
  obtain ⟨fuel, rfl⟩ : ∃ f, fuel = f + 1 := ⟨fuel - 1, by omega⟩
  obtain ⟨text, hgap, hstops⟩ := hstop.gap
  rw [h.plainRuns_eq hstop.endsRun, hgap]
  simp only [hstops, if_true]

/-- A word and what stands between it and the next. -/
theorem PlainFrom.word (h : IsWord w) (ht : EndsRun tail) {text : List Char} {b hasBreak : Bool}
    (hgap : plainGap ((p.put w).place tail) = ⟨text, y, b⟩) (htext : text ≠ []) (hpeek : y.peek ≠ '#')
    (hcolumn : i ≤ y.column) (hlen : y.rest.length ≤ tail.length) (hmore : PlainFrom i y cs z hasBreak) :
    PlainFrom i (p.place (w ++ tail)) (w ++ (text ++ cs)) z hasBreak := by
  intro gap fuel hfuel
  obtain ⟨fuel, rfl⟩ : ∃ f, fuel = f + 1 := ⟨fuel - 1, by omega⟩
  have hw := List.length_pos_iff.2 h.nonempty
  rw [place_rest, List.length_append] at hfuel
  have hgoes : (text.isEmpty || y.peek == '#' || decide ((y.column : Int) < i)) = false := by
    simp [htext, hpeek, Int.not_lt.2 hcolumn]
  rw [h.plainRuns_eq ht, hgap]
  simp only [hgoes, Bool.false_eq_true, if_false, hmore ⟨text, y, b⟩ fuel (by omega), List.append_assoc]

/-! ## Gaps -/

theorem span_spaces {n : Nat} (hr : ∀ c ∈ rest.head?, c ≠ ' ') (hw : Writes p (List.replicate n ' ') q) :
    (p.place (List.replicate n ' ' ++ rest)).span (· == ' ') = (List.replicate n ' ', q.place rest) := by
  have hrun : (List.replicate n ' ' ++ rest).takeWhile (· == ' ') = List.replicate n ' ' := by
    rw [List.takeWhile_append_of_pos fun d hd => by rw [List.eq_of_mem_replicate hd]; rfl]
    cases rest with
    | nil => simp
    | cons c rest => simp [hr c rfl]
  rw [Cursor.span]
  simp only [place_rest, hrun, hw.place]

theorem EndsGap.ne_space (h : EndsGap rest) : ∀ c ∈ rest.head?, c ≠ ' ' := by
  obtain ⟨c, cs, rfl, hc⟩ := h
  rintro d ⟨⟩ rfl
  cases hc

/-- Blanks between two words. -/
theorem plainGap_blanks (hr : EndsGap rest) {n : Nat} (hw : Writes p (List.replicate n ' ') q) :
    plainGap (p.place (List.replicate n ' ' ++ rest)) = ⟨List.replicate n ' ', q.place rest, false⟩ := by
  rw [plainGap, span_spaces hr.ne_space hw]
  simp only [hr.lineBreak? q]

/-- What may come in a line behind so many blanks: nothing at all, or something else than a blank, a break or a comment,
and not what separates documents if there are no blanks. -/
def OpensLine (n : Nat) (rest : List Char) : Prop :=
  rest = [] ∨ OpensWord rest ∧ (n = 0 → ∀ p : Pen, (p.place rest).isAtSeparator = false)

variable {n : Nat}

theorem OpensLine.ne_space (h : OpensLine n rest) : ∀ c ∈ rest.head?, c ≠ ' ' := by
  rcases h with rfl | h
  · simp
  · exact h.1.endsGap.ne_space

theorem OpensLine.peek (h : OpensLine n rest) (p : Pen) : (p.place rest).peek ≠ '#' := by
  rcases h with rfl | h
  · exact (by decide : '\x00' ≠ '#')
  · exact h.1.peek p

theorem OpensLine.lineBreak? (h : OpensLine n rest) (p : Pen) : (p.place rest).lineBreak? = none := by
  rcases h with rfl | h
  · rfl
  · exact h.1.endsGap.lineBreak? p

theorem OpensLine.isAtSeparator (h : OpensLine n rest) (p : Pen) :
    (p.place (List.replicate n ' ' ++ rest)).isAtSeparator = false := by
  cases n with
  | zero =>
    rcases h with rfl | h
    · rfl
    · exact h.2 rfl p
  | succ n => exact isAtSeparator_of_peek ⟨(by decide : ' ' ≠ '-'), (by decide : ' ' ≠ '.')⟩

/-- The end of a line, with the place in the next. -/
theorem plainGap_lineStart (hr : OpensLine n rest) (hw : Writes p (lineStart n) q) :
    plainGap (p.place (lineStart n ++ rest)) = ⟨[' '], q.place rest, true⟩ := by
  have hspan : (p.place ('\n' :: (List.replicate n ' ' ++ rest))).span (· == ' ') =
      ([], p.place ('\n' :: (List.replicate n ' ' ++ rest))) := rfl
  have hspaces := span_spaces hr.ne_space (hw.of_newLine (c := '\n') rfl)
  have hbreaks (fuel : Nat) : plainBreaks (fuel + 1) ((p.newLine '\n').place (List.replicate n ' ' ++ rest)) =
      ([], q.place rest, false) := by
    rw [plainBreaks, skipSpaces, skipWhile, hspaces]
    simp only [hr.lineBreak? q]
  rw [plainGap, lineStart, List.cons_append, hspan]
  simp only [lineBreak?_break (c := '\n') rfl (by decide), hr.isAtSeparator, Bool.false_eq_true, if_false, hbreaks]
  rfl

theorem endsPlain_gap (h : isGap c = true) (d : Char) : endsPlain false c d = true := by simp [endsPlain, h]

/-- Plain text stops at the end of a line that is followed by one that is indented less. -/
theorem StopsAt.of_lineStart (hr : OpensLine n rest) (hw : Writes p (lineStart n) q) (hcolumn : q.column = n)
    (hn : (n : Int) < i) : StopsAt i p (lineStart n ++ rest) (q.place rest) true where
  endsRun := by
    rintro c ⟨⟩
    exact endsPlain_gap rfl _
  gap := ⟨_, plainGap_lineStart hr hw, by simp [hcolumn, hn]⟩

/-- Plain text stops at a colon with a gap behind it. -/
theorem StopsAt.of_colon (hr : isGap (rest.headD '\x00') = true) (i : Int) (p : Pen) :
    StopsAt i p (':' :: rest) (p.place (':' :: rest)) false where
  endsRun := by
    rintro c ⟨⟩
    change endsPlain false ':' (rest.headD '\x00') = true
    rw [endsPlain, hr]
    rfl
  gap := by
    have hgap := @plainGap_blanks p p (':' :: rest) ⟨':', rest, rfl, rfl⟩ 0 (.refl p)
    exact ⟨[], hgap, rfl⟩

/-! ## Whole texts -/

variable {indent : Nat} {split : Bool}

/-- The runs of a text that stands plain, from a word on. -/
structure PlainRuns (rs : List (Run × List Char)) : Prop where
  alternates : Alternates rs
  plain : ∀ x ∈ rs, ∀ c ∈ x.2, isPlainChar c = true
  unbroken : ∀ x ∈ rs, x.1 ≠ .breaks
  first : ∀ x ∈ rs.head?, x.1 = .word
  last : ∀ x ∈ rs.getLast?, x.1 = .word
  unmarked : hasInnerMark (' ' :: rs.flatMap Prod.snd) = false

/-- What comes behind a word is of blanks. -/
theorem PlainRuns.gap {r : Run} {rs : List (Run × List Char)} (h : PlainRuns ((r, w) :: rs)) :
    ∀ d ∈ (rs.flatMap Prod.snd).head?, isGap d = true := by
  obtain rfl : r = .word := h.first _ rfl
  match rs with
  | [] => simp
  | (s, bs) :: rs =>
    have hs := (h.alternates.2.2.1 _ rfl).1
    have hsb := h.unbroken (s, bs) (List.mem_cons_of_mem _ List.mem_cons_self)
    obtain ⟨hbs, hblanks, -⟩ := h.alternates.2.2.2
    obtain ⟨b, bs, rfl⟩ := List.exists_cons_of_ne_nil hbs
    rintro d ⟨⟩
    have hd := hblanks b List.mem_cons_self
    cases s with
    | word => exact absurd rfl hs
    | breaks => exact absurd rfl hsb
    | blanks =>
      rw [isSpace_of_blanks hd]
      rfl

theorem PlainRuns.isWord {r : Run} {rs : List (Run × List Char)} (h : PlainRuns ((r, w) :: rs)) :
    r = .word ∧ IsWord w := by
  obtain rfl : r = .word := h.first _ rfl
  obtain ⟨hne, hkind, -⟩ := h.alternates
  have hplain := h.plain _ List.mem_cons_self
  have hunmarked := h.unmarked
  rw [List.flatMap_cons] at hunmarked
  refine ⟨rfl, hne, hplain, fun c hc => ?_, ?_, word_unmarked hne h.gap hunmarked⟩
  · obtain ⟨hspace, hbreak⟩ := not_space_or_break_of_word (hkind c hc)
    exact isGap_of_isPlainChar (hplain c hc) hspace hbreak
  · have hsharp := word_ne_sharp hunmarked
    obtain ⟨c, us, rfl⟩ := List.exists_cons_of_ne_nil hne
    exact hsharp

/-- What comes behind a word: blanks, and the next word. -/
theorem PlainRuns.next {r s : Run} {bs : List Char} {rs : List (Run × List Char)}
    (h : PlainRuns ((r, w) :: (s, bs) :: rs)) :
    s = .blanks ∧ (∃ n, bs = List.replicate (n + 1) ' ') ∧ rs ≠ [] ∧ PlainRuns rs := by
  obtain rfl : r = .word := h.first _ rfl
  obtain rfl : s = .blanks := by
    have hs := (h.alternates.2.2.1 _ rfl).1
    have hsb := h.unbroken (s, bs) (List.mem_cons_of_mem _ List.mem_cons_self)
    cases s with
    | word => exact absurd rfl hs
    | breaks => exact absurd rfl hsb
    | blanks => rfl
  have halt := h.alternates.2.2.2
  obtain ⟨n, hn⟩ : ∃ n, bs = List.replicate (n + 1) ' ' := by
    have hlen := List.length_pos_iff.2 halt.1
    exact ⟨bs.length - 1, by rw [Nat.sub_add_cancel hlen]; exact halt.eq_replicate⟩
  have hrs : rs ≠ [] := by
    rintro rfl
    exact Run.noConfusion (h.last (.blanks, bs) rfl)
  have hunmarked := h.unmarked
  rw [List.flatMap_cons, List.flatMap_cons, hn, List.replicate_succ'] at hunmarked
  refine ⟨rfl, ⟨n, hn⟩, hrs, halt.2.2.2, fun x hx => h.plain x ?_, fun x hx => h.unbroken x ?_,
    halt.word_next (by decide), fun x hx => h.last x ?_, hasInnerMark_append (' ' :: (w ++ List.replicate n ' ')) ?_⟩
  · exact List.mem_cons_of_mem _ (List.mem_cons_of_mem _ hx)
  · exact List.mem_cons_of_mem _ (List.mem_cons_of_mem _ hx)
  · obtain ⟨y, ys, rfl⟩ := List.exists_cons_of_ne_nil hrs
    simpa using hx
  · simpa using hunmarked

/-- Whether a text begins with a word behind which there is a gap, if anything. -/
def Starts (w cs : List Char) : Prop := ∃ vs, cs = w ++ vs ∧ ∀ c ∈ vs.head?, isGap c = true

theorem Starts.refl (w : List Char) : Starts w w := ⟨[], by simp, by simp⟩

theorem Starts.append {vs : List Char} (h : ∀ c ∈ vs.head?, isGap c = true) (us : List Char) (hne : vs ≠ []) :
    Starts w (w ++ (vs ++ us)) := by
  obtain ⟨c, vs, rfl⟩ := List.exists_cons_of_ne_nil hne
  exact ⟨_, rfl, h⟩

theorem Starts.opens (h : Starts w cs) (hw : IsWord w) (rest : List Char) : OpensWord (cs ++ rest) := by
  obtain ⟨vs, rfl, -⟩ := h
  rw [List.append_assoc]
  exact hw.opens _

/-- What is put down from a word on is read as the text from there on, by a reader that is not indented further. -/
structure PutsPlain (indent : Nat) (p : Pen) (w cs ws : List Char) (q : Pen) : Prop where
  writes : Writes p ws q
  starts : Starts w ws
  reads {i : Int} {tail : List Char} {z : Cursor} {hasBreak : Bool} : i ≤ indent → i ≤ p.column + 1 →
    StopsAt i q tail z hasBreak → PlainFrom i (p.place (ws ++ tail)) cs z hasBreak

theorem PutsPlain.last (hw : IsWord w) (p : Pen) : PutsPlain indent p w w w (p.put w) :=
  ⟨hw.writes p, .refl w, fun _ _ hstop => .last hw hstop⟩

/-- A word and what is put down for the gap behind it: blanks, or the end of a line. -/
theorem PutsPlain.word {p' : Pen} {w' ws gs text : List Char} {b : Bool} (hw : IsWord w) (hw' : IsWord w')
    (hgs : ∃ c us, gs = c :: us ∧ isGap c = true) (hput : Writes (p.put w) gs p') (htext : text ≠ [])
    (hgap : ∀ rest, OpensWord rest → plainGap ((p.put w).place (gs ++ rest)) = ⟨text, p'.place rest, b⟩)
    (hcolumn : indent ≤ p'.column ∨ p.column + 1 ≤ p'.column) (h : PutsPlain indent p' w' cs ws q) :
    PutsPlain indent p w (w ++ (text ++ cs)) (w ++ (gs ++ ws)) q := by
  obtain ⟨c, us, rfl, hc⟩ := hgs
  refine ⟨(hw.writes p).trans (hput.trans h.writes), Starts.append (by rintro d ⟨⟩; exact hc) ws (by simp),
    fun {i tail z hasBreak} hindent hi hstop => ?_⟩
  have hopens := h.starts.opens hw' tail
  have hends : EndsRun (c :: us ++ (ws ++ tail)) := by
    rintro d ⟨⟩
    exact endsPlain_gap hc _
  have hi' : i ≤ p'.column := by omega
  rw [List.append_assoc, List.append_assoc]
  refine PlainFrom.word hw hends (hgap _ hopens) htext (hopens.peek p') ?_ ?_ (h.reads hindent (by omega) hstop)
  · rwa [place_column]
  · exact (List.sublist_append_right (c :: us) (ws ++ tail)).length_le

/-- The words and blanks of a plain text, put down from a word on, are read as the text. -/
theorem putPlainRuns_reads (split : Bool) (hi : 0 < indent) : ∀ (rs : List (Run × List Char)) (w : List Char) (p : Pen),
    PlainRuns ((.word, w) :: rs) → p.leading = false →
    ∃ ws, PutsPlain indent p w (((.word, w) :: rs).flatMap Prod.snd) ws (putPlainRuns p indent split ((.word, w) :: rs))
  | [], w, p, hrs, hl => by
    obtain ⟨-, hword⟩ := hrs.isWord
    rw [List.flatMap_singleton]
    exact ⟨w, .last hword p⟩
  | [(s, bs)], w, p, hrs, hl => absurd rfl hrs.next.2.2.1
  | (s, bs) :: (r, w') :: rs, w, p, hrs, hl => by
    obtain ⟨-, hword⟩ := hrs.isWord
    obtain ⟨rfl, ⟨n, rfl⟩, -, hrest⟩ := hrs.next
    obtain ⟨rfl, hword'⟩ := hrest.isWord
    have hput : putPlainRuns p indent split ((.word, w) :: (.blanks, List.replicate (n + 1) ' ') :: (.word, w') :: rs) =
        putPlainRuns (p.put w) indent split ((.blanks, List.replicate (n + 1) ' ') :: (.word, w') :: rs) := rfl
    rw [hput, putPlainRuns]
    split
    · -- a single blank makes way for a break
      rename_i hfold
      obtain rfl : n = 0 := by
        simp only [Bool.and_eq_true, decide_eq_true_eq, List.length_replicate] at hfold
        omega
      obtain ⟨hgoto, hcolumn, -⟩ := goto_newLine (p := p.put w) (n := indent) (.inl hl)
      have hgoto : Writes (p.put w) (lineStart indent) ((p.put w).continueAt indent) := hgoto.flags false false
      have hgap (rest : List Char) (hrest : OpensWord rest) := plainGap_lineStart
        (.inr ⟨hrest, fun h => absurd h (Nat.ne_of_gt hi)⟩) hgoto
      obtain ⟨ws, hputs⟩ := putPlainRuns_reads split hi rs w' ((p.put w).continueAt indent) hrest rfl
      exact ⟨_, hputs.word hword hword' ⟨'\n', _, rfl, rfl⟩ hgoto (List.cons_ne_nil _ _) hgap
        (.inl (Nat.le_of_eq hcolumn.symm))⟩
    · have hput : Writes (p.put w) (List.replicate (n + 1) ' ') ((p.put w).put (List.replicate (n + 1) ' ')) :=
        Writes.put_spaces _ _
      have hcolumn : p.column + 1 ≤ ((p.put w).put (List.replicate (n + 1) ' ')).column := by
        simp only [Pen.put, List.length_replicate]
        omega
      obtain ⟨ws, hputs⟩ := putPlainRuns_reads split hi rs w' ((p.put w).put (List.replicate (n + 1) ' ')) hrest hl
      exact ⟨_, hputs.word hword hword' ⟨' ', _, rfl, rfl⟩ hput (List.cons_ne_nil _ _)
        (fun rest hrest => plainGap_blanks hrest.endsGap hput) (.inr hcolumn)⟩

theorem hasPair_of_right {f g : Char → Bool} : ∀ {cs : List Char}, (∀ c ∈ cs, g c = false) → hasPair f g cs = false
  | [], _ | [_], _ => rfl
  | c :: d :: cs, h => by
    rw [hasPair, h d (by simp), Bool.and_false, Bool.false_or]
    exact hasPair_of_right fun e he => h e (List.mem_cons_of_mem c he)

theorem hasPair_of_left {f g : Char → Bool} : ∀ {cs : List Char}, (∀ c ∈ cs, f c = false) → hasPair f g cs = false
  | [], _ | [_], _ => rfl
  | c :: d :: cs, h => by
    rw [hasPair, h c (by simp), Bool.false_and, Bool.false_or]
    exact hasPair_of_left fun e he => h e (List.mem_cons_of_mem c he)

theorem Alternates.of_mem : ∀ {rs : List (Run × List Char)}, Alternates rs → ∀ x ∈ rs,
    x.2 ≠ [] ∧ ∀ c ∈ x.2, Run.ofChar c = x.1
  | [], _, _, hx => nomatch hx
  | (r, cs) :: rs, h, x, hx => by
    rcases List.mem_cons.1 hx with rfl | hx
    · exact ⟨h.1, h.2.1⟩
    · exact of_mem h.2.2.2 x hx

theorem mem_of_mem_runs {x : Run × List Char} (hx : x ∈ runs cs) (hc : c ∈ x.2) : c ∈ cs := by
  rw [← runs_flatten cs]
  exact List.mem_flatMap.2 ⟨x, hx, hc⟩

/-- What stands plain is put down in runs of a plain text. -/
theorem StandsPlain.runs (h : StandsPlain cs) :
    ∃ w rs, Yaml.runs cs = (.word, w) :: rs ∧ PlainRuns ((.word, w) :: rs) := by
  obtain ⟨c, cs, rfl⟩ := List.exists_cons_of_ne_nil h.nonempty
  obtain ⟨run, rs, hruns⟩ := runs_cons c cs
  have htight := h.tight
  have hc : Run.ofChar c = .word := by
    have hbreak := h.unbroken c List.mem_cons_self
    simp only [hasLooseEnd, List.head?_cons, Option.any_some, Bool.or_eq_false_iff] at htight
    simp [Run.ofChar, htight.1.1, hbreak]
  rw [hc] at hruns
  have hflat := runs_flatten (c :: cs)
  refine ⟨c :: run, rs, hruns, ?_⟩
  rw [← hruns]
  have halt : Alternates (Yaml.runs (c :: cs)) :=
    runs_alternates (hasPair_of_right h.unbroken) (hasPair_of_left h.unbroken)
  refine ⟨halt, fun x hx d hd => h.plain d (mem_of_mem_runs hx hd), fun x hx he => ?_, fun x hx => ?_,
    fun x hx => ?_, ?_⟩
  · obtain ⟨hne, hkind⟩ := halt.of_mem x hx
    obtain ⟨d, ds, hds⟩ := List.exists_cons_of_ne_nil hne
    have hd : d ∈ x.2 := hds ▸ List.mem_cons_self
    have hbreak := isBreak_of_breaks ((hkind d hd).trans he)
    rw [h.unbroken d (mem_of_mem_runs hx hd)] at hbreak
    cases hbreak
  · rw [hruns] at hx
    cases hx
    rfl
  · -- the last character is in the last run
    obtain ⟨ys, hys⟩ := List.getLast?_eq_some_iff.1 hx
    obtain ⟨hne, hkind⟩ := halt.of_mem x (hys ▸ List.mem_append_right ys List.mem_cons_self)
    have hlast := List.dropLast_concat_getLast hne
    rw [hys, List.flatMap_append, List.flatMap_singleton, ← hlast, ← List.append_assoc] at hflat
    have hloose : Run.ofChar (x.2.getLast hne) = .word := by
      rw [hasLooseEnd, ← hflat, List.getLast?_concat, Bool.or_eq_false_iff] at htight
      simp only [Option.any_some, Bool.or_eq_false_iff] at htight
      simp [Run.ofChar, htight.2.1, htight.2.2]
    rw [← hkind _ (List.getLast_mem hne), hloose]
  · rw [hflat]
    exact hasInnerMark_blank h.unmarked

/-! ## The beginning -/

/-- Whether what begins here is read as plain text. -/
def OpensPlain (us : List Char) : Prop :=
  ∃ c vs, us = c :: vs ∧ isGap c = false ∧ isLeadingMark c vs.head? = false ∧
    ∀ p : Pen, (p.place us).isAtSeparator = false

/-- Whether what comes behind a scalar is no part of it: nothing, a gap or a colon. -/
def EndsScalar (tail : List Char) : Prop := ∀ c ∈ tail.head?, c = ':' ∨ isGap c = true

theorem isMarked_false {m : Char} (hm : isGap m = false ∧ m ≠ ':') (hcs : Starts w cs)
    (hpre : [m, m, m].isPrefixOf cs = false) (hds : EndsScalar ds) (hw : IsWord w) (p : Pen) :
    (p.place (w ++ ds)).isMarked m = false := by
  have hhead : (ds.headD '\x00' == m) = false := by
    cases ds with
    | nil =>
      rw [List.headD_nil, beq_eq_false_iff_ne]
      rintro rfl
      exact absurd hm.1 (by decide)
    | cons d ds =>
      rw [List.headD_cons, beq_eq_false_iff_ne]
      rintro rfl
      rcases hds d rfl with h | h
      · exact hm.2 h
      · exact absurd h (Bool.eq_false_iff.1 hm.1)
  obtain ⟨vs, rfl, -⟩ := hcs
  match w, hw.nonempty with
  | [a], _ =>
    simp only [isMarked, peekAt, place, List.singleton_append, List.drop_succ_cons, List.drop_zero, hhead,
      Bool.and_false,
      Bool.false_and]
  | [a, b], _ =>
    simp only [isMarked, peekAt, place, List.cons_append, List.nil_append, List.drop_succ_cons, List.drop_zero, hhead,
      Bool.and_false, Bool.false_and]
  | a :: b :: c :: w, _ =>
    simp only [List.cons_append, List.isPrefixOf, Bool.and_true, Bool.and_eq_false_iff, beq_eq_false_iff_ne,
      ne_eq] at hpre
    simp only [isMarked, peekAt, place, peek, List.cons_append, List.headD_cons, List.drop_succ_cons, List.drop_zero]
    rcases hpre with h | h | h <;> simp [Ne.symm h]

theorem StandsPlain.opens (h : StandsPlain cs) (hcs : Starts w cs) (hw : IsWord w) (hds : EndsScalar ds) :
    OpensPlain (w ++ ds) := by
  have hmark := h.unmarked
  obtain ⟨c, us, rfl⟩ := List.exists_cons_of_ne_nil hw.nonempty
  simp only [hasMark, Bool.or_eq_false_iff] at hmark
  obtain ⟨⟨⟨hdash, hdot⟩, hlead⟩, -⟩ := hmark
  refine ⟨c, us ++ ds, rfl, hw.nongap c List.mem_cons_self, ?_, fun p => ?_⟩
  · obtain ⟨vs, rfl, hvs⟩ := hcs
    cases us with
    | nil =>
      -- a word of one character marks nothing whatever comes behind it
      have hgap : ∀ o : Option Char, (∀ d ∈ o, isGap d = true) → isLeadingMark c o = false →
          ∀ o', isLeadingMark c o' = false := by
        intro o ho hc o'
        cases o with
        | none =>
          simp only [isLeadingMark, Bool.and_true, Bool.or_eq_false_iff] at hc
          simp only [isLeadingMark, hc.1, hc.2.1.1, hc.2.1.2, hc.2.2, Bool.or_false, Bool.false_and]
        | some d =>
          simp only [isLeadingMark, ho d rfl, Bool.and_true, Bool.or_eq_false_iff] at hc
          simp only [isLeadingMark, hc.1, hc.2.1.1, hc.2.1.2, hc.2.2, Bool.or_false, Bool.false_and]
      exact hgap _ hvs hlead _
    | cons d us => exact hlead
  · have hdash := isMarked_false (m := '-') ⟨rfl, by decide⟩ hcs hdash hds hw p
    have hdot := isMarked_false (m := '.') ⟨rfl, by decide⟩ hcs hdot hds hw p
    rw [isAtSeparator, hdash, hdot]
    rfl

theorem isLeadingMark_head {vs : List Char} (h : isLeadingMark c vs.head? = false) :
    "#,[]\x7b\x7d&*!|>'\"%@\x60".toList.contains c = false ∧
      (c = '?' ∨ c = ':' ∨ c = '-' → isGap (vs.headD '\x00') = false) := by
  cases vs with
  | nil =>
    simp only [isLeadingMark, List.head?_nil, Bool.and_true, Bool.or_eq_false_iff, beq_eq_false_iff_ne] at h
    exact ⟨h.1, fun hc => absurd hc (by simp [h.2.1.1, h.2.1.2, h.2.2])⟩
  | cons d vs =>
    simp only [isLeadingMark, List.head?_cons, Bool.or_eq_false_iff, Bool.and_eq_false_iff, beq_eq_false_iff_ne] at h
    refine ⟨h.1, fun hc => h.2.resolve_left fun hno => ?_⟩
    rcases hc with rfl | rfl | rfl
    · exact hno.1.1 rfl
    · exact hno.1.2 rfl
    · exact hno.2 rfl

/-! ## Plain scalars -/

/-- What is put down between two pens is read as plain text, by a reader that is not indented further. -/
structure ReadsPlain (p : Pen) (ws : List Char) (q : Pen) (indent : Nat) (cs : List Char) : Prop where
  writes : Writes p ws q
  opens {tail : List Char} : EndsScalar tail → OpensPlain (ws ++ tail)
  reads {i : Int} {tail : List Char} {z : Cursor} {hasBreak : Bool} : i ≤ indent → i ≤ p.column + 1 →
    StopsAt i q tail z hasBreak → plainScalar false i (p.place (ws ++ tail)) = ⟨cs, z, hasBreak⟩

/-- A text that stands plain is read as it was. -/
theorem putPlain_reads (split : Bool) (hi : 0 < indent) (h : StandsPlain cs) (p : Pen) :
    ∃ ws, ReadsPlain p.gap ws (putPlain p indent split cs) indent cs := by
  obtain ⟨w, rs, hruns, hplain⟩ := h.runs
  obtain ⟨-, hword⟩ := hplain.isWord
  obtain ⟨ws, hw, hstarts, hread⟩ := putPlainRuns_reads split hi rs w (p.word []) hplain rfl
  have hput : putPlain p indent split cs = putPlainRuns (p.word []) indent split ((.word, w) :: rs) := by
    have hempty : cs.isEmpty = false := by simpa using h.nonempty
    rw [putPlain, hempty, if_neg Bool.false_ne_true, hruns]
  have hflat : ((.word, w) :: rs : List (Run × List Char)).flatMap Prod.snd = cs := by rw [← hruns, runs_flatten]
  have hcs : Starts w cs := ⟨_, hflat.symm, hplain.gap⟩
  rw [hput]
  refine ⟨ws, ⟨hw.written, hw.place, hw.plain⟩, fun {tail} htail => ?_, fun {i tail z hasBreak} hin hic hstop => ?_⟩
  · obtain ⟨vs, rfl, hvs⟩ := hstarts
    rw [List.append_assoc]
    refine h.opens hcs hword fun c hc => ?_
    cases vs with
    | nil => exact htail c hc
    | cons d vs => exact .inr (hvs c hc)
  · have h := hread hin hic hstop ⟨[], p.gap.place (ws ++ tail), false⟩ ((p.gap.place (ws ++ tail)).rest.length + 1)
      (Nat.lt_succ_self _)
    rw [hflat] at h
    exact h

end

end ApiProjection.Yaml
