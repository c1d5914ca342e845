import ApiProjection.Proofs.RoundTrip.Quotes
/-!
# Text between apostrophes

A text is put down in runs of words, blanks and breaks. Between apostrophes, blanks stand next to words only, so a
single blank can make way for a break, and a break that stands for itself is told from one that does not.

* `runs_alternates`: the runs of a text.
* `putSingle_reads`: what is put down between apostrophes is read as the text.
-/
namespace ApiProjection.Yaml

open Pen

/-! ## Runs -/

/-- Whether the runs are of the characters they are said to be of, and blanks and breaks do not meet. -/
def Alternates : List (Run × List Char) → Prop
  | [] => True
  | (r, cs) :: rest =>
    cs ≠ [] ∧ (∀ c ∈ cs, Run.ofChar c = r) ∧ (∀ x ∈ rest.head?, x.1 ≠ r ∧ (r = .word ∨ x.1 = .word)) ∧
      Alternates rest

section
variable {c : Char} {cs : List Char}

theorem isSpace_of_blanks (h : Run.ofChar c = .blanks) : c = ' ' := by
  unfold Run.ofChar at h
  split at h
  · simpa [isSpace] using ‹isSpace c = true›
  · split at h <;> cases h

theorem isBreak_of_breaks (h : Run.ofChar c = .breaks) : isBreak c = true := by
  unfold Run.ofChar at h
  split at h
  · cases h
  · split at h
    · assumption
    · cases h

theorem not_space_or_break_of_word (h : Run.ofChar c = .word) : isSpace c = false ∧ isBreak c = false := by
  unfold Run.ofChar at h
  split at h
  · cases h
  · split at h
    · cases h
    · exact ⟨Bool.eq_false_iff.2 ‹_›, Bool.eq_false_iff.2 ‹_›⟩

theorem runs_cons (c : Char) (cs : List Char) :
    ∃ run rest, runs (c :: cs) = (Run.ofChar c, c :: run) :: rest := by
  rw [runs]
  split
  · split
    · rename_i h
      exact ⟨_, _, by rw [h]⟩
    · exact ⟨_, _, rfl⟩
  · exact ⟨_, _, rfl⟩

/-- The runs of a text make up the text. -/
theorem runs_flatten (cs : List Char) : (runs cs).flatMap Prod.snd = cs := by
  induction cs with
  | nil => rfl
  | cons c cs ih =>
    rw [runs]
    split
    · rename_i r run rest heq
      rw [heq] at ih
      split
      · rw [← ih]
        rfl
      · rw [← ih]
        rfl
    · rename_i heq
      rw [heq] at ih
      rw [← ih]
      rfl

/-- No two runs of a kind meet, nor do blanks and breaks if none do in the text. -/
theorem runs_alternates (hsb : hasPair isSpace isBreak cs = false) (hbs : hasPair isBreak isSpace cs = false) :
    Alternates (runs cs) := by
  induction cs with
  | nil => exact trivial
  | cons c cs ih =>
    cases cs with
    | nil => exact ⟨by simp, by simp, by simp, trivial⟩
    | cons d cs =>
      simp only [hasPair, Bool.or_eq_false_iff] at hsb hbs
      have ih := ih hsb.2 hbs.2
      obtain ⟨run, rest, hruns⟩ := runs_cons d cs
      rw [hruns] at ih
      rw [runs, hruns]
      simp only
      split
      · rename_i hsame
        refine ⟨by simp, fun x hx => ?_, ih.2.2.1, ih.2.2.2⟩
        rcases List.mem_cons.1 hx with rfl | hx
        · exact hsame.symm
        · exact ih.2.1 x hx
      · rename_i hne
        refine ⟨by simp, by simp, ?_, ih⟩
        rintro x ⟨⟩
        refine ⟨hne, ?_⟩
        -- neither a blank before a break nor a break before a blank
        cases hc : Run.ofChar c with
        | word => exact .inl rfl
        | blanks =>
          cases hd : Run.ofChar d with
          | word => exact .inr rfl
          | blanks => exact absurd (hd.trans hc.symm) hne
          | breaks =>
            rw [isSpace_of_blanks hc, isBreak_of_breaks hd] at hsb
            exact absurd hsb.1 (by decide)
        | breaks =>
          cases hd : Run.ofChar d with
          | word => exact .inr rfl
          | breaks => exact absurd (hd.trans hc.symm) hne
          | blanks =>
            rw [isBreak_of_breaks hc, isSpace_of_blanks hd] at hbs
            exact absurd hbs.1 (by decide)

theorem Alternates.eq_replicate {rest : List (Run × List Char)} (h : Alternates ((.blanks, cs) :: rest)) :
    cs = List.replicate cs.length ' ' := List.eq_replicate_of_mem fun c hc => isSpace_of_blanks (h.2.1 c hc)

/-- What comes after blanks or breaks is a word. -/
theorem Alternates.word_next {r : Run} {rest : List (Run × List Char)} (h : Alternates ((r, cs) :: rest))
    (hr : r ≠ .word) : ∀ x ∈ rest.head?, x.1 = .word := fun x hx => ((h.2.2.1 x hx).2).resolve_left hr

end

/-! ## Words -/

section
variable {p q : Pen} {cs rest t : List Char} {z : Cursor}

theorem mem_of_mem_doubled {c : Char} (h : c ∈ doubled cs) : c ∈ cs := by
  obtain ⟨d, hd, hc⟩ := List.mem_flatMap.1 h
  split at hc
  · rw [show c = d by simpa using hc]
    exact hd
  · rw [show c = d by simpa using hc]
    exact hd

theorem Quotes.doubled (hw : ∀ c ∈ cs, isPlainChar c = true ∧ isGap c = false)
    (h : Quotes false ((p.put (doubled cs)).place rest) t z) :
    Quotes false (p.place (doubled cs ++ rest)) (cs ++ t) z := by
  induction cs generalizing p with
  | nil => exact h
  | cons c cs ih =>
    obtain ⟨hplain, hgap⟩ := hw c List.mem_cons_self
    have ih {p : Pen} := ih (p := p) fun d hd => hw d (List.mem_cons_of_mem c hd)
    by_cases hc : c = '\''
    · subst hc
      have hdoubled : doubled ('\'' :: cs) = ['\'', '\''] ++ doubled cs := rfl
      rw [hdoubled, ← put_put] at h
      exact Quotes.apostrophe (ih h)
    · have hdoubled : doubled (c :: cs) = [c] ++ doubled cs := by
        rw [Yaml.doubled, List.flatMap_cons, if_neg (by simpa using hc)]
        rfl
      rw [hdoubled, ← put_put] at h
      rw [hdoubled]
      exact Quotes.char (by simp [standsInQuotes, hgap, quoteMark, hc]) (isPlainChar_ne hplain rfl) (ih h)

/-! ## Breaks -/

theorem Writes.breaks (hb : ∀ c ∈ cs, isBreak c = true ∧ isPlainChar c = true) (p : Pen) :
    Writes p cs (cs.foldl newLine p) := by
  induction cs generalizing p with
  | nil => exact .refl p
  | cons c cs ih =>
    obtain ⟨hc, hplain⟩ := hb c List.mem_cons_self
    exact (Writes.newLine hc hplain p).trans
      (ih (fun d hd => hb d (List.mem_cons_of_mem c hd)) _)

theorem foldl_newLine {c : Char} (cs : List Char) (p : Pen) :
    ((c :: cs).foldl newLine p).leading = true ∧ ((c :: cs).foldl newLine p).roomy = true ∧
      ((c :: cs).foldl newLine p).column = 0 := by
  induction cs generalizing p c with
  | nil => exact ⟨rfl, rfl, rfl⟩
  | cons d cs ih =>
    rw [List.foldl_cons]
    exact ih (c := d) (p.newLine c)

/-- The breaks that are put down for the breaks of a text. -/
def spelled (cs : List Char) : List Char := if cs.head? = some '\n' then '\n' :: cs else cs

/-- The first break that is put down, and how it is folded with those behind it. -/
theorem spelled_eq {c : Char} (cs : List Char) :
    ∃ b bs, spelled (c :: cs) = b :: bs ∧ folded b bs = c :: cs ∧ ∀ d ∈ b :: bs, d ∈ c :: cs := by
  by_cases hc : c = '\n'
  · subst hc
    exact ⟨'\n', '\n' :: cs, rfl, rfl, fun d hd => (List.mem_cons.1 hd).elim (· ▸ List.mem_cons_self) id⟩
  · refine ⟨c, cs, ?_, ?_, fun d hd => hd⟩
    · rw [spelled, List.head?_cons, if_neg (by simpa using hc)]
    · rw [folded, if_pos (by simpa using hc)]

theorem putBreaks_writes {c : Char} (hb : ∀ d ∈ c :: cs, isBreak d = true ∧ isPlainChar d = true) (p : Pen)
    (indent : Nat) :
    Writes p (spelled (c :: cs) ++ List.replicate indent ' ') (putBreaks p indent (c :: cs)) ∧
      (putBreaks p indent (c :: cs)).column = indent := by
  have hflags := fun p => foldl_newLine (c := c) cs p
  have hgoto := fun p => goto_lineStart (hflags p).1 (hflags p).2.1 (hflags p).2.2 indent
  unfold putBreaks spelled
  split
  · exact ⟨(Writes.newLine rfl rfl p).trans ((Writes.breaks hb _).trans (hgoto _).1), (hgoto _).2.1⟩
  · exact ⟨(Writes.breaks hb p).trans (hgoto p).1, (hgoto p).2.1⟩

theorem Quotes.of_breaks (hr : EndsGap rest) {n : Nat} (hn : 0 < n) {c : Char}
    (hb : ∀ d ∈ c :: cs, isBreak d = true ∧ d ≠ '\x85')
    (hw : Writes p (spelled (c :: cs) ++ List.replicate n ' ') q) {double : Bool}
    (h : Quotes double (q.place rest) t z) :
    Quotes double (p.place (spelled (c :: cs) ++ (List.replicate n ' ' ++ rest))) (c :: cs ++ t) z := by
  obtain ⟨b, bs, hspelled, hfolded, hmem⟩ := spelled_eq (c := c) cs
  rw [hspelled] at hw ⊢
  have hbreaks : ∀ d ∈ b :: bs, isBreak d = true ∧ d ≠ '\x85' := fun d hd => hb d (hmem d hd)
  have hgap := quotedGap_breaks hr hn hbreaks hw
  rw [hfolded] at hgap
  refine h.of_gap ?_ hgap (by simp only [place_rest, List.length_append, List.length_replicate]; omega)
  have hbreak := (hbreaks b List.mem_cons_self).1
  simp [isGap, hbreak]

/-- A break that stands for a blank. -/
theorem Quotes.of_fold (hr : EndsGap rest) {n : Nat} (hn : 0 < n) (hw : Writes p (lineStart n) q) {double : Bool}
    (h : Quotes double (q.place rest) t z) :
    Quotes double (p.place (lineStart n ++ rest)) (' ' :: t) z := by
  refine h.of_gap rfl (quotedGap_breaks hr hn (List.forall_mem_singleton.2 ⟨rfl, by decide⟩) hw) ?_
  simp only [place_rest, List.length_append, List.length_cons]
  omega

theorem Quotes.of_blanks (hr : EndsGap rest) {n : Nat} (hn : 0 < n) (hw : Writes p (List.replicate n ' ') q)
    {double : Bool} (h : Quotes double (q.place rest) t z) :
    Quotes double (p.place (List.replicate n ' ' ++ rest)) (List.replicate n ' ' ++ t) z := by
  have hlen : rest.length < (List.replicate n ' ' ++ rest).length := by
    rw [List.length_append, List.length_replicate]
    omega
  refine h.of_gap ?_ (quotedGap_blanks hr hw) hlen
  obtain ⟨n, rfl⟩ : ∃ m, n = m + 1 := ⟨n - 1, by omega⟩
  rfl

end

/-! ## Where the pen is -/

section
variable {indent : Nat} {split : Bool}

/-- Whether the pen gets to the indent by a new line whenever a blank makes way for one. -/
def IsInside (indent : Nat) (rs : List (Run × List Char)) (p : Pen) : Prop :=
  p.leading = false ∨ indent < p.column ∨ (indent ≤ p.column ∧ ∀ x ∈ rs.head?, x.1 ≠ .blanks)

theorem IsInside.put {rs rs' : List (Run × List Char)} {p : Pen} {cs : List Char} (h : IsInside indent rs p)
    (hcs : cs ≠ []) : IsInside indent rs' (p.put cs) := by
  have hlen := List.length_pos_iff.2 hcs
  rcases h with h | h | h
  · exact .inl h
  · exact .inr (.inl (Nat.lt_add_right _ h))
  · exact .inr (.inl (by simp only [Pen.put]; omega))

/-- Behind a new line that goes to the indent, the pen is inside if a word comes next. -/
theorem IsInside.of_word {rs : List (Run × List Char)} {p : Pen} (hcolumn : p.column = indent)
    (hword : ∀ x ∈ rs.head?, x.1 = .word) : IsInside indent rs p :=
  .inr (.inr ⟨Nat.le_of_eq hcolumn.symm, fun x hx h => by rw [hword x hx] at h; cases h⟩)

/-- Before blanks, the pen can leave the line. -/
theorem IsInside.leaves {cs : List Char} {rs : List (Run × List Char)} {p : Pen}
    (h : IsInside indent ((.blanks, cs) :: rs) p) : p.leading = false ∨ indent < p.column := by
  rcases h with h | h | h
  · exact .inl h
  · exact .inr h
  · exact absurd rfl (h.2 _ rfl)

/-! ## Steps of the pen -/

/-- What is put down from a pen on, with the apostrophe behind it, is read as what is still to be put down. -/
structure PutsSingle (p : Pen) (cs ws : List Char) (q : Pen) : Prop where
  writes : Writes p ws q
  reads {rest : List Char} : (∀ c ∈ rest.head?, c ≠ '\'') →
    Quotes false (p.place (ws ++ '\'' :: rest)) cs ((q.put ['\'']).place rest)

/-- Whether what is put down begins with no blank or break, also where nothing but the apostrophe is left. -/
def BeginsFirm (ws : List Char) : Prop := ∀ rest, EndsGap (ws ++ '\'' :: rest)

section
variable {p q : Pen} {c : Char} {cs t ws : List Char}

theorem PutsSingle.last (p : Pen) : PutsSingle p [] [] p := ⟨.refl p, Quotes.close_single p⟩

theorem doubled_ne_nil (h : cs ≠ []) : doubled cs ≠ [] := by
  obtain ⟨c, cs, rfl⟩ := List.exists_cons_of_ne_nil h
  rw [doubled, List.flatMap_cons]
  split <;> simp

theorem PutsSingle.word (hcs : ∀ c ∈ cs, isPlainChar c = true ∧ isGap c = false)
    (h : PutsSingle (p.put (doubled cs)) t ws q) : PutsSingle p (cs ++ t) (doubled cs ++ ws) q where
  writes := (Writes.put_plain (fun c hc => (hcs c (mem_of_mem_doubled hc)).1)
    (fun c hc => isBreak_of_not_isGap (hcs c (mem_of_mem_doubled hc)).2) p).trans h.writes
  reads hr := by
    rw [List.append_assoc]
    exact Quotes.doubled hcs (h.reads hr)

theorem BeginsFirm.word (hne : cs ≠ []) (hcs : ∀ c ∈ cs, isGap c = false) (ws : List Char) :
    BeginsFirm (doubled cs ++ ws) := fun rest => by
  obtain ⟨c, us, hcons⟩ := List.exists_cons_of_ne_nil (doubled_ne_nil hne)
  have hc : c ∈ cs := mem_of_mem_doubled (hcons ▸ List.mem_cons_self)
  exact ⟨c, us ++ ws ++ '\'' :: rest, by rw [hcons]; rfl, hcs c hc⟩

theorem PutsSingle.breaks (hi : 0 < indent)
    (hcs : ∀ d ∈ c :: cs, isBreak d = true ∧ isPlainChar d = true ∧ d ≠ '\x85') (hfirm : BeginsFirm ws)
    (h : PutsSingle (putBreaks p indent (c :: cs)) t ws q) :
    PutsSingle p (c :: cs ++ t) (spelled (c :: cs) ++ List.replicate indent ' ' ++ ws) q := by
  obtain ⟨hw, -⟩ := putBreaks_writes (fun d hd => ⟨(hcs d hd).1, (hcs d hd).2.1⟩) p indent
  refine ⟨hw.trans h.writes, fun {rest} hr => ?_⟩
  rw [List.append_assoc, List.append_assoc]
  exact Quotes.of_breaks (hfirm rest) hi (fun d hd => ⟨(hcs d hd).1, (hcs d hd).2.2⟩) hw (h.reads hr)

/-- A blank makes way for a break. -/
theorem PutsSingle.fold (hi : 0 < indent) (hleaves : p.leading = false ∨ indent < p.column) (hfirm : BeginsFirm ws)
    (h : PutsSingle (p.goto indent) t ws q) : PutsSingle p (' ' :: t) (lineStart indent ++ ws) q := by
  obtain ⟨hw, -⟩ := goto_newLine hleaves
  refine ⟨hw.trans h.writes, fun {rest} hr => ?_⟩
  rw [List.append_assoc]
  exact Quotes.of_fold (hfirm rest) hi hw (h.reads hr)

theorem PutsSingle.blanks {n : Nat} (hn : 0 < n) (hfirm : BeginsFirm ws)
    (h : PutsSingle (p.put (List.replicate n ' ')) t ws q) :
    PutsSingle p (List.replicate n ' ' ++ t) (List.replicate n ' ' ++ ws) q := by
  have hw := Writes.put_spaces n p
  refine ⟨hw.trans h.writes, fun {rest} hr => ?_⟩
  rw [List.append_assoc]
  exact Quotes.of_blanks (hfirm rest) hn hw (h.reads hr)

end

/-! ## Whole texts -/

/-- The runs of a text, put down between apostrophes, are read as the text. -/
theorem putRuns_reads (hi : 0 < indent) : ∀ (rs : List (Run × List Char)) (first : Bool) (p : Pen),
    Alternates rs → (∀ x ∈ rs, ∀ c ∈ x.2, isPlainChar c = true ∧ c ≠ '\x85') → IsInside indent rs p →
    ∃ ws, PutsSingle p (rs.flatMap Prod.snd) ws (putRuns p indent split first rs) ∧
      ((∀ x ∈ rs.head?, x.1 = .word) → BeginsFirm ws)
  | [], first, p, _, _, _ => ⟨[], .last p, fun _ rest => ⟨'\'', rest, rfl, rfl⟩⟩
  | (.word, cs) :: rs, first, p, ha, hp, hin => by
    obtain ⟨hne, hkind, -, htail⟩ := ha
    have hchars : ∀ c ∈ cs, isPlainChar c = true ∧ isGap c = false := fun c hc => by
      obtain ⟨hs, hb⟩ := not_space_or_break_of_word (hkind c hc)
      have hplain := (hp _ List.mem_cons_self c hc).1
      exact ⟨hplain, isGap_of_isPlainChar hplain hs hb⟩
    obtain ⟨ws, hputs, -⟩ := putRuns_reads hi rs false (p.put (doubled cs)) htail
      (fun x hx => hp x (List.mem_cons_of_mem _ hx)) (hin.put (doubled_ne_nil hne))
    exact ⟨doubled cs ++ ws, hputs.word hchars, fun _ => .word hne (fun c hc => (hchars c hc).2) ws⟩
  | (.breaks, cs) :: rs, first, p, ha, hp, hin => by
    have hword := ha.word_next (by decide)
    obtain ⟨hne, hkind, -, htail⟩ := ha
    obtain ⟨c, cs, rfl⟩ := List.exists_cons_of_ne_nil hne
    have hchars : ∀ d ∈ c :: cs, isBreak d = true ∧ isPlainChar d = true ∧ d ≠ '\x85' := fun d hd =>
      ⟨isBreak_of_breaks (hkind d hd), hp _ List.mem_cons_self d hd⟩
    obtain ⟨-, hcolumn⟩ := putBreaks_writes (fun d hd => ⟨(hchars d hd).1, (hchars d hd).2.1⟩) p indent
    obtain ⟨ws, hputs, hfirm⟩ := putRuns_reads hi rs false (putBreaks p indent (c :: cs)) htail
      (fun x hx => hp x (List.mem_cons_of_mem _ hx)) (.of_word hcolumn hword)
    exact ⟨_, hputs.breaks hi hchars (hfirm hword), fun h => nomatch h _ rfl⟩
  | (.blanks, cs) :: rs, first, p, ha, hp, hin => by
    have hword := ha.word_next (by decide)
    obtain ⟨n, hn, rfl⟩ : ∃ n, 0 < n ∧ cs = List.replicate n ' ' :=
      ⟨cs.length, List.length_pos_iff.2 ha.1, ha.eq_replicate⟩
    have htail := ha.2.2.2
    have hp' := fun x hx => hp x (List.mem_cons_of_mem _ hx)
    have hleaves := hin.leaves
    rw [putRuns]
    split
    · -- a single blank makes way for a break
      rename_i hfold
      obtain rfl : n = 1 := by
        simp only [Bool.and_eq_true, decide_eq_true_eq, List.length_replicate] at hfold
        exact hfold.1.1.1.1
      obtain ⟨-, hcolumn, -⟩ := goto_newLine hleaves
      obtain ⟨ws, hputs, hfirm⟩ := putRuns_reads hi rs false (p.goto indent) htail hp' (.of_word hcolumn hword)
      exact ⟨_, hputs.fold hi hleaves (hfirm hword), fun h => nomatch h _ rfl⟩
    · obtain ⟨ws, hputs, hfirm⟩ := putRuns_reads hi rs false (p.put (List.replicate n ' ')) htail hp'
        (hin.put ha.1)
      exact ⟨_, hputs.blanks hn (hfirm hword), fun h => nomatch h _ rfl⟩

/-- A text between apostrophes is read as it was, unless it holds the break that reads as a line feed. -/
theorem putSingle_reads (hi : 0 < indent) {cs : List Char} (hplain : needsEscapes cs = false)
    (hpair : hasPair isBreak isSpace cs = false) (hnel : '\x85' ∉ cs) (p : Pen) :
    ∃ ws, ReadsQuoted p.gap ws (putSingle p indent split cs) cs := by
  simp only [needsEscapes, Bool.or_eq_false_iff, Bool.not_eq_false', List.all_eq_true] at hplain
  have hchars : ∀ x ∈ runs cs, ∀ c ∈ x.2, isPlainChar c = true ∧ c ≠ '\x85' := fun x hx c hc => by
    have hmem : c ∈ cs := by
      rw [← runs_flatten cs]
      exact List.mem_flatMap.2 ⟨x, hx, hc⟩
    exact ⟨hplain.2 c hmem, fun h => hnel (h ▸ hmem)⟩
  have hruns := @putRuns_reads indent split hi (runs cs) true (p.word ['\'']) (runs_alternates hplain.1 hpair) hchars
    (.inl rfl)
  obtain ⟨ws, hputs, -⟩ := hruns
  rw [runs_flatten] at hputs
  exact ⟨_, .of_quotes false hputs.writes hputs.reads⟩

end

end ApiProjection.Yaml
