import ApiProjection.Proofs.RoundTrip.Escape
/-!
# Text between double quotes

Between double quotes a line ends with a backslash, which joins it with the next, and a blank at the beginning of the
next stands behind a backslash of its own. Behind an escape the pen can come to such a blank twice, if the indent is so
large that the blank is too far to the right as well: then two backslashes meet.

* `KeepsBlanks`: no backslash meets another.
* `putDouble_reads`: what is put down between double quotes is read as the text.
-/
namespace ApiProjection.Yaml

open Pen Cursor

/-- Whether no line is broken twice before one blank: behind an escape, before a blank that is not the last character,
the indent leaves room for the blank. -/
def KeepsBlanks (indent : Nat) (split : Bool) (cs : List Char) : Prop :=
  split = true → lineWidth ≤ indent → hasPair (fun c => !isBare c) isSpace cs.dropLast = false

section
variable {p q : Pen} {c d : Char} {cs rest t : List Char} {z : Cursor} {indent : Nat} {split : Bool}

theorem KeepsBlanks.tail (h : KeepsBlanks indent split (c :: cs)) : KeepsBlanks indent split cs := fun hs hi => by
  have h := h hs hi
  match cs with
  | [] | [_] => rfl
  | d :: e :: cs =>
    rw [List.dropLast_cons_cons, List.dropLast_cons_cons, hasPair, Bool.or_eq_false_iff] at h
    rw [List.dropLast_cons_cons]
    exact h.2

/-- Behind an escape, a blank that is not the last character has room. -/
theorem KeepsBlanks.room (h : KeepsBlanks indent split (c :: ' ' :: d :: cs)) (hc : isBare c = false)
    (hs : split = true) : indent < lineWidth := by
  by_contra hi
  have h := h hs (Nat.not_lt.1 hi)
  cases cs <;> simp [hasPair, hc, isSpace] at h

/-! ## Joined lines -/

theorem EndsGap.of_bare (hbare : ∀ c ∈ cs, isBare c = true) (hc : ∀ c ∈ cs.head?, c ≠ ' ') (hr : EndsGap rest) :
    EndsGap (cs ++ rest) := by
  cases cs with
  | nil => exact hr
  | cons c cs =>
    obtain ⟨hput, -⟩ := isBare_iff (hbare c List.mem_cons_self)
    exact ⟨c, cs ++ rest, rfl, isGap_of_isPlainChar hput.1 (by simpa [isSpace] using hc c rfl) hput.2⟩

theorem Writes.put_bare (hbare : ∀ c ∈ cs, isBare c = true) (p : Pen) : Writes p cs (p.put cs) :=
  Writes.put_all (fun c hc => (isBare_iff (hbare c hc)).1) p

/-- The end of a line between double quotes. -/
def joint (indent : Nat) : List Char := '\\' :: lineStart indent

/-- The pen in the next line, behind what is put down at the end of a line. -/
def Pen.join (p : Pen) (cs : List Char) (indent : Nat) : Pen := (p.put (cs ++ ['\\'])).continueAt indent

theorem join_leading (p : Pen) (cs : List Char) (indent : Nat) : (p.join cs indent).leading = false := rfl

theorem Writes.join (hbare : ∀ c ∈ cs, isBare c = true) (hl : p.leading = false) :
    Writes p (cs ++ joint indent) (p.join cs indent) ∧ (p.join cs indent).column = indent := by
  have hput : ∀ d ∈ cs ++ ['\\'], IsPut d := List.forall_mem_append.2
    ⟨fun d hd => (isBare_iff (hbare d hd)).1, List.forall_mem_singleton.2 ⟨rfl, rfl⟩⟩
  obtain ⟨hgoto, hcolumn, -⟩ := goto_newLine (p := p.put (cs ++ ['\\'])) (n := indent) (.inl hl)
  have hw := (Writes.put_all hput p).trans hgoto
  rw [List.append_assoc] at hw
  exact ⟨hw.flags false false, hcolumn⟩

/-! ## Steps of the pen -/

/-- What is put down from a pen on, the characters that are held back among it, is read as what is still to be put
down. A reader may have read some of the characters that are held back. -/
structure Puts (p : Pen) (pending cs ws : List Char) (q : Pen) : Prop where
  writes : Writes p (pending.reverse ++ ws) q
  reads (rest a b : List Char) : pending.reverse = a ++ b →
    Quotes true ((p.put a).place (b ++ (ws ++ '"' :: rest))) (b ++ cs) ((q.put ['"']).place rest)

variable {pending ws : List Char}

theorem bare_reverse (hbare : ∀ c ∈ pending, isBare c = true) : ∀ c ∈ pending.reverse, isBare c = true :=
  fun c hc => hbare c (List.mem_reverse.1 hc)

theorem Puts.last (hbare : ∀ c ∈ pending, isBare c = true) (p : Pen) :
    Puts p pending [] [] (p.put pending.reverse) where
  writes := by
    rw [List.append_nil]
    exact Writes.put_bare (bare_reverse hbare) p
  reads rest a b hab := by
    have hb : ∀ c ∈ b, isBare c = true := fun c hc => bare_reverse hbare c (hab ▸ List.mem_append_right a hc)
    refine Quotes.of_bare ⟨'"', rest, rfl, rfl⟩ (Nat.le_refl _) hb ?_
    rw [hab, put_put]
    exact Quotes.close_double _ rest

/-- A character is held back. -/
theorem Puts.hold (h : Puts p (c :: pending) cs ws q) : Puts p pending (c :: cs) (c :: ws) q where
  writes := by simpa using h.writes
  reads rest a b hab := by
    have h := h.reads rest a (b ++ [c]) (by rw [List.reverse_cons, hab, List.append_assoc])
    rw [List.append_assoc, List.append_assoc] at h
    exact h

/-- A line ends. -/
theorem Puts.joint (hi : 0 < indent) (hbare : ∀ c ∈ pending, isBare c = true) (hl : p.leading = false)
    (hr : ∀ rest, EndsGap (ws ++ '"' :: rest))
    (h : Puts (p.join pending.reverse indent) [] cs ws q) :
    Puts p pending cs (Yaml.joint indent ++ ws) q where
  writes := by
    rw [← List.append_assoc]
    exact (Writes.join (bare_reverse hbare) hl).1.trans h.writes
  reads rest a b hab := by
    have hb : ∀ c ∈ b, isBare c = true := fun c hc => bare_reverse hbare c (hab ▸ List.mem_append_right a hc)
    have hrest := h.reads rest [] [] rfl
    have hgoto := (goto_newLine (p := p.put (pending.reverse ++ ['\\'])) (n := indent) (.inl hl)).1.flags false false
    have hjoin := escapeText_lineStart (hr rest) hi hgoto
    rw [hab, ← put_put, ← put_put] at hjoin
    have hlen : (ws ++ '"' :: rest).length ≤ (lineStart indent ++ (ws ++ '"' :: rest)).length := by
      simp only [List.length_append]
      omega
    rw [Pen.join, hab, ← put_put, ← put_put] at hrest
    rw [List.append_assoc]
    exact Quotes.of_bare ⟨'\\', _, rfl, rfl⟩ (Nat.le_refl _) hb (Quotes.of_escape hjoin hlen hrest)

/-- A blank at the beginning of a line stands behind a backslash. -/
theorem Puts.blank (h : Puts (p.put ['\\']) [' '] cs ws q) : Puts p [] (' ' :: cs) ('\\' :: ' ' :: ws) q where
  writes := (Writes.put_char (c := '\\') rfl rfl p).trans h.writes
  reads rest a b hab := by
    obtain ⟨rfl, rfl⟩ := List.append_eq_nil_iff.1 hab.symm
    have hrest := h.reads rest [' '] [] rfl
    have hescape : escapeText ((p.put ['\\']).place (' ' :: (ws ++ '"' :: rest))) =
        .ok ([' '], ((p.put ['\\']).put [' ']).place (ws ++ '"' :: rest)) := by
      rw [escapeText, place_peek, show escapes.lookup ' ' = some ' ' by decide, next_put (c := ' ') rfl]
    exact (Quotes.of_escape hescape (Nat.le_succ _) hrest : Quotes true _ ([' '] ++ cs) _)

/-- An escape. -/
theorem Puts.escape (hbare : ∀ c ∈ pending, isBare c = true)
    (h : Puts ((p.put pending.reverse).put (escaped c)) [] cs ws q) : Puts p pending (c :: cs) (escaped c ++ ws) q where
  writes := by
    obtain ⟨ls, hls, hput, -⟩ := escaped_reads c
    have hall : ∀ d ∈ escaped c, IsPut d := hls ▸ List.forall_mem_cons.2 ⟨⟨rfl, rfl⟩, hput⟩
    exact ((Writes.put_bare (bare_reverse hbare) p).trans ((Writes.put_all hall _).trans h.writes))
  reads rest a b hab := by
    obtain ⟨ls, hls, -, hreads⟩ := escaped_reads c
    have hb : ∀ c ∈ b, isBare c = true := fun c hc => bare_reverse hbare c (hab ▸ List.mem_append_right a hc)
    have hrest := h.reads rest [] [] rfl
    rw [hls, hab, ← put_put, ← List.singleton_append, ← put_put] at hrest
    have hlen : (ws ++ '"' :: rest).length ≤ (ls ++ (ws ++ '"' :: rest)).length := by
      simp only [List.length_append]
      omega
    rw [hls, List.append_assoc]
    exact Quotes.of_bare ⟨'\\', _, rfl, rfl⟩ (Nat.le_refl _) hb (Quotes.of_escape (hreads _ _) hlen hrest)

/-! ## Whole texts -/

/-- Whether no line is broken twice in what is still to be put down. -/
def KeepsRest (indent : Nat) (split first : Bool) (cs : List Char) : Prop :=
  KeepsBlanks indent split (if first then cs.tail else cs)

/-- Behind an escape within a text, a blank that is not the last character has room. -/
theorem KeepsRest.room (h : KeepsRest indent split false (c :: ' ' :: cs)) (hc : isBare c = false) :
    indent + 1 ≤ lineWidth ∨ cs = [] ∨ split = false := by
  cases cs with
  | nil => exact .inr (.inl rfl)
  | cons d cs =>
    cases split with
    | false => exact .inr (.inr rfl)
    | true => exact .inl (KeepsBlanks.room h hc rfl)

theorem KeepsRest.next {first : Bool} (h : KeepsRest indent split first (c :: cs)) :
    KeepsRest indent split false cs := by
  cases first with
  | true => exact h
  | false => exact KeepsBlanks.tail h

/-- What is put down behind a joint, if it begins with something else than a blank. -/
theorem putFold_of_ne (h : d ≠ ' ') (p : Pen) (pending : List Char) :
    putFold p indent pending d = p.join pending indent := by
  have hd : (d == ' ') = false := by simpa using h
  unfold putFold
  simp only [hd, Bool.false_eq_true, if_false]
  rfl

theorem putFold_blank (p : Pen) (pending : List Char) :
    putFold p indent pending ' ' = (p.join pending indent).put ['\\'] := rfl

/-- A blank that has room is held back. -/
theorem putEscaped_blank (hl : p.column ≤ lineWidth ∨ cs = [] ∨ split = false) :
    putEscaped indent split p false [] (' ' :: cs) = putEscaped indent split p false [' '] cs := by
  rw [putEscaped]
  simp only
  rw [if_pos (by decide : isBare ' ' = true), if_neg]
  rcases hl with h | rfl | rfl
  · simp [h]
  · simp
  · simp

theorem EndsGap.of_pending (hbare : ∀ c ∈ pending, isBare c = true)
    (hh : ∀ c ∈ (pending.reverse ++ cs).head?, c ≠ ' ') (hr : EndsGap rest) : EndsGap (pending.reverse ++ rest) := by
  refine EndsGap.of_bare (bare_reverse hbare) (fun c hc => hh c ?_) hr
  rw [List.head?_append, Option.mem_def.1 hc]
  rfl

theorem EndsGap.backslash (us : List Char) : EndsGap ('\\' :: us) := ⟨'\\', us, rfl, rfl⟩

/-- Whether what is still to be put down is put down, and begins with no blank if the text does not: then a line can
end before it. -/
def Spells (p : Pen) (pending cs : List Char) (q : Pen) : Prop :=
  ∃ ws, Puts p pending cs ws q ∧
    ((∀ c ∈ (pending.reverse ++ cs).head?, c ≠ ' ') → ∀ rest, EndsGap (pending.reverse ++ (ws ++ '"' :: rest)))

theorem Spells.last (hbare : ∀ c ∈ pending, isBare c = true) (p : Pen) :
    Spells p pending [] (p.put pending.reverse) :=
  ⟨[], .last hbare p, fun hh rest => .of_pending hbare hh ⟨'"', rest, rfl, rfl⟩⟩

theorem Spells.hold (h : Spells p (c :: pending) cs q) : Spells p pending (c :: cs) q := by
  obtain ⟨ws, hputs, hends⟩ := h
  refine ⟨c :: ws, hputs.hold, fun hh rest => ?_⟩
  rw [List.reverse_cons, List.append_assoc] at hends
  have hends := hends hh rest
  rw [List.append_assoc] at hends
  exact hends

theorem Spells.escape (hbare : ∀ c ∈ pending, isBare c = true)
    (h : Spells ((p.put pending.reverse).put (escaped c)) [] cs q) : Spells p pending (c :: cs) q := by
  obtain ⟨ws, hputs, -⟩ := h
  obtain ⟨ls, hls, -⟩ := escaped_reads c
  refine ⟨_, hputs.escape hbare, fun hh rest => .of_pending hbare hh ?_⟩
  rw [hls]
  exact .backslash _

/-- A line ends before what is no blank. -/
theorem Spells.joint (hi : 0 < indent) (hbare : ∀ c ∈ pending, isBare c = true) (hl : p.leading = false)
    (hc : c ≠ ' ') (h : Spells (p.join pending.reverse indent) [] (c :: cs) q) : Spells p pending (c :: cs) q := by
  obtain ⟨ws, hputs, hends⟩ := h
  exact ⟨_, hputs.joint hi hbare hl (hends (by rintro d ⟨⟩; exact hc)), fun hh rest =>
    .of_pending hbare hh (.backslash _)⟩

/-- A line ends before a blank. -/
theorem Spells.joint_blank (hi : 0 < indent) (hbare : ∀ c ∈ pending, isBare c = true) (hl : p.leading = false)
    (h : Spells ((p.join pending.reverse indent).put ['\\']) [' '] cs q) : Spells p pending (' ' :: cs) q := by
  obtain ⟨ws, hputs, -⟩ := h
  exact ⟨_, hputs.blank.joint hi hbare hl fun rest => .backslash _, fun hh rest => .of_pending hbare hh (.backslash _)⟩

/-- What is put down between double quotes, from some place on, is read as what is still to be put down there. -/
theorem putEscaped_spells (hi : 0 < indent) : ∀ (cs : List Char) (first : Bool) (pending : List Char) (p : Pen),
    (∀ c ∈ pending, isBare c = true) → p.leading = false → KeepsRest indent split first cs →
    Spells p pending cs (putEscaped indent split p first pending cs)
  | [], first, pending, p, hbare, _, _ => .last hbare p
  | c :: cs, first, pending, p, hbare, hl, hkeep => by
    have hnone : ∀ d ∈ [], isBare d = true := nofun
    unfold putEscaped
    simp only
    split
    · rename_i hc
      have hhold : ∀ d ∈ [c], isBare d = true := List.forall_mem_singleton.2 hc
      split
      · -- the line ends before the character
        by_cases hblank : c = ' '
        · subst hblank
          rw [putFold_blank]
          exact .joint_blank hi hbare hl
            (putEscaped_spells hi cs false [' '] _ hhold (join_leading p pending.reverse indent) hkeep.next)
        · rw [putFold_of_ne hblank]
          have hrest := putEscaped_spells hi cs false [c] _ hhold (join_leading p pending.reverse indent) hkeep.next
          exact .joint hi hbare hl hblank hrest.hold
      · exact .hold (putEscaped_spells hi cs false (c :: pending) p (List.forall_mem_cons.2 ⟨hc, hbare⟩) hl hkeep.next)
    · rename_i hc
      refine .escape hbare ?_
      generalize hp' : (p.put pending.reverse).put (escaped c) = p'
      have hl' : p'.leading = false := by
        rw [← hp']
        exact hl
      split
      · rename_i hfold
        cases cs with
        | nil => exact putEscaped_spells hi [] false [] p' hnone hl' hkeep.next
        | cons d cs =>
          -- the line ends behind the escape
          simp only
          by_cases hblank : d = ' '
          · subst hblank
            have hcolumn : (p'.join [] indent).column = indent := (Writes.join hnone hl').2
            have hroom : ((p'.join [] indent).put ['\\']).column ≤ lineWidth ∨ cs = [] ∨ split = false := by
              rw [put_column, hcolumn]
              obtain rfl : first = false := by
                simp only [Bool.and_eq_true, Bool.not_eq_true'] at hfold
                exact hfold.1.1.1
              exact hkeep.room (Bool.eq_false_iff.2 hc)
            rw [putFold_blank, putEscaped_blank hroom]
            exact .joint_blank hi hnone hl' (putEscaped_spells hi cs false [' '] _ (List.forall_mem_singleton.2 rfl)
              (join_leading p' [] indent) hkeep.next.next)
          · rw [putFold_of_ne hblank]
            exact .joint hi hnone hl' hblank
              (putEscaped_spells hi (d :: cs) false [] _ hnone (join_leading p' [] indent) hkeep.next)
      · exact putEscaped_spells hi cs false [] p' hnone hl' hkeep.next

/-- A text between double quotes is read as it was. -/
theorem putDouble_reads (hi : 0 < indent) {cs : List Char} (hkeep : KeepsBlanks indent split cs.tail) (p : Pen) :
    ∃ ws, ReadsQuoted p.gap ws (putDouble p indent split cs) cs := by
  have hkeep : KeepsRest indent split true cs := hkeep
  obtain ⟨ws, hputs, -⟩ := putEscaped_spells hi cs true [] (p.word ['"']) nofun rfl hkeep
  exact ⟨_, .of_quotes true hputs.writes fun {rest} _ => hputs.reads rest [] [] rfl⟩

end

end ApiProjection.Yaml
