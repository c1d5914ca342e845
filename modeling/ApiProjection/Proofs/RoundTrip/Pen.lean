import ApiProjection.Yaml.Printer
import ApiProjection.Yaml.Token.Reader
/-!
# The pen and the reader

The pen that lays out YAML text counts columns as a reader of the text does, so what a pen has put down is all that
the place of a reader depends on.

* `Pen.place`: the place of a reader that has read what a pen has put down.
* `Pen.Writes`: what is put down between two pens, and that a reader gets from the one to the other over it.
-/
namespace ApiProjection.Yaml

/-! ## Characters -/

/-- A character that moves a reader on by a column. -/
def isInline (c : Char) : Bool := !isLineEnd c && c != '\ufeff'

section
variable {c : Char}

theorem isBreak_of_isInline (h : isInline c = true) : isBreak c = false := by
  simp only [isInline, isLineEnd, Bool.and_eq_true, Bool.not_eq_true', Bool.or_eq_false_iff] at h
  exact h.1.2

theorem isPlainChar_ne {d : Char} (h : isPlainChar c = true) (hd : isPlainChar d = false) : c ≠ d := by
  rintro rfl
  rw [h] at hd
  cases hd

theorem isAllowed_of_isPlainChar (h : isPlainChar c = true) : isAllowed c = true := by
  simp only [isPlainChar, isAllowed, beq_iff_eq, Bool.or_eq_true, Bool.and_eq_true, decide_eq_true_eq] at h ⊢
  rcases h with (rfl | h) | h
  · exact .inl (.inl (.inl (.inl (.inl (.inl (.inr rfl))))))
  · exact .inl (.inl (.inl (.inl (.inr h))))
  · rcases h.1 with ((h | h) | h) | h
    · exact .inl (.inl (.inl (.inr h)))
    · exact .inl (.inl (.inr h))
    · exact .inl (.inr h)
    · exact .inr h.1

theorem isInline_of_isPlainChar (h : isPlainChar c = true) (hb : isBreak c = false) : isInline c = true := by
  have hr : c ≠ '\r' := isPlainChar_ne h rfl
  have hm : c ≠ '\ufeff' := isPlainChar_ne h rfl
  simp [isInline, isLineEnd, hb, hr, hm]

/-- A character that may stand unescaped is part of a word unless it is a blank or a break. -/
theorem isGap_of_isPlainChar (h : isPlainChar c = true) (hs : isSpace c = false) (hb : isBreak c = false) :
    isGap c = false := by
  have h0 : c ≠ '\x00' := isPlainChar_ne h rfl
  have ht : c ≠ '\t' := isPlainChar_ne h rfl
  have hr : c ≠ '\r' := isPlainChar_ne h rfl
  have hsp : c ≠ ' ' := by simpa [isSpace] using hs
  simp [isGap, hb, h0, ht, hr, hsp]

theorem isBreak_of_not_isGap (h : isGap c = false) : isBreak c = false := by
  simp only [isGap, Bool.or_eq_false_iff] at h
  exact h.2

end

/-! ## Places -/

namespace Cursor

theorem skip_add (c : Cursor) (m n : Nat) : c.skip (m + n) = (c.skip m).skip n := by
  induction m generalizing c with
  | zero => rw [Nat.zero_add, skip]
  | succ m ih => rw [Nat.succ_add, skip, skip, ih]

end Cursor

namespace Pen

/-- The place of a reader that has read what the pen has put down, before the given text. -/
def place (p : Pen) (rest : List Char) : Cursor :=
  { rest, index := p.written.length, line := p.written.countP isBreak, column := p.column }

section
variable {p q r : Pen} {c : Char} {cs ws : List Char}

@[simp] theorem place_rest (p : Pen) (rest : List Char) : (p.place rest).rest = rest := rfl

@[simp] theorem place_column (p : Pen) (rest : List Char) : (p.place rest).column = p.column := rfl

@[simp] theorem place_peek (p : Pen) (c : Char) (rest : List Char) : (p.place (c :: rest)).peek = c := rfl

@[simp] theorem put_column (p : Pen) (cs : List Char) : (p.put cs).column = p.column + cs.length := rfl

theorem put_put (p : Pen) (cs ds : List Char) : (p.put cs).put ds = p.put (cs ++ ds) := by
  simp only [put, List.reverse_append, List.append_assoc, List.length_append, Nat.add_assoc]

theorem next_put (h : isInline c = true) (p : Pen) (rest : List Char) :
    (p.place (c :: rest)).next = (p.put [c]).place rest := by
  have hb := isBreak_of_isInline h
  simp only [isInline, isLineEnd, Bool.and_eq_true, Bool.not_eq_true', Bool.or_eq_false_iff, bne_iff_ne, ne_eq,
    beq_eq_false_iff_ne] at h
  simp [place, Cursor.next, put, hb, h.1.1, h.2]

theorem next_newLine (h : isBreak c = true) (p : Pen) (rest : List Char) :
    (p.place (c :: rest)).next = (p.newLine c).place rest := by
  simp [place, Cursor.next, newLine, h]

theorem skip_put (h : ∀ c ∈ cs, isInline c = true) (p : Pen) (rest : List Char) :
    (p.place (cs ++ rest)).skip cs.length = (p.put cs).place rest := by
  induction cs generalizing p with
  | nil => rfl
  | cons c cs ih =>
    rw [List.cons_append, List.length_cons, Cursor.skip, next_put (h c List.mem_cons_self),
      ih fun d hd => h d (List.mem_cons_of_mem c hd), put_put]
    rfl

/-! ## What is put down -/

/-- What is put down between two pens. -/
structure Writes (p : Pen) (ws : List Char) (q : Pen) : Prop where
  written : q.written = ws.reverse ++ p.written
  place : ∀ rest, (p.place (ws ++ rest)).skip ws.length = q.place rest
  plain : ∀ c ∈ ws, isPlainChar c = true

theorem Writes.refl (p : Pen) : Writes p [] p := ⟨rfl, fun _ => rfl, by simp⟩

theorem Writes.trans {us : List Char} (h : Writes p ws q) (h' : Writes q us r) : Writes p (ws ++ us) r where
  written := by rw [h'.written, h.written, List.reverse_append, List.append_assoc]
  place rest := by rw [List.append_assoc, List.length_append, Cursor.skip_add, h.place, h'.place]
  plain := List.forall_mem_append.2 ⟨h.plain, h'.plain⟩

theorem Writes.newLine (hb : isBreak c = true) (hc : isPlainChar c = true) (p : Pen) : Writes p [c] (p.newLine c) :=
  ⟨rfl, fun rest => next_newLine hb p rest, by simpa using hc⟩

/-- What is put down behind a break. -/
theorem Writes.of_newLine (h : Writes p (c :: ws) q) (hb : isBreak c = true) : Writes (p.newLine c) ws q where
  written := by rw [h.written, List.reverse_cons, List.append_assoc]; rfl
  place rest := by rw [← h.place, List.cons_append, List.length_cons, Cursor.skip, next_newLine hb]
  plain d hd := h.plain d (List.mem_cons_of_mem c hd)

/-- Putting down characters that stand for themselves. -/
theorem Writes.put_plain (h : ∀ c ∈ cs, isPlainChar c = true) (hb : ∀ c ∈ cs, isBreak c = false) (p : Pen) :
    Writes p cs (p.put cs) :=
  ⟨rfl, skip_put (fun c hc => isInline_of_isPlainChar (h c hc) (hb c hc)) p, h⟩

theorem Writes.put_spaces (n : Nat) (p : Pen) : Writes p (List.replicate n ' ') (p.put (List.replicate n ' ')) := by
  refine .put_plain (fun c hc => ?_) (fun c hc => ?_) p <;> (rw [List.eq_of_mem_replicate hc]; rfl)

theorem Writes.put_char (h : isPlainChar c = true) (hb : isBreak c = false) (p : Pen) : Writes p [c] (p.put [c]) :=
  .put_plain (by simpa using h) (by simpa using hb) p

/-- Whether there is room, and what the line leads up to, is nothing that a reader sees. -/
theorem Writes.flags (h : Writes p ws q) (roomy leading : Bool) :
    Writes p ws { q with roomy := roomy, leading := leading } := ⟨h.written, h.place, h.plain⟩

/-! ## Moving on -/

/-- The pen at a column further on in the same line. -/
def fill (p : Pen) (n : Nat) : Pen :=
  if p.column < n then { p.put (List.replicate (n - p.column) ' ') with roomy := true } else p

/-- Whether a column is to be sought on a new line. -/
def leaves (p : Pen) (n : Nat) : Bool := !p.leading || n < p.column || (p.column == n && !p.roomy)

theorem goto_eq (p : Pen) (n : Nat) : p.goto n = (if p.leaves n then p.newLine '\n' else p).fill n := rfl

theorem fill_of_roomy (hr : p.roomy = true) {n : Nat} (hc : p.column ≤ n) :
    Writes p (List.replicate (n - p.column) ' ') (p.fill n) ∧ (p.fill n).column = n ∧ (p.fill n).roomy = true ∧
      (p.fill n).leading = p.leading := by
  unfold fill
  split
  · exact ⟨(Writes.put_spaces _ p).flags true p.leading, by simp [put]; omega, rfl, rfl⟩
  · rename_i h
    rw [show n - p.column = 0 by omega]
    exact ⟨.refl p, by omega, hr, rfl⟩

/-- At the beginning of a line, a column is on that line. -/
theorem goto_lineStart (hl : p.leading = true) (hr : p.roomy = true) (hc : p.column = 0) (n : Nat) :
    Writes p (List.replicate n ' ') (p.goto n) ∧ (p.goto n).column = n ∧ (p.goto n).roomy = true ∧
      (p.goto n).leading = true := by
  have hstay : p.leaves n = false := by simp [leaves, hl, hr, hc]
  have hfill := fill_of_roomy hr (n := n) (by omega)
  rw [hc, hl] at hfill
  rwa [goto_eq, hstay]

/-- What is put down to get to a column on a new line. -/
def lineStart (n : Nat) : List Char := '\n' :: List.replicate n ' '

/-- Behind something that does not only lead up to more, a column is on a new line. -/
theorem goto_newLine {n : Nat} (h : p.leading = false ∨ n < p.column) :
    Writes p (lineStart n) (p.goto n) ∧ (p.goto n).column = n ∧ (p.goto n).roomy = true ∧
      (p.goto n).leading = true := by
  have hmove : p.leaves n = true := by rcases h with h | h <;> simp [leaves, h]
  obtain ⟨hw, hrest⟩ := fill_of_roomy (p := p.newLine '\n') rfl (Nat.zero_le n)
  rw [goto_eq, hmove]
  exact ⟨(Writes.newLine rfl rfl p).trans hw, hrest⟩

/-- Behind a mark, the next column but one is on the same line. -/
theorem goto_inline {n : Nat} (hl : p.leading = true) (hc : p.column + 1 = n) :
    Writes p [' '] (p.goto n) ∧ (p.goto n).column = n ∧ (p.goto n).roomy = true ∧ (p.goto n).leading = true := by
  have hstay : p.leaves n = false := by
    have h1 : ¬n < p.column := by omega
    have h2 : ¬p.column = n := by omega
    simp [leaves, hl, h1, h2]
  have hone : n - p.column = 1 := by omega
  rw [goto_eq, hstay, fill, if_neg Bool.false_ne_true, if_pos (by omega), hone]
  exact ⟨(Writes.put_spaces 1 p).flags true p.leading, by simp [put, hc], rfl, hl⟩

/-- The pen behind the blank before a word, if one is needed. -/
def gap (p : Pen) : Pen := if p.roomy then p else p.put [' ']

theorem gap_of_roomy (h : p.roomy = true) : p.gap = p := by
  rw [gap, h]
  rfl

theorem mark_eq (p : Pen) (c : Char) : p.mark c = { p.gap.put [c] with roomy := false } := rfl

end

end Pen
end ApiProjection.Yaml
