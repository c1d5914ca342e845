import ApiProjection.Proofs.RoundTrip.Key
/-!
# Texts that come back

What is put down for a text is one scalar, whichever style it has, and is read as the text but for three things: a break
that reads as a line feed between apostrophes, a blank far to the right between double quotes, and a key that is too long
once it is spelled out.

* `textComesBack`: which texts come back from where they are put down.
* `keyComesBack`: which keys do.
* `putText_reads`: what is put down for such a text is read as the text.
-/
namespace ApiProjection.Yaml

open Pen Cursor

/-! ## Scalars -/

/-- What is put down between two pens is read as a scalar, plain or between quotes. -/
inductive ReadsScalar (p : Pen) (ws : List Char) (q : Pen) (indent : Nat) (cs : List Char) : Bool → Prop
  | plain (h : ReadsPlain p ws q indent cs) : ReadsScalar p ws q indent cs true
  | quoted (h : ReadsQuoted p ws q cs) : ReadsScalar p ws q indent cs false

section
variable {p q : Pen} {cs ws us tail : List Char} {indent : Nat} {isPlain : Bool}

theorem OpensPlain.opensWord (h : OpensPlain us) : OpensWord us := by
  obtain ⟨c, vs, rfl, hc, hlead, -⟩ := h
  refine ⟨c, vs, rfl, hc, ?_⟩
  rintro rfl
  exact absurd (isLeadingMark_head hlead).1 (by decide)

theorem OpensPlain.opensLine (h : OpensPlain us) (n : Nat) : OpensLine n us := by
  refine .inr ⟨h.opensWord, fun _ => ?_⟩
  obtain ⟨c, vs, rfl, -, -, hsep⟩ := h
  exact hsep

theorem ReadsScalar.writes (h : ReadsScalar p ws q indent cs isPlain) : Writes p ws q := by
  cases h with
  | plain h => exact h.writes
  | quoted h => exact h.writes

theorem ReadsScalar.ne_nil (h : ReadsScalar p ws q indent cs isPlain) : ws ≠ [] := by
  rintro rfl
  cases h with
  | plain h =>
    have hends : EndsScalar [] := nofun
    obtain ⟨c, vs, hopens, -⟩ := h.opens hends
    cases hopens
  | quoted h =>
    obtain ⟨double, us, hopens⟩ := h.opens
    cases hopens

theorem ReadsScalar.opensLine (h : ReadsScalar p ws q indent cs isPlain) (hends : EndsScalar tail) (n : Nat) :
    OpensLine n (ws ++ tail) := by
  cases h with
  | plain h => exact (h.opens hends).opensLine n
  | quoted h =>
    obtain ⟨double, us, rfl⟩ := h.opens
    have hmark : ∀ d : Bool,
        isGap (quoteMark d) = false ∧ quoteMark d ≠ '#' ∧ quoteMark d ≠ '-' ∧ quoteMark d ≠ '.' := by
      decide
    exact .inr ⟨⟨_, us ++ tail, rfl, (hmark double).1, (hmark double).2.1⟩,
      fun _ p => isAtSeparator_of_peek (hmark double).2.2⟩

end

/-! ## What comes back -/

/-- Whether a text comes back that is put down so far to the right. -/
def textComesBack (indent : Nat) (cs : List Char) : Bool :=
  match styleOf false cs with
  | .plain => true
  | .single => !cs.contains '\x85'
  | .double => indent < lineWidth || !hasPair (fun c => !isBare c) isSpace cs.tail.dropLast

/-- Whether a key comes back. -/
def keyComesBack (indent : Nat) (cs : List Char) : Bool :=
  if isSimpleKey cs then (keyText cs).length ≤ longestKey else textComesBack (indent + indentStep) cs

section
variable {p q : Pen} {cs ws : List Char} {s : String} {indent : Nat} {simpleKey : Bool}

theorem standsPlain_of_style (h : styleOf simpleKey cs = .plain) : StandsPlain cs := by
  unfold styleOf at h
  simp only at h
  split at h
  · rename_i hplain
    simp only [needsEscapes, Bool.and_eq_true, Bool.not_eq_true', decide_eq_true_eq, Bool.or_eq_false_iff,
      Bool.not_eq_false', List.all_eq_true, List.any_eq_false, Bool.not_eq_true] at hplain
    obtain ⟨⟨⟨⟨⟨htext, -⟩, htight⟩, hunbroken⟩, -, hplain⟩, hunmarked⟩ := hplain
    refine ⟨?_, hplain, hunbroken, htight, hunmarked⟩
    rintro rfl
    exact absurd htext (by decide)
  · split at h <;> cases h

/-- Plain text is a text by its form. -/
theorem ofChars_of_style (h : styleOf simpleKey cs = .plain) : Plain.ofChars cs = .text := by
  unfold styleOf at h
  simp only at h
  split at h
  · rename_i hplain
    simp only [Bool.and_eq_true, decide_eq_true_eq] at hplain
    exact hplain.1.1.1.1.1
  · split at h <;> cases h

theorem not_needsEscapes_of_style (h : styleOf simpleKey cs = .single) :
    needsEscapes cs = false ∧ hasPair isBreak isSpace cs = false := by
  unfold styleOf at h
  simp only at h
  split at h
  · cases h
  · split at h
    · rename_i hsingle
      simp only [Bool.and_eq_true, Bool.not_eq_true'] at hsingle
      exact hsingle.1
    · cases h

/-- What is put down for a text is read as that text. -/
theorem putText_reads (simpleKey : Bool) (hi : 0 < indent)
    (hsingle : styleOf simpleKey s.toList = .single → '\x85' ∉ s.toList)
    (hdouble : styleOf simpleKey s.toList = .double → KeepsBlanks indent (!simpleKey) s.toList.tail) (p : Pen) :
    ∃ ws, ReadsScalar p.gap ws (putText p indent simpleKey s) indent s.toList
      (styleOf simpleKey s.toList == .plain) := by
  unfold putText
  simp only
  cases hstyle : styleOf simpleKey s.toList with
  | plain =>
    obtain ⟨ws, h⟩ := putPlain_reads _ hi (standsPlain_of_style hstyle) p
    exact ⟨ws, .plain h⟩
  | single =>
    obtain ⟨hplain, hpair⟩ := not_needsEscapes_of_style hstyle
    obtain ⟨ws, h⟩ := putSingle_reads hi hplain hpair (hsingle hstyle) p
    exact ⟨ws, .quoted h⟩
  | double =>
    obtain ⟨ws, h⟩ := putDouble_reads hi (hdouble hstyle) p
    exact ⟨ws, .quoted h⟩

/-- A text that comes back. -/
theorem putText_comesBack (hi : 0 < indent) (h : textComesBack indent s.toList = true) (p : Pen) :
    ∃ ws, ReadsScalar p.gap ws (putText p indent false s) indent s.toList (styleOf false s.toList == .plain) := by
  refine putText_reads false hi (fun hstyle => ?_) (fun hstyle _ hwide => ?_) p
  · rw [textComesBack, hstyle] at h
    simpa using h
  · rw [textComesBack, hstyle] at h
    simpa [Nat.not_lt.2 hwide] using h

/-- A key on the line of its value is one scalar on that line. -/
theorem putText_key_reads {k : String} (hi : 0 < indent) (h : isSimpleKey k.toList = true) (hroomy : p.roomy = true) :
    ReadsScalar p (keyText k.toList) (putText p indent true k) indent k.toList (styleOf true k.toList == .plain) := by
  have hunbroken : ∀ c ∈ k.toList, ¬isBreak c = true := by
    simp only [isSimpleKey, Bool.and_eq_true, Bool.not_eq_true', List.any_eq_false] at h
    exact h.2
  have hnel : '\x85' ∉ k.toList := fun hc => hunbroken _ hc rfl
  obtain ⟨ws, hr⟩ := putText_reads true hi (fun _ => hnel) (fun _ h => absurd h Bool.false_ne_true) p
  have hws : ws = keyText k.toList := by
    have hwritten := hr.writes.written
    rw [putText_key h] at hwritten
    exact (List.reverse_inj.1 (List.append_cancel_right hwritten)).symm
  rw [gap_of_roomy hroomy, hws] at hr
  exact hr

end

end ApiProjection.Yaml
