import ApiProjection.Proofs.RoundTrip.Double
import ApiProjection.Proofs.RoundTrip.Plain
/-!
# Keys on the line of their value

A key on the line of its value is put down on that line as a whole, however long it is, and a reader gives up looking for
its colon after so many characters.

* `keyText`: the characters of such a key.
* `putText_key`: these are what is put down.
-/
namespace ApiProjection.Yaml

open Pen

/-- A character as it is put down between double quotes. -/
def spelling (c : Char) : List Char := if isBare c then [c] else escaped c

/-- The characters of a key on the line of its value. -/
def keyText (cs : List Char) : List Char :=
  match styleOf true cs with
  | .plain => cs
  | .single => '\'' :: (doubled cs ++ ['\''])
  | .double => '"' :: (cs.flatMap spelling ++ ['"'])

section
variable {p q : Pen} {c : Char} {cs ws us : List Char} {indent : Nat}

theorem putPlainRuns_key (p : Pen) (rs : List (Run × List Char)) :
    putPlainRuns p indent false rs = p.put (rs.flatMap Prod.snd) := by
  induction rs generalizing p with
  | nil => rfl
  | cons x rs ih =>
    obtain ⟨r, cs⟩ := x
    cases r <;> simp [putPlainRuns, ih, put_put]

theorem doubled_append (cs ds : List Char) : doubled (cs ++ ds) = doubled cs ++ doubled ds := List.flatMap_append

theorem doubled_blanks (h : ∀ c ∈ cs, Run.ofChar c = .blanks) : doubled cs = cs := by
  induction cs with
  | nil => rfl
  | cons c cs ih =>
    have hc := isSpace_of_blanks (h c List.mem_cons_self)
    have ih := ih fun d hd => h d (List.mem_cons_of_mem c hd)
    subst hc
    rw [doubled, List.flatMap_cons, ← doubled, ih]
    rfl

theorem putRuns_key (p : Pen) (first : Bool) {rs : List (Run × List Char)}
    (h : ∀ x ∈ rs, x.1 ≠ .breaks ∧ ∀ c ∈ x.2, Run.ofChar c = x.1) :
    putRuns p indent false first rs = p.put (doubled (rs.flatMap Prod.snd)) := by
  induction rs generalizing p first with
  | nil => rfl
  | cons x rs ih =>
    obtain ⟨r, cs⟩ := x
    obtain ⟨hr, hkind⟩ := h _ List.mem_cons_self
    have ih := fun p first => ih p first fun y hy => h y (List.mem_cons_of_mem _ hy)
    rw [List.flatMap_cons, doubled_append]
    cases r with
    | word => rw [putRuns, ih, put_put]
    | breaks => exact absurd rfl hr
    | blanks =>
      rw [doubled_blanks hkind, putRuns, if_neg (by simp), ih, put_put]

theorem putEscaped_key (p : Pen) (first : Bool) (pending cs : List Char) :
    putEscaped indent false p first pending cs = p.put (pending.reverse ++ cs.flatMap spelling) := by
  induction cs generalizing p first pending with
  | nil => simp [putEscaped]
  | cons c cs ih =>
    rw [List.flatMap_cons, spelling, putEscaped]
    simp only [Bool.and_false, Bool.false_and, Bool.false_eq_true, if_false, ih]
    split
    · rw [List.reverse_cons, List.append_assoc]
    · rw [put_put, put_put, List.reverse_nil, List.nil_append]

/-- The characters of a run are of its kind. -/
theorem runs_kind (cs : List Char) : ∀ x ∈ runs cs, x.2 ≠ [] ∧ ∀ c ∈ x.2, Run.ofChar c = x.1 := by
  induction cs with
  | nil => simp [runs]
  | cons c cs ih =>
    rw [runs]
    split
    · rename_i r run rest heq
      rw [heq] at ih
      obtain ⟨hrun, hrest⟩ := List.forall_mem_cons.1 ih
      split
      · rename_i hr
        exact List.forall_mem_cons.2 ⟨⟨by simp, List.forall_mem_cons.2 ⟨hr.symm, hrun.2⟩⟩, hrest⟩
      · exact List.forall_mem_cons.2 ⟨⟨by simp, List.forall_mem_singleton.2 rfl⟩, ih⟩
    · exact List.forall_mem_singleton.2 ⟨by simp, List.forall_mem_singleton.2 rfl⟩

/-- The pen behind a scalar. -/
def Pen.scalar (p : Pen) (cs : List Char) : Pen := { p.gap.put cs with roomy := false, leading := false }

/-- What is put down between two quotes on one line. -/
theorem close_word (p : Pen) (c : Char) (cs : List Char) :
    ((p.word [c]).put cs).close c = p.scalar (c :: (cs ++ [c])) := by
  have h : (p.gap.put [c]).put cs = p.gap.put (c :: cs) := put_put _ _ _
  have h' : (p.gap.put (c :: cs)).put [c] = p.gap.put (c :: (cs ++ [c])) := put_put _ _ _
  rw [Pen.scalar, ← h', ← h]
  rfl

theorem putPlain_key (hne : cs.isEmpty = false) (p : Pen) : putPlain p indent false cs = p.scalar cs := by
  rw [putPlain, hne, if_neg Bool.false_ne_true, putPlainRuns_key, runs_flatten]
  rfl

theorem putSingle_key (hunbroken : ∀ c ∈ cs, ¬isBreak c = true) (p : Pen) :
    putSingle p indent false cs = p.scalar ('\'' :: (doubled cs ++ ['\''])) := by
  have hkind : ∀ x ∈ runs cs, x.1 ≠ .breaks ∧ ∀ c ∈ x.2, Run.ofChar c = x.1 := fun x hx => by
    obtain ⟨hcs, hkind⟩ := runs_kind _ x hx
    refine ⟨fun he => ?_, hkind⟩
    obtain ⟨c, cs, heq⟩ := List.exists_cons_of_ne_nil hcs
    have hc : c ∈ x.2 := heq ▸ List.mem_cons_self
    exact hunbroken c (mem_of_mem_runs hx hc) (isBreak_of_breaks ((hkind c hc).trans he))
  rw [putSingle, putRuns_key _ _ hkind, runs_flatten, close_word]

theorem putDouble_key (p : Pen) (cs : List Char) :
    putDouble p indent false cs = p.scalar ('"' :: (cs.flatMap spelling ++ ['"'])) := by
  rw [putDouble, putEscaped_key, List.reverse_nil, List.nil_append, close_word]

/-- What is put down for a key on the line of its value. -/
theorem putText_key {k : String} (h : isSimpleKey k.toList = true) (p : Pen) :
    putText p indent true k = p.scalar (keyText k.toList) := by
  simp only [isSimpleKey, Bool.and_eq_true, Bool.not_eq_true', List.any_eq_false] at h
  unfold putText keyText
  simp only [Bool.not_true]
  cases styleOf true k.toList with
  | plain => exact putPlain_key h.1.2 p
  | single => exact putSingle_key h.2 p
  | double => exact putDouble_key p k.toList

/-- A key on the line of its value holds no break, however it is put down. -/
theorem keyText_unbroken {cs : List Char} (h : isSimpleKey cs = true) : ∀ c ∈ keyText cs, isBreak c = false := by
  simp only [isSimpleKey, Bool.and_eq_true, Bool.not_eq_true', List.any_eq_false] at h
  have hunbroken : ∀ c ∈ cs, isBreak c = false := fun c hc => Bool.eq_false_iff.2 (h.2 c hc)
  have hquoted (q : Char) (hq : isBreak q = false) (us : List Char) (hus : ∀ c ∈ us, isBreak c = false) :
      ∀ c ∈ q :: (us ++ [q]), isBreak c = false :=
    List.forall_mem_cons.2 ⟨hq, List.forall_mem_append.2 ⟨hus, List.forall_mem_singleton.2 hq⟩⟩
  unfold keyText
  cases styleOf true cs with
  | plain => exact hunbroken
  | single => exact hquoted _ rfl _ fun c hc => hunbroken c (mem_of_mem_doubled hc)
  | double =>
    refine hquoted _ rfl _ fun c hc => ?_
    obtain ⟨d, hd, hc⟩ := List.mem_flatMap.1 hc
    unfold spelling at hc
    split at hc
    · exact List.mem_singleton.1 hc ▸ hunbroken d hd
    · obtain ⟨ls, hls, hput, -⟩ := escaped_reads d
      rw [hls] at hc
      rcases List.mem_cons.1 hc with rfl | hc
      · rfl
      · exact (hput c hc).2

end

end ApiProjection.Yaml
