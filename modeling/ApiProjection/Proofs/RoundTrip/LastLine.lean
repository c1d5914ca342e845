import ApiProjection.Console.Basic
import ApiProjection.Proofs.RoundTrip.Renderings
/-!
# The last line of a rendering

Both renderings of a document end with one line feed and not with two, so what a console does to the end of a text
gives the text back: the line feeds there are left out, and one is put down again.

* `Projection.withoutLastBreaks_rendering`: that holds of the renderings of every document.
-/
namespace ApiProjection

/-! ## JSON -/

namespace Json

theorem writeMembers_closes (l : Layout) (level : Nat) (ms : List (String × Json)) :
    ∃ cs, writeMembers l level ms = cs ++ ['}'] := by
  induction ms with
  | nil => exact ⟨_, rfl⟩
  | cons m ms ih =>
    obtain ⟨cs, hcs⟩ := ih
    exact ⟨_, by rw [writeMembers, hcs, ← List.append_assoc]⟩

theorem writeAt_object_closes (l : Layout) (level : Nat) (ms : List (String × Json)) :
    ∃ cs, writeAt l level (.object ms) = cs ++ ['}'] := by
  cases ms with
  | nil => exact ⟨['{'], by rw [writeAt]; rfl⟩
  | cons m ms =>
    obtain ⟨cs, hcs⟩ := writeMembers_closes l level ms
    exact ⟨_, by rw [writeAt, hcs, ← List.append_assoc]⟩

end Json

/-! ## YAML -/

namespace Yaml

/-- The pen stands behind something, in the same line. -/
structure Pen.Settled (p : Pen) : Prop where
  leading : p.leading = false
  written : ∃ c ∈ p.written.head?, c ≠ '\n'

theorem Pen.put_written_head (p : Pen) {cs : List Char} (hne : cs ≠ []) (hcs : '\n' ∉ cs) :
    ∃ c ∈ (p.put cs).written.head?, c ≠ '\n' := by
  have hhead : (p.put cs).written.head? = some (cs.getLast hne) := by
    rw [Pen.put, List.head?_append, List.head?_reverse, List.getLast?_eq_getLast_of_ne_nil hne, Option.some_or]
  exact ⟨cs.getLast hne, hhead, fun h => hcs (h ▸ List.getLast_mem hne)⟩

theorem Pen.settled_close (p : Pen) {c : Char} (hc : c ≠ '\n') : (p.close c).Settled :=
  ⟨rfl, c, rfl, hc⟩

theorem Pen.settled_word (p : Pen) {cs : List Char} (hne : cs ≠ []) (hcs : '\n' ∉ cs) : (p.word cs).Settled :=
  ⟨rfl, Pen.put_written_head _ hne hcs⟩

theorem StandsPlain.no_feed {cs : List Char} (h : StandsPlain cs) : '\n' ∉ cs := fun hmem => by
  have hbreak := h.unbroken _ hmem
  exact absurd hbreak (by decide)

theorem IsWord.no_feed {w : List Char} (h : IsWord w) : '\n' ∉ w := fun hmem => by
  have hgap := h.nongap _ hmem
  exact absurd hgap (by decide)

/-- A plain text ends with a word, wherever its lines are broken. -/
theorem settled_putPlainRuns (indent : Nat) (split : Bool) : ∀ (rs : List (Run × List Char)) (w : List Char) (p : Pen),
    PlainRuns ((.word, w) :: rs) → p.leading = false → (putPlainRuns p indent split ((.word, w) :: rs)).Settled
  | [], w, p, h, hl => by
    obtain ⟨-, hword⟩ := h.isWord
    exact ⟨hl, Pen.put_written_head p hword.nonempty hword.no_feed⟩
  | [(s, bs)], w, p, h, hl => absurd rfl h.next.2.2.1
  | (s, bs) :: (r, w') :: rs, w, p, h, hl => by
    obtain ⟨rfl, -, -, hrest⟩ := h.next
    obtain ⟨rfl, -⟩ := hrest.isWord
    rw [putPlainRuns, putPlainRuns]
    · split
      · exact settled_putPlainRuns indent _ rs w' _ hrest rfl
      · exact settled_putPlainRuns indent _ rs w' _ hrest hl
    all_goals rintro ⟨⟩

theorem settled_putText (p : Pen) (indent : Nat) (s : String) : (putText p indent false s).Settled := by
  unfold putText
  simp only
  cases hstyle : styleOf false s.toList with
  | plain =>
    have hplain := standsPlain_of_style hstyle
    obtain ⟨w, rs, hruns, hrs⟩ := hplain.runs
    have hempty : s.toList.isEmpty = false := by simpa using hplain.nonempty
    dsimp only
    rw [putPlain, hempty, if_neg Bool.false_ne_true, hruns]
    exact settled_putPlainRuns _ _ rs w _ hrs rfl
  | single => exact Pen.settled_close _ (by decide)
  | double => exact Pen.settled_close _ (by decide)

theorem floatChars_no_feed (x : Binary64) : floatChars x ≠ [] ∧ '\n' ∉ floatChars x := by
  cases x with
  | nan => exact ⟨by decide, by decide⟩
  | infinite s => cases s <;> exact ⟨by decide, by decide⟩
  | finite s m e =>
    obtain ⟨d, hd, hwf, -⟩ := floatChars_finite s m e
    have hplain : StandsPlain (floatChars (.finite s m e)) := hd ▸ standsPlain_decimal hwf
    exact ⟨hplain.nonempty, hplain.no_feed⟩

mutual
/-- A value is put down up to its end and no further. -/
theorem settled_putValue : ∀ (j : Json) (p : Pen) (indent : Option Nat) (inMapping : Bool),
    (putValue p indent inMapping j).Settled
  | .null, p, _, _ => by
    rw [putValue]
    exact p.settled_word (by decide) (by decide)
  | .bool b, p, _, _ => by
    rw [putValue]
    cases b <;> exact p.settled_word (by decide) (by decide)
  | .int n, p, _, _ => by
    rw [putValue]
    exact p.settled_word (standsPlain_writeInt n).nonempty (standsPlain_writeInt n).no_feed
  | .float x, p, _, _ => by
    rw [putValue]
    exact p.settled_word (floatChars_no_feed x).1 (floatChars_no_feed x).2
  | .text s, p, _, _ => by
    rw [putValue]
    exact settled_putText _ _ s
  | .list [], p, _, _ => by
    rw [putValue]
    exact p.settled_word (by decide) (by decide)
  | .list (x :: xs), p, indent, inMapping => by
    rw [putValue.eq_def]
    exact settled_putItems xs _ _ (settled_putValue x _ _ _)
  | .object [], p, _, _ => by
    rw [putValue]
    exact p.settled_word (by decide) (by decide)
  | .object ((k, x) :: ms), p, indent, inMapping => by
    rw [putValue.eq_def]
    exact settled_putMembers ms _ _ (settled_putValue x _ _ _)

theorem settled_putItems : ∀ (xs : List Json) (p : Pen) (indent : Nat), p.Settled → (putItems p indent xs).Settled
  | [], p, _, h => by
    rw [putItems]
    exact h
  | x :: xs, p, indent, _ => by
    rw [putItems]
    exact settled_putItems xs _ _ (settled_putValue x _ _ _)

theorem settled_putMembers : ∀ (ms : List (String × Json)) (p : Pen) (indent : Nat), p.Settled →
    (putMembers p indent ms).Settled
  | [], p, _, h => by
    rw [putMembers]
    exact h
  | (k, x) :: ms, p, indent, _ => by
    rw [putMembers]
    exact settled_putMembers ms _ _ (settled_putValue x _ _ _)
end

theorem write_ends (j : Json) : ∃ cs c, (write j).toList = cs ++ [c, '\n'] ∧ c ≠ '\n' := by
  obtain ⟨hl, c, hc, hne⟩ := settled_putValue j {} none false
  obtain ⟨cs, hcs⟩ := List.head?_eq_some_iff.1 hc
  have hend : ((putValue {} none false j).goto 0).written = '\n' :: (putValue {} none false j).written := by
    rw [Pen.goto, hl]
    rfl
  refine ⟨cs.reverse, c, ?_, hne⟩
  rw [write, String.toList_ofList, hend, hcs]
  simp

end Yaml

/-! ## Both renderings -/

/-- A text that ends with one line feed is the same after its end is made one line feed. -/
theorem Console.withoutLastBreaks_of_ends {s : String} {cs : List Char} {c : Char} (hs : s.toList = cs ++ [c, '\n'])
    (hc : c ≠ '\n') : Console.withoutLastBreaks s ++ "\n" = s := by
  apply String.toList_injective
  rw [String.toList_append, Console.withoutLastBreaks, String.toList_ofList, hs]
  simp [hc]

theorem Target.parse_version (t : Target) : Target.parse (.text t.version) = .ok t := by cases t <;> cbv

theorem Projection.withoutLastBreaks_rendering {ε : Type} {a : Api} {t : Target} {strict : Bool}
    {check : Option (Projection.Check ε)} {r : Projection.Rendering}
    (h : (a.projectTo t strict check).value = .rendered r) :
    Console.withoutLastBreaks r.json ++ "\n" = r.json ∧ Console.withoutLastBreaks r.yaml ++ "\n" = r.yaml := by
  have hproject : (Api.project (some a) (.text t.version) strict check).value = .rendered r := by
    rw [Api.project, Target.parse_version]
    exact h
  obtain ⟨t', doc, j, -, hdoc, hj, rfl⟩ := Api.of_project_rendered hproject
  obtain ⟨ms, rfl⟩ := Api.document_object hdoc (Node.of_document hj).1
  constructor
  · obtain ⟨cs, hcs⟩ := Json.writeAt_object_closes .document 0 ms
    have hends : (Projection.jsonText (.object ms)).toList = cs ++ ['}', '\n'] := by
      rw [Projection.jsonText, Json.pretty, Json.write, String.toList_append, String.toList_ofList, hcs]
      simp
    exact Console.withoutLastBreaks_of_ends hends (by decide)
  · obtain ⟨cs, c, hcs, hc⟩ := Yaml.write_ends (.object ms)
    exact Console.withoutLastBreaks_of_ends hcs hc

end ApiProjection
