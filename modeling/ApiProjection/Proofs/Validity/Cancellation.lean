import ApiProjection.Proofs.Failure.Ending
import ApiProjection.Proofs.RoundTrip.Document
/-!
# Validations that are called off

Whoever asked for a validation is asked once before it starts and once at each violation whether to go on. A single yes
ends it, whatever has been found by then; without one it ends as if nobody had been asked. So what is reported are all
violations or none.

* `Validator.validateRead`: a validation, given what its document is read as.
* `Validator.validateRead_cases`: the ways in which it ends, whenever the answers come.
* `Api.project_asks`: where in a projection its check is asked.
* `Validator.cancellation_whole`: a validation that is called off from some question on, by itself and in a projection.
-/
namespace ApiProjection

/-- The answers of somebody who lets so many questions pass and calls the validation off at all that follow. -/
def Cancellation.after (n : Nat) : Cancellation := fun i => decide (n ≤ i)

/-- Whether a validation was called off. -/
def Invalid.isCancelled : Invalid → Bool
  | .cancelledBeforeStart | .cancelled => true
  | .notJson _ | .violations _ _ | .defective _ => false

/-- A validation that ended because it was called off. -/
def Validator.CalledOff (r : Except Invalid Unit) : Prop := ∃ e, r = .error e ∧ e.isCancelled = true

/-- A projection that failed because its validation was called off. -/
def Projection.CalledOff (r : Traced (Outcome Invalid)) : Prop :=
  ∃ t e, r.value = .failed (.invalid t e) ∧ e.isCancelled = true

namespace Validator

variable {v : Validator} {cancel : Cancellation} {read : Except String Value} {t : Target}

/-! ## Reports -/

/-- There are no reports just if the validation is called off at one of the violations. -/
theorem reports_eq_none_iff (cancel : Cancellation) (n : Nat) (vs : List Violation) :
    reports cancel n vs = none ↔ ∃ i, i < vs.length ∧ cancel (n + i) = true := by
  induction vs generalizing n with
  | nil => simp [reports]
  | cons v vs ih =>
    rw [reports]
    by_cases hn : cancel n = true
    · rw [if_pos hn]
      exact iff_of_true rfl ⟨0, by simp, hn⟩
    · rw [if_neg hn, Option.map_eq_none_iff, ih]
      constructor
      · rintro ⟨i, hi, hcancel⟩
        refine ⟨i + 1, by simpa using hi, ?_⟩
        rwa [Nat.add_right_comm, Nat.add_assoc] at hcancel
      · rintro ⟨i, hi, hcancel⟩
        cases i with
        | zero => exact absurd hcancel hn
        | succ i =>
          refine ⟨i, by simpa using hi, ?_⟩
          rwa [Nat.add_right_comm, Nat.add_assoc]

/-- The reports that there are, are those of all violations. -/
theorem reports_eq_some {n : Nat} {vs : List Violation} {texts : List String} (h : reports cancel n vs = some texts) :
    texts = vs.map Violation.report := by
  induction vs generalizing n texts with
  | nil =>
    cases h
    rfl
  | cons v vs ih =>
    rw [reports] at h
    split at h
    · cases h
    · obtain ⟨rest, hrest, rfl⟩ := Option.map_eq_some_iff.1 h
      rw [List.map_cons, ih hrest]

/-! ## Validations -/

/-- How a validation ends, given the value that its document is read as, or why it is none. -/
def validateRead (v : Validator) (cancel : Cancellation) (read : Except String Value) (t : Target) : Except Invalid Unit :=
  if cancel 0 then .error .cancelledBeforeStart
  else match read with
    | .error m => .error (.notJson m)
    | .ok document => v.judge cancel document t

/-- What a text is read as. -/
def reading (document : String) : Except String Value :=
  match Json.read (withoutMark document) with
  | .error e => .error (e.message (withoutMark document))
  | .ok j => .ok j.toValue

theorem validate_eq (v : Validator) (cancel : Cancellation) (document : String) (t : Target) :
    v.validate cancel document t = v.validateRead cancel (reading document) t := by
  unfold validate validateRead reading
  cases hread : Json.read (withoutMark document) with
  | error e => simp only [hread]
  | ok j =>
    simp only [hread]
    exact ite_congr rfl (fun _ => rfl) fun hgoes => (if_neg hgoes).symm

/-- What is found in a document: nothing if it is none. -/
def findings (v : Validator) (read : Except String Value) (t : Target) : Findings :=
  match read with
  | .error _ => .none
  | .ok document => MetaSchema.check (v.schemaFor t) document

/-- How often somebody is asked at a violation. -/
def violationCount (v : Validator) (read : Except String Value) (t : Target) : Nat := (v.findings read t).violations.length

theorem never_eq_false (n : Nat) : Cancellation.never n = false := rfl

/-- **A validation is called off before it starts, is called off at a violation, or ends as if nobody had been asked.** -/
theorem validateRead_cases (v : Validator) (cancel : Cancellation) (read : Except String Value) (t : Target) :
    (cancel 0 = true ∧ v.validateRead cancel read t = .error .cancelledBeforeStart) ∨
      (cancel 0 = false ∧ (∃ i, i < v.violationCount read t ∧ cancel (1 + i) = true) ∧
        v.validateRead cancel read t = .error .cancelled) ∨
      ((∀ i, i ≤ v.violationCount read t → cancel i = false) ∧
        v.validateRead cancel read t = v.validateRead .never read t) := by
  unfold violationCount findings validateRead judge
  cases hstart : cancel 0 with
  | true => exact .inl ⟨rfl, rfl⟩
  | false =>
    refine .inr ?_
    simp only [never_eq_false, Bool.false_eq_true, if_false]
    cases read with
    | error m =>
      refine .inr ⟨fun i hi => ?_, rfl⟩
      rw [Nat.le_zero.1 hi, hstart]
    | ok document =>
      simp only [reports_never]
      cases hreports : reports cancel 1 (MetaSchema.check (v.schemaFor t) document).violations with
      | none =>
        have hyes := (reports_eq_none_iff _ _ _).1 hreports
        exact .inl ⟨trivial, hyes, rfl⟩
      | some texts =>
        refine .inr ⟨fun i hi => ?_, by rw [reports_eq_some hreports]⟩
        cases i with
        | zero => exact hstart
        | succ i =>
          by_contra hyes
          have hnone := (reports_eq_none_iff _ _ _).2 ⟨i, hi, by rwa [Nat.add_comm, ← Bool.not_eq_false]⟩
          rw [hreports] at hnone
          cases hnone

/-- How a validation ends that nobody calls off. What it reports are all violations. -/
theorem never_cases (v : Validator) (read : Except String Value) (t : Target) :
    (∃ m, v.validateRead .never read t = .error (.notJson m)) ∨
      (∃ d, v.validateRead .never read t = .error (.defective d)) ∨
      v.validateRead .never read t = .ok () ∨
      v.validateRead .never read t =
        .error (.violations t (sortTexts ((v.findings read t).violations.map Violation.report))) := by
  unfold validateRead judge findings
  simp only [never_eq_false, Bool.false_eq_true, if_false, reports_never]
  cases read with
  | error m => exact .inl ⟨m, rfl⟩
  | ok document =>
    simp only
    cases MetaSchema.check (v.schemaFor t) document with
    | mk violations defect =>
      cases defect with
      | some d => exact .inr (.inl ⟨d, rfl⟩)
      | none =>
        cases violations with
        | nil => exact .inr (.inr (.inl rfl))
        | cons w ws => exact .inr (.inr (.inr rfl))

theorem not_calledOff_never (v : Validator) (read : Except String Value) (t : Target) :
    ¬CalledOff (v.validateRead .never read t) := by
  rintro ⟨e, he, hcancelled⟩
  rcases v.never_cases read t with ⟨m, h⟩ | ⟨d, h⟩ | h | h
  all_goals rw [h] at he; cases he
  all_goals cases hcancelled

theorem violations_never {u : Target} {errors : List String}
    (h : v.validateRead .never read t = .error (.violations u errors)) :
    u = t ∧ errors = sortTexts ((v.findings read t).violations.map Violation.report) := by
  rcases v.never_cases read t with ⟨m, h'⟩ | ⟨d, h'⟩ | h' | h'
  all_goals rw [h'] at h; cases h
  exact ⟨rfl, rfl⟩

/-- Who calls a validation off from some question on does so before it starts or at one of the violations, or too late. -/
theorem calledOff_after_iff (v : Validator) (n : Nat) (read : Except String Value) (t : Target) :
    CalledOff (v.validateRead (.after n) read t) ↔ n = 0 ∨ n ≤ v.violationCount read t := by
  rcases v.validateRead_cases (.after n) read t with ⟨hstart, h⟩ | ⟨-, ⟨i, hi, hcancel⟩, h⟩ | ⟨hno, h⟩
  · exact iff_of_true ⟨_, h, rfl⟩ (.inl (Nat.le_zero.1 (of_decide_eq_true hstart)))
  · have hle : n ≤ 1 + i := of_decide_eq_true hcancel
    exact iff_of_true ⟨_, h, rfl⟩ (.inr (by omega))
  · rw [h]
    refine iff_of_false (v.not_calledOff_never read t) ?_
    have hpast : ∀ i, i ≤ v.violationCount read t → ¬n ≤ i := fun i hi => of_decide_eq_false (hno i hi)
    rintro (hzero | hle)
    · exact hpast 0 (Nat.zero_le _) hzero.le
    · exact hpast _ le_rfl hle

theorem calledOff_or_eq_never (v : Validator) (cancel : Cancellation) (read : Except String Value) (t : Target) :
    CalledOff (v.validateRead cancel read t) ∨ v.validateRead cancel read t = v.validateRead .never read t := by
  rcases v.validateRead_cases cancel read t with ⟨-, h⟩ | ⟨-, -, h⟩ | ⟨-, h⟩
  · exact .inl ⟨_, h, rfl⟩
  · exact .inl ⟨_, h, rfl⟩
  · exact .inr h

/-- Whoever calls a validation off, what it reports are all violations. -/
theorem violations_all {u : Target} {errors : List String}
    (h : v.validateRead cancel read t = .error (.violations u errors)) :
    u = t ∧ errors = sortTexts ((v.findings read t).violations.map Violation.report) := by
  rcases v.calledOff_or_eq_never cancel read t with ⟨e, he, hcancelled⟩ | hnever
  · rw [h] at he
    cases he
    cases hcancelled
  · rw [hnever] at h
    exact violations_never h

end Validator

/-! ## Projections -/

/-- How a projection ends that has come to its check. -/
def Projection.answered {ε : Type} (t : Target) (rendering : Rendering) : Except ε Unit → Outcome ε
  | .error e => .failed (.invalid t e)
  | .ok _ => .rendered rendering

theorem Projection.render_asks {ε : Type} {t : Target} {n : Node} {j : Json} (h : n.document = .ok j)
    (check : Check ε) :
    render t (some check) n = answered t ⟨jsonText j, Yaml.write j⟩ (check (jsonText j) t) := by
  rw [render_checked h]
  cases check (jsonText j) t <;> rfl

namespace Api

/-- The document that a projection gives to its check, if it comes to that, and the version of the document. -/
def checked? (a : Option Api) (target : Value) (strict : Bool) : Option (String × Target) := do
  let t ← (Target.parse target).toOption
  let node ← ((← a).toDocument t strict).value.toOption
  let j ← node.document.toOption
  pure (Projection.jsonText j, t)

/-- A projection ends without its check, or the check alone decides between a failure that has its objection and the
renderings. The warnings are the same whatever the check says. -/
theorem project_asks {ε : Type} (a : Option Api) (target : Value) (strict : Bool) :
    (checked? a target strict = none ∧
      ∃ r : Traced (Projection.Outcome ε), (∀ t e, r.value ≠ .failed (.invalid t e)) ∧
        ∀ check, project a target strict (some check) = r) ∨
    ∃ document t ws rendering, checked? a target strict = some (document, t) ∧
      ∀ check : Projection.Check ε,
        project a target strict (some check) = ⟨Projection.answered t rendering (check document t), ws⟩ := by
  unfold checked?
  cases a with
  | none =>
    refine .inl ⟨?_, _, ?_, fun _ => rfl⟩
    · cases Target.parse target <;> rfl
    · simp
  | some a =>
    simp only [project, projectTo]
    cases Target.parse target with
    | error e => exact .inl ⟨rfl, _, by simp, fun _ => rfl⟩
    | ok t =>
      cases hdocument : (a.toDocument t strict).value with
      | error r => exact .inl ⟨by simp [Except.toOption, hdocument], ⟨.failed (.refused r), _⟩, by simp,
        fun check => by simp only [hdocument]; rfl⟩
      | ok node =>
        cases hj : node.document with
        | error u =>
          refine .inl ⟨by simp [Except.toOption, hdocument, hj], ⟨.unwritable u, (a.toDocument t strict).warnings⟩,
            by simp, fun check => ?_⟩
          simp only [hdocument, Projection.render_of_error hj]
        | ok j =>
          refine .inr ⟨Projection.jsonText j, t, (a.toDocument t strict).warnings, ⟨Projection.jsonText j, Yaml.write j⟩,
            by simp [Except.toOption, hdocument, hj], fun check => ?_⟩
          simp only [hdocument, Projection.render_asks hj]

end Api

namespace Validator

/-- A projection is called off as a whole or not at all. -/
theorem project_whole (v : Validator) (n : Nat) (a : Option Api) (target : Value) (strict : Bool) :
    let run (cancel : Cancellation) := Api.project a target strict (some (v.validate cancel))
    (Projection.CalledOff (run (.after n)) ↔
      ∃ document t, Api.checked? a target strict = some (document, t) ∧
        (n = 0 ∨ n ≤ v.violationCount (reading document) t)) ∧
    (Projection.CalledOff (run (.after n)) ∨ run (.after n) = run .never) ∧
    (run (.after n)).warnings = (run .never).warnings := by
  intro run
  rcases Api.project_asks a target strict with ⟨hnone, r, hr, hrun⟩ | ⟨document, t, ws, rendering, hchecked, hrun⟩
  · have hsame : run (.after n) = run .never := (hrun _).trans (hrun _).symm
    refine ⟨iff_of_false ?_ ?_, .inr hsame, congrArg _ hsame⟩
    · rintro ⟨t, e, he, -⟩
      exact hr t e ((congrArg Traced.value (hrun _)).symm.trans he)
    · rintro ⟨document, t, hchecked, -⟩
      rw [hnone] at hchecked
      cases hchecked
  · -- the check is asked about one document: what is known of its validation carries over
    have hcalled : Projection.CalledOff (run (.after n)) ↔ CalledOff (v.validateRead (.after n) (reading document) t) := by
      unfold Projection.CalledOff CalledOff
      simp only [run, hrun, validate_eq]
      cases v.validateRead (.after n) (reading document) t with
      | error e => simp [Projection.answered]
      | ok _ => simp [Projection.answered]
    refine ⟨?_, ?_, by simp only [run, hrun]⟩
    · rw [hcalled, calledOff_after_iff, hchecked]
      simp
    · rw [hcalled]
      refine (v.calledOff_or_eq_never (.after n) (reading document) t).imp_right fun h => ?_
      simp only [run, hrun, validate_eq, h]

end Validator
end ApiProjection
