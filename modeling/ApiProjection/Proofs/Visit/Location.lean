import ApiProjection.Proofs.Visit.Distinct
import ApiProjection.Proofs.Visit.Warnings
/-!
# Warnings and the nodes they name

What `Written`, `Distinct` and `Warnings` say comes together here, for a projection that succeeds.

* `Api.resolve_visit`: the pointer of a visited node leads from the root of the document to what is
  written for that node.
* `Api.warned_visit`: a warning about a schema or a server variable comes from the visit of one.
* `Api.reports_nodup`: no two warnings have both their code and their place in common.
* `Api.locations`: all of this in one statement.
-/
namespace ApiProjection

/-- Whether warnings with a code are about single schemas or server variables. -/
def WarningCode.isLocal : WarningCode → Bool
  | .downlevelConstToEnum | .downlevelConstToEnumConflict | .downlevelPatternProperties
  | .downlevelUnevaluatedProperties | .downlevelContentEncoding | .downlevelContentMediaType
  | .downlevelMultipleExamples | .serverVariableEmptyEnum | .serverVariableDefaultNotInEnum => true
  | _ => false

/-- The code and the place of a finding, as a warning has them. -/
def Finding.report (e : Finding × Pointer) : Code × String := (.known e.1.code, e.2.text)

/-! ## Findings about one node -/

theorem Finding.codes_when (c : Bool) (f : Finding) : ((when c f).map code).Sublist [f.code] := by
  cases c <;> simp [when]

theorem Finding.codes_encoding (o : Option String) :
    ((encoding o).map code).Sublist [.downlevelContentEncoding] := by
  unfold encoding
  split
  · exact codes_when _ _
  · simp

theorem Schema.codes_findings (s : Schema) : (s.findings.map Finding.code).Sublist
    [.downlevelContentEncoding, .downlevelContentMediaType, .downlevelConstToEnum,
      .downlevelConstToEnumConflict, .downlevelUnevaluatedProperties, .downlevelMultipleExamples] := by
  unfold findings
  split
  · simp
  · simp only [List.map_append]
    exact (((((Finding.codes_encoding _).append (Finding.codes_when _ .contentMediaType)).append
      (Finding.codes_when _ .constToEnum)).append (Finding.codes_when _ .constBesideEnum)).append
      (Finding.codes_when _ .unevaluatedProperties)).append (Finding.codes_when _ .multipleExamples)

namespace Subject

theorem codes_nodup (t : Target) (u : Subject) : ((u.findings t).map Finding.code).Nodup := by
  cases u with
  | schema s =>
    cases t with
    | v30 => exact s.codes_findings.nodup (by decide)
    | v31 => exact List.nodup_nil
  | serverVariable v =>
    simp only [findings]
    cases v.finding? t <;> simp
  | _ => exact List.nodup_nil

theorem codes_local (t : Target) (u : Subject) : ∀ f ∈ u.findings t, f.code.isLocal := by
  cases u with
  | schema s =>
    cases t with
    | v30 =>
      intro f hf
      have hm := s.codes_findings.subset (List.mem_map_of_mem hf)
      revert hm
      generalize f.code = c
      cases c <;> decide
    | v31 => simp [findings, Target.isFeatureRich]
  | serverVariable v =>
    intro f hf
    have hv : v.finding? t = some f := Option.mem_toList.1 hf
    unfold ServerVariable.finding? at hv
    split at hv
    · cases hv
    · cases hv
    · cases hv
      rfl
    · split at hv
      · cases hv
      · cases hv
        rfl
  | _ => simp [findings]

end Subject

/-! ## What is dropped -/

/-- Findings with different codes are reported differently, wherever they are. -/
theorem Finding.reports_append {xs ys : List (Finding × Pointer)} (hx : (xs.map report).Nodup)
    (hy : (ys.map report).Nodup) (h : ∀ x ∈ xs, ∀ y ∈ ys, x.1.code ≠ y.1.code) :
    ((xs ++ ys).map report).Nodup := by
  rw [List.map_append, List.nodup_append]
  refine ⟨hx, hy, ?_⟩
  intro a ha b hb hab
  obtain ⟨x, hx, rfl⟩ := List.mem_map.1 ha
  obtain ⟨y, hy, rfl⟩ := List.mem_map.1 hb
  have hc : Code.known x.1.code = .known y.1.code := (Prod.mk.inj hab).1
  exact h x hx y hy (Code.known.inj hc)

theorem mem_ite_singleton {α : Type} {c : Prop} [Decidable c] {x y : α}
    (h : x ∈ if c then [y] else []) : x = y := by
  split at h
  · exact List.mem_singleton.1 h
  · cases h

theorem mem_ite_nil {α : Type} {c : Prop} [Decidable c] {x y : α}
    (h : x ∈ if c then [] else [y]) : x = y := by
  split at h
  · cases h
  · exact List.mem_singleton.1 h

namespace Components

theorem drops_cases (c : Components) : ∀ e ∈ c.drops, e.1 = .mutualTls ∨ e.1 = .pathItems := by
  intro e he
  rcases List.mem_append.1 he with he | he
  · obtain ⟨s, _, rfl⟩ := List.mem_map.1 he
    exact .inl rfl
  · exact .inr (mem_ite_nil he ▸ rfl)

theorem drops_nodup (c : Components) (hk : c.Keyed) : (c.drops.map Finding.report).Nodup := by
  have hnames : ((c.securitySchemes.filter fun e => e.2.type == some "mutualTLS").map Prod.fst).Nodup :=
    hk.securitySchemes.sublist (List.filter_sublist.map _)
  have hplace : Function.Injective fun name : String =>
      Finding.report (.mutualTls, Pointer.root.descend ["components", "securitySchemes", name]) := by
    intro m n h
    have ht := Pointer.descend_text_inj.1 (Prod.mk.inj h).2
    simpa using ht
  refine Finding.reports_append ?_ ?_ ?_
  · simpa [Function.comp_def] using hnames.map hplace
  · split <;> simp
  · intro x hx y hy
    obtain ⟨s, _, rfl⟩ := List.mem_map.1 hx
    rw [mem_ite_nil hy]
    simp [Finding.code]

end Components

namespace Api

/-- Nothing that is dropped is a schema or a server variable. -/
theorem drops_cases (a : Api) : ∀ e ∈ a.drops, e.1.code.isLocal = false := by
  intro e he
  simp only [drops, List.mem_append, List.mem_flatMap] at he
  rcases he with ((he | he) | ⟨c, _, he⟩) | he
  · exact mem_ite_singleton he ▸ rfl
  · exact mem_ite_singleton he ▸ rfl
  · rcases c.drops_cases e he with h | h <;> exact h ▸ rfl
  · exact mem_ite_nil he ▸ rfl

theorem drops_nodup {t : Target} (a : Api) (hk : a.Keyed t) : (a.drops.map Finding.report).Nodup := by
  refine Finding.reports_append (Finding.reports_append (Finding.reports_append ?_ ?_ ?_) ?_ ?_) ?_ ?_
  · split <;> simp
  · split <;> simp
  · intro x hx y hy
    rw [mem_ite_singleton hx, mem_ite_singleton hy]
    decide
  · cases hc : a.components with
    | none => simp
    | some c => simpa using c.drops_nodup (hk.components c hc)
  · intro x hx y hy
    obtain ⟨c, _, hy⟩ := List.mem_flatMap.1 hy
    rcases c.drops_cases y hy with h | h <;> rcases List.mem_append.1 hx with hx | hx <;>
      rw [mem_ite_singleton hx, h] <;> decide
  · split <;> simp
  · intro x hx y hy
    rw [mem_ite_nil hy]
    rcases List.mem_append.1 hx with hx | hx
    · rcases List.mem_append.1 hx with hx | hx <;> rw [mem_ite_singleton hx] <;> decide
    · obtain ⟨c, _, hx⟩ := List.mem_flatMap.1 hx
      rcases c.drops_cases x hx with h | h <;> rw [h] <;> decide

/-! ## What is found at visited nodes -/

theorem found_nodup (t : Target) (a : Api) (hk : a.Keyed t) : ((a.found t).map Finding.report).Nodup := by
  have hmap : (a.found t).map Finding.report = (a.visits t).flatMap fun v =>
      ((v.subject.findings t).map Finding.code).map fun c => (Code.known c, v.pointer.text) := by
    simp [found, List.map_flatMap, Finding.report, Function.comp_def]
  rw [hmap, List.nodup_flatMap]
  constructor
  · intro v _
    exact (v.subject.codes_nodup t).map fun _ _ h => Code.known.inj (Prod.mk.inj h).1
  · refine List.Pairwise.imp ?_ (List.pairwise_map.1 (a.texts_nodup t hk))
    intro v w hvw
    simp only [Function.onFun, List.disjoint_left, List.mem_map, not_exists, not_and]
    rintro _ ⟨c, _, rfl⟩ d _ hd
    exact hvw (Prod.mk.inj hd).2.symm

theorem found_local (t : Target) (a : Api) : ∀ e ∈ a.found t, e.1.code.isLocal := by
  intro e he
  obtain ⟨v, _, he⟩ := List.mem_flatMap.1 he
  obtain ⟨f, hf, rfl⟩ := List.mem_map.1 he
  exact v.subject.codes_local t f hf

theorem findings_nodup (t : Target) (a : Api) (hk : a.Keyed t) :
    ((a.findings t).map Finding.report).Nodup := by
  refine Finding.reports_append ?_ (a.found_nodup t hk) ?_
  · split
    · exact List.nodup_nil
    · exact a.drops_nodup hk
  · intro x hx y hy h
    have hl := a.found_local t y hy
    split at hx
    · cases hx
    · rw [← h, a.drops_cases x hx] at hl
      cases hl

/-! ## Successful projections -/

section
variable {t : Target} {strict : Bool} {a : Api} {doc : Node} {j : Json}

/-- **A pointer leads to its node.** What it leads to is the JSON of what is written for the node. -/
theorem resolve_visit (hdoc : (a.toDocument t strict).value = .ok doc) (hj : doc.toJson = .ok j)
    (hk : a.Keyed t) (hp : ∀ v ∈ a.visits t, v.subject.Plain) {v : Visit} (hv : v ∈ a.visits t) :
    ∃ i, (v.subject.project t v.pointer).value.toJson = .ok i ∧ j.resolve? v.pointer.text = some i := by
  have hshow := a.shows t hk hk.visits v hv fun w hw ⟨k, hk, _⟩ => (hp w hw).not_hides t k hk
  rw [← eq_written hdoc] at hshow
  obtain ⟨i, hi, hf⟩ := Node.toJson_follow hj hshow
  refine ⟨i, hi, ?_⟩
  have hparts : Pointer.parts "#" v.pointer.text = v.place := Pointer.parts_text v.pointer
  rw [Json.resolve?, hparts, hf]

theorem warnings_perm (hdoc : (a.toDocument t strict).value = .ok doc) :
    (a.toDocument t strict).warnings.Perm (Finding.warnings (a.findings t)) := by
  rw [toDocument_ok hdoc]
  exact a.recorded_perm t

/-- A warning about a schema or a server variable comes from the visit of one. -/
theorem warned_visit (hdoc : (a.toDocument t strict).value = .ok doc) {w : Warning}
    (hw : w ∈ (a.toDocument t strict).warnings) {c : WarningCode} (hc : w.code = .known c) (hl : c.isLocal) :
    ∃ v ∈ a.visits t, (∃ f ∈ v.subject.findings t, f.code = c) ∧ v.pointer.text = w.path := by
  obtain ⟨e, he, rfl⟩ := List.mem_map.1 ((warnings_perm hdoc).mem_iff.1 hw)
  have hcode : e.1.code = c := Code.known.inj hc
  rcases List.mem_append.1 he with he | he
  · split at he
    · cases he
    · rw [← hcode, a.drops_cases e he] at hl
      cases hl
  · obtain ⟨v, hv, he⟩ := List.mem_flatMap.1 he
    obtain ⟨f, hf, rfl⟩ := List.mem_map.1 he
    exact ⟨v, hv, ⟨f, hf, hcode⟩, rfl⟩

/-- **No two warnings are the same** in code and place. -/
theorem reports_nodup (hdoc : (a.toDocument t strict).value = .ok doc) (hk : a.Keyed t) :
    ((a.toDocument t strict).warnings.map fun w => (w.code, w.path)).Nodup := by
  refine ((warnings_perm hdoc).map _).nodup_iff.2 ?_
  rw [Finding.warnings, List.map_map]
  exact a.findings_nodup t hk

end

/-- **Places are exact and tell nodes apart.** Of a projection that succeeds: the pointer of each visited
node leads from the root of the document to what is written for the node; no two visits have the same
pointer; each warning about a schema or a server variable names exactly one visited node; and no two
warnings have the same code and place. -/
theorem locations (t : Target) (strict : Bool) (a : Api) (doc : Node) (j : Json)
    (hdoc : (a.toDocument t strict).value = .ok doc) (hj : doc.toJson = .ok j)
    (hk : a.Keyed t) (hp : ∀ v ∈ a.visits t, v.subject.Plain) :
    (∀ v ∈ a.visits t, ∃ i, (v.subject.project t v.pointer).value.toJson = .ok i ∧
      j.resolve? v.pointer.text = some i) ∧
    ((a.visits t).map fun v => v.pointer.text).Nodup ∧
    (∀ w ∈ (a.toDocument t strict).warnings, ∀ c, w.code = .known c → c.isLocal →
      (j.resolve? w.path).isSome ∧ ∃ v ∈ a.visits t, v.pointer.text = w.path ∧
        (∃ f ∈ v.subject.findings t, f.code = c) ∧ ∀ u ∈ a.visits t, u.pointer.text = w.path → u = v) ∧
    ((a.toDocument t strict).warnings.map fun w => (w.code, w.path)).Nodup := by
  refine ⟨fun v hv => resolve_visit hdoc hj hk hp hv, a.texts_nodup t hk, ?_, reports_nodup hdoc hk⟩
  intro w hw c hc hl
  obtain ⟨v, hv, hf, hpath⟩ := warned_visit hdoc hw hc hl
  obtain ⟨i, _, hi⟩ := resolve_visit hdoc hj hk hp hv
  refine ⟨by rw [← hpath, hi]; rfl, v, hv, hpath, hf, ?_⟩
  intro u hu hupath
  exact List.inj_on_of_nodup_map (a.texts_nodup t hk) hu hv (hupath.trans hpath.symm)

/-- An interface that calls back, with a server whose variable has a default outside of its values. -/
def hook : Api where
  info := { title := "Hook", version := "1" }
  servers := [{ url := "http://localhost", vars := [("host", { default := "a", enum := some ["b"] })] }]
  paths := [("/on", { operations := [(.post, { callbacks := [("done", { pathItems := [("$url", {
    operations := [(.post, { requestBody := some {
      content := [("text/plain", { schema := some {} })] } })] })] })] })] })]

theorem locations_hook :
    ∃ doc j, (hook.toDocument .v31 false).value = .ok doc ∧ doc.toJson = .ok j ∧ hook.Keyed .v31 ∧
      (∀ v ∈ hook.visits .v31, v.subject.Plain) ∧
      ((hook.visits .v31).map fun v => v.pointer.text).Nodup ∧
      (j.resolve? "#/servers/0/variables/host").isSome := by
  have hk : hook.Keyed .v31 := ⟨by decide, by decide, by simp [hook], by decide⟩
  have hp : ∀ v ∈ hook.visits .v31, v.subject.Plain := by decide +kernel
  have hdoc : (hook.toDocument .v31 false).value = .ok (hook.written .v31) := by rfl
  obtain ⟨j, hj⟩ : ∃ j, (hook.written .v31).toJson = .ok j := ⟨_, rfl⟩
  let place := Pointer.root.descend ["servers", "0", "variables", "host"]
  have hw : (hook.toDocument .v31 false).warnings = [(Finding.defaultNotInEnum "a").warning place] := by rfl
  have hpath : place.text = "#/servers/0/variables/host" := by decide
  obtain ⟨_, hn, hwarned, _⟩ := locations .v31 false hook _ j hdoc hj hk hp
  have hmem := hwarned _ (by rw [hw]; exact List.mem_singleton_self _) .serverVariableDefaultNotInEnum rfl rfl
  exact ⟨_, j, hdoc, hj, hk, hp, hn, hpath ▸ hmem.1⟩

end Api
end ApiProjection
