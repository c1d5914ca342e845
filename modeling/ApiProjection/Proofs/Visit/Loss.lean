import ApiProjection.Proofs.Visit.Distinct
import ApiProjection.Proofs.Visit.Warnings
/-!
# Losses without a warning

In the older version the example and the format of a schema each come from two sources: from the single
example and the list of examples, and from the format and the content encoding. Where both sources of
one are there, one overwrites the other.

* `Schema.warned_iff`: there is a warning at the place of a visited schema exactly if there is something
  to report about it.
* `Schema.loses_iff`: if there is nothing to report, an example or the format is lost exactly if one
  source overwrites the other (`Schema.Overwrites`).
* `Schema.loss_warned_iff`: so a loss comes with a warning exactly if that is not the case.
-/
namespace ApiProjection

open Visit (report)

/-- The keywords of a schema of the older version that the newer one has too. -/
def Schema30.common : Schema30 → Annotations
  | .ref _ => {}
  | .node c .. => c

namespace Schema

/-- Whether an example or the format of a schema is missing in what is written for it. -/
def Loses (s : Schema) (out : Schema30) : Prop :=
  (s.facets.sample.isNull = false ∧ out.common.sample ≠ s.facets.sample) ∨
  (∃ x ∈ s.facets.examples, out.common.sample ≠ x) ∨
  ∃ g, nonEmpty s.facets.format = some g ∧ out.common.format ≠ some g

/-- Whether one of two sources overwrites the other and nothing else is reported about the schema: the
only example listed the single one, or a byte encoding the format. -/
structure Overwrites (s : Schema) : Prop where
  unreported : s.findings = []
  clash : (s.facets.sample.isNull = false ∧ ∃ x, s.facets.examples = [x] ∧ x ≠ s.facets.sample) ∨
    ∃ g, nonEmpty s.facets.format = some g ∧ g ≠ "byte" ∧
      ∃ e ∈ byteEncodings, nonEmpty s.facets.contentEncoding = some e

/-! ## What one schema loses -/

theorem common_to30 {s : Schema} (hr : nonEmpty s.ref = none) (p : Pointer) :
    (s.to30 p).value.common = common30 s.facets := by
  rw [to30_eq, hr]
  rfl

/-- Several examples are something to report. -/
theorem length_examples {s : Schema} (hr : nonEmpty s.ref = none) (h : s.findings = []) :
    s.facets.examples.length ≤ 1 := by
  simp only [findings, hr, List.append_eq_nil_iff] at h
  have hlast : Finding.when (1 < s.facets.examples.length) .multipleExamples = [] := h.2
  by_contra hlen
  simp [Finding.when, Nat.lt_of_not_le hlen] at hlast

/-- With one example listed at most, that example is lost never and the single one if they differ. -/
theorem loses_example_iff {f : Facets} (h : f.examples.length ≤ 1) :
    ((f.sample.isNull = false ∧ example30 f ≠ f.sample) ∨ ∃ x ∈ f.examples, example30 f ≠ x) ↔
      f.sample.isNull = false ∧ ∃ x, f.examples = [x] ∧ x ≠ f.sample := by
  match hx : f.examples, h with
  | [], _ => simp [example30, hx]
  | [x], _ => simp [example30, hx]

theorem loses_format_iff {f : Facets} {g : String} (hg : nonEmpty f.format = some g) :
    format30 f ≠ some g ↔ g ≠ "byte" ∧ ∃ e ∈ byteEncodings, nonEmpty f.contentEncoding = some e := by
  unfold format30
  cases nonEmpty f.contentEncoding with
  | none => simp [hg]
  | some e =>
    by_cases he : e ∈ byteEncodings
    · simp [he, eq_comm]
    · simp [he, hg]

/-- A schema that there is nothing to report about loses what one source overwrites. -/
theorem loses_iff {s : Schema} (hr : nonEmpty s.ref = none) (h : s.findings = []) (p : Pointer) :
    s.Loses (s.to30 p).value ↔ s.Overwrites := by
  have hexample := loses_example_iff (length_examples hr h)
  have hformat : (∃ g, nonEmpty s.facets.format = some g ∧ format30 s.facets ≠ some g) ↔
      ∃ g, nonEmpty s.facets.format = some g ∧ g ≠ "byte" ∧
        ∃ e ∈ byteEncodings, nonEmpty s.facets.contentEncoding = some e :=
    exists_congr fun g => and_congr_right loses_format_iff
  rw [Loses, common_to30 hr, ← or_assoc]
  constructor
  · intro hl
    exact ⟨h, hl.imp hexample.1 hformat.1⟩
  · intro ho
    exact ho.clash.imp hexample.2 hformat.2

/-! ## Warnings about one of many schemas -/

section
variable {s n : Schema} {v : Visit}

/-- A warning at the place of a visited schema is about that schema. -/
theorem warned_iff (hk : ∀ u ∈ s.visits .v30, u.subject.Keyed) (hv : v ∈ s.visits .v30)
    (hn : v.subject = .schema n) (p : Pointer) :
    (∃ w ∈ (s.to30 p).warnings, w.path = (p.descend v.place).text) ↔ n.findings ≠ [] := by
  have hperm := records_to30 s p
  constructor
  · rintro ⟨w, hw, hpath⟩ hnone
    obtain ⟨u, hu, hw⟩ := List.mem_flatMap.1 (hperm.mem_iff.1 hw)
    obtain ⟨f, hf, rfl⟩ := List.mem_map.1 hw
    have hplace : u.place = v.place := Pointer.descend_text_inj.1 hpath
    have huv : u = v := List.inj_on_of_nodup_map (Schema.distinct .v30 s hk) hu hv hplace
    have hf : f ∈ n.findings := by simpa [huv, hn, Subject.findings, Target.isFeatureRich] using hf
    rw [hnone] at hf
    cases hf
  · intro hne
    obtain ⟨f, hf⟩ := List.exists_mem_of_ne_nil _ hne
    have hw : f.warning (p.descend v.place) ∈ report .v30 p (s.visits .v30) := by
      refine List.mem_flatMap.2 ⟨v, hv, List.mem_map_of_mem ?_⟩
      simpa [hn, Subject.findings, Target.isFeatureRich] using hf
    exact ⟨_, hperm.mem_iff.2 hw, rfl⟩

/-- **What is lost without a warning.** An example or the format of a visited schema is lost with a
warning at its place, unless one of two sources overwrites the other and nothing else is reported about
the schema. -/
theorem loss_warned_iff (hk : ∀ u ∈ s.visits .v30, u.subject.Keyed) (hv : v ∈ s.visits .v30)
    (hn : v.subject = .schema n) (hr : nonEmpty n.ref = none) (p : Pointer) :
    (n.Loses (n.to30 (p.descend v.place)).value →
      ∃ w ∈ (s.to30 p).warnings, w.path = (p.descend v.place).text) ↔ ¬ n.Overwrites := by
  rw [warned_iff hk hv hn p]
  constructor
  · intro h ho
    exact h ((loses_iff hr ho.unreported _).2 ho) ho.unreported
  · intro ho hl hnone
    exact ho ((loses_iff hr hnone _).1 hl)

end

/-- A list whose items have one example and list two others. -/
def samples : Schema where
  facets := { kind := some .array }
  items := some { facets := { sample := .text "a", examples := [.text "b", .text "c"] } }

theorem loss_warned_iff_samples :
    (∀ u ∈ samples.visits .v30, u.subject.Keyed) ∧
      ∃ v n, v ∈ samples.visits .v30 ∧ v.subject = .schema n ∧ nonEmpty n.ref = none ∧ ¬ n.Overwrites ∧
        n.Loses (n.to30 (Pointer.root.descend v.place)).value ∧
        ∃ w ∈ (samples.to30 .root).warnings, w.path = (Pointer.root.descend v.place).text := by
  let n : Schema := { facets := { sample := .text "a", examples := [.text "b", .text "c"] } }
  have hk : ∀ u ∈ samples.visits .v30, u.subject.Keyed := by decide
  have hv : (⟨["items"], .schema n⟩ : Visit) ∈ samples.visits .v30 :=
    List.mem_cons_of_mem _ List.mem_cons_self
  have ho : ¬ n.Overwrites := fun h => absurd h.unreported (by decide)
  have hb : (n.to30 (Pointer.root.descend ["items"])).value.common.sample = .text "b" := rfl
  have hl : n.Loses (n.to30 (Pointer.root.descend ["items"])).value := .inl ⟨rfl, by simp [hb, n]⟩
  exact ⟨hk, _, n, hv, rfl, rfl, ho, hl, (loss_warned_iff hk hv rfl rfl .root).2 ho hl⟩

/-- A schema with one example that lists another one. -/
def echo : Schema where
  facets := { sample := .text "a", examples := [.text "b"] }

theorem loss_unwarned_echo :
    (⟨[], .schema echo⟩ : Visit) ∈ echo.visits .v30 ∧ nonEmpty echo.ref = none ∧
      echo.Loses (echo.to30 .root).value ∧ ¬ ∃ w ∈ (echo.to30 .root).warnings, w.path = "#" := by
  have hb : (echo.to30 .root).value.common.sample = .text "b" := rfl
  have hw : (echo.to30 .root).warnings = [] := rfl
  refine ⟨List.mem_cons_self, rfl, .inl ⟨rfl, ?_⟩, ?_⟩
  · rw [hb]
    simp [echo]
  · rintro ⟨w, hm, _⟩
    rw [hw] at hm
    cases hm

end Schema
end ApiProjection
