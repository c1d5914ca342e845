import Mathlib
import ApiProjection.Api.Reader.Document
import ApiProjection.Projection.Report
import ApiProjection.Proofs.Agreement.Basic
import ApiProjection.Proofs.Failure.Values
import ApiProjection.Proofs.Visit.Warnings
/-!
# When a projection is refused

Few things make a projection fail, and strictness adds three to them, for the older version only. A
strict projection goes the way of the lenient one and stops on it, so what it has recorded is the
beginning of what the lenient one records (`Api.front30_prefix` and its like).

* `Api.strictRefusal?`: the first of the three that a description has.
* `Api.project_refusals`: when a projection fails and how, and what it ends in otherwise.
-/
namespace ApiProjection

/-! ## Documents of JSON values -/

theorem Value.isWritable_of_isJson {v : Value} (h : v.isJson = true) : v.IsWritable :=
  v.toJson_isOk.1 (v.toJson_ok h)

theorem Value.plain_isJson : Value.Plain fun v => v.isJson = true where
  flag _ := rfl
  number n := by cases n <;> rfl

namespace Projection

variable {ε : Type}

/-- Whether a projection has failed, with a failure of the given kind and the given warnings. -/
def FailsWith (k : FailureKind) (ws : Warnings) (r : Traced (Outcome ε)) : Prop :=
  ∃ f, r = ⟨.failed f, ws⟩ ∧ f.kind = k

/-- Whether an outcome is what becomes of a document that nobody refuses: two renderings, unless it
holds an integer with too many digits. -/
def IsRendering (n : Node) (o : Outcome ε) : Prop :=
  (¬n.HasLongInteger ∧ ∃ r, o = .rendered r) ∨ (n.HasLongInteger ∧ o = .unwritable .longInteger)

/-- A document of JSON values is rendered unless an integer in it is too long. -/
theorem render_isRendering {n : Node} (t : Target) (h : ∀ v ∈ n.values, v.isJson = true) :
    IsRendering n (render t none n : Outcome ε) := by
  obtain ⟨j, hj⟩ := n.toJson_isOk.2 fun v hv => Value.isWritable_of_isJson (h v hv)
  cases hlong : j.hasLongInteger with
  | true =>
    refine .inr ⟨⟨j, hj, hlong⟩, ?_⟩
    rw [render, Node.document_of_ok hj, hlong]
    rfl
  | false =>
    refine .inl ⟨?_, ⟨jsonText j, Yaml.write j⟩, ?_⟩
    · rintro ⟨i, hi, hlong'⟩
      cases hj.symm.trans hi
      cases hlong.symm.trans hlong'
    · rw [render, Node.document_of_toJson hj hlong]
      rfl

end Projection

open Projection (FailsWith IsRendering Outcome)

namespace Api

/-! ## What a strict projection refuses -/

/-- What there is to report about a feature that a strict projection to the older version refuses. -/
def causes (a : Api) : Refusal → List (Finding × Pointer)
  | .strictSummary =>
    if isSet a.info.summary then [(.infoSummary, Pointer.root.descend ["info", "summary"])] else []
  | .strictMutualTls => (a.components.toList.flatMap Components.droppedSchemes).map fun name =>
    (.mutualTls, Pointer.root.descend ["components", "securitySchemes", name])
  | .strictWebhooks => if a.webhooks.isEmpty then [] else [(.webhooks, Pointer.root.descend ["webhooks"])]
  | _ => []

/-- What a strict projection to the older version refuses, in the order in which it looks. -/
def strictRefusals : List Refusal := [.strictSummary, .strictMutualTls, .strictWebhooks]

theorem strictRefusals_isStrict : ∀ r ∈ strictRefusals, r.isStrict = true := by decide

/-- The first thing in a description that a strict projection to the older version refuses. -/
def strictRefusal? (a : Api) : Option Refusal := strictRefusals.find? fun r => !(a.causes r).isEmpty

theorem strictRefusal?_eq (a : Api) : a.strictRefusal? =
    if isSet a.info.summary then some .strictSummary
    else if a.components.any fun c => !c.droppedSchemes.isEmpty then some .strictMutualTls
    else if !a.webhooks.isEmpty then some .strictWebhooks
    else none := by
  have hsummary : (a.causes .strictSummary).isEmpty = !isSet a.info.summary := by
    simp only [causes]
    cases isSet a.info.summary <;> rfl
  have htls : (a.causes .strictMutualTls).isEmpty =
      !a.components.any fun c => !c.droppedSchemes.isEmpty := by
    cases hc : a.components <;> simp [causes, hc]
  have hwebhooks : (a.causes .strictWebhooks).isEmpty = a.webhooks.isEmpty := by
    simp only [causes]
    cases a.webhooks.isEmpty <;> rfl
  simp only [strictRefusal?, strictRefusals, List.find?_cons, List.find?_nil, hsummary, htls, hwebhooks, Bool.not_not]
  cases isSet a.info.summary <;> cases a.components.any fun c => !c.droppedSchemes.isEmpty <;>
    cases a.webhooks.isEmpty <;> rfl

theorem droppedSchemes_isEmpty {c : Components} :
    c.droppedSchemes.isEmpty = true ↔ ∀ s ∈ c.securitySchemes, s.2.type ≠ some "mutualTLS" := by
  simp [Components.droppedSchemes, Components.isMutualTls, Components.mutualTls]

theorem strictRefusal?_eq_none {a : Api} : a.strictRefusal? = none ↔
    isSet a.info.summary = false ∧
      (∀ c ∈ a.components, ∀ s ∈ c.securitySchemes, s.2.type ≠ some "mutualTLS") ∧ a.webhooks = [] := by
  have htls : (a.components.any fun c => !c.droppedSchemes.isEmpty) = false ↔
      ∀ c ∈ a.components, ∀ s ∈ c.securitySchemes, s.2.type ≠ some "mutualTLS" := by
    cases a.components with
    | none => simp
    | some c => simpa using droppedSchemes_isEmpty (c := c)
  have hwebhooks : a.webhooks.isEmpty = true ↔ a.webhooks = [] := List.isEmpty_iff
  rw [strictRefusal?_eq, ← htls, ← hwebhooks]
  cases isSet a.info.summary <;> cases a.components.any fun c => !c.droppedSchemes.isEmpty <;>
    cases a.webhooks.isEmpty <;> simp

/-! ## What is recorded until a refusal -/

/-- What a strict projection to the older version has recorded when it refuses something. -/
def recordedUntil (a : Api) : Refusal → Warnings
  | .strictSummary => a.front30
  | .strictMutualTls => a.front30 ++ a.components.toList.flatMap Components.front30
  | _ => a.recorded30

theorem recordedUntil_prefix (a : Api) (r : Refusal) : a.recordedUntil r <+: a.recorded30 := by
  have hfront : a.front30 ++ a.components.toList.flatMap Components.front30 <+: a.recorded30 := by
    rw [recorded30]
    refine List.IsPrefix.trans ?_ (List.prefix_append _ _)
    rw [List.prefix_append_right_inj]
    cases a.components with
    | none => simp
    | some c => simp [Components.recorded30]
  cases r with
  | strictSummary => exact (List.prefix_append _ _).trans hfront
  | strictMutualTls => exact hfront
  | _ => exact List.prefix_rfl

/-- What is reported about the feature that a strict projection refuses has been recorded by then. -/
theorem causes_recorded (a : Api) (r : Refusal) :
    ∀ w ∈ Finding.warnings (a.causes r), w ∈ a.recordedUntil r := by
  cases r with
  | strictSummary =>
    intro w hw
    rw [recordedUntil, front30, warnings_info30, Finding.warnings, List.map_append]
    exact List.mem_append_left _ (List.mem_append_left _ (List.mem_append_left _ hw))
  | strictMutualTls =>
    intro w hw
    refine List.mem_append_right _ ?_
    rw [causes] at hw
    cases hc : a.components with
    | none => simp [hc, Finding.warnings] at hw
    | some c =>
      rw [hc] at hw
      simp only [Option.toList_some, List.flatMap_cons, List.flatMap_nil, List.append_nil] at hw ⊢
      rw [Components.front30, Components.warnings_warnDropped]
      exact List.mem_append_right _ hw
  | strictWebhooks =>
    intro w hw
    refine List.mem_append_right _ ?_
    rw [causes] at hw
    cases hw' : a.webhooks.isEmpty with
    | true => simp [hw', Finding.warnings] at hw
    | false =>
      rw [hw'] at hw
      exact hw
  | pathsMissing | licenseIdentifierAndUrl =>
    intro w hw
    cases hw

/-! ## Whole projections -/

/-- The projection without a check. -/
def unchecked (t : Target) (strict : Bool) (a : Api) : Traced (Outcome Empty) := a.projectTo t strict none

theorem unchecked_of_refused {t : Target} {strict : Bool} {a : Api} {r : Refusal} {ws : Warnings}
    (h : a.toDocument t strict = ⟨.error r, ws⟩) : a.unchecked t strict = ⟨.failed (.refused r), ws⟩ := by
  rw [unchecked, projectTo, h]

theorem unchecked_of_written {t : Target} {strict : Bool} {a : Api}
    (h : a.toDocument t strict = ⟨.ok (a.written t), a.recorded t⟩) :
    a.unchecked t strict = ⟨Projection.render t none (a.written t), a.recorded t⟩ := by
  rw [unchecked, projectTo, h]

theorem toDocument_v30_lenient {a : Api} (h : a.paths ≠ []) :
    a.toDocument .v30 false = ⟨.ok a.written30, a.recorded30⟩ := by
  rw [toDocument, project30_run]
  simp [h]

theorem toDocument_v30_strict {a : Api} (h : a.paths ≠ []) : a.toDocument .v30 true =
    match a.strictRefusal? with
    | some r => ⟨.error r, a.recordedUntil r⟩
    | none => ⟨.ok a.written30, a.recorded30⟩ := by
  rw [toDocument, project30_run, strictRefusal?_eq]
  simp only [List.isEmpty_iff, h, if_false, Bool.true_and]
  cases isSet a.info.summary with
  | true => rfl
  | false =>
    cases a.components.any fun c => !c.droppedSchemes.isEmpty with
    | true => rfl
    | false => cases a.webhooks.isEmpty <;> rfl

theorem conflicts_iff {a : Api} : a.info.license.any License.conflicts = true ↔
    ∃ l ∈ a.info.license, isSet l.identifier = true ∧ isSet l.url = true := by
  cases a.info.license <;> simp [License.conflicts]

theorem toDocument_v31 (strict : Bool) (a : Api) : a.toDocument .v31 strict =
    if a.info.license.any License.conflicts then ⟨.error .licenseIdentifierAndUrl, []⟩
    else ⟨.ok a.written31, a.recorded31⟩ := project31_run a

theorem unchecked_isRendering {t : Target} {strict : Bool} {a : Api}
    (h : a.toDocument t strict = ⟨.ok (a.written t), a.recorded t⟩)
    (hjson : ∀ v ∈ a.values t, v.isJson = true) :
    IsRendering (a.written t) (a.unchecked t strict).value := by
  rw [unchecked_of_written h]
  exact Projection.render_isRendering t (forall_values_written Value.plain_isJson t hjson)

/-- **When a projection fails.** Of a description whose free-form values are JSON values:

* Strictness means nothing to the newer version. Its projection fails exactly if the license has both an
  identifier and a url.
* Without paths both projections to the older version fail. With paths the lenient one does not, and the
  strict one fails exactly if there is a summary, a scheme of mutual TLS or a webhook. It refuses the first
  of these, and what it has recorded is the beginning of what the lenient one records and has what is to be
  reported about the refused feature in it. Otherwise it does not differ from the lenient one.
* A projection that does not fail is rendered unless its document holds too long an integer. -/
theorem project_refusals (a : Api) (hjson : ∀ t, ∀ v ∈ a.values t, v.isJson = true) :
    (∀ strict, a.unchecked .v31 strict = a.unchecked .v31 false) ∧
    ((∃ l ∈ a.info.license, isSet l.identifier = true ∧ isSet l.url = true) →
      FailsWith .invalidDescription [] (a.unchecked .v31 false)) ∧
    (¬(∃ l ∈ a.info.license, isSet l.identifier = true ∧ isSet l.url = true) →
      IsRendering (a.written .v31) (a.unchecked .v31 false).value) ∧
    (a.paths = [] → ∀ strict, FailsWith .invalidDescription [] (a.unchecked .v30 strict)) ∧
    (a.paths ≠ [] →
      IsRendering (a.written .v30) (a.unchecked .v30 false).value ∧
      (∀ r, a.strictRefusal? = some r → ∃ ws,
        a.unchecked .v30 true = ⟨.failed (.refused r), ws⟩ ∧ FailsWith .strictness ws (a.unchecked .v30 true) ∧
        ws <+: (a.unchecked .v30 false).warnings ∧ ∀ w ∈ Finding.warnings (a.causes r), w ∈ ws) ∧
      (a.strictRefusal? = none → a.unchecked .v30 true = a.unchecked .v30 false) ∧
      (a.strictRefusal? = none ↔ isSet a.info.summary = false ∧
        (∀ c ∈ a.components, ∀ s ∈ c.securitySchemes, s.2.type ≠ some "mutualTLS") ∧ a.webhooks = [])) := by
  refine ⟨fun _ => rfl, fun h => ?_, fun h => ?_, fun h strict => ?_, fun h => ⟨?_, fun r hr => ?_, fun hr => ?_,
    strictRefusal?_eq_none⟩⟩
  · have hrun := toDocument_v31 false a
    rw [if_pos (conflicts_iff.2 h)] at hrun
    exact ⟨_, unchecked_of_refused hrun, rfl⟩
  · have hrun := toDocument_v31 false a
    rw [if_neg (mt conflicts_iff.1 h)] at hrun
    exact unchecked_isRendering hrun (hjson .v31)
  · have hrun : a.toDocument .v30 strict = ⟨.error .pathsMissing, []⟩ := by
      rw [toDocument, project30_run, h]
      rfl
    exact ⟨_, unchecked_of_refused hrun, rfl⟩
  · exact unchecked_isRendering (toDocument_v30_lenient h) (hjson .v30)
  · have hrun := toDocument_v30_strict h
    rw [hr] at hrun
    have hstrict : r.isStrict = true := strictRefusals_isStrict r (List.mem_of_find?_eq_some hr)
    have hkind : (Projection.Failure.refused r : Projection.Failure Empty).kind = .strictness := by
      rw [Projection.Failure.kind, hstrict]
      rfl
    have hlenient := unchecked_of_written (toDocument_v30_lenient h)
    refine ⟨a.recordedUntil r, unchecked_of_refused hrun, ⟨_, unchecked_of_refused hrun, hkind⟩, ?_,
      a.causes_recorded r⟩
    rw [hlenient]
    exact a.recordedUntil_prefix r
  · have hrun := toDocument_v30_strict h
    rw [hr] at hrun
    rw [unchecked_of_written hrun, unchecked_of_written (toDocument_v30_lenient h)]

/-- A description with a scheme of mutual TLS and a webhook, and a default that is a JSON value. -/
def ledger : Api where
  info := { title := "Ledger", version := "1" }
  paths := [("/entries", {})]
  components := some {
    schemas := [("Entry", { facets := { default := .map [(.text "amount", .int 0)] } })]
    securitySchemes := [("peers", { type := some "mutualTLS" })] }
  webhooks := [("closed", {})]

theorem project_refusals_ledger :
    (∀ t, ∀ v ∈ ledger.values t, v.isJson = true) ∧
    (∀ strict, ledger.unchecked .v31 strict = ledger.unchecked .v31 false) ∧
    ∃ ws, ledger.unchecked .v30 true = ⟨.failed (.refused .strictMutualTls), ws⟩ ∧
      ws <+: (ledger.unchecked .v30 false).warnings ∧
      Finding.mutualTls.warning (Pointer.root.descend ["components", "securitySchemes", "peers"]) ∈ ws := by
  have hjson : ∀ t, ∀ v ∈ ledger.values t, v.isJson = true := by
    rintro (_ | _) <;> decide
  have hpaths : ledger.paths ≠ [] := by simp [ledger]
  have hfirst : ledger.strictRefusal? = some .strictMutualTls := by decide
  obtain ⟨hstrict, -, -, -, h⟩ := project_refusals ledger hjson
  obtain ⟨ws, hfailed, -, hprefix, hcauses⟩ := (h hpaths).2.1 .strictMutualTls hfirst
  exact ⟨hjson, hstrict, ws, hfailed, hprefix, hcauses _ (List.mem_singleton_self _)⟩

/-- A value with an integer among its extensions. -/
def scaleValue (n : Int) : Value := .map [
  (.text "info", .map [(.text "title", .text "Atlas"), (.text "version", .text "1")]),
  (.text "extensions", .map [(.text "x-scale", .int n)])]

/-- The description that this value is. -/
def atlas (n : Int) : Api where
  info := { title := "Atlas", version := "1" }
  extensions := [("x-scale", .int n)]

theorem parse_scaleValue (n : Int) : parse unknownSource (scaleValue n) = .ok (atlas n) := by cbv

theorem toJson_atlas (n : Int) : ((atlas n).written .v31).toJson = .ok (.object [
    ("openapi", .text "3.1.2"), ("jsonSchemaDialect", .text "https://spec.openapis.org/oas/3.1/dialect/2024-11-10"),
    ("info", .object [("title", .text "Atlas"), ("version", .text "1")]),
    ("servers", .list [.object [("url", .text "/")]]), ("x-scale", .int n)]) := by cbv

theorem hasLongInteger_atlas {n : Int} (h : Json.firstLong ≤ n.natAbs) : (Json.object [
    ("openapi", .text "3.1.2"), ("jsonSchemaDialect", .text "https://spec.openapis.org/oas/3.1/dialect/2024-11-10"),
    ("info", .object [("title", .text "Atlas"), ("version", .text "1")]),
    ("servers", .list [.object [("url", .text "/")]]), ("x-scale", .int n)]).hasLongInteger = true := by
  simp only [Json.hasLongInteger, Json.anyLongMember, Json.anyLong, decide_eq_true h, Bool.or_false, Bool.or_true]

/-- An integer of too many digits is read without complaint, and a description that is not refused is not
rendered because of it. -/
theorem project_longInteger :
    parse unknownSource (scaleValue Json.firstLong) = .ok (atlas Json.firstLong) ∧
      (∀ t, ∀ v ∈ (atlas Json.firstLong).values t, v.isJson = true) ∧
      (¬∃ l ∈ (atlas Json.firstLong).info.license, isSet l.identifier = true ∧ isSet l.url = true) ∧
      ∀ strict, (atlas Json.firstLong).unchecked .v31 strict = ⟨.unwritable .longInteger, []⟩ := by
  have hlicense : ∀ n, (atlas n).info.license = none := fun _ => rfl
  refine ⟨parse_scaleValue _, ?_, ?_, fun strict => ?_⟩
  · intro t v hv
    have hvalues : (atlas Json.firstLong).values t = [.int Json.firstLong] := by cases t <;> rfl
    rw [hvalues, List.mem_singleton] at hv
    rw [hv]
    rfl
  · rw [hlicense]
    rintro ⟨l, hl, -⟩
    cases hl
  · have hrun := toDocument_v31 strict (atlas Json.firstLong)
    rw [hlicense] at hrun
    rw [if_neg (by simp)] at hrun
    have hrecorded : (atlas Json.firstLong).recorded .v31 = [] := rfl
    rw [unchecked_of_written hrun, Projection.render, Node.document_of_ok (toJson_atlas _), hrecorded,
      if_pos (hasLongInteger_atlas (Int.natAbs_natCast _).ge)]

end Api
end ApiProjection
