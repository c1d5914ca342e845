import ApiProjection.Proofs.Reference.Outcome
import ApiProjection.Proofs.Reference.Site
/-!
# References end there

A node with a reference is that reference and nothing else: what stands beside it is not looked at, and
what is written for it is its target alone.

The older version breaks this in one place. It drops a security scheme that has the type for mutual TLS
before it asks whether the scheme is a reference, so that a field beside a reference decides whether the
reference is written (`Api.reference_dropped`). `Api.references_terminal` says that nothing else does.
-/
namespace ApiProjection.Api

/-- **References are terminal.** Two descriptions that differ in nothing but what stands beside references
have the same outcome (a document, warnings, or a failure), unless the walk of the older version comes to
security schemes and finds other ones to drop. And where a reference is written, and no extension of a
callback takes its place, there is an object with the target as its only member. -/
theorem references_terminal {ε : Type} (t : Target) (strict : Bool) (check : Option (Projection.Check ε))
    (a b : Api) (hk : a.Keyed t) (he : a.ExamplesKeyed t) (hab : a.bare = b.bare) :
    (a.projectTo t strict check = b.projectTo t strict check ↔
      t = .v31 ∨ a.paths = [] ∨ (strict = true ∧ isSet a.info.summary = true) ∨
        a.droppedSchemes = b.droppedSchemes) ∧
    ∀ doc j, (a.toDocument t strict).value = .ok doc → doc.toJson = .ok j →
      ∀ s ∈ a.sites t, (∀ w ∈ a.visits t, ¬w.Hides t s.place) →
        j.resolve? (Pointer.root.descend s.place).text = some (.object [("$ref", .text s.target)]) := by
  refine ⟨projectTo_eq_iff hab (fun c hc => (hk.components c hc).securitySchemes) t strict check, ?_⟩
  intro doc j hdoc hj s hs ho
  rw [eq_written hdoc] at hj
  obtain ⟨i, hi, hf⟩ := Node.toJson_follow hj (follow_site hk he hs ho)
  have hparts : Pointer.parts "#" (Pointer.root.descend s.place).text = s.place :=
    Pointer.parts_text (Pointer.root.descend s.place)
  have hreference : (Node.reference s.target).toJson = .ok (.object [("$ref", .text s.target)]) := rfl
  cases hreference.symm.trans hi
  rw [Json.resolve?, hparts, hf]

/-- An interface with a security scheme that is a reference to another one and has a type beside it, an
answer that is a reference, and an example that is one. -/
def gate (type : String) : Api where
  info := { title := "Gate", version := "1" }
  paths := [("/a", { operations := [(.get, { responses := [("200", { ref := some "#/components/responses/ok" })] })] })]
  components := some {
    responses := [("ok", { description := "ok", content := [("text/plain", {
      examples := [("one", { ref := some "#/components/examples/one", summary := some type })] })] })]
    securitySchemes := [("key", { type := some "apiKey", name := some "k", place := some "header" }),
      ("alias", { ref := some "#/components/securitySchemes/key", type := some type })] }

theorem references_terminal_gate : (gate "http").Keyed .v30 ∧ (gate "http").ExamplesKeyed .v30 ∧
    (gate "http").bare = (gate "oauth2").bare ∧
    ((gate "http").projectTo .v30 true none : Traced (Projection.Outcome Unit)) =
      (gate "oauth2").projectTo .v30 true none ∧
    ∃ doc j, ((gate "http").toDocument .v30 true).value = .ok doc ∧ doc.toJson = .ok j ∧
      j.resolve? "#/components/securitySchemes/alias" =
        some (.object [("$ref", .text "#/components/securitySchemes/key")]) ∧
      j.resolve? "#/components/responses/ok/content/text~1plain/examples/one" =
        some (.object [("$ref", .text "#/components/examples/one")]) := by
  have hk : (gate "http").Keyed .v30 := by
    refine ⟨by decide, by decide, fun c hc => ?_, by decide⟩
    cases hc
    constructor <;> decide
  have he : (gate "http").ExamplesKeyed .v30 := by
    refine ⟨by decide, fun c hc => ?_⟩
    cases hc
    decide
  have hp : ∀ v ∈ (gate "http").visits .v30, v.subject.Plain := by decide
  have hbare : (gate "http").bare = (gate "oauth2").bare := rfl
  have hdoc : ((gate "http").toDocument .v30 true).value = .ok ((gate "http").written .v30) := by rfl
  obtain ⟨j, hj⟩ : ∃ j, ((gate "http").written .v30).toJson = .ok j := ⟨_, rfl⟩
  obtain ⟨heq, hsites⟩ := @references_terminal Unit .v30 true none _ _ hk he hbare
  have hshown (s : Site) (hs : s ∈ (gate "http").sites .v30) := hsites _ j hdoc hj s hs
    fun w hw ⟨k, hk, _⟩ => (hp w hw).not_hides .v30 k hk
  have halias := hshown ⟨["components", "securitySchemes", "alias"], "#/components/securitySchemes/key"⟩ (by decide)
  have hone := hshown ⟨["components", "responses", "ok", "content", "text/plain", "examples", "one"],
    "#/components/examples/one"⟩ (by decide)
  exact ⟨hk, he, hbare, heq.2 (.inr (.inr (.inr rfl))), _, j, hdoc, hj, halias, hone⟩

/-- A type beside a reference decides whether the older version writes the reference. -/
theorem reference_dropped : (gate "mutualTLS").bare = (gate "http").bare ∧
    ((gate "mutualTLS").projectTo .v30 false none : Traced (Projection.Outcome Unit)) ≠
      (gate "http").projectTo .v30 false none := by
  refine ⟨rfl, fun h => ?_⟩
  have hw := congrArg Traced.warnings h
  revert hw
  decide

end ApiProjection.Api
