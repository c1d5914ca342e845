import ApiProjection.Proofs.Reference.Mentioned
import ApiProjection.Proofs.Reference.Outcome
/-!
# Documents that are closed

A document is closed if each reusable part that it mentions, by a local reference or by a security
requirement, is in it. If a description declares what it mentions, its documents of the newer version are
closed.

The older version drops reusable path items and security schemes for mutual TLS, but neither the references
to the former nor the requirements of the latter. `Api.document_closed_iff` says that a document is closed
exactly if the description mentions nothing that is dropped, and `Api.requirement_dangling` that there is one
which is not.
-/
namespace ApiProjection

/-! ## Mentions of reusable parts -/

/-- The section and the name of the reusable part that is mentioned, if one is. -/
def Mention.component? : Mention → Option (String × String)
  | .scheme name => some ("securitySchemes", name)
  | .target ref =>
    match "#/".isPrefixOf ref, Pointer.parts "#" ref with
    | true, ["components", kind, name] => some (kind, name)
    | _, _ => none

/-- The text of its place mentions a reusable part, whatever is in its name. -/
theorem Mention.component_place (s n : String) :
    (Mention.target (Pointer.root.descend ["components", s, n]).text).component? = some (s, n) := by
  have hprefix : "#/".isPrefixOf (Pointer.root.descend ["components", s, n]).text = true := by
    refine String.startsWith_string_iff.2 ?_
    rw [Pointer.text, Pointer.toList_extend]
    simp [Pointer.root, Pointer.descend]
  have hparts : Pointer.parts "#" (Pointer.root.descend ["components", s, n]).text = ["components", s, n] :=
    Pointer.parts_text (Pointer.root.descend ["components", s, n])
  simp only [component?, hprefix, hparts]

/-- Whether each reusable part that a document mentions is found in its JSON. -/
def Node.Closed (doc : Node) (j : Json) : Prop :=
  ∀ m s n, doc.Mentions .record m → m.component? = some (s, n) → (j.follow? ["components", s, n]).isSome

/-! ## What is dropped -/

namespace Components

/-- Whether the older version drops the reusable part with a name in a section. -/
def omits (c : Components) (s n : String) : Bool :=
  s == "pathItems" || s == "securitySchemes" && c.droppedSchemes.contains n

theorem names_schemes30 {c : Components} (hk : DistinctKeys c.securitySchemes) :
    (c.schemes .v30).map Prod.fst =
      (c.securitySchemes.map Prod.fst).filter fun n => !c.droppedSchemes.contains n := by
  have hkept := congrArg (List.map Prod.fst) (kept_eq hk)
  rw [List.map_map] at hkept
  rw [List.filter_map]
  simpa [schemes, List.filter_map, Function.comp_def] using hkept

/-- The older version writes what is not dropped of the parts that the newer version writes. -/
theorem names_v30 {c : Components} (hk : DistinctKeys c.securitySchemes) :
    c.names .v30 = (c.names .v31).map fun s => (s.1, s.2.filter fun n => !c.omits s.1 n) := by
  simpa [names, omits, Target.isFeatureRich, schemes] using names_schemes30 hk

end Components

namespace Api

/-- Whether a description has a reusable part with a name in a section. The newer version writes them all. -/
def Declares (a : Api) (s n : String) : Prop := ∃ c ∈ a.components, ∃ ns, (s, ns) ∈ c.names .v31 ∧ n ∈ ns

/-- Whether a version drops the reusable part with a name in a section. -/
def Omits (t : Target) (a : Api) (s n : String) : Prop := t = .v30 ∧ ∃ c ∈ a.components, c.omits s n = true

/-- Whether a description declares all that it mentions where a version writes it. -/
def Complete (t : Target) (a : Api) : Prop :=
  ∀ m ∈ a.mentions t, ∀ s n, m.component? = some (s, n) → a.Declares s n

/-- A declared part is written unless it is dropped. -/
theorem written_iff {t : Target} {a : Api} (hk : ∀ c ∈ a.components, DistinctKeys c.securitySchemes)
    {s n : String} (h : a.Declares s n) :
    (∃ c ∈ a.components, ∃ ns, (s, ns) ∈ c.names t ∧ n ∈ ns) ↔ ¬a.Omits t s n := by
  cases t with
  | v31 => exact iff_of_true h fun hd => Target.noConfusion hd.1
  | v30 =>
    obtain ⟨c, hc, ns, hs, hn⟩ := h
    constructor
    · rintro ⟨d, hd, ns', hs', hn'⟩ ⟨_, e, he, homit⟩
      cases hc.symm.trans hd
      cases hc.symm.trans he
      rw [Components.names_v30 (hk c hc)] at hs'
      obtain ⟨_, _, hpair⟩ := List.mem_map.1 hs'
      cases hpair
      rw [List.mem_filter, homit] at hn'
      cases hn'.2
    · intro homit
      have hkept : c.omits s n = false := Bool.eq_false_iff.2 fun hc' => homit ⟨rfl, c, hc, hc'⟩
      have hmem : (s, ns.filter fun n => !c.omits s n) ∈ c.names .v30 := by
        rw [Components.names_v30 (hk c hc)]
        exact List.mem_map_of_mem hs
      exact ⟨c, hc, _, hmem, List.mem_filter.2 ⟨hn, by rw [hkept]; rfl⟩⟩

/-! ## Closed documents -/

/-- What is mentioned and declared is found unless it is dropped. -/
theorem follow_mentioned {t : Target} {a : Api} {j : Json} (hk : ∀ c ∈ a.components, DistinctKeys c.securitySchemes)
    (hj : (a.written t).toJson = .ok j) {s n : String} (h : a.Declares s n) :
    (j.follow? ["components", s, n]).isSome = true ↔ ¬a.Omits t s n := by
  rw [← written_iff hk h]
  refine follow_component hj ?_ n
  obtain ⟨c, _, ns, hs, _⟩ := h
  have hkeys : (c.names .v31).map Prod.fst = Components.sectionNames := rfl
  exact hkeys ▸ List.mem_map_of_mem hs

/-- **Documents are closed but for what is left out.** If a description declares all that it mentions, a
document of it is closed exactly if the description mentions nothing that the version leaves out. -/
theorem document_closed_iff (t : Target) (strict : Bool) (a : Api) (doc : Node) (j : Json)
    (hk : ∀ c ∈ a.components, DistinctKeys c.securitySchemes) (ha : a.Complete t)
    (hdoc : (a.toDocument t strict).value = .ok doc) (hj : doc.toJson = .ok j) :
    doc.Closed j ↔ ∀ m ∈ a.mentions t, ∀ s n, m.component? = some (s, n) → ¬a.Omits t s n := by
  cases eq_written hdoc
  have hfollow {m : Mention} (hm : m ∈ a.mentions t) {s n : String} (hc : m.component? = some (s, n)) :
      (j.follow? ["components", s, n]).isSome = true ↔ ¬a.Omits t s n := follow_mentioned hk hj (ha m hm s n hc)
  constructor
  · intro hclosed m hm s n hc
    exact (hfollow hm hc).1 (hclosed m s n ((mentions_written t).2 hm) hc)
  · intro hkept m s n hm hc
    have hm := (mentions_written t).1 hm
    exact (hfollow hm hc).2 (hkept m hm s n hc)

/-- An interface that requires a security scheme of the given type and has a reference to an answer. -/
def vault (type : String) : Api where
  info := { title := "Vault", version := "1" }
  paths := [("/a", { operations := [(.get, { responses := [("200", { ref := some "#/components/responses/ok" })] })] })]
  components := some {
    responses := [("ok", { description := "ok" })]
    securitySchemes := [("key", { type := some type, name := some "k", place := some "header" })] }
  security := [[("key", [])]]

theorem vault_components {type : String} (h : (vault type).mentions .v30 =
    [.target "#/components/responses/ok", .scheme "key"]) {m : Mention} (hm : m ∈ (vault type).mentions .v30)
    {s n : String} (hc : m.component? = some (s, n)) :
    (s, n) = ("responses", "ok") ∨ (s, n) = ("securitySchemes", "key") := by
  have href : (Mention.target "#/components/responses/ok").component? = some ("responses", "ok") :=
    Mention.component_place "responses" "ok"
  rw [h] at hm
  rcases List.mem_pair.1 hm with rfl | rfl
  · exact .inl (Option.some.inj (hc.symm.trans href))
  · exact .inr (Option.some.inj hc.symm)

theorem vault_complete {type : String} (h : (vault type).mentions .v30 =
    [.target "#/components/responses/ok", .scheme "key"]) : (vault type).Complete .v30 := by
  intro m hm s n hc
  rcases vault_components h hm hc with hsn | hsn
  · cases hsn
    exact ⟨_, rfl, ["ok"], by simp [Components.names], by decide⟩
  · cases hsn
    exact ⟨_, rfl, ["key"], by simp [Components.names, Components.schemes], by decide⟩

theorem document_closed_iff_vault : (vault "apiKey").Complete .v30 ∧
    ∃ doc j, ((vault "apiKey").toDocument .v30 true).value = .ok doc ∧ doc.toJson = .ok j ∧ doc.Closed j := by
  have hk : ∀ c ∈ (vault "apiKey").components, DistinctKeys c.securitySchemes := by
    intro c hc
    cases hc
    decide
  have hmentions : (vault "apiKey").mentions .v30 = [.target "#/components/responses/ok", .scheme "key"] := by decide
  have ha : (vault "apiKey").Complete .v30 := vault_complete hmentions
  have hdoc : ((vault "apiKey").toDocument .v30 true).value = .ok ((vault "apiKey").written .v30) := by rfl
  obtain ⟨j, hj⟩ : ∃ j, ((vault "apiKey").written .v30).toJson = .ok j := ⟨_, rfl⟩
  refine ⟨ha, _, j, hdoc, hj, (document_closed_iff .v30 true _ _ j hk ha hdoc hj).2 fun m hm s n hc => ?_⟩
  rintro ⟨_, c, hcomponents, homit⟩
  cases hcomponents
  rcases vault_components hmentions hm hc with hsn | hsn
  all_goals
    cases hsn
    revert homit
    decide

/-- A requirement of a security scheme for mutual TLS is left without it. -/
theorem requirement_dangling : (vault "mutualTLS").Complete .v30 ∧
    ∃ doc j, ((vault "mutualTLS").toDocument .v30 false).value = .ok doc ∧ doc.toJson = .ok j ∧
      ¬doc.Closed j := by
  have hmentions : (vault "mutualTLS").mentions .v30 = [.target "#/components/responses/ok", .scheme "key"] := by
    decide
  have hcomplete : (vault "mutualTLS").Complete .v30 := vault_complete hmentions
  have hk : ∀ c ∈ (vault "mutualTLS").components, DistinctKeys c.securitySchemes := by
    intro c hc
    cases hc
    decide
  have hm : .scheme "key" ∈ (vault "mutualTLS").mentions .v30 := by simp [hmentions]
  have hdoc : ((vault "mutualTLS").toDocument .v30 false).value = .ok ((vault "mutualTLS").written .v30) := by rfl
  obtain ⟨j, hj⟩ : ∃ j, ((vault "mutualTLS").written .v30).toJson = .ok j := ⟨_, rfl⟩
  refine ⟨hcomplete, _, j, hdoc, hj, fun hclosed => ?_⟩
  have hfound := hclosed _ _ _ ((mentions_written .v30).2 hm) rfl
  exact (follow_mentioned hk hj (hcomplete _ hm _ _ rfl)).1 hfound ⟨rfl, _, rfl, by decide⟩

end Api
end ApiProjection
