import ApiProjection.Proofs.RoundTrip.Keyed
/-!
# Nodes that carry extensions

Besides the nodes that a projection visits, those that are written in one piece with another node carry
extensions of their own: examples, links to documentation, security schemes and so on. `Bearer` is any of
them.

* `Bearer.consists`: what is written for a node that is no reference has the entries that are written for
  the node without its extensions, and beside them those of its extensions that the version allows. Only
  the expressions of a callback can look like extensions.
-/
namespace ApiProjection

open Node (Field)

/-- A node that may carry extensions. -/
inductive Bearer
  | visited (u : Subject)
  | sample (e : Example)
  | docs (d : ExternalDocs)
  | contact (c : Contact)
  | license (l : License)
  | info (i : Info)
  | tag (g : Tag)
  | flow (f : OAuthFlow)
  | flows (f : OAuthFlows)
  | scheme (s : SecurityScheme)
  | components (c : Components)
  | api (a : Api)

/-! ## Extensions of a node -/

namespace Subject

def extensions : Subject → Extensions
  | .schema s => s.facets.extensions
  | .header h => h.extensions
  | .mediaType m => m.extensions
  | .encoding e => e.extensions
  | .parameter x => x.extensions
  | .requestBody b => b.extensions
  | .serverVariable v => v.extensions
  | .server s => s.extensions
  | .link l => l.extensions
  | .response r => r.extensions
  | .operation o => o.extensions
  | .pathItem i => i.extensions
  | .callback c => c.extensions

/-- The node without its own extensions. -/
def stripped : Subject → Subject
  | .schema s => .schema { s with facets := { s.facets with extensions := [] } }
  | .header h => .header { h with extensions := [] }
  | .mediaType m => .mediaType { m with extensions := [] }
  | .encoding e => .encoding { e with extensions := [] }
  | .parameter x => .parameter { x with extensions := [] }
  | .requestBody b => .requestBody { b with extensions := [] }
  | .serverVariable v => .serverVariable { v with extensions := [] }
  | .server s => .server { s with extensions := [] }
  | .link l => .link { l with extensions := [] }
  | .response r => .response { r with extensions := [] }
  | .operation o => .operation { o with extensions := [] }
  | .pathItem i => .pathItem { i with extensions := [] }
  | .callback c => .callback { c with extensions := [] }

end Subject

/-- The license in the document of a version. -/
def License.written (t : Target) (l : License) : Node :=
  match t with
  | .v30 => l.project30.value
  | .v31 => l.written31

@[simp] theorem License.written_v30 (l : License) : l.written .v30 = l.project30.value := rfl

@[simp] theorem License.written_v31 (l : License) : l.written .v31 = l.written31 := rfl

@[simp] theorem Info.written_v30 (i : Info) : i.written .v30 = i.project30.value := rfl

@[simp] theorem Info.written_v31 (i : Info) : i.written .v31 = i.written31 := rfl

/-- The flows of a scheme that are there. -/
def OAuthFlows.entries (t : Target) (f : OAuthFlows) : Field :=
  [Field.node? "implicit" (f.implicit.map fun x => x.project t),
    .node? "password" (f.password.map fun x => x.project t),
    .node? "clientCredentials" (f.clientCredentials.map fun x => x.project t),
    .node? "authorizationCode" (f.authorizationCode.map fun x => x.project t)].flatten

namespace Bearer

/-- What a node refers to, if it does. -/
def ref? : Bearer → Option String
  | .visited u => u.ref?
  | .sample e => nonEmpty e.ref
  | .scheme s => nonEmpty s.ref
  | _ => none

def extensions : Bearer → Extensions
  | .visited u => u.extensions
  | .sample e => e.extensions
  | .docs d => d.extensions
  | .contact c => c.extensions
  | .license l => l.extensions
  | .info i => i.extensions
  | .tag g => g.extensions
  | .flow f => f.extensions
  | .flows f => f.extensions
  | .scheme s => s.extensions
  | .components c => c.extensions
  | .api a => a.extensions

/-- The node without its own extensions. -/
def stripped : Bearer → Bearer
  | .visited u => .visited u.stripped
  | .sample e => .sample { e with extensions := [] }
  | .docs d => .docs { d with extensions := [] }
  | .contact c => .contact { c with extensions := [] }
  | .license l => .license { l with extensions := [] }
  | .info i => .info { i with extensions := [] }
  | .tag g => .tag { g with extensions := [] }
  | .flow f => .flow { f with extensions := [] }
  | .flows f => .flows { f with extensions := [] }
  | .scheme s => .scheme { s with extensions := [] }
  | .components c => .components { c with extensions := [] }
  | .api a => .api { a with extensions := [] }

/-- What is written for a node at a place. -/
def node (t : Target) (p : Pointer) : Bearer → Node
  | .visited u => (u.project t p).value
  | .sample e => e.project t
  | .docs d => d.project t
  | .contact c => c.project t
  | .license l => l.written t
  | .info i => i.written t
  | .tag g => g.project t
  | .flow f => f.project t
  | .flows f => .object (f.entries t) (Extension.allowed t f.extensions)
  | .scheme s => s.project t
  | .components c => c.written t
  | .api a => a.written t

/-- The expressions that are the entries of a node, which a callback alone has. -/
def expressions : Bearer → List String
  | .visited (.callback c) => c.pathItems.map Prod.fst
  | _ => []

/-- Whether none of the entries of a node has the key of one of the extensions that are put beside them. -/
def Clear (t : Target) (b : Bearer) : Prop :=
  ∀ k ∈ b.expressions, ∀ x ∈ Extension.allowed t b.extensions, x.1 ≠ k

end Bearer

/-! ## Entries and extensions -/

theorem Node.Field.plain_flatten (names : List String) {fs : List Field}
    (hn : ∀ k ∈ names, ¬"x-".toList <+: k.toList) (h : List.Forall₂ Under names fs) :
    ∀ e ∈ fs.flatten, "x-".isPrefixOf e.1 = false :=
  fun e he => Node.isPrefixOf_eq_false.2 (hn e.1 (keys_flatten h e he))

namespace Bearer

/-- Whether a node at a place is an object of the given entries and of its allowed extensions, and without the
extensions an object of the entries alone. An entry that looks like an extension is the path of an expression. -/
structure Consists (t : Target) (p : Pointer) (b : Bearer) (es : List (String × Node)) : Prop where
  whole : b.node t p = .object es (Extension.allowed t b.extensions)
  bare : b.stripped.node t p = .object es []
  plain : ∀ e ∈ es, "x-".isPrefixOf e.1 = true → e.1 ∈ b.expressions
  expressed : ∀ k ∈ b.expressions, k ∈ es.map Prod.fst

/-- An object of fields none of whose names looks like an extension. -/
theorem Consists.ofFields {t : Target} {p : Pointer} {b : Bearer} {fs : List Field} (names : List String)
    (hn : ∀ k ∈ names, ¬"x-".toList <+: k.toList) (hx : b.expressions = [])
    (whole : b.node t p = .extended t fs b.extensions) (bare : b.stripped.node t p = .ofFields fs [])
    (hf : List.Forall₂ Field.Under names fs) : b.Consists t p fs.flatten where
  whole := whole
  bare := bare
  plain e he h := absurd h (by simp [Field.plain_flatten names hn hf e he])
  expressed := by simp [hx]

end Bearer

section
variable (t : Target) (p : Pointer)

/-- No field of a path item looks like an extension, and no method does. -/
theorem PathItem.plain_fields (i : PathItem) {ns : List Node} :
    ∀ e ∈ ([.text? "summary" i.summary, .text? "description" i.description,
        (Traced.named (Operation.project t) p (i.operations.map fun o => (o.1.name, o.2))).value,
        .nodes "parameters" ns] : List Field).flatten, "x-".isPrefixOf e.1 = false := by
  intro e he
  have hothers := Field.plain_flatten ["summary", "description", "parameters"] (by decide)
    (.cons (Field.under_text? _ i.summary) (.cons (Field.under_text? _ i.description)
      (.cons (Field.under_nodes "parameters" ns) .nil)))
  simp only [List.flatten_cons, List.flatten_nil, List.append_nil, List.mem_append] at hothers he
  rcases he with he | he | he | he
  · exact hothers e (.inl he)
  · exact hothers e (.inr (.inl he))
  · rw [Traced.value_named] at he
    obtain ⟨x, hx, rfl⟩ := List.mem_map.1 he
    obtain ⟨o, _, rfl⟩ := List.mem_map.1 hx
    exact o.1.name_fresh.1
  · exact hothers e (.inr (.inr he))

theorem Subject.consists {u : Subject} (hr : u.ref? = none) : ∃ es, (Bearer.visited u).Consists t p es := by
  cases u with
  | schema s =>
    have hr : nonEmpty s.ref = none := hr
    let bare : Schema := { s with facets := { s.facets with extensions := [] } }
    cases t with
    | v30 =>
      exact ⟨_, .ofFields Schema.fieldNames30 (by decide) rfl (Schema.value_project30 s hr p)
        (Schema.value_project30 bare hr p) (by simp)⟩
    | v31 =>
      exact ⟨_, .ofFields Schema.fieldNames (by decide) rfl (Schema.value_project31 s hr p)
        (Schema.value_project31 bare hr p) (by simp [Schema.fieldNames])⟩
  | header h =>
    let bare : Header := { h with extensions := [] }
    exact ⟨_, .ofFields Header.fieldNames (by decide) rfl (h.value_project hr) (bare.value_project hr) (by simp)⟩
  | mediaType m =>
    let bare : MediaType := { m with extensions := [] }
    exact ⟨_, .ofFields MediaType.fieldNames (by decide) rfl m.value_project bare.value_project (by simp)⟩
  | encoding e =>
    let bare : Encoding := { e with extensions := [] }
    exact ⟨_, .ofFields Encoding.fieldNames (by decide) rfl e.value_project bare.value_project (by simp)⟩
  | parameter x =>
    let bare : Parameter := { x with extensions := [] }
    exact ⟨_, .ofFields Parameter.fieldNames (by decide) rfl (x.value_project hr) (bare.value_project hr)
      (by simp)⟩
  | requestBody b =>
    let bare : RequestBody := { b with extensions := [] }
    exact ⟨_, .ofFields RequestBody.fieldNames (by decide) rfl (b.value_project hr) (bare.value_project hr)
      (by simp)⟩
  | serverVariable v =>
    let bare : ServerVariable := { v with extensions := [] }
    exact ⟨_, .ofFields ServerVariable.fieldNames (by decide) rfl v.value_project bare.value_project (by simp)⟩
  | server s =>
    let bare : Server := { s with extensions := [] }
    exact ⟨_, .ofFields Server.fieldNames (by decide) rfl s.value_project bare.value_project (by simp)⟩
  | link l =>
    let bare : Link := { l with extensions := [] }
    exact ⟨_, .ofFields Link.fieldNames (by decide) rfl (l.value_project hr) (bare.value_project hr) (by simp)⟩
  | response r =>
    let bare : Response := { r with extensions := [] }
    exact ⟨_, .ofFields Response.fieldNames (by decide) rfl (r.value_project hr) (bare.value_project hr)
      (by simp)⟩
  | operation o =>
    let bare : Operation := { o with extensions := [] }
    exact ⟨_, .ofFields Operation.fieldNames (by decide) rfl o.value_project bare.value_project (by simp)⟩
  | pathItem i =>
    let bare : PathItem := { i with extensions := [] }
    refine ⟨_, i.value_project hr, bare.value_project hr, fun e he h => ?_, by simp [Bearer.expressions]⟩
    rw [i.plain_fields t p e he] at h
    cases h
  | callback c =>
    let bare : Callback := { c with extensions := [] }
    have hkeys : ([(Traced.named (PathItem.project t) p c.pathItems).value] : List Field).flatten.map Prod.fst =
        c.pathItems.map Prod.fst := by
      simp [Traced.value_named, Function.comp_def]
    refine ⟨_, c.value_project hr, bare.value_project hr, fun e he _ => ?_, fun k hk => hkeys ▸ hk⟩
    rw [Bearer.expressions, ← hkeys]
    exact List.mem_map_of_mem he

/-- **A node that is no reference is its entries and its extensions**, whatever kind of node it is. -/
theorem Bearer.consists {b : Bearer} (hr : b.ref? = none) : ∃ es, b.Consists t p es := by
  cases b with
  | visited u => exact u.consists t p hr
  | sample e =>
    let bare : Example := { e with extensions := [] }
    exact ⟨_, .ofFields Example.fieldNames (by decide) rfl (e.project_eq t hr) (bare.project_eq t hr) (by simp)⟩
  | docs d => exact ⟨_, .ofFields ExternalDocs.fieldNames (by decide) rfl rfl rfl (by simp)⟩
  | contact c => exact ⟨_, .ofFields Contact.fieldNames (by decide) rfl rfl rfl (by simp)⟩
  | license l =>
    cases t with
    | v30 => exact ⟨_, .ofFields (License.fieldNames .v30) (by decide) rfl rfl rfl (by simp)⟩
    | v31 => exact ⟨_, .ofFields (License.fieldNames .v31) (by decide) rfl rfl rfl (by simp)⟩
  | info i =>
    cases t with
    | v30 => exact ⟨_, .ofFields (Info.fieldNames .v30) (by decide) rfl rfl rfl (by simp)⟩
    | v31 => exact ⟨_, .ofFields (Info.fieldNames .v31) (by decide) rfl rfl rfl (by simp)⟩
  | tag g => exact ⟨_, .ofFields Tag.fieldNames (by decide) rfl rfl rfl (by simp)⟩
  | flow f => exact ⟨_, .ofFields OAuthFlow.fieldNames (by decide) rfl rfl rfl (by simp)⟩
  | flows f => exact ⟨_, .ofFields OAuthFlows.fieldNames (by decide) rfl rfl rfl (by simp)⟩
  | scheme s =>
    let bare : SecurityScheme := { s with extensions := [] }
    exact ⟨_, .ofFields SecurityScheme.fieldNames (by decide) rfl (s.project_eq t hr) (bare.project_eq t hr)
      (by simp)⟩
  | components c =>
    let bare : Components := { c with extensions := [] }
    exact ⟨_, .ofFields Components.sectionNames (by decide) rfl (c.written_sections t) (bare.written_sections t)
      (c.under_sections t)⟩
  | api a =>
    cases t with
    | v30 => exact ⟨_, .ofFields (Api.fieldNames .v30) (by decide) rfl rfl rfl (by simp)⟩
    | v31 => exact ⟨_, .ofFields (Api.fieldNames .v31) (by decide) rfl rfl rfl (by simp)⟩

end
end ApiProjection
