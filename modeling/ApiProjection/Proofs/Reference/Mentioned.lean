import ApiProjection.Proofs.Reference.Mention
import ApiProjection.Proofs.Reference.Site
/-!
# What is mentioned

`Api.mentions` lists what a description mentions in what a version writes of it: the targets of its
references and the names of its security requirements.

* `Api.mentions_written`: a document mentions just that.

Each kind of node has its own theorem, `Schema.mirrors`, `Response.mirrors` and so on: what its projection
mentions has a property if and only if that holds of all that is visited in it (`Visit.Mirrors`).
-/
namespace ApiProjection

open Node (Cites FieldCites fieldCites_flatten fieldCites_node? fieldCites_nodes fieldCites_named cites_reference
  cites_extended cites_fields cites_object)
open Visit (gather below each newer)

/-! ## Mentions of a description -/

/-- What the references among named parts mention. -/
def Mention.targets {α : Type} (ref : α → Option String) (xs : List (String × α)) : List Mention :=
  xs.filterMap fun x => (nonEmpty (ref x.2)).map .target

/-- The security schemes that requirements mention. -/
def Mention.schemes (rs : List SecurityRequirement) : List Mention :=
  rs.flatMap fun r => r.map fun e => .scheme e.1

/-- The security requirements that are written with a node. -/
def Subject.security : Subject → List SecurityRequirement
  | .operation o => o.security
  | _ => []

/-- What a visited node, its examples and its requirements mention. -/
def Subject.mentions (u : Subject) : List Mention :=
  u.ref?.toList.map .target ++ Mention.targets Example.ref u.examples ++ Mention.schemes u.security

/-- What the examples and security schemes among the reusable parts mention. -/
def Components.mentions (t : Target) (c : Components) : List Mention :=
  Mention.targets Example.ref c.examples ++ Mention.targets SecurityScheme.ref (c.schemes t)

/-- What a description mentions in the parts that are written in a version. -/
def Api.mentions (t : Target) (a : Api) : List Mention :=
  (a.visits t).flatMap (fun v => v.subject.mentions) ++ a.components.toList.flatMap (Components.mentions t) ++
    Mention.schemes a.security

/-- Whether all that a visited node mentions has a property. -/
def Subject.Cites (P : Mention → Prop) (u : Subject) : Prop := ∀ m ∈ u.mentions, P m

section
variable {P : Mention → Prop} (t : Target)

/-! ## Nodes that mention nothing -/

@[simp] theorem ExternalDocs.cites (d : ExternalDocs) : Cites P .record (d.project t) :=
  cites_extended.2 (by simp)

@[simp] theorem Contact.cites (c : Contact) : Cites P .record (c.project t) := cites_extended.2 (by simp)

@[simp] theorem Tag.cites (g : Tag) : Cites P .record (g.project t) :=
  cites_extended.2 (by simp [fieldCites_node?, Role.inside, Role.maps])

theorem License.cites30 (l : License) : Cites P .record l.project30.value := cites_extended.2 (by simp)

theorem License.cites31 (l : License) : Cites P .record l.written31 := cites_extended.2 (by simp)

theorem Info.cites30 (i : Info) : Cites P .record i.project30.value := by
  refine cites_extended.2 ?_
  simp [fieldCites_node?, Role.inside, Role.maps, Traced.value_option, License.cites30]

theorem Info.cites31 (i : Info) : Cites P .record i.written31 := by
  refine cites_extended.2 ?_
  simp [fieldCites_node?, Role.inside, Role.maps, License.cites31]

theorem OAuthFlow.cites (f : OAuthFlow) : Cites P .record (f.project t) := by
  refine cites_extended.2 ?_
  simp [Role.inside]

theorem OAuthFlows.cites (f : OAuthFlows) : ∀ n ∈ f.project? t, Cites P .record n := by
  intro n hn
  simp only [OAuthFlows.project?] at hn
  split at hn
  · cases hn
  · cases hn
    refine cites_extended.2 ?_
    rw [List.forall_mem_singleton, fieldCites_flatten]
    simp [fieldCites_node?, Role.inside, Role.maps, OAuthFlow.cites]

theorem Discriminator.cites (d : Discriminator) : Cites P .record d.toNode := by
  refine cites_fields.2 ?_
  simp [fieldCites_named, Role.inside]

theorem XmlHints.cites (x : XmlHints) : Cites P .record x.toNode := cites_fields.2 (by simp)

theorem Types31.fieldCites (ts : Types31) : FieldCites P ts.field := by
  cases ts <;> simp [Types31.field]

theorem ServerVariable.cites (v : ServerVariable) (p : Pointer) : Cites P .record (v.project t p).value := by
  rw [ServerVariable.project]
  split
  all_goals
    refine cites_extended.2 ?_
    simp

/-! ## Requirements, examples and security schemes -/

theorem SecurityRequirement.cites_iff {rs : List SecurityRequirement} :
    (∀ n ∈ rs.map SecurityRequirement.project, Cites P .requirement n) ↔ ∀ m ∈ Mention.schemes rs, P m := by
  simp only [Mention.schemes, SecurityRequirement.project, List.forall_mem_map, List.forall_mem_flatMap,
    Node.cites_requirement]

theorem Example.cites_iff (e : Example) :
    Cites P .record (e.project t) ↔ ∀ target ∈ nonEmpty e.ref, P (.target target) := by
  cases hr : nonEmpty e.ref with
  | some target =>
    rw [Example.project_ref hr, cites_reference rfl]
    simp
  | none =>
    rw [Example.project, hr, cites_extended]
    simp

theorem SecurityScheme.cites_iff (s : SecurityScheme) :
    Cites P .record (s.project t) ↔ ∀ target ∈ nonEmpty s.ref, P (.target target) := by
  cases hr : nonEmpty s.ref with
  | some target =>
    rw [SecurityScheme.project_ref hr, cites_reference rfl]
    simp
  | none =>
    have hflows : ∀ n ∈ s.flows.bind fun f => f.project? t, Cites P .record n := by
      intro n hn
      obtain ⟨f, _, hn⟩ := Option.bind_eq_some_iff.1 hn
      exact f.cites t n hn
    rw [SecurityScheme.project, hr, cites_extended]
    simpa [fieldCites_node?, Role.inside, Role.maps] using hflows

/-- Parts that are references or mention nothing mention what is listed for them. -/
theorem Mention.cites_targets {α : Type} {ref : α → Option String} {f : α → Node}
    (hf : ∀ x, Cites P .record (f x) ↔ ∀ target ∈ nonEmpty (ref x), P (.target target)) (xs : List (String × α)) :
    (∀ e ∈ xs.map (fun x => (x.1, f x.2)), Cites P .record e.2) ↔ ∀ m ∈ targets ref xs, P m := by
  simp only [targets, List.forall_mem_map, List.forall_mem_filterMap, hf]
  simp

theorem Example.fieldCites_all {es : List (String × Example)} :
    FieldCites P (Example.projectAll t es) ↔ ∀ m ∈ Mention.targets Example.ref es, P m := by
  have hrole : Role.inside .record "examples" = .map .record := by decide
  rw [Example.projectAll, fieldCites_named (by simp), hrole, Node.cites_map]
  exact Mention.cites_targets (Example.cites_iff t) es

/-! ## Visited nodes -/

namespace Subject

theorem cites_iff {u : Subject} : u.Cites P ↔ (∀ target ∈ u.ref?, P (.target target)) ∧
    (∀ m ∈ Mention.targets Example.ref u.examples, P m) ∧ ∀ m ∈ Mention.schemes u.security, P m := by
  simp only [Cites, mentions, List.forall_mem_append, List.forall_mem_map, Option.mem_toList, Option.mem_def,
    and_assoc]

/-- A node that is no reference and has neither examples nor requirements mentions nothing. -/
theorem cites_quiet {u : Subject} (hr : u.ref? = none) (he : u.examples = []) (hs : u.security = []) :
    u.Cites P := by
  simp [cites_iff, hr, he, hs, Mention.targets, Mention.schemes]

/-- A node that is no reference and has no requirements mentions what its examples do. -/
theorem cites_examples {u : Subject} (hr : u.ref? = none) (hs : u.security = []) :
    u.Cites P ↔ ∀ m ∈ Mention.targets Example.ref u.examples, P m := by
  simp [cites_iff, hr, hs, Mention.schemes]

/-- A node that is no reference and has no examples mentions what its requirements do. -/
theorem cites_requirements {u : Subject} (hr : u.ref? = none) (he : u.examples = []) :
    u.Cites P ↔ ∀ m ∈ Mention.schemes u.security, P m := by
  simp [cites_iff, hr, he, Mention.targets]

/-- A reference mentions its target only. -/
theorem mentions_ref {u : Subject} {target : String} (h : u.ref? = some target) : u.mentions = [.target target] := by
  cases u
  case mediaType | encoding | serverVariable | server | operation => cases h
  all_goals
    have hset := h
    rw [ref?] at hset
    simp [mentions, h, examples, security, isSet, hset, Mention.targets, Mention.schemes]

end Subject

namespace Visit

/-- A projection that mentions what its visits do: either has a property if the other has it. -/
def Mirrors (P : Mention → Prop) (r : Role) (f : Pointer → Traced Node) (vs : List Visit) : Prop :=
  ∀ p, Node.Cites P r (f p).value ↔ ∀ v ∈ vs, v.subject.Cites P

/-- A node mentions its target if it is a reference, and otherwise what it and its parts do. -/
theorem mirrors_node {u : Subject} {ref : Option String} {parts : List (String × List Visit)} {r : Role}
    (hr : r.mayRefer = true) (href : nonEmpty ref = u.ref?)
    (h : nonEmpty ref = none → ∀ p, Node.Cites P r (u.project t p).value ↔
      u.Cites P ∧ ∀ b ∈ parts, ∀ v ∈ b.2, v.subject.Cites P) :
    Mirrors P r (u.project t) (⟨[], u⟩ :: below ref parts) := by
  intro p
  rw [List.forall_mem_cons]
  cases hcase : nonEmpty ref with
  | some target =>
    have hu : u.ref? = some target := href.symm.trans hcase
    rw [Subject.project_ref hu, Traced.value_pure, cites_reference hr]
    simp [below, hcase, Subject.Cites, Subject.mentions_ref hu]
  | none => rw [h hcase p, forall_below_none hcase]

theorem mirrors_whole {u : Subject} {parts : List (String × List Visit)}
    (h : ∀ p, Node.Cites P .record (u.project t p).value ↔
      u.Cites P ∧ ∀ b ∈ parts, ∀ v ∈ b.2, v.subject.Cites P) :
    Mirrors P .record (u.project t) (⟨[], u⟩ :: gather parts) := by
  intro p
  rw [List.forall_mem_cons, forall_gather, h p]

/-! ### Lists, named parts, optional parts -/

section
variable {α : Type} {r : Role} {f : α → Pointer → Traced Node} {g : α → List Visit} {p : Pointer}

theorem mirrors_each {xs : List (String × α)} (hx : ∀ x ∈ xs, Mirrors P r (f x.2) (g x.2)) :
    Node.Cites P (.map r) (.object (Traced.named f p xs).value []) ↔
      ∀ x ∈ xs, ∀ v ∈ g x.2, v.subject.Cites P := by
  rw [Node.cites_map, Traced.value_named, List.forall_mem_map]
  exact forall₂_congr fun x hmem => hx x hmem _

variable (name : String)

theorem mirrors_option (h : name ≠ "$ref" ∧ Role.inside .record name = r) {o : Option α}
    (ho : ∀ x ∈ o, Mirrors P r (f x) (g x)) :
    FieldCites P (.node? name (Traced.option f p o).value) ↔ ∀ x ∈ o, ∀ v ∈ g x, v.subject.Cites P := by
  rw [fieldCites_node? h.1, h.2, Traced.value_option]
  cases o with
  | none => simp
  | some x => simpa using ho x rfl p

theorem mirrors_items (h : name ≠ "$ref" ∧ (Role.inside .record name).item = r) {xs : List α}
    (hx : ∀ x ∈ xs, Mirrors P r (f x) (g x)) :
    FieldCites P (.nodes name (Traced.items f p 0 xs).value) ↔ ∀ x ∈ xs, ∀ v ∈ g x, v.subject.Cites P := by
  rw [fieldCites_nodes h.1, h.2, Traced.value_items, List.forall_mem_map,
    ← forall_items (P := Subject.Cites P) (i := 0), items, List.forall_mem_map]
  exact forall₂_congr fun e he => hx e.1 (List.fst_mem_of_mem_zipIdx he) _

theorem mirrors_named (h : name ≠ "$ref" ∧ Role.inside .record name = .map r) {xs : List (String × α)}
    (hx : ∀ x ∈ xs, Mirrors P r (f x.2) (g x.2)) :
    FieldCites P (.named name (Traced.named f p xs).value) ↔ ∀ x ∈ xs, ∀ v ∈ g x.2, v.subject.Cites P := by
  rw [fieldCites_named h.1, h.2]
  exact mirrors_each hx

end
end Visit

open Visit (mirrors_node mirrors_whole mirrors_each mirrors_option mirrors_items mirrors_named)

/-! ## Servers -/

theorem ServerVariable.mirrors (v : ServerVariable) : Visit.Mirrors P .record (v.project t) v.visits := by
  have hv : (Subject.serverVariable v).Cites P := Subject.cites_quiet rfl rfl rfl
  intro p
  simp [ServerVariable.cites, visits, hv]

theorem Server.mirrors (s : Server) : Visit.Mirrors P .record (s.project t) s.visits := by
  refine mirrors_whole t (u := .server s) fun p => ?_
  have hs : (Subject.server s).Cites P := Subject.cites_quiet rfl rfl rfl
  simp only [List.forall_mem_singleton, Visit.forall_gather, Visit.forall_each]
  rw [Subject.project, s.value_project, cites_extended]
  simp [hs, mirrors_named "variables" (by decide) fun x (_ : x ∈ s.vars) => ServerVariable.mirrors t x.2]

/-! ## Schemas -/

namespace Schema

theorem mirrors30 {s : Schema} (hr : nonEmpty s.ref = none)
    (ih : s.Each fun c => Visit.Mirrors P .record (c.project .v30) (c.visits .v30)) (p : Pointer) :
    Cites P .record (s.project .v30 p).value ↔ ∀ b ∈ s.parts .v30, ∀ v ∈ b.2, v.subject.Cites P := by
  have hadditional : FieldCites P (Schema30.furtherField
      (additionalTo30 s.additional (p.key "additionalProperties")).value) ↔
      ∀ c ∈ s.additional.bind Additional.schema, ∀ v ∈ c.visits .v30, v.subject.Cites P := by
    match ha : s.additional with
    | none | some ⟨none, none⟩ | some ⟨some b, none⟩ => simp [additionalTo30, Schema30.furtherField]
    | some ⟨_, some c⟩ =>
      have hc : Cites P .record (c.to30 (p.key "additionalProperties")).value.toNode ↔ _ :=
        ih.additional _ ha c rfl (p.key "additionalProperties")
      simpa [additionalTo30, Schema30.furtherField, Role.inside, Role.maps] using hc
  rw [value_project30 s hr, Schema30.toNode, option_to30, option_to30, items_to30, items_to30, items_to30,
    named_to30, cites_fields]
  simp only [parts, Visit.newer_v30, List.forall_mem_cons, Visit.forall_gather, Visit.forall_each,
    Visit.forall_items, Visit.forall_option]
  simp [fieldCites_node?, Role.inside, Role.maps, Discriminator.cites, XmlHints.cites, hadditional,
    mirrors_option "items" (by decide) ih.items, mirrors_named "properties" (by decide) ih.properties,
    mirrors_items "allOf" (by decide) ih.allOf, mirrors_items "anyOf" (by decide) ih.anyOf,
    mirrors_items "oneOf" (by decide) ih.oneOf, mirrors_option "not" (by decide) ih.notOf]

theorem mirrors31 {s : Schema} (hr : nonEmpty s.ref = none)
    (ih : s.Each fun c => Visit.Mirrors P .record (c.project .v31) (c.visits .v31)) (p : Pointer) :
    Cites P .record (s.project .v31 p).value ↔ ∀ b ∈ s.parts .v31, ∀ v ∈ b.2, v.subject.Cites P := by
  have hadditional : FieldCites P (Schema31.furtherField (additionalTo31 s.additional)) ↔
      ∀ c ∈ s.additional.bind Additional.schema, ∀ v ∈ c.visits .v31, v.subject.Cites P := by
    match ha : s.additional with
    | none | some ⟨none, none⟩ | some ⟨some b, none⟩ => simp [additionalTo31, Schema31.furtherField]
    | some ⟨_, some c⟩ =>
      have hc : Cites P .record c.to31.toNode ↔ _ := ih.additional _ ha c rfl .root
      simpa [additionalTo31, Schema31.furtherField, Role.inside, Role.maps] using hc
  rw [value_project31 s hr, Schema31.toNode, option_to31 p, option_to31 p, option_to31 p, items_to31 p,
    items_to31 p, items_to31 p, named_to31 p, named_to31 p, cites_fields]
  simp only [parts, Visit.newer_v31, List.forall_mem_cons, Visit.forall_gather, Visit.forall_each,
    Visit.forall_items, Visit.forall_option]
  simp [fieldCites_node?, Role.inside, Role.maps, Discriminator.cites, XmlHints.cites, Types31.fieldCites,
    hadditional, mirrors_option "items" (by decide) ih.items,
    mirrors_named "properties" (by decide) ih.properties,
    mirrors_named "patternProperties" (by decide) ih.patternProperties,
    mirrors_option "unevaluatedProperties" (by decide) ih.unevaluated,
    mirrors_items "allOf" (by decide) ih.allOf, mirrors_items "anyOf" (by decide) ih.anyOf,
    mirrors_items "oneOf" (by decide) ih.oneOf, mirrors_option "not" (by decide) ih.notOf]

theorem mirrors (s : Schema) : Visit.Mirrors P .record (s.project t) (s.visits t) := by
  induction s using Schema.ind with
  | step s ih =>
    rw [visits_eq]
    refine mirrors_node t (u := .schema s) rfl rfl fun hr p => ?_
    have hs : (Subject.schema s).Cites P := Subject.cites_quiet hr rfl rfl
    rw [iff_true_intro hs, true_and]
    cases t with
    | v30 => exact mirrors30 hr ih p
    | v31 => exact mirrors31 hr ih p

end Schema

/-! ## Headers and bodies -/

theorem Header.mirrors_steps :
    Header.Steps (fun h => Visit.Mirrors P .record (h.project t) (h.visits t))
      (fun m => Visit.Mirrors P .record (m.project t) (m.visits t))
      fun e => Visit.Mirrors P .record (e.project t) (e.visits t) where
  header h hc := by
    rw [Header.visits_eq]
    refine mirrors_node t (u := .header h) rfl rfl fun hr p => ?_
    simp only [List.forall_mem_cons, Visit.forall_gather, Visit.forall_each, Visit.forall_option]
    rw [Subject.project, h.value_project hr, cites_extended, Subject.cites_examples (u := .header h) hr rfl,
      and_left_comm]
    simp [Subject.examples, isSet, hr, Example.fieldCites_all,
      mirrors_option "schema" (by decide) fun s (_ : s ∈ h.schema) => Schema.mirrors t s,
      mirrors_named "content" (by decide) hc]
  mediaType m he := by
    rw [MediaType.visits_eq]
    refine mirrors_whole t (u := .mediaType m) fun p => ?_
    simp only [List.forall_mem_cons, Visit.forall_gather, Visit.forall_each, Visit.forall_option]
    rw [Subject.project, m.value_project, cites_extended, Subject.cites_examples rfl rfl, ← and_rotate]
    simp [Subject.examples, Example.fieldCites_all,
      mirrors_option "schema" (by decide) fun s (_ : s ∈ m.schema) => Schema.mirrors t s,
      mirrors_named "encoding" (by decide) he]
  encoding e hh := by
    rw [Encoding.visits_eq]
    refine mirrors_whole t (u := .encoding e) fun p => ?_
    have hquiet : (Subject.encoding e).Cites P := Subject.cites_quiet rfl rfl rfl
    simp only [List.forall_mem_singleton, Visit.forall_gather, Visit.forall_each]
    rw [Subject.project, e.value_project, cites_extended]
    simp [hquiet, mirrors_named "headers" (by decide) hh]

theorem Header.mirrors (h : Header) : Visit.Mirrors P .record (h.project t) (h.visits t) :=
  (Header.ind (Header.mirrors_steps t)).1 h

theorem MediaType.mirrors (m : MediaType) : Visit.Mirrors P .record (m.project t) (m.visits t) :=
  (Header.ind (Header.mirrors_steps t)).2.1 m

theorem Parameter.mirrors (x : Parameter) : Visit.Mirrors P .record (x.project t) (x.visits t) := by
  refine mirrors_node t (u := .parameter x) rfl rfl fun hr p => ?_
  simp only [List.forall_mem_cons, Visit.forall_gather, Visit.forall_each, Visit.forall_option]
  rw [Subject.project, x.value_project hr, cites_extended, Subject.cites_examples (u := .parameter x) hr rfl,
    and_left_comm]
  simp [Subject.examples, isSet, hr, Example.fieldCites_all,
    mirrors_option "schema" (by decide) fun s (_ : s ∈ x.schema) => Schema.mirrors t s,
    mirrors_named "content" (by decide) fun m (_ : m ∈ x.content) => MediaType.mirrors t m.2]

theorem RequestBody.mirrors (b : RequestBody) : Visit.Mirrors P .record (b.project t) (b.visits t) := by
  refine mirrors_node t (u := .requestBody b) rfl rfl fun hr p => ?_
  have hquiet : (Subject.requestBody b).Cites P := Subject.cites_quiet hr rfl rfl
  simp only [List.forall_mem_singleton, Visit.forall_gather, Visit.forall_each]
  rw [Subject.project, b.value_project hr, cites_extended,
    ← mirrors_each (p := p.key "content") fun m (_ : m ∈ b.content) => MediaType.mirrors t m.2]
  simp [hquiet, Role.inside, Role.maps]

/-! ## Responses -/

theorem Link.mirrors (l : Link) : Visit.Mirrors P .record (l.project t) l.visits := by
  refine mirrors_node t (u := .link l) rfl rfl fun hr p => ?_
  have hquiet : (Subject.link l).Cites P := Subject.cites_quiet hr rfl rfl
  have hparameters : FieldCites P (.named "parameters" (l.parameters.map fun v => (v.1, .free v.2))) := by
    have hrole : Role.inside .record "parameters" = .map .record := by decide
    rw [fieldCites_named (by decide), hrole, Node.cites_map, List.forall_mem_map]
    exact fun x _ => Node.cites_free x.2
  simp only [List.forall_mem_singleton, Visit.forall_option]
  rw [Subject.project, l.value_project hr, cites_extended]
  simp [hquiet, hparameters, mirrors_option "server" (by decide) fun s (_ : s ∈ l.server) => Server.mirrors t s]

theorem Response.mirrors (r : Response) : Visit.Mirrors P .record (r.project t) (r.visits t) := by
  refine mirrors_node t (u := .response r) rfl rfl fun hr p => ?_
  have hquiet : (Subject.response r).Cites P := Subject.cites_quiet hr rfl rfl
  simp only [List.forall_mem_cons, Visit.forall_gather, Visit.forall_each]
  rw [Subject.project, r.value_project hr, cites_extended, iff_true_intro hquiet, true_and, and_rotate]
  simp [mirrors_named "links" (by decide) fun l (_ : l ∈ r.links) => Link.mirrors t l.2,
    mirrors_named "headers" (by decide) fun h (_ : h ∈ r.headers) => Header.mirrors t h.2,
    mirrors_named "content" (by decide) fun m (_ : m ∈ r.content) => MediaType.mirrors t m.2]

/-! ## Operations -/

theorem Method.inside_name (m : Method) : m.name ≠ "$ref" ∧ Role.inside .record m.name = .record := by
  cases m <;> decide

theorem Operation.mirrors_steps :
    Operation.Steps (fun o => Visit.Mirrors P .record (o.project t) (o.visits t))
      (fun i => Visit.Mirrors P .record (i.project t) (i.visits t))
      fun c => Visit.Mirrors P .callback (c.project t) (c.visits t) where
  operation o hc := by
    rw [Operation.visits_eq]
    refine mirrors_whole t (u := .operation o) fun p => ?_
    have hresponses : FieldCites P
        [("responses", .object (Traced.named (Response.project t) (p.key "responses") o.responses).value [])] ↔
        ∀ r ∈ o.responses, ∀ v ∈ r.2.visits t, v.subject.Cites P := by
      have hrole : Role.inside .record "responses" = .map .record := by decide
      rw [Node.fieldCites_single (by decide), hrole]
      exact mirrors_each fun r (_ : r ∈ o.responses) => Response.mirrors t r.2
    have hsecurity : FieldCites P (.nodes "security" (o.security.map SecurityRequirement.project)) ↔
        ∀ m ∈ Mention.schemes o.security, P m := (fieldCites_nodes (by decide) _).trans SecurityRequirement.cites_iff
    simp only [List.forall_mem_cons, Visit.forall_gather, Visit.forall_each, Visit.forall_items,
      Visit.forall_option]
    -- the requirements are written behind the callbacks
    have hbehind {s a b c d e : Prop} : s ∧ a ∧ b ∧ c ∧ d ∧ e ↔ a ∧ b ∧ c ∧ d ∧ s ∧ e := by tauto
    rw [Subject.project, o.value_project, cites_extended, Subject.cites_requirements rfl rfl, hbehind]
    simp [Subject.security, fieldCites_node?, Role.inside, Role.maps, hresponses, hsecurity,
      mirrors_items "parameters" (by decide) fun x (_ : x ∈ o.parameters) => Parameter.mirrors t x,
      mirrors_option "requestBody" (by decide) fun b (_ : b ∈ o.requestBody) => RequestBody.mirrors t b,
      mirrors_named "callbacks" (by decide) hc,
      mirrors_items "servers" (by decide) fun s (_ : s ∈ o.servers) => Server.mirrors t s]
  pathItem i ho := by
    rw [PathItem.visits_eq]
    refine mirrors_node t (u := .pathItem i) rfl rfl fun hr p => ?_
    have hquiet : (Subject.pathItem i).Cites P := Subject.cites_quiet hr rfl rfl
    have hmethods : FieldCites P (Traced.named (Operation.project t) p
        (i.operations.map fun o => (o.1.name, o.2))).value ↔
        ∀ o ∈ i.operations, ∀ v ∈ o.2.visits t, v.subject.Cites P := by
      rw [FieldCites, Traced.value_named, List.map_map, List.forall_mem_map]
      refine forall₂_congr fun o hmem => ?_
      obtain ⟨hname, hrole⟩ := o.1.inside_name
      simpa [Node.EntryCites, hname, hrole] using ho o hmem (p.key o.1.name)
    simp only [List.forall_mem_cons, Visit.forall_gather, Visit.forall_each, Visit.forall_items,
      List.forall_mem_map]
    rw [Subject.project, i.value_project hr, cites_extended, iff_true_intro hquiet, true_and, and_comm]
    simp [hmethods,
      mirrors_items "parameters" (by decide) fun x (_ : x ∈ i.parameters) => Parameter.mirrors t x]
  callback c hi := by
    rw [Callback.visits_eq]
    refine mirrors_node t (u := .callback c) rfl rfl fun hr p => ?_
    have hquiet : (Subject.callback c).Cites P := Subject.cites_quiet hr rfl rfl
    rw [iff_true_intro hquiet, true_and, Visit.forall_each, Subject.project, c.value_project hr, Node.extended,
      Node.ofFields, List.flatten_singleton, cites_object rfl, Traced.value_named, List.forall_mem_map]
    refine forall₂_congr fun i hmem => ?_
    -- an expression may be the key of a reference, but what stands there is no text
    have hnone (target : String) : (i.1, (i.2.project t (p.key i.1)).value) ≠ ("$ref", .text target) := by
      obtain ⟨es, xs, hobject⟩ := Subject.pathItem_object t i.2 (p.key i.1)
      simp [hobject]
    simpa [Node.EntryCites, hnone, Role.inside] using hi i hmem (p.key i.1)

theorem PathItem.mirrors (i : PathItem) : Visit.Mirrors P .record (i.project t) (i.visits t) :=
  (Operation.ind (Operation.mirrors_steps t)).2.1 i

theorem Callback.mirrors (c : Callback) : Visit.Mirrors P .callback (c.project t) (c.visits t) :=
  (Operation.ind (Operation.mirrors_steps t)).2.2 c

/-! ## The whole -/

theorem Components.cites_iff (c : Components) : Cites P .record (c.written t) ↔
    (∀ v ∈ c.visits t, v.subject.Cites P) ∧ ∀ m ∈ c.mentions t, P m := by
  have hschemes : FieldCites P (.named "securitySchemes" ((c.schemes t).map fun s => (s.1, s.2.project t))) ↔
      ∀ m ∈ Mention.targets SecurityScheme.ref (c.schemes t), P m := by
    have hrole : Role.inside .record "securitySchemes" = .map .record := by decide
    rw [fieldCites_named (by decide), hrole, Node.cites_map]
    exact Mention.cites_targets (SecurityScheme.cites_iff t) _
  have hpathItems : FieldCites P (.named "pathItems" (if t.isFeatureRich then
      (Traced.named (PathItem.project t) (place.key "pathItems") c.pathItems).value else [])) ↔
      ∀ v ∈ newer t (gather (each (PathItem.visits t) c.pathItems)), v.subject.Cites P := by
    cases t with
    | v30 => simp [Target.isFeatureRich, fieldCites_named, Node.cites_empty]
    | v31 =>
      rw [Visit.newer_v31, Visit.forall_gather, Visit.forall_each]
      exact mirrors_named "pathItems" (by decide) fun i (_ : i ∈ c.pathItems) => PathItem.mirrors .v31 i.2
  rw [written_eq, node, cites_extended, visits, Visit.forall_gather, mentions, List.forall_mem_append]
  simp only [List.forall_mem_cons, Visit.forall_gather, Visit.forall_each, shared, Header.projectNamed_eq,
    Callback.projectNamed_eq, Traced.value_bind, Traced.value_pure]
  simp only [hschemes, hpathItems, Example.fieldCites_all,
    mirrors_named "schemas" (by decide) fun s (_ : s ∈ c.schemas) => Schema.mirrors t s.2,
    mirrors_named "responses" (by decide) fun r (_ : r ∈ c.responses) => Response.mirrors t r.2,
    mirrors_named "parameters" (by decide) fun x (_ : x ∈ c.parameters) => Parameter.mirrors t x.2,
    mirrors_named "requestBodies" (by decide) fun b (_ : b ∈ c.requestBodies) => RequestBody.mirrors t b.2,
    mirrors_named "headers" (by decide) fun h (_ : h ∈ c.headers) => Header.mirrors t h.2,
    mirrors_named "links" (by decide) fun l (_ : l ∈ c.links) => Link.mirrors t l.2,
    mirrors_named "callbacks" (by decide) fun x (_ : x ∈ c.callbacks) => Callback.mirrors t x.2]
  tauto

namespace Api

theorem fieldCites_servers31 (a : Api) :
    FieldCites P (.nodes "servers" a.servers31) ↔ ∀ s ∈ a.servers, ∀ v ∈ s.visits, v.subject.Cites P := by
  have hdefault : Cites P .record (.ofFields [.text "url" "/"] []) := cites_fields.2 (by simp)
  have hdefault : Cites P .record defaultServer := hdefault
  have hservers := mirrors_items (p := Pointer.root.key "servers") "servers" (by decide)
    fun s (_ : s ∈ a.servers) => Server.mirrors (P := P) .v31 s
  rw [← hservers, servers31]
  split
  · rename_i hempty
    have hnone : (Traced.items (Server.project .v31) (Pointer.root.key "servers") 0 a.servers).value = [] :=
      List.isEmpty_iff.1 hempty
    simp [hnone, hdefault, fieldCites_nodes, Role.inside, Role.maps, Role.item]
  · rfl

/-- What is mentioned, part by part. -/
theorem forall_mentions (a : Api) : (∀ m ∈ a.mentions t, P m) ↔
    (∀ s ∈ a.servers, ∀ v ∈ s.visits, v.subject.Cites P) ∧
    (∀ i ∈ a.paths, ∀ v ∈ i.2.visits t, v.subject.Cites P) ∧
    (∀ v ∈ newer t (gather (each (PathItem.visits t) a.webhooks)), v.subject.Cites P) ∧
    (∀ c ∈ a.components, (∀ v ∈ c.visits t, v.subject.Cites P) ∧ ∀ m ∈ c.mentions t, P m) ∧
    ∀ m ∈ Mention.schemes a.security, P m := by
  have hvisits : (∀ v ∈ a.visits t, ∀ m ∈ v.subject.mentions, P m) ↔ ∀ v ∈ a.visits t, v.subject.Cites P := Iff.rfl
  rw [mentions, List.forall_mem_append, List.forall_mem_append, List.forall_mem_flatMap, List.forall_mem_flatMap,
    hvisits, visits, Visit.forall_gather]
  simp only [List.forall_mem_cons, Visit.forall_gather, Visit.forall_each, Visit.forall_items, Visit.forall_option,
    Option.mem_toList, ← Option.mem_def, forall₂_and]
  tauto

/-- A document of a version mentions only what has a property exactly if the description does so in what is
written in that version. -/
theorem cites_iff (a : Api) : Cites P .record (a.written t) ↔ ∀ m ∈ a.mentions t, P m := by
  have hcomponents : FieldCites P (.node? "components" (a.components.map (Components.written t))) ↔
      ∀ c ∈ a.components, (∀ v ∈ c.visits t, v.subject.Cites P) ∧ ∀ m ∈ c.mentions t, P m := by
    have hrole : Role.inside .record "components" = .record := by decide
    rw [fieldCites_node? (by decide), hrole]
    cases a.components with
    | none => simp
    | some c => simpa using Components.cites_iff t c
  have hsecurity : FieldCites P (.nodes "security" (a.security.map SecurityRequirement.project)) ↔
      ∀ m ∈ Mention.schemes a.security, P m := (fieldCites_nodes (by decide) _).trans SecurityRequirement.cites_iff
  have htags : FieldCites P (.nodes "tags" (a.tags.map fun g => g.project t)) := by
    simp [fieldCites_nodes, Role.inside, Role.maps, Role.item]
  have hdocs : FieldCites P (.node? "externalDocs" (a.externalDocs.map fun d => d.project t)) := by
    simp [fieldCites_node?, Role.inside, Role.maps]
  rw [forall_mentions]
  cases t with
  | v30 =>
    have hservers : FieldCites P
        (.nodes "servers" (Server.projectAll .v30 a.servers (Pointer.root.key "servers")).value) ↔ _ :=
      mirrors_items "servers" (by decide) fun s (_ : s ∈ a.servers) => Server.mirrors .v30 s
    have hpaths : FieldCites P
        [("paths", .object (PathItem.projectNamed .v30 a.paths (Pointer.root.key "paths")).value [])] ↔
        ∀ i ∈ a.paths, ∀ v ∈ i.2.visits .v30, v.subject.Cites P := by
      have hrole : Role.inside .record "paths" = .map .record := by decide
      rw [Node.fieldCites_single (by decide), hrole, PathItem.projectNamed_eq]
      exact mirrors_each fun i (_ : i ∈ a.paths) => PathItem.mirrors .v30 i.2
    have hinfo : FieldCites P [("info", a.info.project30.value)] := by
      simp [Role.inside, Role.maps, Info.cites30]
    rw [written, written30, cites_extended]
    simp only [List.forall_mem_cons, Visit.newer_v30]
    have hcomponents : FieldCites P (.node? "components" (a.components.map Components.written30)) ↔ _ := hcomponents
    rw [hservers, hpaths, hcomponents, hsecurity]
    simp [hinfo, htags, hdocs]
  | v31 =>
    have hinfo : FieldCites P [("info", a.info.written31)] := by simp [Role.inside, Role.maps, Info.cites31]
    have hpaths := mirrors_named (p := Pointer.root.key "paths") "paths" (by decide)
      fun i (_ : i ∈ a.paths) => PathItem.mirrors (P := P) .v31 i.2
    have hwebhooks := mirrors_named (p := Pointer.root.key "webhooks") "webhooks" (by decide)
      fun i (_ : i ∈ a.webhooks) => PathItem.mirrors (P := P) .v31 i.2
    have hcomponents : FieldCites P (.node? "components" (a.components.map fun c => c.project31.value)) ↔ _ :=
      hcomponents
    rw [written, written31, cites_extended]
    simp only [List.forall_mem_cons, Visit.newer_v31, Visit.forall_gather, Visit.forall_each,
      PathItem.projectNamed_eq]
    rw [fieldCites_servers31, hpaths, hwebhooks, hcomponents, hsecurity]
    simp [hinfo, htags, hdocs]

/-- **A document mentions just what its description does** in the parts that are written in the version. -/
theorem mentions_written {a : Api} {m : Mention} : (a.written t).Mentions .record m ↔ m ∈ a.mentions t :=
  ⟨fun h => (cites_iff t a).2 (fun _ hm => hm) m h, (cites_iff t a).1 (fun _ h => h) m⟩

end Api

end
end ApiProjection
