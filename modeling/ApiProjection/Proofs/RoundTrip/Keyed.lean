import ApiProjection.Proofs.Failure.Values
import ApiProjection.Proofs.Lossless
import ApiProjection.Proofs.Reference.Site
import ApiProjection.Proofs.RoundTrip.Document
/-!
# Written documents have each name once

The fields of an object have names of their own, and what stands in it by a name of the description is
there as often as in the description. So no object of a document has an entry twice if no map of the
description has a key twice (`Api.Distinct`).

* `Api.keyed_written`: that for the whole document of a version.
-/
namespace ApiProjection

open Node (Field)

/-! ## Names of fields -/

@[simp] def ExternalDocs.fieldNames : List String := ["description", "url"]

@[simp] def Contact.fieldNames : List String := ["name", "url", "email"]

@[simp] def License.fieldNames : Target → List String
  | .v30 => ["name", "url"]
  | .v31 => ["name", "identifier", "url"]

@[simp] def Info.fieldNames : Target → List String
  | .v30 => ["title", "description", "termsOfService", "contact", "license", "version"]
  | .v31 => ["title", "summary", "description", "termsOfService", "contact", "license", "version"]

@[simp] def Tag.fieldNames : List String := ["name", "description", "externalDocs"]

@[simp] def Example.fieldNames : List String := ["summary", "description", "value", "externalValue"]

@[simp] def Discriminator.fieldNames : List String := ["propertyName", "mapping"]

@[simp] def XmlHints.fieldNames : List String := ["name", "namespace", "prefix", "attribute", "wrapped"]

@[simp] def Schema.fieldNames30 : List String :=
  ["title", "type", "format", "description", "example", "deprecated", "readOnly", "writeOnly", "nullable",
  "discriminator", "xml", "enum", "multipleOf", "maximum", "exclusiveMaximum", "minimum", "exclusiveMinimum",
  "pattern", "maxLength", "minLength", "items", "maxItems", "minItems", "uniqueItems", "properties", "required",
  "additionalProperties", "maxProperties", "minProperties", "allOf", "anyOf", "oneOf", "not", "default"]

@[simp] def ServerVariable.fieldNames : List String := ["enum", "default", "description"]

@[simp] def Server.fieldNames : List String := ["url", "description", "variables"]

@[simp] def Header.fieldNames : List String :=
  ["description", "required", "deprecated", "allowEmptyValue", "style", "explode", "schema", "example", "examples",
  "content"]

@[simp] def MediaType.fieldNames : List String := ["schema", "example", "examples", "encoding"]

@[simp] def Encoding.fieldNames : List String := ["contentType", "headers", "style", "explode", "allowReserved"]

@[simp] def Parameter.fieldNames : List String :=
  ["name", "in", "description", "required", "deprecated", "allowEmptyValue", "style", "explode", "allowReserved",
  "schema", "example", "examples", "content"]

@[simp] def RequestBody.fieldNames : List String := ["description", "content", "required"]

@[simp] def Link.fieldNames : List String :=
  ["operationRef", "operationId", "parameters", "requestBody", "description", "server"]

@[simp] def Response.fieldNames : List String := ["description", "headers", "content", "links"]

@[simp] def Operation.fieldNames : List String :=
  ["tags", "summary", "description", "externalDocs", "operationId", "parameters", "requestBody", "responses",
  "callbacks", "deprecated", "security", "servers"]

@[simp] def OAuthFlow.fieldNames : List String := ["authorizationUrl", "tokenUrl", "refreshUrl", "scopes"]

@[simp] def OAuthFlows.fieldNames : List String := ["implicit", "password", "clientCredentials", "authorizationCode"]

@[simp] def SecurityScheme.fieldNames : List String :=
  ["type", "description", "name", "in", "scheme", "bearerFormat", "flows", "openIdConnectUrl"]

@[simp] def Api.fieldNames : Target → List String
  | .v30 => ["openapi", "info", "servers", "paths", "components", "security", "tags", "externalDocs"]
  | .v31 =>
    ["openapi", "jsonSchemaDialect", "info", "servers", "paths", "webhooks", "components", "security", "tags",
    "externalDocs"]

/-! ## Conditions on descriptions -/

/-- Whether what a node holds by keys, and does not visit, has each key once. -/
def Subject.Tidy : Subject → Prop
  | .schema s => ∀ d ∈ s.facets.discriminator, DistinctKeys d.mapping
  | .header h => DistinctKeys h.examples
  | .mediaType m => DistinctKeys m.examples
  | .parameter x => DistinctKeys x.examples
  | .link l => DistinctKeys l.parameters
  | .operation o => ∀ r ∈ o.security, DistinctKeys r
  | _ => True

/-- Whether no map of a node itself has a key twice. -/
def Subject.Distinct (u : Subject) : Prop := u.Keyed ∧ u.Tidy

def OAuthFlows.Distinct (f : OAuthFlows) : Prop :=
  ∀ o ∈ [f.implicit, f.password, f.clientCredentials, f.authorizationCode], ∀ x ∈ o, DistinctKeys x.scopes

structure Components.Distinct (c : Components) : Prop extends c.Keyed where
  examples : DistinctKeys c.examples
  flows : ∀ s ∈ c.securitySchemes, ∀ f ∈ s.2.flows, f.Distinct

/-- Whether no map of a description has a key twice, whatever it maps to. -/
structure Api.Distinct (t : Target) (a : Api) : Prop where
  paths : DistinctKeys a.paths
  webhooks : DistinctKeys a.webhooks
  components : ∀ c ∈ a.components, c.Distinct
  security : ∀ r ∈ a.security, DistinctKeys r
  visits : ∀ v ∈ a.visits t, v.subject.Distinct

/-! ## Fields -/

namespace Node

@[simp] theorem keyed_free (v : Value) : Keyed (.free v) := by simp [Keyed]

@[simp] theorem keyed_text (s : String) : Keyed (.text s) := by simp [Keyed]

theorem keyedItems_iff {ns : List Node} : KeyedItems ns ↔ ∀ n ∈ ns, n.Keyed := by
  induction ns with
  | nil => simp [KeyedItems]
  | cons n ns ih => rw [KeyedItems, ih, List.forall_mem_cons]

theorem keyedEntries_iff {es : List (String × Node)} : KeyedEntries es ↔ ∀ e ∈ es, e.2.Keyed := by
  induction es with
  | nil => simp [KeyedEntries]
  | cons e es ih => rw [KeyedEntries, ih, List.forall_mem_cons]

theorem keyed_list {ns : List Node} : Keyed (.list ns) ↔ ∀ n ∈ ns, n.Keyed := by
  rw [Keyed, keyedItems_iff]

theorem keyed_object {es : List (String × Node)} {xs : Extensions} :
    Keyed (.object es xs) ↔ DistinctKeys es ∧ ∀ e ∈ es, e.2.Keyed := by
  rw [Keyed, keyedEntries_iff]

theorem keyed_reference (target : String) : Keyed (.reference target) :=
  keyed_object.2 ⟨List.nodup_singleton _, by simp⟩

/-- Whether a field is written once at most, under the given name, and has no entry twice further in. -/
def Field.Single (name : String) (f : Field) : Prop := f = [] ∨ ∃ n : Node, n.Keyed ∧ f = [(name, n)]

namespace Field

section
variable (name : String)

@[simp] theorem single_nil : Single name [] := .inl rfl

theorem single_one {n : Node} (h : n.Keyed) : Single name [(name, n)] := .inr ⟨n, h, rfl⟩

@[simp] theorem single_text (s : String) : Single name (text name s) := single_one name (keyed_text s)

@[simp] theorem single_text? (o : Option String) : Single name (text? name o) := by
  unfold text?
  repeat' split
  all_goals simp [Single]

@[simp] theorem single_flag (b : Bool) : Single name (flag name b) := by
  cases b <;> simp [flag, Single]

@[simp] theorem single_int? (o : Option Int) : Single name (int? name o) := by
  cases o <;> simp [int?, Single]

@[simp] theorem single_number? (o : Option Number) : Single name (number? name o) := by
  cases o <;> simp [number?, Single]

@[simp] theorem single_free (v : Value) : Single name (free name v) := by
  unfold free
  split <;> simp [Single]

@[simp] theorem single_frees (vs : List Value) : Single name (frees name vs) := by
  unfold frees
  split
  · exact single_nil name
  · exact single_one name (keyed_list.2 (by simp))

@[simp] theorem single_texts (ss : List String) : Single name (texts name ss) := by
  unfold texts
  split
  · exact single_nil name
  · exact single_one name (keyed_list.2 (by simp))

theorem single_node? {o : Option Node} (h : ∀ n ∈ o, n.Keyed) : Single name (node? name o) := by
  cases o with
  | none => exact single_nil name
  | some n => exact single_one name (h n rfl)

theorem single_map? {α : Type} {g : α → Node} (h : ∀ x, (g x).Keyed) (o : Option α) :
    Single name (node? name (o.map g)) := by
  cases o with
  | none => exact single_nil name
  | some x => exact single_one name (h x)

theorem single_nodes {ns : List Node} (h : ∀ n ∈ ns, n.Keyed) : Single name (nodes name ns) := by
  unfold nodes
  split
  · exact single_nil name
  · exact single_one name (keyed_list.2 h)

theorem single_named {ns : List (String × Node)} (hk : DistinctKeys ns) (h : ∀ e ∈ ns, e.2.Keyed) :
    Single name (named name ns) := by
  unfold named
  split
  · exact single_nil name
  · exact single_one name (keyed_object.2 ⟨hk, h⟩)

end

/-- Rows of fields with names of their own have each name once. -/
theorem distinctKeys_flatten (names : List String) {fs : List Field} (hn : names.Nodup)
    (hf : List.Forall₂ Single names fs) : DistinctKeys fs.flatten ∧ ∀ e ∈ fs.flatten, e.1 ∈ names ∧ e.2.Keyed := by
  induction hf with
  | nil => exact ⟨List.nodup_nil, by simp⟩
  | @cons name f names fs hf _ ih =>
    obtain ⟨hfresh, hn⟩ := List.nodup_cons.1 hn
    obtain ⟨hkeys, hrest⟩ := ih hn
    have hrest' : ∀ e ∈ fs.flatten, e.1 ∈ name :: names ∧ e.2.Keyed :=
      fun e he => ⟨List.mem_cons_of_mem name (hrest e he).1, (hrest e he).2⟩
    rcases hf with rfl | ⟨n, hkeyed, rfl⟩
    · exact ⟨hkeys, hrest'⟩
    · have hnew : name ∉ fs.flatten.map Prod.fst := by
        intro hm
        obtain ⟨e, he, hname⟩ := List.mem_map.1 hm
        exact hfresh (hname ▸ (hrest e he).1)
      exact ⟨List.nodup_cons.2 ⟨hnew, hkeys⟩,
        List.forall_mem_cons.2 ⟨⟨List.mem_cons_self, hkeyed⟩, hrest'⟩⟩

end Field

/-- An object of fields with names of their own has no entry twice. -/
theorem keyed_ofFields (names : List String) (hn : names.Nodup) {fs : List Field} {xs : Extensions}
    (hf : List.Forall₂ Field.Single names fs) : (Node.ofFields fs xs).Keyed := by
  obtain ⟨hkeys, hfields⟩ := Field.distinctKeys_flatten names hn hf
  exact keyed_object.2 ⟨hkeys, fun e he => (hfields e he).2⟩

end Node

open Node (keyed_ofFields keyed_object keyed_reference)
open Node.Field (single_node? single_map? single_nodes single_named single_one)

/-! ## Parts of a description -/

/-- A node that has no entry twice wherever it is written, if no map of what is visited for it has a key twice. -/
def Visit.Yields (f : Pointer → Traced Node) (vs : List Visit) : Prop :=
  (∀ v ∈ vs, v.subject.Distinct) → ∀ p, (f p).value.Keyed

open Visit (Carries Yields)

theorem Traced.distinctKeys_named {α β : Type} (f : α → Pointer → Traced β) (p : Pointer)
    {xs : List (String × α)} (h : DistinctKeys xs) : DistinctKeys (Traced.named f p xs).value := by
  simpa [DistinctKeys, Traced.value_named, Function.comp_def] using h

theorem DistinctKeys.mapped {α β : Type} {xs : List (String × α)} (h : DistinctKeys xs) (f : α → β) :
    DistinctKeys (xs.map fun x => (x.1, f x.2)) := by
  simpa [DistinctKeys, Function.comp_def] using h

section
variable (t : Target)

theorem ExternalDocs.keyed_project (d : ExternalDocs) : (d.project t).Keyed :=
  keyed_ofFields ExternalDocs.fieldNames (by decide) (by simp)

theorem Contact.keyed_project (c : Contact) : (c.project t).Keyed :=
  keyed_ofFields Contact.fieldNames (by decide) (by simp)

theorem Tag.keyed_project (g : Tag) : (g.project t).Keyed :=
  keyed_ofFields Tag.fieldNames (by decide)
    (by simp [single_map? _ fun d => ExternalDocs.keyed_project t d])

theorem SecurityRequirement.keyed_project {r : SecurityRequirement} (h : DistinctKeys r) : r.project.Keyed := by
  refine keyed_object.2 ⟨h.mapped fun scopes => Node.list (scopes.map .text), List.forall_mem_map.2 fun x _ => ?_⟩
  exact Node.keyed_list.2 (by simp)

theorem Example.keyed_project (e : Example) : (e.project t).Keyed := by
  rw [project]
  cases nonEmpty e.ref with
  | some target => exact keyed_reference target
  | none => exact keyed_ofFields Example.fieldNames (by decide) (by simp)

@[simp] theorem Example.under_projectAll (es : List (String × Example)) : (projectAll t es).Under "examples" :=
  Field.under_named _ _

theorem Example.single_projectAll {es : List (String × Example)} (h : DistinctKeys es) :
    (projectAll t es).Single "examples" :=
  single_named _ (h.mapped _) (List.forall_mem_map.2 fun e _ => e.2.keyed_project t)

theorem Discriminator.keyed_toNode {d : Discriminator} (h : DistinctKeys d.mapping) : d.toNode.Keyed := by
  have hmapping := single_named "mapping" (h.mapped Node.text) (List.forall_mem_map.2 fun x _ => Node.keyed_text x.2)
  exact keyed_ofFields Discriminator.fieldNames (by decide) (by simpa using hmapping)

theorem XmlHints.keyed_toNode (x : XmlHints) : x.toNode.Keyed :=
  keyed_ofFields XmlHints.fieldNames (by decide) (by simp)

theorem Types31.single_field (ts : Types31) : ts.field.Single "type" := by
  cases ts with
  | unset => exact Field.single_nil _
  | one k => exact Field.single_text _ _
  | orNull k => exact single_one _ (Node.keyed_list.2 (by simp))

/-! ### Schemas -/

@[simp] theorem Schema30.under_furtherField (a : Further Schema30) :
    Field.Under "additionalProperties" (furtherField a) := by
  cases a <;> simp [furtherField]

namespace Schema

theorem single_furtherField30 {o : Option (Additional Schema)} {p : Pointer}
    (h : ∀ a ∈ o, ∀ c ∈ a.schema, ∀ p, (c.project .v30 p).value.Keyed) :
    (Schema30.furtherField (additionalTo30 o p).value).Single "additionalProperties" := by
  match o with
  | none | some ⟨none, none⟩ => exact Field.single_nil _
  | some ⟨some b, none⟩ => exact Field.single_free _ _
  | some ⟨_, some s⟩ => exact single_one _ (h _ rfl s rfl p)

theorem single_furtherField31 {o : Option (Additional Schema)}
    (h : ∀ a ∈ o, ∀ c ∈ a.schema, ∀ p, (c.project .v31 p).value.Keyed) :
    (Schema31.furtherField (additionalTo31 o)).Single "additionalProperties" := by
  match o with
  | none | some ⟨none, none⟩ => exact Field.single_nil _
  | some ⟨some b, none⟩ => exact Field.single_free _ _
  | some ⟨_, some s⟩ => exact single_one _ (h _ rfl s rfl .root)

theorem yields (s : Schema) : Yields (s.project t) (s.visits t) := by
  induction s using Schema.ind with
  | step s ih =>
    rw [visits_eq]
    refine Carries.node (u := .schema s) keyed_reference rfl fun hr hs hparts p => ?_
    obtain ⟨⟨hproperties, hpatterns⟩, hmapping⟩ := hs
    simp only [parts, List.forall_mem_cons, Visit.forall_gather, Visit.forall_each, Visit.forall_items,
      Visit.forall_option] at hparts
    obtain ⟨hitems, hprops, hfurther, hpats, hunevaluated, hallOf, hanyOf, honeOf, hnotOf, -⟩ := hparts
    have hfurther : ∀ a ∈ s.additional, ∀ c ∈ a.schema, ∀ p, (c.project t p).value.Keyed :=
      fun a ha c hc => ih.additional a ha c hc (hfurther c (Option.bind_eq_some_iff.2 ⟨a, ha, hc⟩))
    have hdiscriminator : ∀ n ∈ s.facets.discriminator.map Discriminator.toNode, n.Keyed := fun n hn => by
      obtain ⟨d, hd, rfl⟩ := Option.map_eq_some_iff.1 hn
      exact Discriminator.keyed_toNode (hmapping d hd)
    have hnamed (q : Pointer) := single_named "properties" (Traced.distinctKeys_named (project t) q hproperties)
      (Carries.named q ih.properties hprops)
    cases t with
    | v30 =>
      rw [Subject.project, value_project30 s hr, Schema30.toNode]
      simp only [option_to30, named_to30, items_to30]
      refine keyed_ofFields fieldNames30 (by decide) ?_
      simp [hnamed, common30, annotations, single_node? _ hdiscriminator, single_map? _ XmlHints.keyed_toNode,
        single_node? _ (Carries.option _ ih.items hitems), single_node? _ (Carries.option _ ih.notOf hnotOf),
        single_nodes _ (Carries.items _ ih.allOf hallOf), single_nodes _ (Carries.items _ ih.anyOf hanyOf),
        single_nodes _ (Carries.items _ ih.oneOf honeOf), single_furtherField30 hfurther]
    | v31 =>
      have hpats := Visit.forall_each.1 (Visit.forall_gather.1 hpats)
      have hunevaluated := Visit.forall_option.1 hunevaluated
      have hpatterned := single_named "patternProperties"
        (Traced.distinctKeys_named (project .v31) p hpatterns) (Carries.named p ih.patternProperties hpats)
      rw [Subject.project, value_project31 s hr, Schema31.toNode]
      simp only [option_to31 p, named_to31 p, items_to31 p]
      refine keyed_ofFields fieldNames (by decide) ?_
      simp [fieldNames, hnamed, hpatterned, keywords31, annotations, Types31.single_field, single_node? _ hdiscriminator,
        single_map? _ XmlHints.keyed_toNode, single_node? _ (Carries.option _ ih.items hitems),
        single_node? _ (Carries.option _ ih.notOf hnotOf),
        single_node? _ (Carries.option _ ih.unevaluated hunevaluated),
        single_nodes _ (Carries.items _ ih.allOf hallOf), single_nodes _ (Carries.items _ ih.anyOf hanyOf),
        single_nodes _ (Carries.items _ ih.oneOf honeOf), single_furtherField31 hfurther]

end Schema

/-! ### Servers -/

theorem ServerVariable.yields (v : ServerVariable) : Yields (v.project t) v.visits := by
  intro _ p
  rw [v.value_project]
  exact keyed_ofFields ServerVariable.fieldNames (by decide) (by simp)

theorem Server.yields (s : Server) : Yields (s.project t) s.visits := by
  refine Carries.whole (u := .server s) fun hs hparts p => ?_
  rw [List.forall_mem_singleton, Visit.forall_gather, Visit.forall_each] at hparts
  have hvars := single_named "variables"
    (Traced.distinctKeys_named (ServerVariable.project t) (p.key "variables") hs.1)
    (Carries.named _ (fun x _ => ServerVariable.yields t x.2) hparts)
  rw [Subject.project, s.value_project]
  exact keyed_ofFields Server.fieldNames (by decide) (by simpa using hvars)

/-! ### Headers and bodies -/

theorem Header.yields_steps : Header.Steps (fun h => Yields (h.project t) (h.visits t))
    (fun m => Yields (m.project t) (m.visits t)) fun e => Yields (e.project t) (e.visits t) where
  header h hc := by
    rw [Header.visits_eq]
    refine Carries.node (u := .header h) keyed_reference rfl fun hr hs hparts p => ?_
    obtain ⟨hkeys, hexamples⟩ := hs
    simp only [List.forall_mem_cons, Visit.forall_option, Visit.forall_gather, Visit.forall_each] at hparts
    obtain ⟨hschema, hcontent, -⟩ := hparts
    have hschema := Carries.option (p.key "schema") (fun s _ => Schema.yields t s) hschema
    have hcontent := single_named "content"
      (Traced.distinctKeys_named (MediaType.project t) (p.key "content") hkeys) (Carries.named _ hc hcontent)
    rw [Subject.project, h.value_project hr]
    refine keyed_ofFields Header.fieldNames (by decide) ?_
    simp [hcontent, Example.single_projectAll t hexamples, single_node? _ hschema]
  mediaType m he := by
    rw [MediaType.visits_eq]
    refine Carries.whole (u := .mediaType m) fun hs hparts p => ?_
    obtain ⟨hkeys, hexamples⟩ := hs
    simp only [List.forall_mem_cons, Visit.forall_option, Visit.forall_gather, Visit.forall_each] at hparts
    obtain ⟨hencoding, hschema, -⟩ := hparts
    have hencoding := single_named "encoding"
      (Traced.distinctKeys_named (Encoding.project t) (p.key "encoding") hkeys) (Carries.named _ he hencoding)
    have hschema := Carries.option (p.key "schema") (fun s _ => Schema.yields t s) hschema
    rw [Subject.project, m.value_project]
    refine keyed_ofFields MediaType.fieldNames (by decide) ?_
    simp [hencoding, Example.single_projectAll t hexamples, single_node? _ hschema]
  encoding e hh := by
    rw [Encoding.visits_eq]
    refine Carries.whole (u := .encoding e) fun hs hparts p => ?_
    rw [List.forall_mem_singleton, Visit.forall_gather, Visit.forall_each] at hparts
    have hheaders := single_named "headers"
      (Traced.distinctKeys_named (Header.project t) (p.key "headers") hs.1) (Carries.named _ hh hparts)
    rw [Subject.project, e.value_project]
    refine keyed_ofFields Encoding.fieldNames (by decide) ?_
    simp [hheaders]

theorem Header.yields (h : Header) : Yields (h.project t) (h.visits t) := (Header.ind (Header.yields_steps t)).1 h

theorem MediaType.yields (m : MediaType) : Yields (m.project t) (m.visits t) :=
  (Header.ind (Header.yields_steps t)).2.1 m

/-- The media types of a body, by their names. -/
theorem MediaType.keyed_content {ms : List (String × MediaType)} (hkeys : DistinctKeys ms)
    (h : ∀ m ∈ ms, ∀ v ∈ m.2.visits t, v.subject.Distinct) (p : Pointer) :
    DistinctKeys (Traced.named (MediaType.project t) p ms).value ∧
      ∀ e ∈ (Traced.named (MediaType.project t) p ms).value, e.2.Keyed :=
  ⟨Traced.distinctKeys_named _ p hkeys, Carries.named p (fun m _ => MediaType.yields t m.2) h⟩

theorem Parameter.yields (x : Parameter) : Yields (x.project t) (x.visits t) := by
  refine Carries.node (u := .parameter x) keyed_reference rfl fun hr hs hparts p => ?_
  obtain ⟨hkeys, hexamples⟩ := hs
  simp only [List.forall_mem_cons, Visit.forall_option, Visit.forall_gather, Visit.forall_each] at hparts
  obtain ⟨hschema, hcontent, -⟩ := hparts
  have hschema := Carries.option (p.key "schema") (fun s _ => Schema.yields t s) hschema
  obtain ⟨hnames, hcontent⟩ := MediaType.keyed_content t hkeys hcontent (p.key "content")
  rw [Subject.project, x.value_project hr]
  refine keyed_ofFields Parameter.fieldNames (by decide) ?_
  simp [single_named _ hnames hcontent, Example.single_projectAll t hexamples, single_node? _ hschema]

theorem RequestBody.yields (b : RequestBody) : Yields (b.project t) (b.visits t) := by
  refine Carries.node (u := .requestBody b) keyed_reference rfl fun hr hs hparts p => ?_
  rw [List.forall_mem_singleton, Visit.forall_gather, Visit.forall_each] at hparts
  have hcontent := MediaType.keyed_content t hs.1 hparts (p.key "content")
  rw [Subject.project, b.value_project hr]
  refine keyed_ofFields RequestBody.fieldNames (by decide) ?_
  simp [single_one _ (keyed_object.2 hcontent)]

/-! ### Responses -/

theorem Link.yields (l : Link) : Yields (l.project t) l.visits := by
  refine Carries.node (u := .link l) keyed_reference rfl fun hr hs hparts p => ?_
  rw [List.forall_mem_singleton, Visit.forall_option] at hparts
  have hserver := Carries.option (p.key "server") (fun s _ => Server.yields t s) hparts
  have hparameters := single_named "parameters" (DistinctKeys.mapped hs.2 Node.free)
    (List.forall_mem_map.2 fun x _ => Node.keyed_free x.2)
  rw [Subject.project, l.value_project hr]
  refine keyed_ofFields Link.fieldNames (by decide) ?_
  simp [hparameters, single_node? _ hserver]

theorem Response.yields (r : Response) : Yields (r.project t) (r.visits t) := by
  refine Carries.node (u := .response r) keyed_reference rfl fun hr hs hparts p => ?_
  obtain ⟨⟨hlinkKeys, hheaderKeys, hkeys⟩, -⟩ := hs
  simp only [List.forall_mem_cons, Visit.forall_gather, Visit.forall_each] at hparts
  obtain ⟨hlinks, hheaders, hcontent, -⟩ := hparts
  have hlinks := single_named "links" (Traced.distinctKeys_named (Link.project t) (p.key "links") hlinkKeys)
    (Carries.named _ (fun l _ => Link.yields t l.2) hlinks)
  have hheaders := single_named "headers"
    (Traced.distinctKeys_named (Header.project t) (p.key "headers") hheaderKeys)
    (Carries.named _ (fun x _ => Header.yields t x.2) hheaders)
  obtain ⟨hnames, hcontent⟩ := MediaType.keyed_content t hkeys hcontent (p.key "content")
  rw [Subject.project, r.value_project hr]
  refine keyed_ofFields Response.fieldNames (by decide) ?_
  simp [hlinks, hheaders, single_named _ hnames hcontent]

/-! ### Operations -/

theorem PathItem.keyed_fields {summary description : Option String} {operations : List (String × Node)}
    {parameters : List Node} {xs : Extensions} (hkeys : DistinctKeys operations)
    (hfresh : ∀ o ∈ operations, o.1 ≠ "summary" ∧ o.1 ≠ "description" ∧ o.1 ≠ "parameters")
    (hoperations : ∀ o ∈ operations, o.2.Keyed) (hparameters : ∀ n ∈ parameters, n.Keyed) :
    (Node.ofFields [.text? "summary" summary, .text? "description" description, operations,
      .nodes "parameters" parameters] xs).Keyed := by
  -- the methods are put in front, where no other field stands between them
  let rest : List Field := [.text? "summary" summary, .text? "description" description, .nodes "parameters" parameters]
  have hperm : ([Field.text? "summary" summary, .text? "description" description, operations,
      .nodes "parameters" parameters] : List Field).flatten.Perm (operations ++ rest.flatten) := by
    have hswap := List.perm_append_comm_assoc (Field.text? "summary" summary ++ .text? "description" description)
      operations (Field.nodes "parameters" parameters)
    simpa [rest, List.append_assoc] using hswap
  have hsingle : List.Forall₂ Field.Single ["summary", "description", "parameters"] rest := by
    simp [rest, single_nodes _ hparameters]
  obtain ⟨hrest, hkeyed⟩ := Field.distinctKeys_flatten _ (by decide) hsingle
  refine keyed_object.2 ⟨?_, fun e he => ?_⟩
  · rw [DistinctKeys, (hperm.map _).nodup_iff, List.map_append, List.nodup_append]
    refine ⟨hkeys, hrest, fun k hk l hl => ?_⟩
    obtain ⟨o, ho, rfl⟩ := List.mem_map.1 hk
    obtain ⟨e, he, rfl⟩ := List.mem_map.1 hl
    have hname := (hkeyed e he).1
    obtain ⟨hsummary, hdescription, hparameters⟩ := hfresh o ho
    rintro heq
    rw [← heq] at hname
    simp [hsummary, hdescription, hparameters] at hname
  · rcases List.mem_append.1 (hperm.mem_iff.1 he) with he | he
    · exact hoperations e he
    · exact (hkeyed e he).2

theorem Operation.yields_steps : Operation.Steps (fun o => Yields (o.project t) (o.visits t))
    (fun i => Yields (i.project t) (i.visits t)) fun c => Yields (c.project t) (c.visits t) where
  operation o hc := by
    rw [Operation.visits_eq]
    refine Carries.whole (u := .operation o) fun hs hparts p => ?_
    obtain ⟨⟨hresponseKeys, hcallbackKeys⟩, hsecurity⟩ := hs
    simp only [List.forall_mem_cons, Visit.forall_gather, Visit.forall_items, Visit.forall_option,
      Visit.forall_each] at hparts
    obtain ⟨hparameters, hbody, hresponses, hcallbacks, hservers, -⟩ := hparts
    have hparameters := Carries.items (p.key "parameters") (fun x _ => Parameter.yields t x) hparameters
    have hbody := Carries.option (p.key "requestBody") (fun b _ => RequestBody.yields t b) hbody
    have hresponses := Carries.named (p.key "responses") (fun r _ => Response.yields t r.2) hresponses
    have hcallbacks := single_named "callbacks"
      (Traced.distinctKeys_named (Callback.project t) (p.key "callbacks") hcallbackKeys) (Carries.named _ hc hcallbacks)
    have hservers := Carries.items (p.key "servers") (fun s _ => Server.yields t s) hservers
    have hsecurity : ∀ n ∈ o.security.map SecurityRequirement.project, n.Keyed :=
      List.forall_mem_map.2 fun r hr => SecurityRequirement.keyed_project (hsecurity r hr)
    have hresponses : (Node.object (Traced.named (Response.project t) (p.key "responses") o.responses).value []).Keyed :=
      keyed_object.2 ⟨Traced.distinctKeys_named _ _ hresponseKeys, hresponses⟩
    rw [Subject.project, o.value_project]
    refine keyed_ofFields Operation.fieldNames (by decide) ?_
    simp [single_map? _ fun d => ExternalDocs.keyed_project t d, single_nodes _ hparameters, single_node? _ hbody,
      single_one _ hresponses, hcallbacks, single_nodes _ hsecurity, single_nodes _ hservers]
  pathItem i ho := by
    rw [PathItem.visits_eq]
    refine Carries.node (u := .pathItem i) keyed_reference rfl fun hr hs hparts p => ?_
    rw [List.forall_mem_cons, Visit.forall_gather, Visit.forall_items, Visit.forall_each] at hparts
    have hparameters := Carries.items (p.key "parameters") (fun x _ => Parameter.yields t x) hparts.1
    have hoperations := Carries.named p (List.forall_mem_map.2 ho) hparts.2
    have hmethods := Traced.distinctKeys_named (Operation.project t) p (Method.distinctKeys_name hs.1)
    rw [Subject.project, i.value_project hr]
    refine PathItem.keyed_fields hmethods ?_ hoperations hparameters
    rw [Traced.value_named]
    simp only [List.forall_mem_map]
    exact fun o _ => o.1.name_fresh.2
  callback c hi := by
    rw [Callback.visits_eq]
    refine Carries.node (u := .callback c) keyed_reference rfl fun hr hs hparts p => ?_
    rw [Visit.forall_each] at hparts
    rw [Subject.project, c.value_project hr, Node.extended, Node.ofFields, List.flatten_singleton]
    exact keyed_object.2 ⟨Traced.distinctKeys_named _ p hs.1, Carries.named p hi hparts⟩

theorem PathItem.yields (i : PathItem) : Yields (i.project t) (i.visits t) :=
  (Operation.ind (Operation.yields_steps t)).2.1 i

theorem Callback.yields (c : Callback) : Yields (c.project t) (c.visits t) :=
  (Operation.ind (Operation.yields_steps t)).2.2 c

/-- The path items of a map, by their names. -/
theorem PathItem.keyed_paths {is : List (String × PathItem)} (hkeys : DistinctKeys is)
    (h : ∀ i ∈ is, ∀ v ∈ i.2.visits t, v.subject.Distinct) (p : Pointer) :
    DistinctKeys (PathItem.projectNamed t is p).value ∧ ∀ e ∈ (PathItem.projectNamed t is p).value, e.2.Keyed := by
  rw [PathItem.projectNamed_eq]
  exact ⟨Traced.distinctKeys_named _ p hkeys, Carries.named p (fun i _ => PathItem.yields t i.2) h⟩

/-! ## The whole -/

theorem OAuthFlow.keyed_project {f : OAuthFlow} (h : DistinctKeys f.scopes) : (f.project t).Keyed := by
  have hscopes : (Node.object (f.scopes.map fun s => (s.1, Node.text s.2)) []).Keyed :=
    keyed_object.2 ⟨h.mapped Node.text, List.forall_mem_map.2 fun s _ => Node.keyed_text s.2⟩
  exact keyed_ofFields OAuthFlow.fieldNames (by decide)
    (by simp [single_one _ hscopes])

theorem OAuthFlows.keyed_project? {f : OAuthFlows} (h : f.Distinct) : ∀ n ∈ f.project? t, n.Keyed := by
  have hflow (name : String) {o : Option OAuthFlow} (ho : ∀ x ∈ o, DistinctKeys x.scopes) :
      (Field.node? name (o.map fun x => x.project t)).Single name :=
    single_node? name fun n hn => by
      obtain ⟨x, hx, rfl⟩ := Option.map_eq_some_iff.1 hn
      exact x.keyed_project t (ho x hx)
  simp only [OAuthFlows.Distinct, List.forall_mem_cons] at h
  obtain ⟨himplicit, hpassword, hclient, hcode, -⟩ := h
  obtain ⟨hkeys, hfields⟩ := Field.distinctKeys_flatten fieldNames (by decide)
    (.cons (hflow _ himplicit) (.cons (hflow _ hpassword) (.cons (hflow _ hclient) (.cons (hflow _ hcode) .nil))))
  intro n hn
  unfold project? at hn
  simp only at hn
  split at hn
  · cases hn
  · cases hn
    rw [Node.extended, Node.ofFields, List.flatten_cons, List.flatten_nil, List.append_nil]
    exact keyed_object.2 ⟨hkeys, fun e he => (hfields e he).2⟩

theorem SecurityScheme.keyed_project {s : SecurityScheme} (h : ∀ f ∈ s.flows, f.Distinct) : (s.project t).Keyed := by
  rw [project]
  cases hr : nonEmpty s.ref with
  | some target => exact keyed_reference target
  | none =>
    have hflows : ∀ n ∈ s.flows.bind fun f => f.project? t, n.Keyed := fun n hn => by
      obtain ⟨f, hf, hn⟩ := Option.bind_eq_some_iff.1 hn
      exact f.keyed_project? t (h f hf) n hn
    refine keyed_ofFields SecurityScheme.fieldNames (by decide) ?_
    simp [single_node? _ hflows, single_map? _ Node.keyed_text]

/-- The fields of the reusable parts are their sections. -/
theorem Components.under_sections (c : Components) :
    List.Forall₂ Field.Under sectionNames ((c.sections t).map fun s => Field.named s.1 s.2) := by
  rw [← keys_sections t c, List.forall₂_map_left_iff, List.forall₂_map_right_iff, List.forall₂_same]
  exact fun s _ => Field.under_named s.1 s.2

theorem Components.keyed_written {c : Components} (h : c.Distinct) (hv : ∀ v ∈ c.visits t, v.subject.Distinct) :
    (c.written t).Keyed := by
  simp only [visits, Visit.forall_gather, List.forall_mem_cons, Visit.forall_each] at hv
  obtain ⟨hpathItems, hschemas, hresponses, hparameters, hbodies, hheaders, hlinks, hcallbacks, -⟩ := hv
  have hsections : ∀ s ∈ c.sections t, DistinctKeys s.2 ∧ ∀ e ∈ s.2, e.2.Keyed := by
    have hschemes : DistinctKeys (c.schemes t) ∧ ∀ s ∈ c.schemes t, s ∈ c.securitySchemes := by
      cases t with
      | v30 => exact ⟨h.securitySchemes.sublist (List.filter_sublist.map _), fun s hs => List.mem_of_mem_filter hs⟩
      | v31 => exact ⟨h.securitySchemes, fun s hs => hs⟩
    simp only [sections, shared, Header.projectNamed_eq, Callback.projectNamed_eq, Traced.value_bind,
      Traced.value_pure, List.forall_mem_cons]
    refine ⟨⟨Traced.distinctKeys_named _ _ h.schemas, Carries.named _ (fun x _ => Schema.yields t x.2) hschemas⟩,
      ⟨Traced.distinctKeys_named _ _ h.responses, Carries.named _ (fun x _ => Response.yields t x.2) hresponses⟩,
      ⟨Traced.distinctKeys_named _ _ h.parameters, Carries.named _ (fun x _ => Parameter.yields t x.2) hparameters⟩,
      ⟨h.examples.mapped _, List.forall_mem_map.2 fun e _ => e.2.keyed_project t⟩,
      ⟨Traced.distinctKeys_named _ _ h.requestBodies, Carries.named _ (fun x _ => RequestBody.yields t x.2) hbodies⟩,
      ⟨Traced.distinctKeys_named _ _ h.headers, Carries.named _ (fun x _ => Header.yields t x.2) hheaders⟩,
      ⟨hschemes.1.mapped _, List.forall_mem_map.2 fun s hs =>
        s.2.keyed_project t (h.flows s (hschemes.2 s hs))⟩,
      ⟨Traced.distinctKeys_named _ _ h.links, Carries.named _ (fun x _ => Link.yields t x.2) hlinks⟩,
      ⟨Traced.distinctKeys_named _ _ h.callbacks, Carries.named _ (fun x _ => Callback.yields t x.2) hcallbacks⟩,
      ?_, by simp⟩
    cases t with
    | v30 => exact ⟨List.nodup_nil, by simp [Target.isFeatureRich]⟩
    | v31 =>
      have hvisits := Visit.forall_each.1 (Visit.forall_gather.1 hpathItems)
      exact ⟨Traced.distinctKeys_named _ _ h.pathItems, Carries.named _ (fun x _ => PathItem.yields .v31 x.2) hvisits⟩
  rw [written_sections]
  refine keyed_ofFields sectionNames (by decide) ?_
  rw [← keys_sections t c, List.forall₂_map_left_iff, List.forall₂_map_right_iff, List.forall₂_same]
  exact fun s hs => single_named s.1 (hsections s hs).1 (hsections s hs).2

theorem Info.keyed_written (i : Info) : (i.written t).Keyed := by
  cases t with
  | v30 =>
    have hlicense (l : License) : l.project30.value.Keyed :=
      keyed_ofFields (License.fieldNames .v30) (by decide) (by simp)
    refine keyed_ofFields (Info.fieldNames .v30) (by decide) ?_
    simp [single_map? _ fun c => Contact.keyed_project .v30 c, Traced.value_option, single_map? _ hlicense]
  | v31 =>
    have hlicense (l : License) : l.written31.Keyed :=
      keyed_ofFields (License.fieldNames .v31) (by decide) (by simp)
    refine keyed_ofFields (Info.fieldNames .v31)
      (by decide) ?_
    simp [single_map? _ fun c => Contact.keyed_project .v31 c, single_map? _ hlicense]

/-- **No object of a document has a name twice** if no map of the description has a key twice. -/
theorem Api.keyed_written {a : Api} (h : a.Distinct t) : (a.written t).Keyed := by
  have hv := h.visits
  simp only [visits, Visit.forall_gather, List.forall_mem_cons, Visit.forall_items, Visit.forall_each,
    Visit.forall_option] at hv
  obtain ⟨hservers, hpaths, hparts, hwebhooks, -⟩ := hv
  have hinfo := Info.keyed_written t a.info
  have hservers := Carries.items (Pointer.root.key "servers") (fun s _ => Server.yields t s) hservers
  have hpaths := PathItem.keyed_paths t h.paths hpaths (Pointer.root.key "paths")
  have hcomponents : (Field.node? "components" (a.components.map fun c => c.written t)).Single "components" :=
    single_node? _ fun n hn => by
      obtain ⟨c, hc, rfl⟩ := Option.map_eq_some_iff.1 hn
      exact c.keyed_written t (h.components c hc) (hparts c hc)
  have htags : ∀ n ∈ a.tags.map fun g => g.project t, n.Keyed := List.forall_mem_map.2 fun g _ => g.keyed_project t
  have hsecurity : ∀ n ∈ a.security.map SecurityRequirement.project, n.Keyed :=
    List.forall_mem_map.2 fun r hr => SecurityRequirement.keyed_project (h.security r hr)
  have hdocs := single_map? "externalDocs" (fun d => ExternalDocs.keyed_project t d) a.externalDocs
  cases t with
  | v30 =>
    have hcomponents : (Field.node? "components" (a.components.map Components.written30)).Single "components" :=
      hcomponents
    refine keyed_ofFields (Api.fieldNames .v30)
      (by decide) ?_
    have hinfo : Field.Single "info" [("info", a.info.project30.value)] := single_one _ hinfo
    simp [hinfo, Server.projectAll, single_nodes _ hservers, single_one _ (keyed_object.2 hpaths), hcomponents,
      single_nodes _ hsecurity, single_nodes _ htags, hdocs]
  | v31 =>
    have hcomponents : (Field.node? "components" (a.components.map fun c => c.project31.value)).Single "components" :=
      hcomponents
    have hdefault : defaultServer.Keyed := keyed_object.2 ⟨List.nodup_singleton _, by simp⟩
    have hservers : ∀ n ∈ a.servers31, n.Keyed := by
      rcases a.servers31_cases with h | h
      · rw [h, List.forall_mem_singleton]
        exact hdefault
      · rw [h]
        exact hservers
    have hwebhooks := PathItem.keyed_paths .v31 h.webhooks (Visit.forall_each.1 (Visit.forall_gather.1 hwebhooks))
      (Pointer.root.key "webhooks")
    refine keyed_ofFields (Api.fieldNames .v31) (by decide) ?_
    have hinfo : Field.Single "info" [("info", a.info.written31)] := single_one _ hinfo
    simp [hinfo, single_nodes _ hservers, single_named _ hpaths.1 hpaths.2, single_named _ hwebhooks.1 hwebhooks.2,
      hcomponents, single_nodes _ hsecurity, single_nodes _ htags, hdocs]

end

/-! ## Reading documents back -/

namespace Api

/-- An interface with a number, a null and a text that is not ASCII among its extensions. -/
def tide : Api where
  info := { title := "Tide", version := "1" }
  paths := [("/ebb", {})]
  extensions := [("x-level", .float (.finite false 6755399441055744 (-52))), ("x-none", .null),
    ("x-port", .text "Sète\n")]

/-- The document of that interface. -/
def tideJson : Json := .object [("openapi", .text "3.0.4"),
  ("info", .object [("title", .text "Tide"), ("version", .text "1")]), ("paths", .object [("/ebb", .object [])]),
  ("x-level", .float (.finite false 6755399441055744 (-52))), ("x-none", .null), ("x-port", .text "Sète\n")]

end Api
end ApiProjection
