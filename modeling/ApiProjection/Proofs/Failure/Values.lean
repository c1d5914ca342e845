import ApiProjection.Proofs.Failure.Writable
import ApiProjection.Proofs.Visit.Carried
/-!
# The free-form values of a document

`Api.values` lists the free-form values that a projection comes to in a description: those of the
visited nodes, and those of the parts that are not visited. Nothing else gets into a document but
flags and numbers.

* `Api.forall_values_written`: what holds of these values, of flags and of numbers holds of all
  free-form values of the document.
-/
namespace ApiProjection

open Node (Field)

/-! ## Values of descriptions -/

def Extension.values (xs : Extensions) : List Value := xs.map Prod.snd

/-- The values of a node, of which there are none if it is a reference. -/
def valuesUnless (ref : Option String) (vs : List Value) : List Value :=
  if (nonEmpty ref).isSome then [] else vs

def ExternalDocs.values (d : ExternalDocs) : List Value := Extension.values d.extensions

def Tag.values (g : Tag) : List Value :=
  g.externalDocs.toList.flatMap ExternalDocs.values ++ Extension.values g.extensions

def Info.values (i : Info) : List Value :=
  (i.contact.toList.flatMap fun c => Extension.values c.extensions) ++
    ((i.license.toList.flatMap fun l => Extension.values l.extensions) ++ Extension.values i.extensions)

def Example.values (e : Example) : List Value :=
  valuesUnless e.ref (e.value :: Extension.values e.extensions)

/-- The values of one example and of several named ones. -/
def Example.allValues (sample : Value) (es : List (String × Example)) : List Value :=
  sample :: es.flatMap fun e => e.2.values

def OAuthFlows.values (f : OAuthFlows) : List Value :=
  ([f.implicit, f.password, f.clientCredentials, f.authorizationCode].flatMap fun o =>
    o.toList.flatMap fun x => Extension.values x.extensions) ++ Extension.values f.extensions

def SecurityScheme.values (s : SecurityScheme) : List Value :=
  valuesUnless s.ref (s.flows.toList.flatMap OAuthFlows.values ++ Extension.values s.extensions)

def Facets.values (f : Facets) : List Value :=
  f.sample :: f.const :: f.default :: (f.examples ++ (f.enum ++ Extension.values f.extensions))

def Link.values (l : Link) : List Value :=
  valuesUnless l.ref (l.requestBody :: (l.parameters.map Prod.snd ++ Extension.values l.extensions))

/-- The values of a visited node, those of its visited parts apart. -/
def Subject.values : Subject → List Value
  | .schema s => valuesUnless s.ref s.facets.values
  | .header h => valuesUnless h.ref (Example.allValues h.sample h.examples ++ Extension.values h.extensions)
  | .mediaType m => Example.allValues m.sample m.examples ++ Extension.values m.extensions
  | .encoding e => Extension.values e.extensions
  | .parameter x => valuesUnless x.ref (Example.allValues x.sample x.examples ++ Extension.values x.extensions)
  | .requestBody b => valuesUnless b.ref (Extension.values b.extensions)
  | .serverVariable v => Extension.values v.extensions
  | .server s => Extension.values s.extensions
  | .link l => l.values
  | .response r => valuesUnless r.ref (Extension.values r.extensions)
  | .operation o => o.externalDocs.toList.flatMap ExternalDocs.values ++ Extension.values o.extensions
  | .pathItem i => valuesUnless i.ref (Extension.values i.extensions)
  | .callback c => valuesUnless c.ref (Extension.values c.extensions)

def Components.values (c : Components) : List Value :=
  (c.examples.flatMap fun e => e.2.values) ++
    ((c.securitySchemes.flatMap fun s => s.2.values) ++ Extension.values c.extensions)

/-- The free-form values that a projection to a version comes to. -/
def Api.values (t : Target) (a : Api) : List Value :=
  a.info.values ++ ((a.visits t).flatMap (fun v => v.subject.values) ++
    (a.components.toList.flatMap Components.values ++ (a.tags.flatMap Tag.values ++
      (a.externalDocs.toList.flatMap ExternalDocs.values ++ Extension.values a.extensions))))

/-! ## Values of fields -/

/-- A property that flags and numbers have. -/
structure Value.Plain (P : Value → Prop) : Prop where
  flag : ∀ b, P (.bool b)
  number : ∀ n : Number, P n.toValue

namespace Node

variable {P : Value → Prop}

/-- Whether all free-form values of a node have a property. -/
def All (P : Value → Prop) (n : Node) : Prop := ∀ v ∈ n.values, P v

theorem valuesOfAll_eq (ns : List Node) : valuesOfAll ns = ns.flatMap values := by
  induction ns with
  | nil => rfl
  | cons n ns ih => rw [valuesOfAll, List.flatMap_cons, ih]

theorem valuesOfEntries_eq (es : List (String × Node)) : valuesOfEntries es = es.flatMap fun e => e.2.values := by
  induction es with
  | nil => rfl
  | cons e es ih => rw [valuesOfEntries, List.flatMap_cons, ih]

@[simp] theorem all_free {v : Value} : All P (.free v) ↔ P v := by simp [All, values]

@[simp] theorem all_text (s : String) : All P (.text s) := by simp [All, values]

@[simp] theorem all_reference (target : String) : All P (.reference target) := by
  simp [All, reference, values, valuesOfEntries]

@[simp] theorem all_list {ns : List Node} : All P (.list ns) ↔ ∀ n ∈ ns, All P n := by
  simp only [All, values, valuesOfAll_eq, List.forall_mem_flatMap]

theorem all_object {es : List (String × Node)} {xs : Extensions} :
    All P (.object es xs) ↔ (∀ e ∈ es, All P e.2) ∧ ∀ v ∈ Extension.values xs, P v := by
  simp only [All, values, valuesOfEntries_eq, List.forall_mem_append, List.forall_mem_flatMap, Extension.values]

@[simp] theorem all_plainObject {es : List (String × Node)} : All P (.object es []) ↔ ∀ e ∈ es, All P e.2 := by
  simp [all_object, Extension.values]

namespace Field

/-- Whether all free-form values of a field have a property. -/
def All (P : Value → Prop) (f : Field) : Prop := ∀ e ∈ f, Node.All P e.2

section
variable (name : String)

@[simp] theorem all_nil : All P [] := by simp [All]

@[simp] theorem all_single {n : Node} : All P [(name, n)] ↔ Node.All P n := by simp [All]

@[simp] theorem all_text (s : String) : All P (text name s) := (all_single name).2 (Node.all_text s)

@[simp] theorem all_text? (o : Option String) : All P (text? name o) := by
  unfold text?
  repeat' split
  all_goals simp

@[simp] theorem all_texts (ss : List String) : All P (texts name ss) := by
  unfold texts
  split <;> simp

theorem all_flag (hp : Value.Plain P) (b : Bool) : All P (flag name b) := by
  cases b <;> simp [flag, hp.flag]

theorem all_number? (hp : Value.Plain P) (o : Option Number) : All P (number? name o) := by
  cases o <;> simp [number?, hp.number]

theorem all_int? (hp : Value.Plain P) (o : Option Int) : All P (int? name o) := by
  cases o with
  | none => simp [int?]
  | some n => exact (all_single name).2 (Node.all_free.2 (hp.number (.int n)))

theorem all_free {v : Value} (h : P v) : All P (free name v) := by
  unfold free
  split <;> simp [h]

theorem all_frees {vs : List Value} (h : ∀ v ∈ vs, P v) : All P (frees name vs) := by
  unfold frees
  split
  · exact all_nil
  · simpa using h

theorem all_node? {o : Option Node} (h : ∀ n ∈ o, Node.All P n) : All P (node? name o) := by
  cases o with
  | none => exact all_nil
  | some n => exact (all_single name).2 (h n rfl)

theorem all_nodes {ns : List Node} (h : ∀ n ∈ ns, Node.All P n) : All P (nodes name ns) := by
  unfold nodes
  split
  · exact all_nil
  · simpa using h

theorem all_map? {α : Type} {g : α → Node} {o : Option α} (h : ∀ x ∈ o, Node.All P (g x)) :
    All P (node? name (o.map g)) := by
  cases o with
  | none => exact all_nil
  | some x => exact (all_single name).2 (h x rfl)

theorem all_named {ns : List (String × Node)} (h : ∀ e ∈ ns, Node.All P e.2) : All P (named name ns) := by
  unfold named
  split
  · exact all_nil
  · exact (all_single name).2 (all_plainObject.2 h)

end

end Field

theorem all_ofFields {fs : List Field} {xs : Extensions} :
    All P (.ofFields fs xs) ↔ (∀ f ∈ fs, f.All P) ∧ ∀ v ∈ Extension.values xs, P v := by
  rw [ofFields, all_object, List.forall_mem_flatten]
  rfl

end Node

theorem Extension.all_allowed {P : Value → Prop} {t : Target} {xs : Extensions}
    (h : ∀ v ∈ Extension.values xs, P v) : ∀ v ∈ Extension.values (allowed t xs), P v := by
  intro v hv
  obtain ⟨x, hm, rfl⟩ := List.mem_map.1 hv
  exact h x.2 (List.mem_map_of_mem (List.mem_of_mem_filter hm))

theorem Node.all_extended {P : Value → Prop} {t : Target} {fs : List Field} {xs : Extensions}
    (hf : ∀ f ∈ fs, f.All P) (hx : ∀ v ∈ Extension.values xs, P v) : All P (.extended t fs xs) :=
  all_ofFields.2 ⟨hf, Extension.all_allowed hx⟩

/-! ## Parts that are not visited -/

section
variable {P : Value → Prop} (t : Target)

theorem all_valuesUnless {ref : Option String} {vs : List Value} (h : ∀ v ∈ valuesUnless ref vs, P v)
    (hr : nonEmpty ref = none) : ∀ v ∈ vs, P v := by
  rw [valuesUnless, hr] at h
  exact h

theorem ExternalDocs.all_project {d : ExternalDocs} (h : ∀ v ∈ d.values, P v) : Node.All P (d.project t) :=
  Node.all_extended (by simp) h

theorem ExternalDocs.all_option {o : Option ExternalDocs} (h : ∀ v ∈ o.toList.flatMap values, P v) :
    ∀ n ∈ o.map fun d => d.project t, Node.All P n := by
  cases o with
  | none => simp
  | some d => simpa using d.all_project t (by simpa using h)

theorem Example.all_project {e : Example} (h : ∀ v ∈ e.values, P v) : Node.All P (e.project t) := by
  rw [project]
  cases hr : nonEmpty e.ref with
  | some target => exact Node.all_reference target
  | none =>
    have h := all_valuesUnless h hr
    rw [List.forall_mem_cons] at h
    exact Node.all_extended (by simp [Node.Field.all_free _ h.1]) h.2

theorem Example.all_projectAll {es : List (String × Example)} (h : ∀ v ∈ es.flatMap fun e => e.2.values, P v) :
    (projectAll t es).All P := by
  rw [List.forall_mem_flatMap] at h
  exact Node.Field.all_named _ (List.forall_mem_map.2 fun e he => e.2.all_project t (h e he))

theorem SecurityRequirement.all_project (r : SecurityRequirement) : Node.All P r.project :=
  Node.all_plainObject.2 (List.forall_mem_map.2 fun x _ => by simp)

end

/-! ## Visited nodes -/

/-- Whether all free-form values of a visited node have a property. -/
def Subject.All (P : Value → Prop) (u : Subject) : Prop := ∀ v ∈ u.values, P v

/-- Whether a node has a property wherever it is written if all nodes visited for it do. -/
def Passes (P : Value → Prop) (f : Pointer → Traced Node) (vs : List Visit) : Prop :=
  (∀ v ∈ vs, v.subject.All P) → ∀ p, Node.All P (f p).value

open Visit (Carries)

theorem Discriminator.all_toNode {P : Value → Prop} (d : Discriminator) : Node.All P d.toNode :=
  Node.all_ofFields.2 ⟨by simpa using Field.all_named _ (List.forall_mem_map.2 fun x _ => Node.all_text x.2),
    by simp [Extension.values]⟩

theorem Types31.all_field {P : Value → Prop} (ts : Types31) : ts.field.All P := by
  cases ts <;> simp [field]

section
variable {P : Value → Prop} (hp : Value.Plain P)
include hp

theorem XmlHints.all_toNode (x : XmlHints) : Node.All P x.toNode :=
  Node.all_ofFields.2 ⟨by simp [Field.all_flag _ hp], by simp [Extension.values]⟩

namespace Schema

theorem all_furtherField30 {o : Option (Additional Schema)} {p : Pointer}
    (h : ∀ a ∈ o, ∀ c ∈ a.schema, ∀ p, Node.All P (c.project .v30 p).value) :
    (Schema30.furtherField (additionalTo30 o p).value).All P := by
  match o with
  | none => exact Node.Field.all_nil
  | some ⟨none, none⟩ => exact Node.Field.all_nil
  | some ⟨some b, none⟩ => exact Node.Field.all_free _ (hp.flag b)
  | some ⟨_, some s⟩ => exact (Node.Field.all_single _).2 (h _ rfl s rfl p)

theorem all_furtherField31 {o : Option (Additional Schema)}
    (h : ∀ a ∈ o, ∀ c ∈ a.schema, ∀ p, Node.All P (c.project .v31 p).value) :
    (Schema31.furtherField (additionalTo31 o)).All P := by
  match o with
  | none => exact Node.Field.all_nil
  | some ⟨none, none⟩ => exact Node.Field.all_nil
  | some ⟨some b, none⟩ => exact Node.Field.all_free _ (hp.flag b)
  | some ⟨_, some s⟩ => exact (Node.Field.all_single _).2 (h _ rfl s rfl .root)

omit hp in
theorem all_values {f : Facets} : (∀ v ∈ f.values, P v) ↔ P f.sample ∧ P f.const ∧ P f.default ∧
    (∀ v ∈ f.examples, P v) ∧ (∀ v ∈ f.enum, P v) ∧ ∀ v ∈ Extension.values f.extensions, P v := by
  simp only [Facets.values, List.forall_mem_cons, List.forall_mem_append]

omit hp in
theorem all_example30 {f : Facets} (hsample : P f.sample) (hexamples : ∀ v ∈ f.examples, P v) :
    P (example30 f) := by
  unfold example30
  cases hl : f.examples with
  | nil => simpa using hsample
  | cons x xs => simpa using hexamples x (by simp [hl])

omit hp in
theorem all_enum30 {f : Facets} (hconst : P f.const) (henum : ∀ v ∈ f.enum, P v) : ∀ v ∈ enum30 f, P v := by
  unfold enum30
  split
  · simpa using hconst
  · exact henum

omit hp in
theorem all_examples31 {f : Facets} (hsample : P f.sample) (hexamples : ∀ v ∈ f.examples, P v) :
    ∀ v ∈ examples31 f, P v := by
  unfold examples31
  split
  · simpa using hsample
  · exact hexamples

theorem passes (t : Target) (s : Schema) : Passes P (s.project t) (s.visits t) := by
  induction s using Schema.ind with
  | step s ih =>
    rw [visits_eq]
    refine Carries.node (u := .schema s) Node.all_reference rfl fun hr hs hparts p => ?_
    simp only [parts, List.forall_mem_cons, Visit.forall_gather, Visit.forall_each, Visit.forall_items,
      Visit.forall_option] at hparts
    obtain ⟨hitems, hproperties, hfurther, hpatterns, hunevaluated, hallOf, hanyOf, honeOf, hnotOf, -⟩ := hparts
    have hfurther : ∀ a ∈ s.additional, ∀ c ∈ a.schema, ∀ p, Node.All P (c.project t p).value :=
      fun a ha c hc => ih.additional a ha c hc (hfurther c (Option.bind_eq_some_iff.2 ⟨a, ha, hc⟩))
    obtain ⟨hsample, hconst, hdefault, hexamples, henum, hx⟩ := all_values.1 (all_valuesUnless hs hr)
    have hxs : ∀ v ∈ Extension.values (Extension.allowed t s.facets.extensions), P v :=
      Extension.all_allowed hx
    cases t with
    | v30 =>
      rw [Subject.project, value_project30 s hr, Schema30.toNode]
      simp only [option_to30, named_to30, items_to30]
      refine Node.all_ofFields.2 ⟨?_, hxs⟩
      simp [Field.all_flag _ hp, Field.all_number? _ hp, Field.all_int? _ hp,
        Field.all_free _ (all_example30 hsample hexamples), Field.all_frees _ (all_enum30 hconst henum),
        common30, annotations, Field.all_free _ hdefault,
        Field.all_map? _ fun d _ => Discriminator.all_toNode d, Field.all_map? _ fun x _ => XmlHints.all_toNode hp x,
        Field.all_node? _ (Carries.option _ ih.items hitems), Field.all_node? _ (Carries.option _ ih.notOf hnotOf),
        Field.all_named _ (Carries.named _ ih.properties hproperties),
        Field.all_nodes _ (Carries.items _ ih.allOf hallOf),
        Field.all_nodes _ (Carries.items _ ih.anyOf hanyOf), Field.all_nodes _ (Carries.items _ ih.oneOf honeOf),
        all_furtherField30 hp hfurther]
    | v31 =>
      have hpatterns := Visit.forall_each.1 (Visit.forall_gather.1 hpatterns)
      have hunevaluated := Visit.forall_option.1 hunevaluated
      rw [Subject.project, value_project31 s hr, Schema31.toNode]
      simp only [option_to31 p, named_to31 p, items_to31 p]
      refine Node.all_ofFields.2 ⟨?_, hxs⟩
      simp [Field.all_flag _ hp, Field.all_number? _ hp, Field.all_int? _ hp, Field.all_free _ hsample,
        Field.all_free _ hconst, Field.all_frees _ henum,
        Field.all_frees _ (all_examples31 hsample hexamples), keywords31, annotations, Field.all_free _ hdefault,
        Types31.all_field,
        Field.all_map? _ fun d _ => Discriminator.all_toNode d, Field.all_map? _ fun x _ => XmlHints.all_toNode hp x,
        Field.all_node? _ (Carries.option _ ih.items hitems), Field.all_node? _ (Carries.option _ ih.notOf hnotOf),
        Field.all_node? _ (Carries.option _ ih.unevaluated hunevaluated),
        Field.all_named _ (Carries.named _ ih.patternProperties hpatterns),
        Field.all_named _ (Carries.named _ ih.properties hproperties),
        Field.all_nodes _ (Carries.items _ ih.allOf hallOf),
        Field.all_nodes _ (Carries.items _ ih.anyOf hanyOf), Field.all_nodes _ (Carries.items _ ih.oneOf honeOf),
        all_furtherField31 hp hfurther]

end Schema

/-! ### Servers -/

omit hp in
theorem ServerVariable.passes (t : Target) (v : ServerVariable) : Passes P (v.project t) v.visits := by
  intro h p
  have hx : ∀ x ∈ Extension.values v.extensions, P x := h _ (List.mem_singleton_self _)
  rw [v.value_project]
  exact Node.all_extended (by simp) hx

omit hp in
theorem Server.passes (t : Target) (s : Server) : Passes P (s.project t) s.visits := by
  refine Carries.whole (u := .server s) fun hs hparts p => ?_
  rw [List.forall_mem_singleton, Visit.forall_gather, Visit.forall_each] at hparts
  have hvars := Carries.named (p.key "variables") (fun x _ => ServerVariable.passes t x.2) hparts
  rw [Subject.project, s.value_project]
  exact Node.all_extended (by simpa using Field.all_named _ hvars) hs

/-! ### Headers and bodies -/

theorem Header.passes_steps (t : Target) : Header.Steps (fun h => Passes P (h.project t) (h.visits t))
    (fun m => Passes P (m.project t) (m.visits t)) fun e => Passes P (e.project t) (e.visits t) where
  header h hc := by
    rw [Header.visits_eq]
    refine Carries.node (u := .header h) Node.all_reference rfl fun hr hs hparts p => ?_
    simp only [List.forall_mem_cons, Visit.forall_option, Visit.forall_gather, Visit.forall_each] at hparts
    obtain ⟨hschema, hcontent, -⟩ := hparts
    have hschema := Carries.option (p.key "schema") (fun s _ => Schema.passes hp t s) hschema
    have hcontent := Carries.named (p.key "content") hc hcontent
    obtain ⟨hbody, hx⟩ := List.forall_mem_append.1 (all_valuesUnless hs hr)
    obtain ⟨hsample, hexamples⟩ := List.forall_mem_cons.1 hbody
    rw [Subject.project, h.value_project hr]
    refine Node.all_extended ?_ hx
    simp [Field.all_flag _ hp, Field.all_free _ hsample, Example.all_projectAll t hexamples,
      Field.all_node? _ hschema, Field.all_named _ hcontent]
  mediaType m he := by
    rw [MediaType.visits_eq]
    refine Carries.whole (u := .mediaType m) fun hs hparts p => ?_
    simp only [List.forall_mem_cons, Visit.forall_option, Visit.forall_gather, Visit.forall_each] at hparts
    obtain ⟨hencoding, hschema, -⟩ := hparts
    have hencoding := Carries.named (p.key "encoding") he hencoding
    have hschema := Carries.option (p.key "schema") (fun s _ => Schema.passes hp t s) hschema
    obtain ⟨hbody, hx⟩ := List.forall_mem_append.1 hs
    obtain ⟨hsample, hexamples⟩ := List.forall_mem_cons.1 hbody
    rw [Subject.project, m.value_project]
    refine Node.all_extended ?_ hx
    simp [Field.all_free _ hsample, Example.all_projectAll t hexamples, Field.all_node? _ hschema,
      Field.all_named _ hencoding]
  encoding e hh := by
    rw [Encoding.visits_eq]
    refine Carries.whole (u := .encoding e) fun hx hparts p => ?_
    rw [List.forall_mem_singleton, Visit.forall_gather, Visit.forall_each] at hparts
    have hheaders := Carries.named (p.key "headers") hh hparts
    rw [Subject.project, e.value_project]
    refine Node.all_extended ?_ hx
    simp [Field.all_flag _ hp, Field.all_named _ hheaders]

theorem Header.passes (t : Target) (h : Header) : Passes P (h.project t) (h.visits t) :=
  (Header.ind (Header.passes_steps hp t)).1 h

theorem MediaType.passes (t : Target) (m : MediaType) : Passes P (m.project t) (m.visits t) :=
  (Header.ind (Header.passes_steps hp t)).2.1 m

theorem Parameter.passes (t : Target) (x : Parameter) : Passes P (x.project t) (x.visits t) := by
  refine Carries.node (u := .parameter x) Node.all_reference rfl fun hr hs hparts p => ?_
  simp only [List.forall_mem_cons, Visit.forall_option, Visit.forall_gather, Visit.forall_each] at hparts
  obtain ⟨hschema, hcontent, -⟩ := hparts
  have hschema := Carries.option (p.key "schema") (fun s _ => Schema.passes hp t s) hschema
  have hcontent := Carries.named (p.key "content") (fun m _ => MediaType.passes hp t m.2) hcontent
  obtain ⟨hbody, hx⟩ := List.forall_mem_append.1 (all_valuesUnless hs hr)
  obtain ⟨hsample, hexamples⟩ := List.forall_mem_cons.1 hbody
  rw [Subject.project, x.value_project hr]
  refine Node.all_extended ?_ hx
  simp [Field.all_flag _ hp, Field.all_free _ hsample, Example.all_projectAll t hexamples,
    Field.all_node? _ hschema, Field.all_named _ hcontent]

theorem RequestBody.passes (t : Target) (b : RequestBody) : Passes P (b.project t) (b.visits t) := by
  refine Carries.node (u := .requestBody b) Node.all_reference rfl fun hr hs hparts p => ?_
  rw [List.forall_mem_singleton, Visit.forall_gather, Visit.forall_each] at hparts
  have hcontent := Carries.named (p.key "content") (fun m _ => MediaType.passes hp t m.2) hparts
  rw [Subject.project, b.value_project hr]
  refine Node.all_extended ?_ (all_valuesUnless hs hr)
  simpa [Field.all_flag _ hp] using Node.all_plainObject.2 hcontent

/-! ### Responses -/

omit hp in
theorem Link.passes (t : Target) (l : Link) : Passes P (l.project t) l.visits := by
  refine Carries.node (u := .link l) Node.all_reference rfl fun hr hs hparts p => ?_
  rw [List.forall_mem_singleton, Visit.forall_option] at hparts
  have hserver := Carries.option (p.key "server") (fun s _ => Server.passes t s) hparts
  obtain ⟨hbody, hrest⟩ := List.forall_mem_cons.1 (all_valuesUnless hs hr)
  obtain ⟨hparameters, hx⟩ := List.forall_mem_append.1 hrest
  have hparameters : ∀ e ∈ l.parameters.map fun v => (v.1, Node.free v.2), Node.All P e.2 :=
    List.forall_mem_map.2 fun e he => Node.all_free.2 (hparameters e.2 (List.mem_map_of_mem he))
  rw [Subject.project, l.value_project hr]
  refine Node.all_extended ?_ hx
  simp [Field.all_free _ hbody, Field.all_named _ hparameters, Field.all_node? _ hserver]

theorem Response.passes (t : Target) (r : Response) : Passes P (r.project t) (r.visits t) := by
  refine Carries.node (u := .response r) Node.all_reference rfl fun hr hs hparts p => ?_
  simp only [List.forall_mem_cons, Visit.forall_gather, Visit.forall_each] at hparts
  obtain ⟨hlinks, hheaders, hcontent, -⟩ := hparts
  have hlinks := Carries.named (p.key "links") (fun l _ => Link.passes t l.2) hlinks
  have hheaders := Carries.named (p.key "headers") (fun x _ => Header.passes hp t x.2) hheaders
  have hcontent := Carries.named (p.key "content") (fun m _ => MediaType.passes hp t m.2) hcontent
  rw [Subject.project, r.value_project hr]
  refine Node.all_extended ?_ (all_valuesUnless hs hr)
  simp [Field.all_named _ hlinks, Field.all_named _ hheaders, Field.all_named _ hcontent]

/-! ### Operations -/

theorem Operation.passes_steps (t : Target) : Operation.Steps (fun o => Passes P (o.project t) (o.visits t))
    (fun i => Passes P (i.project t) (i.visits t)) fun c => Passes P (c.project t) (c.visits t) where
  operation o hc := by
    rw [Operation.visits_eq]
    refine Carries.whole (u := .operation o) fun hs hparts p => ?_
    simp only [List.forall_mem_cons, Visit.forall_gather, Visit.forall_items, Visit.forall_option,
      Visit.forall_each] at hparts
    obtain ⟨hparameters, hbody, hresponses, hcallbacks, hservers, -⟩ := hparts
    obtain ⟨hdocs, hx⟩ := List.forall_mem_append.1 hs
    have hparameters := Carries.items (p.key "parameters") (fun x _ => Parameter.passes hp t x) hparameters
    have hbody := Carries.option (p.key "requestBody") (fun b _ => RequestBody.passes hp t b) hbody
    have hresponses := Carries.named (p.key "responses") (fun r _ => Response.passes hp t r.2) hresponses
    have hcallbacks := Carries.named (p.key "callbacks") hc hcallbacks
    have hservers := Carries.items (p.key "servers") (fun s _ => Server.passes t s) hservers
    have hsecurity : ∀ n ∈ o.security.map SecurityRequirement.project, Node.All P n :=
      List.forall_mem_map.2 fun r _ => r.all_project
    rw [Subject.project, o.value_project]
    refine Node.all_extended ?_ hx
    simp [Field.all_flag _ hp, Field.all_node? _ (ExternalDocs.all_option t hdocs), Field.all_nodes _ hparameters,
      Field.all_node? _ hbody, Node.all_plainObject.2 hresponses, Field.all_named _ hcallbacks,
      Field.all_nodes _ hsecurity, Field.all_nodes _ hservers]
  pathItem i ho := by
    rw [PathItem.visits_eq]
    refine Carries.node (u := .pathItem i) Node.all_reference rfl fun hr hs hparts p => ?_
    rw [List.forall_mem_cons, Visit.forall_gather, Visit.forall_items, Visit.forall_each] at hparts
    have hparameters := Carries.items (p.key "parameters") (fun x _ => Parameter.passes hp t x) hparts.1
    have hoperations : Field.All P _ := Carries.named p (List.forall_mem_map.2 ho) hparts.2
    rw [Subject.project, i.value_project hr]
    refine Node.all_extended ?_ (all_valuesUnless hs hr)
    simp [hoperations, Field.all_nodes _ hparameters]
  callback c hi := by
    rw [Callback.visits_eq]
    refine Carries.node (u := .callback c) Node.all_reference rfl fun hr hs hparts p => ?_
    rw [Visit.forall_each] at hparts
    have hitems : Field.All P _ := Carries.named p hi hparts
    rw [Subject.project, c.value_project hr]
    exact Node.all_extended (List.forall_mem_singleton.2 hitems) (all_valuesUnless hs hr)

theorem PathItem.passes (t : Target) (i : PathItem) : Passes P (i.project t) (i.visits t) :=
  (Operation.ind (Operation.passes_steps hp t)).2.1 i

theorem Callback.passes (t : Target) (c : Callback) : Passes P (c.project t) (c.visits t) :=
  (Operation.ind (Operation.passes_steps hp t)).2.2 c

/-! ## The whole -/

omit hp in
theorem OAuthFlow.all_project (t : Target) {f : OAuthFlow} (h : ∀ v ∈ Extension.values f.extensions, P v) :
    Node.All P (f.project t) := by
  refine Node.all_extended ?_ h
  have hscopes : ∀ e ∈ f.scopes.map fun s => (s.1, Node.text s.2), Node.All P e.2 :=
    List.forall_mem_map.2 fun s _ => Node.all_text s.2
  simpa using Node.all_plainObject.2 hscopes

omit hp in
theorem OAuthFlows.all_project? (t : Target) {f : OAuthFlows} (h : ∀ v ∈ f.values, P v) :
    ∀ n ∈ f.project? t, Node.All P n := by
  obtain ⟨hflows, hx⟩ := List.forall_mem_append.1 h
  simp only [List.forall_mem_flatMap, List.forall_mem_cons] at hflows
  have flow (name : String) {o : Option OAuthFlow}
      (ho : ∀ f ∈ o.toList, ∀ v ∈ Extension.values f.extensions, P v) :
      Field.All P (.node? name (o.map fun f => f.project t)) :=
    Field.all_map? name fun f hf => OAuthFlow.all_project t (ho f (Option.mem_toList.2 hf))
  obtain ⟨himplicit, hpassword, hclient, hcode, -⟩ := hflows
  intro n hn
  unfold project? at hn
  simp only at hn
  split at hn
  · cases hn
  · cases hn
    refine Node.all_extended (List.forall_mem_singleton.2 (List.forall_mem_flatten.2 ?_)) hx
    simp only [List.forall_mem_cons]
    exact ⟨flow _ himplicit, flow _ hpassword, flow _ hclient, flow _ hcode, by simp⟩

omit hp in
theorem SecurityScheme.all_project (t : Target) {s : SecurityScheme} (h : ∀ v ∈ s.values, P v) :
    Node.All P (s.project t) := by
  rw [project]
  cases hr : nonEmpty s.ref with
  | some target => exact Node.all_reference target
  | none =>
    obtain ⟨hflows, hx⟩ := List.forall_mem_append.1 (all_valuesUnless h hr)
    rw [List.forall_mem_flatMap] at hflows
    have htype : ∀ n ∈ s.type.map Node.text, Node.All P n := by simp
    have hflows : ∀ n ∈ s.flows.bind fun f => f.project? t, Node.All P n := fun n hn => by
      obtain ⟨f, hf, hn⟩ := Option.bind_eq_some_iff.1 hn
      exact f.all_project? t (hflows f (Option.mem_toList.2 hf)) n hn
    refine Node.all_extended ?_ hx
    simp [Field.all_node? _ htype, Field.all_node? _ hflows]

theorem Components.all_written (t : Target) {c : Components} (h : ∀ v ∈ c.values, P v)
    (hv : ∀ v ∈ c.visits t, v.subject.All P) : Node.All P (c.written t) := by
  simp only [values, List.forall_mem_append, List.forall_mem_flatMap] at h
  obtain ⟨hexamples, hschemes, hx⟩ := h
  simp only [visits, Visit.forall_gather, List.forall_mem_cons, Visit.forall_each] at hv
  obtain ⟨hpathItems, hschemas, hresponses, hparameters, hbodies, hheaders, hlinks, hcallbacks, -⟩ := hv
  have hpathItems : ∀ e ∈ if t.isFeatureRich then
      (Traced.named (PathItem.project t) (place.key "pathItems") c.pathItems).value else [], Node.All P e.2 := by
    cases t with
    | v30 => simp [Target.isFeatureRich]
    | v31 =>
      have hvisits := Visit.forall_each.1 (Visit.forall_gather.1 hpathItems)
      exact Carries.named _ (fun i _ => PathItem.passes hp .v31 i.2) hvisits
  have hschemes : ∀ e ∈ (c.schemes t).map fun s => (s.1, s.2.project t), Node.All P e.2 := by
    refine List.forall_mem_map.2 fun s hs => SecurityScheme.all_project t (hschemes s ?_)
    cases t with
    | v30 => exact List.mem_of_mem_filter hs
    | v31 => exact hs
  have hschemas := Carries.named (place.key "schemas") (fun s _ => Schema.passes hp t s.2) hschemas
  have hresponses := Carries.named (place.key "responses") (fun r _ => Response.passes hp t r.2) hresponses
  have hparameters := Carries.named (place.key "parameters") (fun x _ => Parameter.passes hp t x.2) hparameters
  have hbodies := Carries.named (place.key "requestBodies") (fun b _ => RequestBody.passes hp t b.2) hbodies
  have hheaders := Carries.named (place.key "headers") (fun x _ => Header.passes hp t x.2) hheaders
  have hlinks := Carries.named (place.key "links") (fun l _ => Link.passes t l.2) hlinks
  have hcallbacks := Carries.named (place.key "callbacks") (fun x _ => Callback.passes hp t x.2) hcallbacks
  rw [written_eq, node, shared]
  simp only [Header.projectNamed_eq, Callback.projectNamed_eq, Traced.value_bind, Traced.value_pure]
  refine Node.all_extended ?_ hx
  simp [Field.all_named _ hschemas, Field.all_named _ hresponses, Field.all_named _ hparameters,
    Example.all_projectAll t (List.forall_mem_flatMap.2 hexamples), Field.all_named _ hbodies,
    Field.all_named _ hheaders, Field.all_named _ hschemes, Field.all_named _ hlinks,
    Field.all_named _ hcallbacks, Field.all_named _ hpathItems]

omit hp in
theorem Contact.all_project (t : Target) {c : Contact} (h : ∀ v ∈ Extension.values c.extensions, P v) :
    Node.All P (c.project t) :=
  Node.all_extended (by simp) h

omit hp in
theorem Tag.all_project (t : Target) {g : Tag} (h : ∀ v ∈ g.values, P v) : Node.All P (g.project t) := by
  obtain ⟨hdocs, hx⟩ := List.forall_mem_append.1 h
  refine Node.all_extended ?_ hx
  simp [Field.all_node? _ (ExternalDocs.all_option t hdocs)]

/-- The general information in the document of a version. -/
def Info.written (t : Target) (i : Info) : Node :=
  match t with
  | .v30 => i.project30.value
  | .v31 => i.written31

omit hp in
theorem Info.all_written (t : Target) {i : Info} (h : ∀ v ∈ i.values, P v) : Node.All P (i.written t) := by
  simp only [values, List.forall_mem_append, List.forall_mem_flatMap] at h
  obtain ⟨hcontact, hlicense, hx⟩ := h
  have hcontact : (Field.node? "contact" (i.contact.map fun c => c.project t)).All P :=
    Field.all_map? _ fun c hc => c.all_project t (hcontact c (Option.mem_toList.2 hc))
  have hlicense {f : License → Node}
      (hf : ∀ l : License, (∀ v ∈ Extension.values l.extensions, P v) → Node.All P (f l)) :
      (Field.node? "license" (i.license.map f)).All P :=
    Field.all_map? _ fun l hl => hf l (hlicense l (Option.mem_toList.2 hl))
  cases t with
  | v30 =>
    have hlicense := hlicense (f := fun l => l.project30.value) fun l hl => Node.all_extended (by simp) hl
    refine Node.all_extended ?_ hx
    simp [hcontact, Traced.value_option, hlicense]
  | v31 =>
    have hlicense := hlicense (f := License.written31) fun l hl => Node.all_extended (by simp) hl
    refine Node.all_extended ?_ hx
    simp [hcontact, hlicense]

omit hp in
theorem Api.servers31_cases (a : Api) : a.servers31 = [defaultServer] ∨
    a.servers31 = (Traced.items (Server.project .v31) (Pointer.root.key "servers") 0 a.servers).value :=
  ite_eq_or_eq _ _ _

/-- What holds of all free-form values that a projection comes to, of flags and of numbers holds of all
free-form values of the document. -/
theorem Api.forall_values_written (t : Target) {a : Api} (h : ∀ v ∈ a.values t, P v) :
    ∀ v ∈ (a.written t).values, P v := by
  simp only [values, List.forall_mem_append, List.forall_mem_flatMap] at h
  obtain ⟨hinfo, hvisits, hcomponents, htags, hdocs, hx⟩ := h
  have hvisits : ∀ v ∈ a.visits t, v.subject.All P := hvisits
  simp only [visits, Visit.forall_gather, List.forall_mem_cons, Visit.forall_items, Visit.forall_each,
    Visit.forall_option] at hvisits
  obtain ⟨hservers, hpaths, hparts, hwebhooks, -⟩ := hvisits
  have hinfo := Info.all_written t hinfo
  have hservers := Carries.items (Pointer.root.key "servers") (fun s _ => Server.passes t s) hservers
  have hpaths := Carries.named (Pointer.root.key "paths") (fun i _ => PathItem.passes hp t i.2) hpaths
  have hcomponents : (Field.node? "components" (a.components.map fun c => c.written t)).All P :=
    Field.all_map? _ fun c hc =>
      Components.all_written hp t (hcomponents c (Option.mem_toList.2 hc)) (hparts c hc)
  have htags : ∀ n ∈ a.tags.map fun g => g.project t, Node.All P n :=
    List.forall_mem_map.2 fun g hg => g.all_project t (htags g hg)
  have hdocs := ExternalDocs.all_option t (List.forall_mem_flatMap.2 hdocs)
  have hsecurity : ∀ n ∈ a.security.map SecurityRequirement.project, Node.All P n :=
    List.forall_mem_map.2 fun r _ => r.all_project
  cases t with
  | v30 =>
    have hfields : Field.All P [("info", a.info.project30.value)] := (Field.all_single _).2 hinfo
    have hcomponents : (Field.node? "components" (a.components.map Components.written30)).All P := hcomponents
    rw [written, written30, Server.projectAll, PathItem.projectNamed_eq]
    refine Node.all_extended ?_ hx
    simp [Field.all_nodes _ hservers, Node.all_plainObject.2 hpaths, hcomponents, Field.all_nodes _ hsecurity,
      Field.all_nodes _ htags, Field.all_node? _ hdocs, hfields]
  | v31 =>
    have hfields : Field.All P [("info", a.info.written31)] := (Field.all_single _).2 hinfo
    have hcomponents : (Field.node? "components" (a.components.map fun c => c.project31.value)).All P := hcomponents
    have hdefault : Node.All P defaultServer := Node.all_plainObject.2 (List.forall_mem_singleton.2 (Node.all_text _))
    have hservers : ∀ n ∈ a.servers31, Node.All P n := by
      rcases a.servers31_cases with h | h
      · rw [h, List.forall_mem_singleton]
        exact hdefault
      · rw [h]
        exact hservers
    have hwebhooks := Carries.named (Pointer.root.key "webhooks") (fun i _ => PathItem.passes hp .v31 i.2)
      (Visit.forall_each.1 (Visit.forall_gather.1 hwebhooks))
    rw [written, written31, PathItem.projectNamed_eq, PathItem.projectNamed_eq]
    refine Node.all_extended ?_ hx
    simp [Field.all_nodes _ hservers, Field.all_named _ hpaths, Field.all_named _ hwebhooks, hcomponents,
      Field.all_nodes _ hsecurity, Field.all_nodes _ htags, Field.all_node? _ hdocs, hfields]

end
end ApiProjection
