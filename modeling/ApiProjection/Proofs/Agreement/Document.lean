import ApiProjection.Proofs.Agreement.Nodes
import ApiProjection.Proofs.Failure.Writable
import ApiProjection.Proofs.Visit.Warnings
/-!
# The documents of the two versions agree

What the versions write in code of their own (general information, reusable parts, the whole) is written
alike too, if a description keeps to common features.

* `Components.agree`, `Info.agree`: the same node in both versions, up to the order of keys.
* `Api.written_alike`: the two documents are what tells their versions, followed by members that are alike.
* `Api.projections_agree`: both projections succeed, strict or not, and lose nothing.
-/
namespace ApiProjection

open Node (Agree EntriesAgree Field)

/-! ## Security -/

theorem OAuthFlow.agree {f : OAuthFlow} (h : Extension.Common f.extensions) :
    Agree (f.project .v30) (f.project .v31) := by
  have scopes := Node.agree_plain (Node.entriesAgree_texts f.scopes)
  exact Node.agree_extended (by simp [Field.agree_single _ scopes]) h

theorem OAuthFlows.agree {f : OAuthFlows} (h : f.Common) :
    Option.Rel Agree (f.project? .v30) (f.project? .v31) := by
  have hflow (name : String) {o : Option OAuthFlow} (ho : ∀ x ∈ o, Extension.Common x.extensions) :
      EntriesAgree (Field.node? name (o.map fun x => x.project .v30))
        (Field.node? name (o.map fun x => x.project .v31)) :=
    Field.agree_node? _ (Node.agree_map? (f := fun t (x : OAuthFlow) => x.project t) fun x hx =>
      OAuthFlow.agree (ho x hx))
  have hflows := h.flows
  simp only [List.forall_mem_cons] at hflows
  obtain ⟨himplicit, hpassword, hclient, hcode, -⟩ := hflows
  have hall := Node.entriesAgree_flatten <| .cons (hflow "implicit" himplicit) <|
    .cons (hflow "password" hpassword) <| .cons (hflow "clientCredentials" hclient) <|
    .cons (hflow "authorizationCode" hcode) .nil
  simp only [OAuthFlows.project?]
  revert hall
  generalize List.flatten _ = es
  generalize List.flatten _ = fs
  rintro (_ | ⟨he, hes⟩)
  · exact .none
  · exact .some (Node.agree_extended (.cons (.cons he hes) .nil) h.extensions)

theorem SecurityScheme.agree {s : SecurityScheme} (h : s.Common) : Agree (s.project .v30) (s.project .v31) := by
  unfold SecurityScheme.project
  cases hr : nonEmpty s.ref with
  | some target => exact Node.agree_reference target
  | none =>
    have type : Option.Rel Agree (s.type.map Node.text) (s.type.map Node.text) :=
      Node.agree_map? (f := fun _ => Node.text) fun _ _ => Node.agree_refl rfl
    have flows : Option.Rel Agree (s.flows.bind fun f => f.project? .v30) (s.flows.bind fun f => f.project? .v31) := by
      have hflows := h.flows hr
      cases hf : s.flows with
      | none => exact .none
      | some f => exact OAuthFlows.agree (hflows f hf)
    exact Node.agree_extended (by simp [Field.agree_node? _ type, Field.agree_node? _ flows]) (h.extensions hr)

/-! ## General information -/

theorem Node.Field.text?_unset {o : Option String} (h : nonEmpty o = none) (name : String) :
    Field.text? name o = [] :=
  (Field.text?_inj name (p := none)).2 h

theorem License.agree {l : License} (h : l.Common) : Agree l.project30.value l.written31 := by
  have hidentifier : EntriesAgree [] (Field.text? "identifier" l.identifier) := by
    rw [Field.text?_unset h.identifier]
    exact .nil
  have hagree := Node.agree_extended (.cons (Field.agree_text "name" l.name) <| .cons hidentifier <|
    .cons (Field.agree_text? "url" l.url) .nil) h.extensions
  exact hagree

theorem Info.agree {i : Info} (h : i.Common) : Agree i.project30.value i.written31 := by
  have hsummary : EntriesAgree [] (Field.text? "summary" i.summary) := by
    rw [Field.text?_unset h.summary]
    exact .nil
  have contact : Option.Rel Agree (i.contact.map fun c => c.project .v30) (i.contact.map fun c => c.project .v31) :=
    Node.agree_map? (f := fun t (c : Contact) => c.project t) fun c hc =>
      Node.agree_extended (by simp) (h.contact c hc)
  have license : Option.Rel Agree (Traced.option (fun l _ => License.project30 l) .root i.license).value
      (i.license.map License.written31) := by
    have hlicense := h.license
    cases hl : i.license with
    | none => exact .none
    | some l => exact .some (License.agree (hlicense l hl))
  have hagree := Node.agree_extended (.cons (Field.agree_text "title" i.title) <| .cons hsummary <|
    .cons (Field.agree_text? "description" i.description) <|
    .cons (Field.agree_text? "termsOfService" i.termsOfService) <|
    .cons (Field.agree_node? "contact" contact) <| .cons (Field.agree_node? "license" license) <|
    .cons (Field.agree_text "version" i.version) .nil) h.extensions
  exact hagree

/-! ## Components -/

theorem Components.agree {c : Components} (h : c.Common) (hv : ∀ v ∈ c.visits .v30, v.subject.Common) :
    Agree c.written30 c.project31.value := by
  simp only [Components.visits, Visit.forall_gather, List.forall_mem_cons, Visit.forall_each] at hv
  obtain ⟨-, hschemas, hresponses, hparameters, hbodies, hheaders, hlinks, hcallbacks, -⟩ := hv
  have hkept : (c.securitySchemes.filter fun s => !isMutualTls s.2) = c.securitySchemes :=
    List.filter_eq_self.2 fun s hs => by simp [(h.securitySchemes s hs).type]
  have schemas := Agrees.named (f := Schema.project) (place.key "schemas") fun s hs => s.2.agrees (hschemas s hs)
  have responses := Agrees.named (f := fun t (r : Response) => r.project t) (place.key "responses")
    fun r hr => Response.agrees (hresponses r hr)
  have parameters := Agrees.named (f := fun t (x : Parameter) => x.project t) (place.key "parameters")
    fun x hx => Parameter.agrees (hparameters x hx)
  have bodies := Agrees.named (f := fun t (b : RequestBody) => b.project t) (place.key "requestBodies")
    fun b hb => RequestBody.agrees (hbodies b hb)
  have headers := Agrees.named (f := Header.project) (place.key "headers")
    fun x hx => Header.agrees (hheaders x hx)
  have schemes := Node.entriesAgree_map (f := fun t (s : SecurityScheme) => s.project t)
    fun s hs => SecurityScheme.agree (h.securitySchemes s hs)
  have links := Agrees.named (f := fun t (l : Link) => l.project t) (place.key "links")
    fun l hl => Link.agrees (hlinks l hl)
  have callbacks := Agrees.named (f := Callback.project) (place.key "callbacks")
    fun x hx => Callback.agrees (hcallbacks x hx)
  rw [written30, hkept, project31, h.pathItems]
  refine Node.agree_extended ?_ h.extensions
  simp [shared, Header.projectNamed_eq, Callback.projectNamed_eq, Field.agree_named _ schemas,
    Field.agree_named _ responses, Field.agree_named _ parameters, Example.agree_all h.examples,
    Field.agree_named _ bodies, Field.agree_named _ headers, Field.agree_named _ schemes,
    Field.agree_named _ links, Field.agree_named _ callbacks, PathItem.projectNamed, Field.agree_named _ .nil]

/-! ## Integers with too many digits -/

namespace Json

/-- Values that are alike have the same integers. -/
theorem Alike.hasLongInteger {i j : Json} (h : i.Alike j) : i.hasLongInteger = j.hasLongInteger := by
  have hperm {ms ns : List (String × Json)} (hp : ms.Perm ns) : anyLongMember ms = anyLongMember ns := by
    induction hp with
    | nil => rfl
    | cons m _ ih => simp [anyLongMember, ih]
    | swap m n ms => simp [anyLongMember, Bool.or_left_comm]
    | trans _ _ ih ih' => exact ih.trans ih'
  have hvalues (ms : List (String × Json)) : anyLongMember ms = anyLong (ms.map Prod.snd) := by
    induction ms with
    | nil => rfl
    | cons m ms ih => simp [anyLongMember, anyLong, ih]
  refine @Alike.rec (fun i j _ => i.hasLongInteger = j.hasLongInteger)
    (fun is js _ => anyLong is = anyLong js) ?_ ?_ ?_ ?_ ?_ i j h
  · exact fun _ => rfl
  · exact fun _ ih => ih
  · intro ms ns os hp _ _ ih
    simp only [Json.hasLongInteger, hperm hp, hvalues ns, hvalues os, ih]
  · rfl
  · intro i j is js _ _ hi his
    simp only [anyLong, hi, his]

theorem hasLongInteger_headed (head : List (String × String)) (ms : List (String × Json)) :
    (Json.object (head.map (fun e => (e.1, .text e.2)) ++ ms)).hasLongInteger = (Json.object ms).hasLongInteger := by
  simp only [hasLongInteger]
  induction head with
  | nil => rfl
  | cons e head ih => simpa [anyLongMember, hasLongInteger] using ih

end Json

/-! ## The whole -/

namespace Api

/-- What stands in front of a document. -/
def head : Target → List (String × String)
  | .v30 => [("openapi", "3.0.4")]
  | .v31 => [("openapi", "3.1.2"), ("jsonSchemaDialect", schemaDialect)]

theorem head_plain (t : Target) : ∀ e ∈ head t, "x-".isPrefixOf e.1 = false := by
  simp only [Node.isPrefixOf_eq_false]
  cases t <;> decide

/-- Both documents can be written down, and behind what tells their versions they are alike. -/
theorem written_alike {a : Api} (h : a.Common) : ∃ ms ns : List (String × Json),
    a.written30.toJson = .ok (.object ((head .v30).map (fun e => (e.1, .text e.2)) ++ ms)) ∧
    a.written31.toJson = .ok (.object ((head .v31).map (fun e => (e.1, .text e.2)) ++ ns)) ∧
    Json.MembersAlike ms ns := by
  have hv := h.visits
  simp only [visits, Visit.forall_gather, List.forall_mem_cons, Visit.forall_each, Visit.forall_items,
    Visit.forall_option] at hv
  obtain ⟨hservers, hpaths, hcomponents, -, -⟩ := hv
  have servers : EntriesAgree
      (Field.nodes "servers" (Server.projectAll .v30 a.servers (Pointer.root.key "servers")).value)
      (Field.nodes "servers" a.servers31) := by
    have hsome : a.servers31 = (Server.projectAll .v31 a.servers (Pointer.root.key "servers")).value := by
      simp [servers31, Server.projectAll, Traced.value_items, h.servers]
    rw [hsome]
    exact Field.agree_nodes _ (Agrees.items (f := fun t (s : Server) => s.project t) _ fun s hs =>
      Server.agrees (hservers s hs))
  have paths : EntriesAgree
      [("paths", .object (PathItem.projectNamed .v30 a.paths (Pointer.root.key "paths")).value [])]
      (Field.named "paths" (PathItem.projectNamed .v31 a.paths (Pointer.root.key "paths")).value) := by
    have hsome : (PathItem.projectNamed .v31 a.paths (Pointer.root.key "paths")).value ≠ [] := by
      simp [PathItem.projectNamed_eq, Traced.value_named, h.paths]
    rw [Field.named, if_neg (by simpa using hsome), PathItem.projectNamed_eq, PathItem.projectNamed_eq]
    exact Field.agree_single _ (Node.agree_plain (Agrees.named (f := PathItem.project) _ fun i hi =>
      PathItem.agrees (hpaths i hi)))
  have webhooks : EntriesAgree []
      (Field.named "webhooks" (PathItem.projectNamed .v31 a.webhooks (Pointer.root.key "webhooks")).value) := by
    rw [h.webhooks]
    exact .nil
  have components : Option.Rel Agree (a.components.map Components.written30)
      (a.components.map fun c => c.project31.value) := by
    have hc := h.components
    revert hc hcomponents
    cases a.components with
    | none => exact fun _ _ => .none
    | some c => exact fun hv hc => .some (Components.agree (hc c rfl) (hv c rfl))
  have security := Node.agree_map (f := fun _ => SecurityRequirement.project)
    fun r (_ : r ∈ a.security) => SecurityRequirement.agree r
  have tags := Node.agree_map (f := fun t (g : Tag) => g.project t) fun g hg => Tag.agree (h.tags g hg)
  have hrest := Node.entriesAgree_flatten <| .cons (Field.agree_single "info" (Info.agree h.info)) <|
    .cons servers <| .cons paths <| .cons webhooks <| .cons (Field.agree_node? "components" components) <|
    .cons (Field.agree_nodes "security" security) <| .cons (Field.agree_nodes "tags" tags) <|
    .cons (Field.agree_externalDocs h.externalDocs) .nil
  obtain ⟨ms, ns, hms, hns, hmn⟩ := Node.entriesToJson_agree hrest
  obtain ⟨extra, he⟩ := Node.extensionMembers_ok (h.extensions.isJson .v31)
  have he30 : Node.extensionMembers (Extension.allowed .v30 a.extensions) = .ok extra :=
    h.extensions.allowed_eq ▸ he
  exact ⟨Node.inline ms extra, Node.inline ns extra,
    Node.toJson_headed (head .v30) hms he30 fun x hx e he => (Node.ne_allowed (head_plain _ e he) x hx).symm,
    Node.toJson_headed (head .v31) hns he fun x hx e he => (Node.ne_allowed (head_plain _ e he) x hx).symm,
    hmn.inline extra⟩

/-! ### Nothing is lost -/

end Api

theorem isSet_unset {o : Option String} (h : nonEmpty o = none) : isSet o = false := by
  rw [isSet, h, Option.isSome_none]

theorem Schema.Common.findings {s : Schema} (h : s.Common) (hr : nonEmpty s.ref = none) : s.findings = [] := by
  have hunevaluated := Option.isNone_iff_eq_none.1 h.unevaluated
  simp [Schema.findings, hr, Finding.encoding, Finding.when, isSet, h.facets.contentEncoding,
    h.facets.contentMediaType, h.facets.const, h.facets.examples, hunevaluated]

theorem Subject.Common.findings {u : Subject} (h : u.Common) : u.findings .v30 = [] := by
  cases u with
  | schema s =>
    cases hr : nonEmpty s.ref with
    | some target => simp [Subject.findings, Schema.findings, hr]
    | none => simpa [Subject.findings, Target.isFeatureRich] using Schema.Common.findings (h hr) hr
  | _ => rfl

namespace Api

theorem drops_common {a : Api} (h : a.Common) : a.drops = [] := by
  have hsummary := isSet_unset h.info.summary
  have hlicense : a.info.license.any (fun l => isSet l.identifier) = false :=
    option_any_false fun l hl => isSet_unset (h.info.license l hl).identifier
  have hcomponents : a.components.toList.flatMap Components.drops = [] := by
    rw [List.flatMap_eq_nil_iff]
    intro c hc
    have hc := h.components c (Option.mem_toList.1 hc)
    have hschemes : (c.securitySchemes.filter fun e => e.2.type == some "mutualTLS") = [] :=
      List.filter_eq_nil_iff.2 fun s hs => by
        simpa [Components.isMutualTls, Components.mutualTls] using (hc.securitySchemes s hs).type
    rw [Components.drops, hschemes, hc.pathItems]
    rfl
  rw [drops, hsummary, hlicense, hcomponents, h.webhooks]
  rfl

theorem recorded30_common {a : Api} (h : a.Common) : a.recorded30 = [] := by
  have hfound : a.found .v30 = [] := by
    rw [found, List.flatMap_eq_nil_iff]
    exact fun v hv => by rw [(h.visits v hv).findings, List.map_nil]
  have hperm := recorded30_perm a
  rw [findings, drops_common h, hfound] at hperm
  exact hperm.eq_nil

/-- **What both versions can say they say alike.** If a description keeps to the features that both
versions have, both projections succeed, the older version loses nothing, and the two documents are the
same but for the order of keys, once what tells their versions is taken away. -/
theorem projections_agree {ε : Type} (a : Api) (h : a.Common) : ∃ d30 d31 j30 j31,
    (∀ strict, a.toDocument .v30 strict = ⟨.ok d30, []⟩) ∧
    (∀ strict, (a.toDocument .v31 strict).value = .ok d31) ∧
    d30.toJson = .ok j30 ∧ d31.toJson = .ok j31 ∧
    (j30.without ["openapi", "jsonSchemaDialect"]).Alike (j31.without ["openapi", "jsonSchemaDialect"]) ∧
    (j30.hasLongInteger = false → ∀ strict,
      (a.projectTo .v30 strict none : Traced (Projection.Outcome ε)) =
        ⟨.rendered ⟨Projection.jsonText j30, Yaml.write j30⟩, []⟩ ∧
      (a.projectTo .v31 strict none : Traced (Projection.Outcome ε)).value =
        .rendered ⟨Projection.jsonText j31, Yaml.write j31⟩) := by
  obtain ⟨ms, ns, h30, h31, hmn⟩ := written_alike h
  have hsummary := isSet_unset h.info.summary
  have hschemes : a.components.any (fun c => !c.droppedSchemes.isEmpty) = false :=
    option_any_false fun c hc => by
      have hkept : (c.securitySchemes.filter fun s => Components.isMutualTls s.2) = [] :=
        List.filter_eq_nil_iff.2 fun s hs => by simp [((h.components c hc).securitySchemes s hs).type]
      rw [Components.droppedSchemes, hkept]
      rfl
  have hlicense : a.info.license.any License.conflicts = false :=
    option_any_false fun l hl => by rw [License.conflicts, isSet_unset (h.info.license l hl).identifier]; rfl
  have hrun30 (strict : Bool) : a.toDocument .v30 strict = ⟨.ok a.written30, []⟩ := by
    rw [toDocument, project30_run, recorded30_common h, hsummary, hschemes, h.webhooks]
    simp [h.paths]
  have hrun31 (strict : Bool) : (a.toDocument .v31 strict).value = .ok a.written31 := by
    rw [toDocument, project31_run, hlicense]
    rfl
  refine ⟨_, _, _, _, hrun30, hrun31, h30, h31, ?_, fun hlong strict => ?_⟩
  · have hhead (t : Target) : ((head t).map fun e => (e.1, Json.text e.2)).filter
        (fun m => ! ["openapi", "jsonSchemaDialect"].contains m.1) = [] := by
      cases t <;> simp [head]
    rw [Json.without, Json.without, List.filter_append, List.filter_append, hhead, hhead, List.nil_append,
      List.nil_append]
    exact (hmn.filter fun k => ! ["openapi", "jsonSchemaDialect"].contains k).object (.refl _)
  · rw [Json.hasLongInteger_headed] at hlong
    have hlong31 := (hmn.object (.refl _)).hasLongInteger ▸ hlong
    have hd30 := Node.document_of_toJson h30 (by rw [Json.hasLongInteger_headed, hlong])
    have hd31 := Node.document_of_toJson h31 (by rw [Json.hasLongInteger_headed, hlong31])
    constructor
    · simp only [projectTo, hrun30, Projection.render, hd30]
      rfl
    · simp only [projectTo, hrun31, Projection.render, hd31]
      rfl

/-- An interface with a path, a schema whose fields stand in another order in the other version, and a
key for who may use it. -/
def shop : Api where
  info := { title := "Shop", version := "2", license := some { name := "MIT" } }
  servers := [{ url := "https://shop.example" }]
  paths := [("/items/{id}", {
    parameters := [{ name := some "id", place := some "path", required := true,
                     schema := some { facets := { kind := some .string, maxLength := some 8 } } }]
    operations := [(.get, { responses := [("200", { description := "An item", content := [("application/json", {
      schema := some { ref := some "#/components/schemas/Item" } })] })] })] })]
  components := some {
    schemas := [("Item", {
      facets := { kind := some .object, minProperties := some 1, maxProperties := some 9, default := .map [] }
      properties := [("price", { facets := { kind := some .number, minimum := some { value := .int 0 } } })]
      anyOf := [{}, { ref := some "#/components/schemas/Item" }] })]
    securitySchemes := [("key", { type := some "apiKey", name := some "key", place := some "header" })] }
  security := [[("key", [])]]
  extensions := [("x-table", .text "items")]

theorem projections_agree_shop : shop.Common ∧ ∃ d30 d31 j30 j31,
    (∀ strict, shop.toDocument .v30 strict = ⟨.ok d30, []⟩) ∧
    (∀ strict, (shop.toDocument .v31 strict).value = .ok d31) ∧
    d30.toJson = .ok j30 ∧ d31.toJson = .ok j31 ∧
    (j30.without ["openapi", "jsonSchemaDialect"]).Alike (j31.without ["openapi", "jsonSchemaDialect"]) := by
  have h : shop.Common := {
    paths := by simp [shop]
    servers := by simp [shop]
    webhooks := rfl
    info := {
      summary := rfl
      contact := by simp [shop]
      license := fun l hl => by
        cases hl
        exact ⟨rfl, by decide⟩
      extensions := by decide }
    components := fun c hc => by
      cases hc
      exact {
        pathItems := rfl
        examples := by simp
        securitySchemes := by
          rw [List.forall_mem_singleton]
          exact ⟨by decide, by simp, fun _ => by decide⟩
        extensions := by decide }
    tags := by simp [shop]
    externalDocs := by simp [shop]
    extensions := by
      simp only [Extension.Common, shop, List.forall_mem_singleton, Node.isPrefixOf_eq_false]
      decide
    visits := by decide }
  obtain ⟨d30, d31, j30, j31, h30, h31, hj30, hj31, halike, -⟩ := @projections_agree Unit shop h
  exact ⟨h, d30, d31, j30, j31, h30, h31, hj30, hj31, halike⟩

end Api
end ApiProjection
