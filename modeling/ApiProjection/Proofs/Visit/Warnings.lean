import Mathlib.Data.List.Perm.Basic
import Mathlib.Algebra.Order.Group.Multiset
import Mathlib.Tactic.Abel
import ApiProjection.Proofs.Induction
import ApiProjection.Proofs.Outcome
import ApiProjection.Proofs.Visit.Basic
/-!
# What is recorded on a walk

`Subject.findings` says what there is to report about one visited node, whatever stands around it.
A projection records exactly these findings, each at the place of its node and as often as the node is
visited: `Schema.records`, `Operation.records` and so on for one part of a description.

* `Api.recorded_perm`: the warnings of a whole projection are `Api.drops` and the findings of
  `Api.visits`, in some order.
* `Api.toDocument_v30_findings`: the same for codes and paths of a lenient projection to the older
  version, which has a document whenever there are paths.
-/
namespace ApiProjection

open Visit (gather below each newer)

/-! ## Findings about single nodes -/

/-- A finding if a condition holds. -/
def Finding.when (c : Bool) (f : Finding) : List Finding := if c then [f] else []

/-- A finding about a content encoding that is none for bytes. -/
def Finding.encoding (o : Option String) : List Finding :=
  match nonEmpty o with
  | some e => when (e != "base64" && e != "base64url") (.contentEncoding e)
  | none => []

/-- What the older version loses of a schema, apart from its subschemas. -/
def Schema.findings (s : Schema) : List Finding :=
  match nonEmpty s.ref with
  | some _ => []
  | none =>
    Finding.encoding s.facets.contentEncoding ++
    Finding.when (isSet s.facets.contentMediaType) .contentMediaType ++
    Finding.when (!s.facets.const.isNull && s.facets.enum.isEmpty) .constToEnum ++
    Finding.when (!s.facets.const.isNull && !s.facets.enum.isEmpty) .constBesideEnum ++
    Finding.when s.unevaluated.isSome .unevaluatedProperties ++
    Finding.when (1 < s.facets.examples.length) .multipleExamples

/-- What a projection to a version has to report about a visited node. -/
def Subject.findings (t : Target) : Subject → List Finding
  | .schema s => if t.isFeatureRich then [] else s.findings
  | .serverVariable v => (v.finding? t).toList
  | _ => []

namespace Visit

/-- The warnings about visited nodes, given the place that the visits are counted from. -/
def report (t : Target) (p : Pointer) (vs : List Visit) : Warnings :=
  vs.flatMap fun v => (v.subject.findings t).map fun f => f.warning (p.descend v.place)

/-- A projection that records what there is to report about the nodes it visits. -/
def Records {β : Type} (t : Target) (f : Pointer → Traced β) (vs : List Visit) : Prop :=
  ∀ p, (f p).warnings.Perm (report t p vs)

/-! ## Lists, named parts, optional parts -/

section
variable (t : Target) (p : Pointer)

theorem report_gather (parts : List (String × List Visit)) :
    report t p (gather parts) = parts.flatMap fun b => report t (p.key b.1) b.2 := by
  simp [report, gather, List.flatMap_assoc, List.flatMap_map, under]

theorem report_below {ref : Option String} (hr : nonEmpty ref = none) (parts : List (String × List Visit)) :
    report t p (below ref parts) = parts.flatMap fun b => report t (p.key b.1) b.2 := by
  rw [← report_gather, below, hr]
  rfl

theorem report_cons (u : Subject) (vs : List Visit) :
    report t p (⟨[], u⟩ :: vs) = ((u.findings t).map fun f => f.warning p) ++ report t p vs := by
  simp [report]

end

section
variable {α β : Type} {t : Target} {f : α → Pointer → Traced β} {g : α → List Visit}

theorem records_named {xs : List (String × α)} (h : ∀ x ∈ xs, Records t (f x.2) (g x.2)) :
    Records t (fun p => Traced.named f p xs) (gather (each g xs)) := by
  intro p
  rw [Traced.warnings_named, report_gather, each, List.flatMap_map]
  exact List.Perm.flatMap_left xs fun x hx => h x hx (p.key x.1)

theorem records_items {xs : List α} (i : Nat) (h : ∀ x ∈ xs, Records t (f x) (g x)) :
    Records t (fun p => Traced.items f p i xs) (gather (Visit.items g i xs)) := by
  intro p
  rw [Traced.warnings_items, report_gather, Visit.items, List.flatMap_map]
  exact List.Perm.flatMap_left _ fun e he => h e.1 (List.fst_mem_of_mem_zipIdx he) (p.index e.2)

theorem records_option {o : Option α} (h : ∀ x ∈ o, Records t (f x) (g x)) :
    Records t (fun p => Traced.option f p o) (Visit.option g o) := by
  intro p
  cases o with
  | none => rfl
  | some x => simpa [Traced.warnings_option, Visit.option] using h x rfl p

end

end Visit

open Visit (Records report report_gather report_below report_cons records_named records_items records_option)

/-! ## Schemas -/

theorem Traced.warnings_warnIf (c : Bool) (f : Finding) (p : Pointer) :
    (warnIf c f p).warnings = (Finding.when c f).map fun g => g.warning p := by
  cases c <;> rfl

namespace Schema

theorem warnings_warnContent (f : Facets) (p : Pointer) :
    (warnContent f p).warnings =
      (Finding.encoding f.contentEncoding ++
        Finding.when (isSet f.contentMediaType) .contentMediaType).map fun g => g.warning p := by
  rw [List.map_append, isSet, ← Traced.warnings_warnIf, warnContent, foreignEncoding?, Finding.encoding]
  cases nonEmpty f.contentEncoding with
  | none => simp
  | some e =>
    have hb : (!byteEncodings.contains e) = (e != "base64" && e != "base64url") := by
      simp [byteEncodings, bne, beq_eq_decide]
    simp only [Option.filter_some, hb]
    cases e != "base64" && e != "base64url" <;> rfl

theorem warnings_warnConst (f : Facets) (p : Pointer) :
    (warnConst f p).warnings =
      (Finding.when (!f.const.isNull && f.enum.isEmpty) .constToEnum ++
        Finding.when (!f.const.isNull && !f.enum.isEmpty) .constBesideEnum).map fun g => g.warning p := by
  unfold warnConst
  cases f.const.isNull <;> cases f.enum.isEmpty <;> rfl

theorem perm_around {α : Type} (a : List α) {m r : List α} (h : m.Perm r) (b : List α) :
    (a ++ (m ++ b)).Perm ((a ++ b) ++ r) := by
  rw [List.append_assoc]
  exact ((h.append_right b).trans List.perm_append_comm).append_left a

/-- What is recorded before the subschemas of a schema and what is recorded after them. -/
theorem findings_eq (s : Schema) (hr : nonEmpty s.ref = none) (p : Pointer) :
    (s.findings.map fun f => f.warning p) =
      (warnContent s.facets p).warnings ++ ((warnConst s.facets p).warnings ++
        ((Traced.warnIf s.unevaluated.isSome .unevaluatedProperties p).warnings ++
          (Traced.warnIf (1 < s.facets.examples.length) .multipleExamples p).warnings)) := by
  simp only [findings, hr, warnings_warnContent, warnings_warnConst, Traced.warnings_warnIf, List.map_append,
    List.append_assoc]

theorem records_additionalTo30 {o : Option (Additional Schema)}
    (h : ∀ a ∈ o, ∀ c ∈ a.schema, Records .v30 c.to30 (c.visits .v30)) :
    Records .v30 (additionalTo30 o) (Visit.option (visits .v30) (o.bind Additional.schema)) := by
  intro p
  match o with
  | none | some ⟨none, none⟩ | some ⟨some _, none⟩ => simp [additionalTo30, Visit.option, report]
  | some ⟨_, some c⟩ => simpa [additionalTo30, Visit.option] using h _ rfl c rfl p

theorem records_to30 (s : Schema) : Records .v30 s.to30 (s.visits .v30) := by
  induction s using Schema.ind with
  | step s ih =>
    intro p
    rw [to30_eq, visits_eq, report_cons]
    cases hr : nonEmpty s.ref with
    | some target => simp [Subject.findings, findings, below, report, hr]
    | none =>
      have hparts := (records_option ih.items (p.key "items")).append <|
        (records_named ih.properties (p.key "properties")).append <|
        (records_additionalTo30 ih.additional (p.key "additionalProperties")).append <|
        (records_items 0 ih.allOf (p.key "allOf")).append <|
        (records_items 0 ih.anyOf (p.key "anyOf")).append <|
        (records_items 0 ih.oneOf (p.key "oneOf")).append (records_option ih.notOf (p.key "not"))
      have hnode : ((Subject.schema s).findings .v30).map (fun f => f.warning p) = _ := findings_eq s hr p
      rw [hnode, report_below _ _ hr]
      have hall := perm_around (warnContent s.facets p).warnings hparts
        ((warnConst s.facets p).warnings ++
          ((Traced.warnIf s.unevaluated.isSome .unevaluatedProperties p).warnings ++
            (Traced.warnIf (1 < s.facets.examples.length) .multipleExamples p).warnings))
      simpa [parts, newer, Target.isFeatureRich, report] using hall

/-- A schema in the newer version is written without warnings. -/
theorem records (t : Target) (s : Schema) : Records t (s.project t) (s.visits t) := by
  intro p
  cases t with
  | v30 => simpa [project] using records_to30 s p
  | v31 =>
    have h : report .v31 p (s.visits .v31) = [] := by
      rw [report, List.flatMap_eq_nil_iff]
      intro v hv
      have hs := visits_isSchema .v31 s v hv
      cases hu : v.subject <;> simp_all [Subject.IsSchema, Subject.findings, Target.isFeatureRich]
    rw [h]
    rfl

end Schema

/-! ## Servers -/

section
variable (t : Target)

theorem ServerVariable.records (v : ServerVariable) : Records t (v.project t) v.visits := by
  intro p
  simp only [ServerVariable.project, ServerVariable.visits, report_cons, Subject.findings]
  cases v.finding? t <;> simp [report, Traced.warn]

theorem Server.records (s : Server) : Records t (s.project t) s.visits := by
  intro p
  have hvars := records_named (fun x (_ : x ∈ s.vars) => ServerVariable.records t x.2) (p.key "variables")
  simpa [Server.project, Server.visits, report_cons, report_gather, Subject.findings] using hvars

theorem Server.records_all (ss : List Server) :
    Records t (Server.projectAll t ss) (gather (Visit.items Server.visits 0 ss)) :=
  records_items 0 fun s _ => Server.records t s

/-! ## Headers and bodies -/

theorem Header.records_steps :
    Header.Steps (fun h => Records t (h.project t) (h.visits t))
      (fun m => Records t (m.project t) (m.visits t)) fun e => Records t (e.project t) (e.visits t) where
  header h hc p := by
    obtain ⟨ref, _, _, _, _, _, _, schema, _, _, content, _⟩ := h
    rw [Header.project, Header.visits, report_cons]
    cases hr : nonEmpty ref with
    | some target => simp [Subject.findings, below, report, hr]
    | none =>
      have hschema := records_option (fun s (_ : s ∈ schema) => Schema.records t s) (p.key "schema")
      have hcontent := records_named hc (p.key "content")
      simpa [report_below _ _ hr, Subject.findings, MediaType.projectNamed_eq, MediaType.namedVisits_eq]
        using hschema.append hcontent
  mediaType m he p := by
    obtain ⟨schema, _, _, encoding, _⟩ := m
    have hencoding := records_named he (p.key "encoding")
    have hschema := records_option (fun s (_ : s ∈ schema) => Schema.records t s) (p.key "schema")
    rw [MediaType.project, MediaType.visits, report_cons, report_gather]
    simpa [Subject.findings, Encoding.projectNamed_eq, Encoding.namedVisits_eq] using hencoding.append hschema
  encoding e hh p := by
    obtain ⟨_, headers, _, _, _, _⟩ := e
    have hheaders := records_named hh (p.key "headers")
    rw [Encoding.project, Encoding.visits, report_cons, report_gather]
    simpa [Subject.findings, Header.projectNamed_eq, Header.namedVisits_eq] using hheaders

theorem Header.records (h : Header) : Records t (h.project t) (h.visits t) :=
  (Header.ind (Header.records_steps t)).1 h

theorem MediaType.records (m : MediaType) : Records t (m.project t) (m.visits t) :=
  (Header.ind (Header.records_steps t)).2.1 m

theorem MediaType.records_content (ms : List (String × MediaType)) :
    Records t (MediaType.projectNamed t ms) (gather (each (MediaType.visits t) ms)) := by
  have h := records_named fun x (_ : x ∈ ms) => MediaType.records t x.2
  exact fun p => by simpa [MediaType.projectNamed_eq] using h p

theorem Parameter.records (x : Parameter) : Records t (x.project t) (x.visits t) := by
  intro p
  rw [Parameter.project, Parameter.visits, report_cons]
  cases hr : nonEmpty x.ref with
  | some target => simp [Subject.findings, below, report, hr]
  | none =>
    have hschema := records_option (fun s (_ : s ∈ x.schema) => Schema.records t s) (p.key "schema")
    have hcontent := MediaType.records_content t x.content (p.key "content")
    simpa [report_below _ _ hr, Subject.findings] using hschema.append hcontent

theorem RequestBody.records (b : RequestBody) : Records t (b.project t) (b.visits t) := by
  intro p
  rw [RequestBody.project, RequestBody.visits, report_cons]
  cases hr : nonEmpty b.ref with
  | some target => simp [Subject.findings, below, report, hr]
  | none =>
    have hcontent := MediaType.records_content t b.content (p.key "content")
    simpa [report_below _ _ hr, Subject.findings] using hcontent

/-! ## Responses -/

theorem Link.records (l : Link) : Records t (l.project t) l.visits := by
  intro p
  rw [Link.project, Link.visits, report_cons]
  cases hr : nonEmpty l.ref with
  | some target => simp [Subject.findings, below, report, hr]
  | none =>
    have hserver := records_option (fun s (_ : s ∈ l.server) => Server.records t s) (p.key "server")
    simpa [report_below _ _ hr, Subject.findings] using hserver

theorem Response.records (r : Response) : Records t (r.project t) (r.visits t) := by
  intro p
  rw [Response.project, Response.visits, report_cons]
  cases hr : nonEmpty r.ref with
  | some target => simp [Subject.findings, below, report, hr]
  | none =>
    have hlinks := records_named (fun x (_ : x ∈ r.links) => Link.records t x.2) (p.key "links")
    have hheaders := records_named (fun x (_ : x ∈ r.headers) => Header.records t x.2) (p.key "headers")
    have hcontent := MediaType.records_content t r.content (p.key "content")
    simpa [report_below _ _ hr, Subject.findings, Header.projectNamed_eq]
      using hlinks.append (hheaders.append hcontent)

/-! ## Operations -/

theorem Operation.records_steps :
    Operation.Steps (fun o => Records t (o.project t) (o.visits t))
      (fun i => Records t (i.project t) (i.visits t)) fun c => Records t (c.project t) (c.visits t) where
  operation o hc p := by
    obtain ⟨_, _, _, _, _, parameters, requestBody, responses, callbacks, _, _, servers, _⟩ := o
    have hparameters := records_items 0 (fun x (_ : x ∈ parameters) => Parameter.records t x)
      (p.key "parameters")
    have hbody := records_option (fun b (_ : b ∈ requestBody) => RequestBody.records t b)
      (p.key "requestBody")
    have hresponses := records_named (fun x (_ : x ∈ responses) => Response.records t x.2) (p.key "responses")
    have hcallbacks := records_named hc (p.key "callbacks")
    have hservers := Server.records_all t servers (p.key "servers")
    rw [Operation.project, Operation.visits, report_cons, report_gather]
    simpa [Subject.findings, Callback.projectNamed_eq, Callback.namedVisits_eq] using
      hparameters.append (hbody.append (hresponses.append (hcallbacks.append hservers)))
  pathItem i ho p := by
    obtain ⟨ref, _, _, operations, parameters, _⟩ := i
    rw [PathItem.project, PathItem.visits, report_cons]
    cases hr : nonEmpty ref with
    | some target => simp [Subject.findings, below, report, hr]
    | none =>
      have hparameters := records_items 0 (fun x (_ : x ∈ parameters) => Parameter.records t x)
        (p.key "parameters")
      have hmethods : ∀ x ∈ operations.map fun o => (o.1.name, o.2),
          Records t (x.2.project t) (x.2.visits t) := List.forall_mem_map.2 ho
      have hoperations := records_named hmethods p
      simpa [report_below _ _ hr, report_gather, Subject.findings, Operation.projectMethods_eq,
        Operation.methodVisits_eq] using hparameters.append hoperations
  callback c hi p := by
    obtain ⟨ref, pathItems, _⟩ := c
    rw [Callback.project, Callback.visits, report_cons]
    cases hr : nonEmpty ref with
    | some target => simp [Subject.findings, below, report, hr]
    | none =>
      have hitems := records_named hi p
      simpa [report_below _ _ hr, report_gather, Subject.findings, PathItem.projectNamed_eq,
        PathItem.namedVisits_eq] using hitems

theorem PathItem.records_paths (is : List (String × PathItem)) :
    Records t (PathItem.projectNamed t is) (gather (each (PathItem.visits t) is)) := by
  have h := records_named fun x (_ : x ∈ is) => (Operation.ind (Operation.records_steps t)).2.1 x.2
  exact fun p => by simpa [PathItem.projectNamed_eq] using h p

theorem Callback.records_all (cs : List (String × Callback)) :
    Records t (Callback.projectNamed t cs) (gather (each (Callback.visits t) cs)) := by
  have h := records_named fun x (_ : x ∈ cs) => (Operation.ind (Operation.records_steps t)).2.2 x.2
  exact fun p => by simpa [Callback.projectNamed_eq] using h p

/-! ## Reusable parts -/

/-- The components that both versions have record what is found in them. -/
theorem Components.records_shared (c : Components) :
    (c.shared t).warnings.Perm (report t place (gather [
      ("schemas", gather (each (Schema.visits t) c.schemas)),
      ("responses", gather (each (Response.visits t) c.responses)),
      ("parameters", gather (each (Parameter.visits t) c.parameters)),
      ("requestBodies", gather (each (RequestBody.visits t) c.requestBodies)),
      ("headers", gather (each (Header.visits t) c.headers)),
      ("links", gather (each Link.visits c.links)),
      ("callbacks", gather (each (Callback.visits t) c.callbacks))])) := by
  have hschemas := records_named (fun x (_ : x ∈ c.schemas) => Schema.records t x.2) (place.key "schemas")
  have hresponses := records_named (fun x (_ : x ∈ c.responses) => Response.records t x.2)
    (place.key "responses")
  have hparameters := records_named (fun x (_ : x ∈ c.parameters) => Parameter.records t x.2)
    (place.key "parameters")
  have hbodies := records_named (fun x (_ : x ∈ c.requestBodies) => RequestBody.records t x.2)
    (place.key "requestBodies")
  have hheaders := records_named (fun x (_ : x ∈ c.headers) => Header.records t x.2) (place.key "headers")
  have hlinks := records_named (fun x (_ : x ∈ c.links) => Link.records t x.2) (place.key "links")
  have hcallbacks := Callback.records_all t c.callbacks (place.key "callbacks")
  rw [report_gather]
  simpa [shared, Header.projectNamed_eq] using hschemas.append <| hresponses.append <| hparameters.append <|
    hbodies.append <| hheaders.append <| hlinks.append hcallbacks

end

/-! ## The whole -/

/-- The warnings that report findings at their places. -/
def Finding.warnings (fs : List (Finding × Pointer)) : Warnings := fs.map fun e => e.1.warning e.2

namespace Components

/-- What the older version drops of reusable parts, with the places of what is dropped. -/
def drops (c : Components) : List (Finding × Pointer) :=
  ((c.securitySchemes.filter fun e => e.2.type == some "mutualTLS").map fun e =>
    (.mutualTls, Pointer.root.descend ["components", "securitySchemes", e.1])) ++
  if c.pathItems.isEmpty then [] else [(.pathItems, Pointer.root.descend ["components", "pathItems"])]

theorem warnings_warnDropped (names : List String) :
    (warnDropped names).warnings = Finding.warnings (names.map fun name =>
      (.mutualTls, Pointer.root.descend ["components", "securitySchemes", name])) := by
  induction names with
  | nil => rfl
  | cons name names ih =>
    simp only [warnDropped, Traced.warnings_bind, ih]
    rfl

theorem recorded30_perm (c : Components) :
    c.recorded30.Perm (report .v30 place (c.visits .v30) ++ Finding.warnings c.drops) := by
  have hshared := records_shared .v30 c
  have hdropped : (warnDropped c.droppedSchemes).warnings ++
      (Traced.warnIf (!c.pathItems.isEmpty) .pathItems (place.key "pathItems")).warnings =
      Finding.warnings c.drops := by
    rw [warnings_warnDropped]
    cases hp : c.pathItems.isEmpty with
    | true => simp [Finding.warnings, drops, droppedSchemes, isMutualTls, mutualTls, Traced.warnIf, hp]
    | false => simp [Finding.warnings, drops, droppedSchemes, isMutualTls, mutualTls, Traced.warnIf, hp]; rfl
  rw [recorded30, front30, List.append_assoc, hdropped]
  exact List.Perm.append_right _ hshared

theorem project31_perm (c : Components) :
    c.project31.warnings.Perm (report .v31 place (c.visits .v31)) := by
  have hitems := PathItem.records_paths .v31 c.pathItems (place.key "pathItems")
  have hshared := records_shared .v31 c
  rw [report_gather] at hshared
  simp only [project31, Traced.warnings_bind, Traced.warnings_pure, List.append_nil]
  rw [visits, report_gather, List.flatMap_cons]
  exact hitems.append hshared

end Components

namespace Api

/-- What the older version drops of a description outside of schemas, with the places of what is
dropped. -/
def drops (a : Api) : List (Finding × Pointer) :=
  (if isSet a.info.summary then [(.infoSummary, Pointer.root.descend ["info", "summary"])] else []) ++
  (if a.info.license.any fun l => isSet l.identifier then
    [(.licenseIdentifier, Pointer.root.descend ["info", "license"])] else []) ++
  a.components.toList.flatMap Components.drops ++
  if a.webhooks.isEmpty then [] else [(.webhooks, Pointer.root.descend ["webhooks"])]

/-- What is found at the visited nodes, with the place of each. -/
def found (t : Target) (a : Api) : List (Finding × Pointer) :=
  (a.visits t).flatMap fun v => (v.subject.findings t).map fun f => (f, v.pointer)

/-- What there is to report about a description: what is dropped, and what is found. -/
def findings (t : Target) (a : Api) : List (Finding × Pointer) :=
  (if t.isFeatureRich then [] else a.drops) ++ a.found t

theorem report_visits (t : Target) (a : Api) :
    report t .root (a.visits t) = Finding.warnings (a.found t) := by
  simp [report, found, Finding.warnings, List.map_flatMap, Visit.pointer, Function.comp_def]

/-- The general part records a summary and a license identifier. -/
theorem warnings_info30 (i : Info) :
    i.project30.warnings = Finding.warnings
      ((if isSet i.summary then [(.infoSummary, Pointer.root.descend ["info", "summary"])] else []) ++
        if i.license.any fun l => isSet l.identifier then
          [(.licenseIdentifier, Pointer.root.descend ["info", "license"])] else []) := by
  have hs (c : Bool) : (Traced.warnIf c .infoSummary ((Pointer.root.key "info").key "summary")).warnings =
      Finding.warnings (if c then [(.infoSummary, Pointer.root.descend ["info", "summary"])] else []) := by
    cases c <;> rfl
  rw [Info.project30, Traced.warnings_bind, hs (isSet i.summary)]
  cases i.license with
  | none => simp [Finding.warnings, Traced.option]
  | some l =>
    cases hl : isSet l.identifier <;>
      simp [Finding.warnings, Traced.option, License.project30, hl, Traced.warnIf]
    rfl

theorem recorded30_perm (a : Api) : a.recorded30.Perm (Finding.warnings (a.findings .v30)) := by
  have hservers := Server.records_all .v30 a.servers (Pointer.root.key "servers")
  have hpaths := PathItem.records_paths .v30 a.paths (Pointer.root.key "paths")
  have hcomponents : (a.components.toList.flatMap Components.recorded30).Perm
      (report .v30 Components.place (Visit.option (Components.visits .v30) a.components) ++
        Finding.warnings (a.components.toList.flatMap Components.drops)) := by
    cases a.components with
    | none => rfl
    | some c => simpa [Visit.option] using Components.recorded30_perm c
  have hwebhooks : (Traced.warnIf (!a.webhooks.isEmpty) .webhooks (Pointer.root.key "webhooks")).warnings =
      Finding.warnings
        (if a.webhooks.isEmpty then [] else [(.webhooks, Pointer.root.descend ["webhooks"])]) := by
    cases a.webhooks.isEmpty <;> rfl
  have hvisits : report .v30 .root (a.visits .v30) =
      report .v30 (Pointer.root.key "servers") (gather (Visit.items Server.visits 0 a.servers)) ++
        (report .v30 (Pointer.root.key "paths") (gather (each (PathItem.visits .v30) a.paths)) ++
          report .v30 Components.place (Visit.option (Components.visits .v30) a.components)) := by
    rw [visits, report_gather]
    simp [newer, Target.isFeatureRich, report, Components.place]
  have hfindings : Finding.warnings (a.findings .v30) =
      Finding.warnings a.drops ++ report .v30 .root (a.visits .v30) := by
    rw [report_visits, findings, Finding.warnings, List.map_append]
    rfl
  rw [hfindings, hvisits, drops, recorded30, front30, warnings_info30, hwebhooks]
  simp only [← Multiset.coe_eq_coe, ← Multiset.coe_add, Finding.warnings, List.map_append] at *
  rw [hservers, hpaths, hcomponents]
  abel

theorem recorded31_perm (a : Api) : a.recorded31.Perm (Finding.warnings (a.findings .v31)) := by
  have hservers := Server.records_all .v31 a.servers (Pointer.root.key "servers")
  have hpaths := PathItem.records_paths .v31 a.paths (Pointer.root.key "paths")
  have hcomponents : (a.components.toList.flatMap fun c => c.project31.warnings).Perm
      (report .v31 Components.place (Visit.option (Components.visits .v31) a.components)) := by
    cases a.components with
    | none => rfl
    | some c => simpa [Visit.option] using Components.project31_perm c
  have hwebhooks := PathItem.records_paths .v31 a.webhooks (Pointer.root.key "webhooks")
  have hfindings : Finding.warnings (a.findings .v31) = report .v31 .root (a.visits .v31) := by
    rw [report_visits, findings]
    rfl
  rw [hfindings, visits, report_gather, recorded31]
  simpa [newer, Target.isFeatureRich, Components.place] using
    hservers.append (hpaths.append (hcomponents.append hwebhooks))

theorem recorded_perm (t : Target) (a : Api) : (a.recorded t).Perm (Finding.warnings (a.findings t)) := by
  cases t with
  | v30 => exact recorded30_perm a
  | v31 => exact recorded31_perm a

/-- **What a lenient projection to the older version records.** If there are paths there is a document,
and the codes and places of the warnings are those of `Api.findings`, each as often as it is there. -/
theorem toDocument_v30_findings (a : Api) (h : a.paths ≠ []) :
    (∃ doc, (a.toDocument .v30 false).value = .ok doc) ∧
      ((a.toDocument .v30 false).warnings.map fun w => (w.code, w.path)).Perm
        ((a.findings .v30).map fun e => (.known e.1.code, e.2.text)) := by
  have hrun : a.toDocument .v30 false = ⟨.ok a.written30, a.recorded30⟩ := by
    rw [toDocument, project30_run]
    simp [h]
  have hmap : ((a.findings .v30).map fun e => (Code.known e.1.code, e.2.text)) =
      (Finding.warnings (a.findings .v30)).map fun w => (w.code, w.path) := by
    simp [Finding.warnings, Finding.warning]
  rw [hrun, hmap]
  exact ⟨⟨_, rfl⟩, (recorded30_perm a).map _⟩

/-- An interface with one operation, which answers with a constant that has two examples. -/
def ping : Api where
  info := { title := "Ping", version := "1", summary := some "Answers" }
  paths := [("/ping", { operations := [(.get, { responses := [("200", { content := [("text/plain", {
    schema := some { facets := {
      const := .text "pong", examples := [.text "pong", .text "PONG"] } } })] })] })] })]

theorem toDocument_v30_findings_ping :
    ping.paths ≠ [] ∧ ((ping.toDocument .v30 false).warnings.map fun w => (w.code, w.path)).Perm [
      (.known .downlevelInfoSummary, "#/info/summary"),
      (.known .downlevelConstToEnum, "#/paths/~1ping/get/responses/200/content/text~1plain/schema"),
      (.known .downlevelMultipleExamples, "#/paths/~1ping/get/responses/200/content/text~1plain/schema")] := by
  have h : ping.paths ≠ [] := by simp [ping]
  have hf : ((ping.findings .v30).map fun e => (Code.known e.1.code, e.2.text)) = [
      (.known .downlevelInfoSummary, "#/info/summary"),
      (.known .downlevelConstToEnum, "#/paths/~1ping/get/responses/200/content/text~1plain/schema"),
      (.known .downlevelMultipleExamples, "#/paths/~1ping/get/responses/200/content/text~1plain/schema")] := by
    decide
  exact ⟨h, hf ▸ (toDocument_v30_findings ping h).2⟩

end Api
end ApiProjection
