import ApiProjection.Proofs.Visit.Warnings
/-!
# Servers and their variables

The newer version has every field that a description can hold, so the only thing it has to say is
about the enumeration of a server's variable: one that is declared has a value at least, and the
default is among its values. `hosts` lists the servers of a description with their places, by a
recursion that passes by everything that holds none, and `Host.faults` what is wrong with their
variables.

* `visits_quiet`: there is nothing to report about a schema, a header, a body or a parameter.
* `Operation.faults_visits` and so on: what there is to report about one part of a description is
  what is wrong with its servers.
* `Api.toDocument_v31_faults`: the warnings of a projection to the newer version are the faults of
  the servers of the description, each as often as it is there and at the place of its variable.
-/
namespace ApiProjection

open Visit (gather below each newer)

/-! ## Servers with their places -/

/-- A server and the keys and positions that lead to it. -/
structure Host where
  place : List String
  server : Server

namespace Host

/-- The servers of a part as they look from one level further out. -/
def under (k : String) (hs : List Host) : List Host := hs.map fun h => { h with place := k :: h.place }

/-- The servers of named parts. -/
def each {α : Type} (f : α → List Host) (xs : List (String × α)) : List Host :=
  xs.flatMap fun x => under x.1 (f x.2)

/-- The servers of a list, at their positions. -/
def ofList (ss : List Server) : List Host := ss.zipIdx.map fun e => ⟨[toString e.2], e.1⟩

end Host

/-- The server that a link goes to, which is no matter of this description if it is a reference. -/
def Link.hosts (l : Link) : List Host :=
  if isSet l.ref then [] else l.server.toList.map fun s => ⟨["server"], s⟩

def Response.hosts (r : Response) : List Host :=
  if isSet r.ref then [] else Host.under "links" (Host.each Link.hosts r.links)

mutual
/-- The servers of the links of an operation's responses, those further in its callbacks, and its own. -/
def Operation.hosts : Operation → List Host
  | ⟨_, _, _, _, _, _, _, responses, callbacks, _, _, servers, _⟩ =>
    Host.under "responses" (Host.each Response.hosts responses) ++
      (Host.under "callbacks" (Callback.namedHosts callbacks) ++ Host.under "servers" (Host.ofList servers))

def PathItem.hosts : PathItem → List Host
  | ⟨ref, _, _, operations, _, _⟩ => if isSet ref then [] else Operation.methodHosts operations

def Callback.hosts : Callback → List Host
  | ⟨ref, pathItems, _⟩ => if isSet ref then [] else PathItem.namedHosts pathItems

def Operation.methodHosts : List (Method × Operation) → List Host
  | [] => []
  | (m, o) :: os => Host.under m.name o.hosts ++ Operation.methodHosts os

def PathItem.namedHosts : List (String × PathItem) → List Host
  | [] => []
  | (k, i) :: is => Host.under k i.hosts ++ PathItem.namedHosts is

def Callback.namedHosts : List (String × Callback) → List Host
  | [] => []
  | (k, c) :: cs => Host.under k c.hosts ++ Callback.namedHosts cs
end

def Components.hosts (c : Components) : List Host :=
  Host.under "pathItems" (Host.each PathItem.hosts c.pathItems) ++
    (Host.under "responses" (Host.each Response.hosts c.responses) ++
      (Host.under "links" (Host.each Link.hosts c.links) ++
        Host.under "callbacks" (Host.each Callback.hosts c.callbacks)))

/-- The servers of a description with their places in its document. -/
def Api.hosts (a : Api) : List Host :=
  Host.under "servers" (Host.ofList a.servers) ++
    (Host.under "paths" (Host.each PathItem.hosts a.paths) ++
      (Host.under "components" (a.components.toList.flatMap Components.hosts) ++
        Host.under "webhooks" (Host.each PathItem.hosts a.webhooks)))

/-! ## What is wrong with their variables -/

/-- What the newer version forbids of a variable that declares its values. -/
def ServerVariable.fault? (v : ServerVariable) : Option WarningCode :=
  v.enum.bind fun values =>
    if values = [] then some .serverVariableEmptyEnum
    else if v.default ∈ values then none
    else some .serverVariableDefaultNotInEnum

/-- A fault with the place where it is. -/
abbrev Fault := WarningCode × List String

namespace Fault

def under (k : String) (fs : List Fault) : List Fault := fs.map fun f => (f.1, k :: f.2)

/-- A fault as a warning tells it. -/
def told (f : Fault) : Code × String := (.known f.1, (Pointer.root.descend f.2).text)

@[simp] theorem under_nil (k : String) : under k [] = [] := rfl

end Fault

/-- The faults of the variables of servers, each at its variable. -/
def Host.faults (hs : List Host) : List Fault :=
  hs.flatMap fun h => h.server.vars.filterMap fun x =>
    x.2.fault?.map fun c => (c, h.place ++ ["variables", x.1])

/-- What there is to report about visited nodes in the newer version, and where. -/
def Visit.faults (vs : List Visit) : List Fault :=
  vs.flatMap fun v => (v.subject.findings .v31).map fun f => (f.code, v.place)

namespace Host

@[simp] theorem faults_nil : faults [] = [] := rfl

@[simp] theorem faults_append (hs is : List Host) : faults (hs ++ is) = faults hs ++ faults is :=
  List.flatMap_append

@[simp] theorem faults_under (k : String) (hs : List Host) : faults (under k hs) = Fault.under k (faults hs) := by
  simp [faults, under, Fault.under, List.flatMap_map, List.map_flatMap, List.map_filterMap, Function.comp_def]

theorem faults_each {α : Type} (f : α → List Host) (xs : List (String × α)) :
    faults (each f xs) = xs.flatMap fun x => Fault.under x.1 (faults (f x.2)) := by
  induction xs with
  | nil => rfl
  | cons x xs ih => rw [each, List.flatMap_cons, faults_append, faults_under, ← each, ih, List.flatMap_cons]

end Host

namespace Visit

theorem faults_cons (u : Subject) (vs : List Visit) :
    faults (⟨[], u⟩ :: vs) = ((u.findings .v31).map fun f => (f.code, [])) ++ faults vs := by
  simp [faults]

theorem faults_gather (parts : List (String × List Visit)) :
    faults (gather parts) = parts.flatMap fun b => Fault.under b.1 (faults b.2) := by
  simp [faults, gather, Fault.under, Visit.under, List.flatMap_assoc, List.flatMap_map, List.map_flatMap,
    Function.comp_def]

theorem faults_below {ref : Option String} (parts : List (String × List Visit)) :
    faults (below ref parts) = if isSet ref then [] else parts.flatMap fun b => Fault.under b.1 (faults b.2) := by
  rw [← faults_gather, below, isSet]
  split <;> rfl

theorem faults_quiet {vs : List Visit} (h : ∀ v ∈ vs, v.subject.findings .v31 = []) : faults vs = [] := by
  rw [faults, List.flatMap_eq_nil_iff]
  intro v hv
  rw [h v hv, List.map_nil]

section
variable {α : Type} {f : α → List Visit} {g : α → List Host}

theorem faults_each {xs : List (String × α)} (h : ∀ x ∈ xs, faults (f x.2) = Host.faults (g x.2)) :
    faults (gather (each f xs)) = Host.faults (Host.each g xs) := by
  rw [faults_gather, each, List.flatMap_map, Host.faults_each]
  exact List.flatMap_congr fun x hx => congrArg (Fault.under x.1) (h x hx)

end

end Visit

/-! ## Parts without servers -/

/-- There is nothing to report in the newer version. -/
def Subject.Quiet (u : Subject) : Prop := u.findings .v31 = []

theorem Schema.visits_quiet (s : Schema) : ∀ v ∈ s.visits .v31, v.subject.Quiet := by
  intro v hv
  have hs := Schema.visits_isSchema .v31 s v hv
  cases hu : v.subject <;> first | rfl | (rw [hu] at hs; cases hs)

theorem Header.visits_quiet :
    (∀ h : Header, ∀ v ∈ h.visits .v31, v.subject.Quiet) ∧
      (∀ m : MediaType, ∀ v ∈ m.visits .v31, v.subject.Quiet) ∧
      ∀ e : Encoding, ∀ v ∈ e.visits .v31, v.subject.Quiet := by
  refine Header.ind ⟨fun h hc => ?_, fun m he => ?_, fun e hh => ?_⟩
  · rw [Header.visits_eq, List.forall_mem_cons]
    refine ⟨rfl, Visit.forall_below ?_⟩
    simp only [List.forall_mem_cons, Visit.forall_gather, Visit.forall_each, Visit.forall_option]
    exact ⟨fun s _ => Schema.visits_quiet s, hc, by simp⟩
  · rw [MediaType.visits_eq, List.forall_mem_cons]
    refine ⟨rfl, Visit.forall_gather.2 ?_⟩
    simp only [List.forall_mem_cons, Visit.forall_gather, Visit.forall_each, Visit.forall_option]
    exact ⟨he, fun s _ => Schema.visits_quiet s, by simp⟩
  · rw [Encoding.visits_eq, List.forall_mem_cons]
    refine ⟨rfl, Visit.forall_gather.2 ?_⟩
    simp only [List.forall_mem_cons, Visit.forall_gather, Visit.forall_each]
    exact ⟨hh, by simp⟩

theorem Parameter.visits_quiet (x : Parameter) : ∀ v ∈ x.visits .v31, v.subject.Quiet := by
  rw [Parameter.visits, List.forall_mem_cons]
  refine ⟨rfl, Visit.forall_below ?_⟩
  simp only [List.forall_mem_cons, Visit.forall_gather, Visit.forall_each, Visit.forall_option]
  exact ⟨fun s _ => Schema.visits_quiet s, fun c _ => Header.visits_quiet.2.1 c.2, by simp⟩

theorem RequestBody.visits_quiet (b : RequestBody) : ∀ v ∈ b.visits .v31, v.subject.Quiet := by
  rw [RequestBody.visits, List.forall_mem_cons]
  refine ⟨rfl, Visit.forall_below ?_⟩
  simp only [List.forall_mem_cons, Visit.forall_gather, Visit.forall_each]
  exact ⟨fun c _ => Header.visits_quiet.2.1 c.2, by simp⟩

/-! ## Parts with servers -/

open Visit (faults_cons faults_gather faults_below faults_each faults_quiet)

/-- A list of parts about none of which there is anything to report. -/
theorem Visit.faults_each_quiet {α : Type} {f : α → List Visit} (h : ∀ x, ∀ v ∈ f x, v.subject.Quiet)
    (xs : List (String × α)) : Visit.faults (gather (each f xs)) = [] :=
  faults_quiet <| Visit.forall_gather.2 <| Visit.forall_each.2 fun x _ => h x.2

theorem Visit.faults_items_quiet {α : Type} {f : α → List Visit} (h : ∀ x, ∀ v ∈ f x, v.subject.Quiet)
    (xs : List α) : Visit.faults (gather (Visit.items f 0 xs)) = [] :=
  faults_quiet <| Visit.forall_gather.2 <| Visit.forall_items.2 fun x _ => h x

theorem Visit.faults_option_quiet {α : Type} {f : α → List Visit} (h : ∀ x, ∀ v ∈ f x, v.subject.Quiet)
    (o : Option α) : Visit.faults (Visit.option f o) = [] :=
  faults_quiet <| Visit.forall_option.2 fun x _ => h x

/-- The finding about a variable is its fault. -/
theorem ServerVariable.findings_eq (v : ServerVariable) :
    ((Subject.serverVariable v).findings .v31).map Finding.code = v.fault?.toList := by
  obtain ⟨default, enum, _, _⟩ := v
  match enum with
  | none => rfl
  | some [] => rfl
  | some (e :: es) =>
    have hne : ¬ e :: es = [] := List.cons_ne_nil e es
    by_cases hd : default ∈ e :: es
    · simp only [Subject.findings, finding?, fault?, Option.bind_some, List.contains_iff_mem.2 hd, if_true,
        if_pos hd, if_neg hne, Option.toList_none, List.map_nil]
    · have hc : (e :: es).contains default = false := by simpa using hd
      simp only [Subject.findings, finding?, fault?, Option.bind_some, hc, if_neg hd, if_neg hne]
      rfl

theorem Server.faults_visits (s : Server) : Visit.faults s.visits = Host.faults [⟨[], s⟩] := by
  have hvar (v : ServerVariable) : Visit.faults v.visits = v.fault?.toList.map fun c => (c, []) := by
    rw [← ServerVariable.findings_eq]
    simp [ServerVariable.visits, Visit.faults]
  have hvars (xs : List (String × ServerVariable)) :
      (xs.flatMap fun x => Fault.under "variables" (Fault.under x.1 (Visit.faults x.2.visits))) =
        xs.filterMap fun x => x.2.fault?.map fun c => (c, ["variables", x.1]) := by
    induction xs with
    | nil => rfl
    | cons x xs ih =>
      rw [List.flatMap_cons, List.filterMap_cons, ih, hvar]
      cases x.2.fault? <;> rfl
  simp only [Server.visits, faults_cons, faults_gather, each, List.flatMap_map, Subject.findings, List.map_nil,
    List.nil_append, List.flatMap_cons, List.flatMap_nil, List.append_nil, Host.faults, ← hvars]
  simp only [Fault.under, List.map_flatMap, List.map_map]

theorem Server.faults_list (ss : List Server) :
    Visit.faults (gather (Visit.items Server.visits 0 ss)) = Host.faults (Host.ofList ss) := by
  rw [faults_gather, Visit.items, List.flatMap_map, Host.ofList, Host.faults, List.flatMap_map]
  refine List.flatMap_congr fun e _ => ?_
  rw [Server.faults_visits]
  simp [Host.faults, Fault.under, List.map_filterMap, Function.comp_def]

theorem Link.faults_visits (l : Link) : Visit.faults l.visits = Host.faults l.hosts := by
  rw [Link.visits, faults_cons, faults_below, Link.hosts]
  cases isSet l.ref with
  | true => rfl
  | false =>
    cases l.server with
    | none => rfl
    | some s =>
      simp [Subject.findings, Visit.option, Server.faults_visits, Host.faults, Fault.under, List.map_filterMap,
        Function.comp_def]

theorem Response.faults_visits (r : Response) : Visit.faults (r.visits .v31) = Host.faults r.hosts := by
  have hlinks := faults_each fun x (_ : x ∈ r.links) => Link.faults_visits x.2
  have hheaders := Visit.faults_each_quiet Header.visits_quiet.1 r.headers
  have hcontent := Visit.faults_each_quiet Header.visits_quiet.2.1 r.content
  rw [Response.visits, faults_cons, faults_below, Response.hosts]
  cases isSet r.ref with
  | true => rfl
  | false => simp [Subject.findings, hlinks, hheaders, hcontent]

/-! ## Operations -/

theorem Operation.methodHosts_eq (os : List (Method × Operation)) :
    Operation.methodHosts os = Host.each Operation.hosts (os.map fun o => (o.1.name, o.2)) := by
  induction os with
  | nil => rfl
  | cons o os ih => simp [Operation.methodHosts, Host.each, ih]

theorem PathItem.namedHosts_eq (is : List (String × PathItem)) :
    PathItem.namedHosts is = Host.each PathItem.hosts is := by
  induction is with
  | nil => rfl
  | cons i is ih => simp [PathItem.namedHosts, Host.each, ih]

theorem Callback.namedHosts_eq (cs : List (String × Callback)) :
    Callback.namedHosts cs = Host.each Callback.hosts cs := by
  induction cs with
  | nil => rfl
  | cons c cs ih => simp [Callback.namedHosts, Host.each, ih]

/-- What there is to report about an operation, a path item or a callback is what is wrong with its
servers, if that holds of its parts. -/
theorem Operation.faults_steps :
    Operation.Steps (fun o => Visit.faults (o.visits .v31) = Host.faults o.hosts)
      (fun i => Visit.faults (i.visits .v31) = Host.faults i.hosts)
      fun c => Visit.faults (c.visits .v31) = Host.faults c.hosts where
  operation o hc := by
    obtain ⟨_, _, _, _, _, parameters, requestBody, responses, callbacks, _, _, servers, _⟩ := o
    have hparameters := Visit.faults_items_quiet Parameter.visits_quiet parameters
    have hbody := Visit.faults_option_quiet RequestBody.visits_quiet requestBody
    have hresponses := faults_each fun x (_ : x ∈ responses) => Response.faults_visits x.2
    have hcallbacks := faults_each hc
    rw [Operation.visits, faults_cons, faults_gather, Operation.hosts]
    simp [Subject.findings, Callback.namedVisits_eq, Callback.namedHosts_eq, hparameters, hbody, hresponses,
      hcallbacks, Server.faults_list]
  pathItem i ho := by
    obtain ⟨ref, _, _, operations, parameters, _⟩ := i
    have hparameters := Visit.faults_items_quiet Parameter.visits_quiet parameters
    have hmethods : ∀ x ∈ operations.map fun o => (o.1.name, o.2),
        Visit.faults (x.2.visits .v31) = Host.faults x.2.hosts := List.forall_mem_map.2 ho
    have hoperations := faults_each hmethods
    rw [faults_gather] at hoperations
    rw [PathItem.visits, faults_cons, faults_below, PathItem.hosts]
    cases isSet ref with
    | true => rfl
    | false => simp [Subject.findings, Operation.methodVisits_eq, Operation.methodHosts_eq, hparameters, hoperations]
  callback c hi := by
    obtain ⟨ref, pathItems, _⟩ := c
    have hitems := faults_each hi
    rw [faults_gather] at hitems
    rw [Callback.visits, faults_cons, faults_below, Callback.hosts]
    cases isSet ref with
    | true => rfl
    | false => simp [Subject.findings, PathItem.namedVisits_eq, PathItem.namedHosts_eq, hitems]

/-! ## The whole -/

theorem PathItem.faults_named (is : List (String × PathItem)) :
    Visit.faults (gather (each (PathItem.visits .v31) is)) = Host.faults (Host.each PathItem.hosts is) :=
  faults_each fun x _ => (Operation.ind Operation.faults_steps).2.1 x.2

theorem Components.faults_visits (c : Components) : Visit.faults (c.visits .v31) = Host.faults c.hosts := by
  have hschemas := Visit.faults_each_quiet Schema.visits_quiet c.schemas
  have hresponses := faults_each fun x (_ : x ∈ c.responses) => Response.faults_visits x.2
  have hparameters := Visit.faults_each_quiet Parameter.visits_quiet c.parameters
  have hbodies := Visit.faults_each_quiet RequestBody.visits_quiet c.requestBodies
  have hheaders := Visit.faults_each_quiet Header.visits_quiet.1 c.headers
  have hlinks := faults_each fun x (_ : x ∈ c.links) => Link.faults_visits x.2
  have hcallbacks := faults_each fun x (_ : x ∈ c.callbacks) => (Operation.ind Operation.faults_steps).2.2 x.2
  rw [Components.visits, faults_gather, Components.hosts]
  simp [PathItem.faults_named, hschemas, hresponses, hparameters, hbodies, hheaders, hlinks, hcallbacks]

namespace Api

theorem faults_visits (a : Api) : Visit.faults (a.visits .v31) = Host.faults a.hosts := by
  have hcomponents : Visit.faults (Visit.option (Components.visits .v31) a.components) =
      Host.faults (a.components.toList.flatMap Components.hosts) := by
    cases a.components with
    | none => rfl
    | some c => simpa [Visit.option] using Components.faults_visits c
  rw [Api.visits, faults_gather, Api.hosts]
  simp [PathItem.faults_named, Server.faults_list, hcomponents]

/-- **What a projection to the newer version records.** If there is a document, the codes and places of
the warnings are those of the faults of its servers' variables, each as often as it is there, and there
are no other warnings. -/
theorem toDocument_v31_faults {a : Api} {strict : Bool} {doc : Node}
    (h : (a.toDocument .v31 strict).value = .ok doc) :
    ((a.toDocument .v31 strict).warnings.map fun w => (w.code, w.path)).Perm
      ((Host.faults a.hosts).map Fault.told) := by
  have htold : ((Host.faults a.hosts).map Fault.told) =
      (Finding.warnings (a.findings .v31)).map fun w => (w.code, w.path) := by
    rw [← faults_visits]
    simp [findings, found, Finding.warnings, Finding.warning, Visit.faults, Fault.told, Visit.pointer,
      List.map_flatMap, Target.isFeatureRich, Function.comp_def]
  rw [toDocument_ok h, htold]
  exact (recorded31_perm a).map _

/-- An interface with a server in no zone, and one operation, whose own server is in the default zone and
whose callback is answered with a link to a server that is not. -/
def relay : Api where
  info := { title := "Relay", version := "1" }
  servers := [{ url := "https://\x7bzone\x7d", vars := [("zone", { default := "eu", enum := some [] })] }]
  paths := [("/send", { operations := [(.post, {
    callbacks := [("sent", { pathItems := [("\x7b$request.body#/url\x7d", { operations := [(.post, {
      responses := [("200", { description := "Done", links := [("next", { operationId := some "send", server := some {
        url := "https://\x7bzone\x7d", vars := [("zone", { default := "eu", enum := some ["us"] })] } })] })] })] })] })]
    servers := [{ url := "https://\x7bzone\x7d", vars := [("zone", { default := "eu", enum := some ["eu"] })] }] })] })]

theorem toDocument_v31_faults_relay :
    (∃ doc, (relay.toDocument .v31 true).value = .ok doc) ∧
      ((relay.toDocument .v31 true).warnings.map fun w => (w.code, w.path)).Perm [
        (.known .serverVariableEmptyEnum, "#/servers/0/variables/zone"),
        (.known .serverVariableDefaultNotInEnum, "#/paths/~1send/post/callbacks/sent/\x7b$request.body#~1url\x7d" ++
          "/post/responses/200/links/next/server/variables/zone")] := by
  have h : (relay.toDocument .v31 true).value = .ok relay.written31 := by
    rw [toDocument, project31_run]
    rfl
  have hf : (Host.faults relay.hosts).map Fault.told = [
      (.known .serverVariableEmptyEnum, "#/servers/0/variables/zone"),
      (.known .serverVariableDefaultNotInEnum, "#/paths/~1send/post/callbacks/sent/\x7b$request.body#~1url\x7d" ++
        "/post/responses/200/links/next/server/variables/zone")] := by
    decide
  exact ⟨⟨_, h⟩, hf ▸ toDocument_v31_faults h⟩

end Api
end ApiProjection
