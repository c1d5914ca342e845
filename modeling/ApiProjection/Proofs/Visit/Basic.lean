import ApiProjection.Projection.Document
import ApiProjection.Proofs.Induction
import ApiProjection.Proofs.Pointer
/-!
# What a projection visits

A projection goes through a description from its root and gives each node that it comes to a place
in the document. `visits` lists these nodes with their places, by a recursion over the description
alone: nothing is written and nothing recorded. A node with a reference is visited, what stands
below it is not; what the older version drops (`patternProperties`, `unevaluatedProperties`,
webhooks, reusable paths) is visited in the newer one only.

Places are relative to the node that the list is for. `gather` puts lists for the parts of a node
together, each under the key of its part.
-/
namespace ApiProjection

/-- A node that a projection gives a place. -/
inductive Subject
  | schema (s : Schema)
  | header (h : Header)
  | mediaType (m : MediaType)
  | encoding (e : Encoding)
  | parameter (x : Parameter)
  | requestBody (b : RequestBody)
  | serverVariable (v : ServerVariable)
  | server (s : Server)
  | link (l : Link)
  | response (r : Response)
  | operation (o : Operation)
  | pathItem (i : PathItem)
  | callback (c : Callback)

/-- A node of a version's document, written at a place, with the warnings about it and its parts. -/
def Subject.project (t : Target) : Subject → Pointer → Traced Node
  | .schema s => s.project t
  | .header h => h.project t
  | .mediaType m => m.project t
  | .encoding e => e.project t
  | .parameter x => x.project t
  | .requestBody b => b.project t
  | .serverVariable v => v.project t
  | .server s => s.project t
  | .link l => l.project t
  | .response r => r.project t
  | .operation o => o.project t
  | .pathItem i => i.project t
  | .callback c => c.project t

/-- A visited node and the keys and positions that lead to it. -/
structure Visit where
  place : List String
  subject : Subject

namespace Visit

/-- The visit as it looks from one level further out. -/
def under (k : String) (v : Visit) : Visit := { v with place := k :: v.place }

/-- The place of a visit in a whole document. -/
def pointer (v : Visit) : Pointer := Pointer.root.descend v.place

/-- The visits in the parts of a node, each part with its key. -/
def gather (parts : List (String × List Visit)) : List Visit :=
  parts.flatMap fun b => b.2.map (under b.1)

/-- The visits below a node, of which there are none if it is a reference. -/
def below (ref : Option String) (parts : List (String × List Visit)) : List Visit :=
  if (nonEmpty ref).isSome then [] else gather parts

section
variable {α : Type} (f : α → List Visit)

def option (o : Option α) : List Visit := o.toList.flatMap f

/-- Named parts with the visits in each. -/
def each (xs : List (String × α)) : List (String × List Visit) := xs.map fun e => (e.1, f e.2)

/-- The parts of a list with the visits in each, counted from a position on. -/
def items (i : Nat) (xs : List α) : List (String × List Visit) :=
  (xs.zipIdx i).map fun e => (toString e.2, f e.1)

end

/-- Visits that only the newer version makes. -/
def newer (t : Target) (vs : List Visit) : List Visit := if t.isFeatureRich then vs else []

/-! ### What holds of all subjects -/

section
variable {α : Type} {P : Subject → Prop} {f : α → List Visit}

theorem forall_gather {parts : List (String × List Visit)} :
    (∀ v ∈ gather parts, P v.subject) ↔ ∀ b ∈ parts, ∀ v ∈ b.2, P v.subject := by
  constructor
  · intro h b hb v hv
    exact h (v.under b.1) (List.mem_flatMap.2 ⟨b, hb, List.mem_map_of_mem hv⟩)
  · intro h v hv
    obtain ⟨b, hb, hv⟩ := List.mem_flatMap.1 hv
    obtain ⟨w, hw, rfl⟩ := List.mem_map.1 hv
    exact h b hb w hw

theorem forall_each {xs : List (String × α)} :
    (∀ b ∈ each f xs, ∀ v ∈ b.2, P v.subject) ↔ ∀ x ∈ xs, ∀ v ∈ f x.2, P v.subject := by
  simp only [each, List.forall_mem_map]

theorem forall_items {i : Nat} {xs : List α} :
    (∀ b ∈ items f i xs, ∀ v ∈ b.2, P v.subject) ↔ ∀ x ∈ xs, ∀ v ∈ f x, P v.subject := by
  simp only [items, List.forall_mem_map]
  constructor
  · intro h x hx
    obtain ⟨j, hj, rfl⟩ := List.mem_iff_getElem.1 hx
    exact h (xs[j], i + j) (List.mk_add_mem_zipIdx_iff_getElem?.2 (by simp [hj]))
  · intro h e he
    exact h e.1 (List.fst_mem_of_mem_zipIdx he)

theorem forall_option {o : Option α} :
    (∀ v ∈ option f o, P v.subject) ↔ ∀ x ∈ o, ∀ v ∈ f x, P v.subject := by
  cases o <;> simp [option]

@[simp] theorem newer_v30 (vs : List Visit) : newer .v30 vs = [] := rfl

@[simp] theorem newer_v31 (vs : List Visit) : newer .v31 vs = vs := rfl

theorem mem_newer {t : Target} {v : Visit} {vs : List Visit} (h : v ∈ newer t vs) : v ∈ vs := by
  cases t with
  | v30 => cases h
  | v31 => exact h

theorem forall_below_none {ref : Option String} {parts : List (String × List Visit)} (hr : nonEmpty ref = none) :
    (∀ v ∈ below ref parts, P v.subject) ↔ ∀ b ∈ parts, ∀ v ∈ b.2, P v.subject := by
  rw [below, hr]
  exact forall_gather

theorem forall_below {ref : Option String} {parts : List (String × List Visit)}
    (h : ∀ b ∈ parts, ∀ v ∈ b.2, P v.subject) : ∀ v ∈ below ref parts, P v.subject := by
  unfold below
  split
  · simp
  · exact forall_gather.2 h

end

end Visit

open Visit (gather below each newer)

/-! ## Schemas -/

namespace Schema

mutual
def visits (t : Target) : Schema → List Visit
  | ⟨ref, f, items, properties, additional, patternProperties, unevaluated, allOf, anyOf, oneOf, notOf⟩ =>
    ⟨[], .schema ⟨ref, f, items, properties, additional, patternProperties, unevaluated, allOf, anyOf, oneOf,
      notOf⟩⟩ :: below ref [
      ("items", optionVisits t items),
      ("properties", gather (namedVisits t properties)),
      ("additionalProperties", additionalVisits t additional),
      ("patternProperties", newer t (gather (namedVisits t patternProperties))),
      ("unevaluatedProperties", newer t (optionVisits t unevaluated)),
      ("allOf", gather (listVisits t 0 allOf)),
      ("anyOf", gather (listVisits t 0 anyOf)),
      ("oneOf", gather (listVisits t 0 oneOf)),
      ("not", optionVisits t notOf)]

def optionVisits (t : Target) : Option Schema → List Visit
  | none => []
  | some s => visits t s

def namedVisits (t : Target) : List (String × Schema) → List (String × List Visit)
  | [] => []
  | (k, s) :: ss => (k, visits t s) :: namedVisits t ss

def listVisits (t : Target) : Nat → List Schema → List (String × List Visit)
  | _, [] => []
  | i, s :: ss => (toString i, visits t s) :: listVisits t (i + 1) ss

def additionalVisits (t : Target) : Option (Additional Schema) → List Visit
  | some ⟨_, some s⟩ => visits t s
  | _ => []
end

/-- The parts of a schema with the visits in each. -/
def parts (t : Target) (s : Schema) : List (String × List Visit) := [
  ("items", Visit.option (visits t) s.items),
  ("properties", gather (each (visits t) s.properties)),
  ("additionalProperties", Visit.option (visits t) (s.additional.bind Additional.schema)),
  ("patternProperties", newer t (gather (each (visits t) s.patternProperties))),
  ("unevaluatedProperties", newer t (Visit.option (visits t) s.unevaluated)),
  ("allOf", gather (Visit.items (visits t) 0 s.allOf)),
  ("anyOf", gather (Visit.items (visits t) 0 s.anyOf)),
  ("oneOf", gather (Visit.items (visits t) 0 s.oneOf)),
  ("not", Visit.option (visits t) s.notOf)]

end Schema

/-! ## Servers -/

def ServerVariable.visits (v : ServerVariable) : List Visit := [⟨[], .serverVariable v⟩]

def Server.visits (s : Server) : List Visit :=
  ⟨[], .server s⟩ :: gather [("variables", gather (each ServerVariable.visits s.vars))]

/-! ## Headers and bodies -/

mutual
def Header.visits (t : Target) : Header → List Visit
  | ⟨ref, description, required, deprecated, allowEmptyValue, style, explode, schema, sample,
      examples, content, extensions⟩ =>
    ⟨[], .header ⟨ref, description, required, deprecated, allowEmptyValue, style, explode, schema, sample,
      examples, content, extensions⟩⟩ :: below ref [
      ("schema", Visit.option (Schema.visits t) schema),
      ("content", gather (MediaType.namedVisits t content))]

def MediaType.visits (t : Target) : MediaType → List Visit
  | ⟨schema, sample, examples, encoding, extensions⟩ =>
    ⟨[], .mediaType ⟨schema, sample, examples, encoding, extensions⟩⟩ :: gather [
      ("encoding", gather (Encoding.namedVisits t encoding)),
      ("schema", Visit.option (Schema.visits t) schema)]

def Encoding.visits (t : Target) : Encoding → List Visit
  | ⟨contentType, headers, style, explode, allowReserved, extensions⟩ =>
    ⟨[], .encoding ⟨contentType, headers, style, explode, allowReserved, extensions⟩⟩ :: gather [
      ("headers", gather (Header.namedVisits t headers))]

def Header.namedVisits (t : Target) : List (String × Header) → List (String × List Visit)
  | [] => []
  | (k, h) :: hs => (k, h.visits t) :: Header.namedVisits t hs

def MediaType.namedVisits (t : Target) : List (String × MediaType) → List (String × List Visit)
  | [] => []
  | (k, m) :: ms => (k, m.visits t) :: MediaType.namedVisits t ms

def Encoding.namedVisits (t : Target) : List (String × Encoding) → List (String × List Visit)
  | [] => []
  | (k, e) :: es => (k, e.visits t) :: Encoding.namedVisits t es
end

def Parameter.visits (t : Target) (x : Parameter) : List Visit :=
  ⟨[], .parameter x⟩ :: below x.ref [
    ("schema", Visit.option (Schema.visits t) x.schema),
    ("content", gather (each (MediaType.visits t) x.content))]

def RequestBody.visits (t : Target) (b : RequestBody) : List Visit :=
  ⟨[], .requestBody b⟩ :: below b.ref [("content", gather (each (MediaType.visits t) b.content))]

/-! ## Responses -/

def Link.visits (l : Link) : List Visit :=
  ⟨[], .link l⟩ :: below l.ref [("server", Visit.option Server.visits l.server)]

def Response.visits (t : Target) (r : Response) : List Visit :=
  ⟨[], .response r⟩ :: below r.ref [
    ("links", gather (each Link.visits r.links)),
    ("headers", gather (each (Header.visits t) r.headers)),
    ("content", gather (each (MediaType.visits t) r.content))]

/-! ## Operations -/

mutual
def Operation.visits (t : Target) : Operation → List Visit
  | ⟨tags, summary, description, externalDocs, operationId, parameters, requestBody, responses,
      callbacks, deprecated, security, servers, extensions⟩ =>
    ⟨[], .operation ⟨tags, summary, description, externalDocs, operationId, parameters, requestBody,
      responses, callbacks, deprecated, security, servers, extensions⟩⟩ :: gather [
      ("parameters", gather (Visit.items (Parameter.visits t) 0 parameters)),
      ("requestBody", Visit.option (RequestBody.visits t) requestBody),
      ("responses", gather (each (Response.visits t) responses)),
      ("callbacks", gather (Callback.namedVisits t callbacks)),
      ("servers", gather (Visit.items Server.visits 0 servers))]

def PathItem.visits (t : Target) : PathItem → List Visit
  | ⟨ref, summary, description, operations, parameters, extensions⟩ =>
    ⟨[], .pathItem ⟨ref, summary, description, operations, parameters, extensions⟩⟩ :: below ref (
      ("parameters", gather (Visit.items (Parameter.visits t) 0 parameters)) ::
        Operation.methodVisits t operations)

def Callback.visits (t : Target) : Callback → List Visit
  | ⟨ref, pathItems, extensions⟩ =>
    ⟨[], .callback ⟨ref, pathItems, extensions⟩⟩ :: below ref (PathItem.namedVisits t pathItems)

def Operation.methodVisits (t : Target) : List (Method × Operation) → List (String × List Visit)
  | [] => []
  | (m, o) :: os => (m.name, o.visits t) :: Operation.methodVisits t os

def PathItem.namedVisits (t : Target) : List (String × PathItem) → List (String × List Visit)
  | [] => []
  | (k, i) :: is => (k, i.visits t) :: PathItem.namedVisits t is

def Callback.namedVisits (t : Target) : List (String × Callback) → List (String × List Visit)
  | [] => []
  | (k, c) :: cs => (k, c.visits t) :: Callback.namedVisits t cs
end

/-! ## The whole -/

def Components.visits (t : Target) (c : Components) : List Visit := gather [
  ("pathItems", newer t (gather (each (PathItem.visits t) c.pathItems))),
  ("schemas", gather (each (Schema.visits t) c.schemas)),
  ("responses", gather (each (Response.visits t) c.responses)),
  ("parameters", gather (each (Parameter.visits t) c.parameters)),
  ("requestBodies", gather (each (RequestBody.visits t) c.requestBodies)),
  ("headers", gather (each (Header.visits t) c.headers)),
  ("links", gather (each Link.visits c.links)),
  ("callbacks", gather (each (Callback.visits t) c.callbacks))]

/-- What a projection to a version visits, with places in the whole document. -/
def Api.visits (t : Target) (a : Api) : List Visit := gather [
  ("servers", gather (Visit.items Server.visits 0 a.servers)),
  ("paths", gather (each (PathItem.visits t) a.paths)),
  ("components", Visit.option (Components.visits t) a.components),
  ("webhooks", newer t (gather (each (PathItem.visits t) a.webhooks)))]

/-! ## Recursions as lists of parts -/

section
variable (t : Target)

theorem Schema.namedVisits_eq (cs : List (String × Schema)) :
    Schema.namedVisits t cs = each (Schema.visits t) cs := by
  induction cs with
  | nil => rfl
  | cons c cs ih => simp [Schema.namedVisits, each, ih]

theorem Schema.listVisits_eq (i : Nat) (cs : List Schema) :
    Schema.listVisits t i cs = Visit.items (Schema.visits t) i cs := by
  induction cs generalizing i with
  | nil => rfl
  | cons c cs ih => simp [Schema.listVisits, Visit.items, ih]

theorem Schema.optionVisits_eq (o : Option Schema) :
    Schema.optionVisits t o = Visit.option (Schema.visits t) o := by
  cases o <;> simp [Schema.optionVisits, Visit.option]

theorem Schema.additionalVisits_eq (o : Option (Additional Schema)) :
    Schema.additionalVisits t o = Visit.option (Schema.visits t) (o.bind Additional.schema) := by
  match o with
  | none => rfl
  | some ⟨_, none⟩ => rfl
  | some ⟨_, some s⟩ => simp [Schema.additionalVisits, Visit.option]

theorem Schema.visits_eq (s : Schema) :
    s.visits t = ⟨[], .schema s⟩ :: below s.ref (s.parts t) := by
  cases s
  simp only [Schema.visits, Schema.parts, Schema.optionVisits_eq, Schema.namedVisits_eq,
    Schema.listVisits_eq, Schema.additionalVisits_eq]

theorem MediaType.namedVisits_eq (ms : List (String × MediaType)) :
    MediaType.namedVisits t ms = each (MediaType.visits t) ms := by
  induction ms with
  | nil => rfl
  | cons m ms ih => simp [MediaType.namedVisits, each, ih]

theorem Encoding.namedVisits_eq (es : List (String × Encoding)) :
    Encoding.namedVisits t es = each (Encoding.visits t) es := by
  induction es with
  | nil => rfl
  | cons e es ih => simp [Encoding.namedVisits, each, ih]

theorem Header.namedVisits_eq (hs : List (String × Header)) :
    Header.namedVisits t hs = each (Header.visits t) hs := by
  induction hs with
  | nil => rfl
  | cons h hs ih => simp [Header.namedVisits, each, ih]

theorem Header.visits_eq (h : Header) : h.visits t = ⟨[], .header h⟩ :: below h.ref [
    ("schema", Visit.option (Schema.visits t) h.schema),
    ("content", gather (each (MediaType.visits t) h.content))] := by
  cases h
  rw [Header.visits, MediaType.namedVisits_eq]

theorem MediaType.visits_eq (m : MediaType) : m.visits t = ⟨[], .mediaType m⟩ :: gather [
    ("encoding", gather (each (Encoding.visits t) m.encoding)),
    ("schema", Visit.option (Schema.visits t) m.schema)] := by
  cases m
  rw [MediaType.visits, Encoding.namedVisits_eq]

theorem Encoding.visits_eq (e : Encoding) : e.visits t = ⟨[], .encoding e⟩ :: gather [
    ("headers", gather (each (Header.visits t) e.headers))] := by
  cases e
  rw [Encoding.visits, Header.namedVisits_eq]

theorem Operation.methodVisits_eq (os : List (Method × Operation)) :
    Operation.methodVisits t os = each (Operation.visits t) (os.map fun o => (o.1.name, o.2)) := by
  induction os with
  | nil => rfl
  | cons o os ih => simp [Operation.methodVisits, each, ih]

theorem PathItem.namedVisits_eq (is : List (String × PathItem)) :
    PathItem.namedVisits t is = each (PathItem.visits t) is := by
  induction is with
  | nil => rfl
  | cons i is ih => simp [PathItem.namedVisits, each, ih]

theorem Callback.namedVisits_eq (cs : List (String × Callback)) :
    Callback.namedVisits t cs = each (Callback.visits t) cs := by
  induction cs with
  | nil => rfl
  | cons c cs ih => simp [Callback.namedVisits, each, ih]

theorem Operation.visits_eq (o : Operation) : o.visits t = ⟨[], .operation o⟩ :: gather [
    ("parameters", gather (Visit.items (Parameter.visits t) 0 o.parameters)),
    ("requestBody", Visit.option (RequestBody.visits t) o.requestBody),
    ("responses", gather (each (Response.visits t) o.responses)),
    ("callbacks", gather (each (Callback.visits t) o.callbacks)),
    ("servers", gather (Visit.items Server.visits 0 o.servers))] := by
  cases o
  rw [Operation.visits, Callback.namedVisits_eq]

theorem PathItem.visits_eq (i : PathItem) : i.visits t = ⟨[], .pathItem i⟩ :: below i.ref (
    ("parameters", gather (Visit.items (Parameter.visits t) 0 i.parameters)) ::
      each (Operation.visits t) (i.operations.map fun o => (o.1.name, o.2))) := by
  cases i
  rw [PathItem.visits, Operation.methodVisits_eq]

theorem Callback.visits_eq (c : Callback) :
    c.visits t = ⟨[], .callback c⟩ :: below c.ref (each (PathItem.visits t) c.pathItems) := by
  cases c
  rw [Callback.visits, PathItem.namedVisits_eq]

/-! ## Below a schema -/

def Subject.IsSchema : Subject → Prop
  | .schema _ => True
  | _ => False

/-- Below a schema there are schemas only. -/
theorem Schema.visits_isSchema (s : Schema) : ∀ v ∈ s.visits t, v.subject.IsSchema := by
  induction s using Schema.ind with
  | step s ih =>
    rw [Schema.visits_eq, List.forall_mem_cons]
    refine ⟨trivial, Visit.forall_below ?_⟩
    simp only [Schema.parts, List.forall_mem_cons, Visit.forall_gather, Visit.forall_each, Visit.forall_items,
      Visit.forall_option]
    refine ⟨ih.items, ih.properties, fun c hc => ?_, fun v hv => ?_, fun v hv => ?_, ih.allOf, ih.anyOf,
      ih.oneOf, ih.notOf, by simp⟩
    · obtain ⟨a, ha, hc⟩ := Option.bind_eq_some_iff.1 hc
      exact ih.additional a ha c hc
    · exact (Visit.forall_gather.2 (Visit.forall_each.2 ih.patternProperties)) v (Visit.mem_newer hv)
    · exact (Visit.forall_option.2 ih.unevaluated) v (Visit.mem_newer hv)

end
end ApiProjection
