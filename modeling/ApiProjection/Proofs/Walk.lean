import ApiProjection.Projection.Document
/-!
# The walk, one node at a time

A projection walks lists, named parts and optional parts by recursions of their own. Here each of
them is shown to be one of the three of `Traced`, and the value and the warnings of those are given
in closed form. What is written for a node that is no reference is then an equation between the node
and its parts: `Schema.value_project30`, `Header.value_project` and so on, which later proofs cite and
do not unfold.
-/
namespace ApiProjection

/-! ## Lists, named parts, optional parts -/

namespace Traced

variable {α β : Type} (f : α → Pointer → Traced β) (p : Pointer)

theorem value_items (i : Nat) (xs : List α) :
    (items f p i xs).value = (xs.zipIdx i).map fun e => (f e.1 (p.index e.2)).value := by
  induction xs generalizing i with
  | nil => rfl
  | cons x xs ih => simp [items, ih]

theorem warnings_items (i : Nat) (xs : List α) :
    (items f p i xs).warnings = (xs.zipIdx i).flatMap fun e => (f e.1 (p.index e.2)).warnings := by
  induction xs generalizing i with
  | nil => rfl
  | cons x xs ih => simp [items, ih]

theorem value_named (xs : List (String × α)) :
    (named f p xs).value = xs.map fun e => (e.1, (f e.2 (p.key e.1)).value) := by
  induction xs with
  | nil => rfl
  | cons x xs ih => simp [named, ih]

theorem warnings_named (xs : List (String × α)) :
    (named f p xs).warnings = xs.flatMap fun e => (f e.2 (p.key e.1)).warnings := by
  induction xs with
  | nil => rfl
  | cons x xs ih => simp [named, ih]

theorem value_option (o : Option α) : (option f p o).value = o.map fun x => (f x p).value := by
  cases o <;> rfl

theorem warnings_option (o : Option α) :
    (option f p o).warnings = o.toList.flatMap fun x => (f x p).warnings := by
  cases o <;> simp [option]

section
variable {γ : Type} {g : β → γ} {h : α → γ}

theorem map_value_items {i : Nat} {xs : List α} (hx : ∀ x ∈ xs, ∀ p, g (f x p).value = h x) :
    (items f p i xs).value.map g = xs.map h := by
  induction xs generalizing i with
  | nil => rfl
  | cons x xs ih =>
    simp only [items, value_bind, value_pure, List.map_cons, hx x List.mem_cons_self]
    rw [ih fun y hy => hx y (List.mem_cons_of_mem x hy)]

theorem map_value_named {xs : List (String × α)} (hx : ∀ x ∈ xs, ∀ p, g (f x.2 p).value = h x.2) :
    ((named f p xs).value.map fun e => (e.1, g e.2)) = xs.map fun e => (e.1, h e.2) := by
  rw [value_named, List.map_map]
  exact List.map_congr_left fun x hm => by simp [hx x hm]

theorem map_value_option {o : Option α} (hx : ∀ x ∈ o, ∀ p, g (f x p).value = h x) :
    (option f p o).value.map g = o.map h := by
  cases o with
  | none => rfl
  | some x => simp [value_option, hx x rfl]

end

end Traced

/-! ## Schemas -/

namespace Schema

theorem namedTo30_eq (cs : List (String × Schema)) (p : Pointer) :
    namedTo30 cs p = Traced.named to30 p cs := by
  induction cs with
  | nil => rfl
  | cons c cs ih => simp [namedTo30, Traced.named, ih]

theorem listTo30_eq (cs : List Schema) (p : Pointer) (i : Nat) :
    listTo30 cs p i = Traced.items to30 p i cs := by
  induction cs generalizing i with
  | nil => rfl
  | cons c cs ih => simp [listTo30, Traced.items, ih]

theorem optionTo30_eq (o : Option Schema) (p : Pointer) :
    optionTo30 o p = Traced.option to30 p o := by
  cases o <;> simp [optionTo30, Traced.option]

/-- A schema of the older dialect from the projections of its parts. -/
theorem to30_eq (s : Schema) (p : Pointer) :
    s.to30 p = match nonEmpty s.ref with
      | some target => pure (.ref target)
      | none => do
        warnContent s.facets p
        let items ← Traced.option to30 (p.key "items") s.items
        let properties ← Traced.named to30 (p.key "properties") s.properties
        let additional ← additionalTo30 s.additional (p.key "additionalProperties")
        let allOf ← Traced.items to30 (p.key "allOf") 0 s.allOf
        let anyOf ← Traced.items to30 (p.key "anyOf") 0 s.anyOf
        let oneOf ← Traced.items to30 (p.key "oneOf") 0 s.oneOf
        let notOf ← Traced.option to30 (p.key "not") s.notOf
        warnConst s.facets p
        Traced.warnIf s.unevaluated.isSome .unevaluatedProperties p
        Traced.warnIf (1 < s.facets.examples.length) .multipleExamples p
        return .node (common30 s.facets) (keywords30 s.facets) items properties additional allOf
          anyOf oneOf notOf := by
  obtain ⟨ref, _, _, _, _, _, _, _, _, _, _⟩ := s
  cases hr : nonEmpty ref <;> simp only [to30, optionTo30_eq, namedTo30_eq, listTo30_eq, hr]

theorem namedTo31_eq (cs : List (String × Schema)) : namedTo31 cs = cs.map fun c => (c.1, c.2.to31) := by
  induction cs with
  | nil => rfl
  | cons c cs ih => simp [namedTo31, ih]

theorem listTo31_eq (cs : List Schema) : listTo31 cs = cs.map to31 := by
  induction cs with
  | nil => rfl
  | cons c cs ih => simp [listTo31, ih]

theorem optionTo31_eq (o : Option Schema) : optionTo31 o = o.map to31 := by
  cases o <;> simp [optionTo31]

/-- A schema of the newer dialect from the projections of its parts. -/
theorem to31_eq (s : Schema) :
    s.to31 = match nonEmpty s.ref with
      | some target => .ref target
      | none =>
        .node (annotations .v31 s.facets) (keywords31 s.facets) (s.items.map to31)
          (s.properties.map fun c => (c.1, c.2.to31)) (additionalTo31 s.additional)
          (s.patternProperties.map fun c => (c.1, c.2.to31)) (s.unevaluated.map to31)
          (s.allOf.map to31) (s.anyOf.map to31) (s.oneOf.map to31) (s.notOf.map to31) := by
  obtain ⟨ref, _, _, _, _, _, _, _, _, _, _⟩ := s
  cases hr : nonEmpty ref <;> simp only [to31, optionTo31_eq, namedTo31_eq, listTo31_eq, hr]

end Schema

namespace Schema30

theorem optionToNode_eq (o : Option Schema30) : optionToNode o = o.map toNode := by
  cases o <;> simp [optionToNode]

theorem listToNodes_eq (ss : List Schema30) : listToNodes ss = ss.map toNode := by
  induction ss with
  | nil => rfl
  | cons s ss ih => simp [listToNodes, ih]

theorem namedToNodes_eq (ss : List (String × Schema30)) :
    namedToNodes ss = ss.map fun s => (s.1, s.2.toNode) := by
  induction ss with
  | nil => rfl
  | cons s ss ih => simp [namedToNodes, ih]

end Schema30

namespace Schema31

theorem optionToNode_eq (o : Option Schema31) : optionToNode o = o.map toNode := by
  cases o <;> simp [optionToNode]

theorem listToNodes_eq (ss : List Schema31) : listToNodes ss = ss.map toNode := by
  induction ss with
  | nil => rfl
  | cons s ss ih => simp [listToNodes, ih]

theorem namedToNodes_eq (ss : List (String × Schema31)) :
    namedToNodes ss = ss.map fun s => (s.1, s.2.toNode) := by
  induction ss with
  | nil => rfl
  | cons s ss ih => simp [namedToNodes, ih]

end Schema31

namespace Schema

theorem value_project30 (s : Schema) (hr : nonEmpty s.ref = none) (p : Pointer) :
    (s.project .v30 p).value = (Schema30.node (common30 s.facets) (keywords30 s.facets)
      (Traced.option to30 (p.key "items") s.items).value
      (Traced.named to30 (p.key "properties") s.properties).value
      (additionalTo30 s.additional (p.key "additionalProperties")).value
      (Traced.items to30 (p.key "allOf") 0 s.allOf).value
      (Traced.items to30 (p.key "anyOf") 0 s.anyOf).value
      (Traced.items to30 (p.key "oneOf") 0 s.oneOf).value
      (Traced.option to30 (p.key "not") s.notOf).value).toNode := by
  rw [project, to30_eq, hr]
  rfl

theorem value_project31 (s : Schema) (hr : nonEmpty s.ref = none) (p : Pointer) :
    (s.project .v31 p).value = (Schema31.node (annotations .v31 s.facets) (keywords31 s.facets)
      (s.items.map to31) (s.properties.map fun c => (c.1, c.2.to31)) (additionalTo31 s.additional)
      (s.patternProperties.map fun c => (c.1, c.2.to31)) (s.unevaluated.map to31) (s.allOf.map to31)
      (s.anyOf.map to31) (s.oneOf.map to31) (s.notOf.map to31)).toNode := by
  rw [project, to31_eq, hr]
  rfl

theorem project_ref {s : Schema} {target : String} (hr : nonEmpty s.ref = some target) (t : Target)
    (p : Pointer) : s.project t p = pure (.reference target) := by
  cases t with
  | v30 =>
    rw [project, to30_eq, hr]
    rfl
  | v31 =>
    rw [project, to31_eq, hr]
    rfl

/-! ### What is written for the parts of a schema -/

section
variable (p : Pointer)

theorem option_to30 (o : Option Schema) :
    Schema30.optionToNode (Traced.option to30 p o).value = (Traced.option (project .v30) p o).value := by
  simp [Schema30.optionToNode_eq, Traced.value_option, project, Function.comp_def]

theorem items_to30 (cs : List Schema) :
    Schema30.listToNodes (Traced.items to30 p 0 cs).value = (Traced.items (project .v30) p 0 cs).value := by
  simp [Schema30.listToNodes_eq, Traced.value_items, project, Function.comp_def]

theorem named_to30 (cs : List (String × Schema)) :
    Schema30.namedToNodes (Traced.named to30 p cs).value = (Traced.named (project .v30) p cs).value := by
  simp [Schema30.namedToNodes_eq, Traced.value_named, project, Function.comp_def]

theorem option_to31 (o : Option Schema) :
    Schema31.optionToNode (o.map to31) = (Traced.option (project .v31) p o).value := by
  simp [Schema31.optionToNode_eq, Traced.value_option, project, Function.comp_def]

theorem items_to31 (cs : List Schema) :
    Schema31.listToNodes (cs.map to31) = (Traced.items (project .v31) p 0 cs).value := by
  rw [Schema31.listToNodes_eq, Traced.value_items, List.map_map]
  conv => lhs; rw [← List.zipIdx_map_fst 0 cs, List.map_map]
  rfl

theorem named_to31 (cs : List (String × Schema)) :
    Schema31.namedToNodes (cs.map fun c => (c.1, c.2.to31)) = (Traced.named (project .v31) p cs).value := by
  simp [Schema31.namedToNodes_eq, Traced.value_named, project, Function.comp_def]

end

end Schema

/-! ## Headers and bodies -/

section
variable (t : Target)

theorem Header.projectNamed_eq (hs : List (String × Header)) (p : Pointer) :
    Header.projectNamed t hs p = Traced.named (Header.project t) p hs := by
  induction hs with
  | nil => rfl
  | cons h hs ih => simp [Header.projectNamed, Traced.named, ih]

theorem MediaType.projectNamed_eq (ms : List (String × MediaType)) (p : Pointer) :
    MediaType.projectNamed t ms p = Traced.named (MediaType.project t) p ms := by
  induction ms with
  | nil => rfl
  | cons m ms ih => simp [MediaType.projectNamed, Traced.named, ih]

theorem Encoding.projectNamed_eq (es : List (String × Encoding)) (p : Pointer) :
    Encoding.projectNamed t es p = Traced.named (Encoding.project t) p es := by
  induction es with
  | nil => rfl
  | cons e es ih => simp [Encoding.projectNamed, Traced.named, ih]

theorem Operation.projectMethods_eq (os : List (Method × Operation)) (p : Pointer) :
    Operation.projectMethods t os p =
      Traced.named (Operation.project t) p (os.map fun o => (o.1.name, o.2)) := by
  induction os with
  | nil => rfl
  | cons o os ih => simp [Operation.projectMethods, Traced.named, ih]

theorem PathItem.projectNamed_eq (is : List (String × PathItem)) (p : Pointer) :
    PathItem.projectNamed t is p = Traced.named (PathItem.project t) p is := by
  induction is with
  | nil => rfl
  | cons i is ih => simp [PathItem.projectNamed, Traced.named, ih]

theorem Callback.projectNamed_eq (cs : List (String × Callback)) (p : Pointer) :
    Callback.projectNamed t cs p = Traced.named (Callback.project t) p cs := by
  induction cs with
  | nil => rfl
  | cons c cs ih => simp [Callback.projectNamed, Traced.named, ih]

end

/-! ## What is written for a node -/

section
variable {t : Target} {p : Pointer}

theorem Example.project_eq (t : Target) (e : Example) (hr : nonEmpty e.ref = none) : e.project t = .extended t [
    .text? "summary" e.summary,
    .text? "description" e.description,
    .free "value" e.value,
    .text? "externalValue" e.externalValue] e.extensions := by
  rw [project, hr]

theorem SecurityScheme.project_eq (t : Target) (s : SecurityScheme) (hr : nonEmpty s.ref = none) :
    s.project t = .extended t [
      .node? "type" (s.type.map .text),
      .text? "description" s.description,
      .text? "name" s.name,
      .text? "in" s.place,
      .text? "scheme" s.scheme,
      .text? "bearerFormat" s.bearerFormat,
      .node? "flows" (s.flows.bind fun f => f.project? t),
      .text? "openIdConnectUrl" s.openIdConnectUrl] s.extensions := by
  rw [project, hr]

/-- A finding of a variable is recorded only. -/
theorem ServerVariable.value_project (v : ServerVariable) : (v.project t p).value = .extended t [
    .texts "enum" (v.enum.getD []),
    .text "default" v.default,
    .text? "description" v.description] v.extensions := by
  rw [project]
  cases v.finding? t <;> rfl

theorem Server.value_project (s : Server) : (s.project t p).value = .extended t [
    .text "url" s.url,
    .text? "description" s.description,
    .named "variables" (Traced.named (ServerVariable.project t) (p.key "variables") s.vars).value]
      s.extensions := rfl

theorem Header.value_project (h : Header) (hr : nonEmpty h.ref = none) : (h.project t p).value = .extended t [
    .text? "description" h.description,
    .flag "required" h.required,
    .flag "deprecated" h.deprecated,
    .flag "allowEmptyValue" h.allowEmptyValue,
    .text? "style" h.style,
    .flag "explode" h.explode,
    .node? "schema" (Traced.option (Schema.project t) (p.key "schema") h.schema).value,
    .free "example" h.sample,
    Example.projectAll t h.examples,
    .named "content" (Traced.named (MediaType.project t) (p.key "content") h.content).value]
      h.extensions := by
  obtain ⟨ref, _, _, _, _, _, _, _, _, _, _, _⟩ := h
  have hr : nonEmpty ref = none := hr
  simp only [Header.project, hr, MediaType.projectNamed_eq]
  rfl

theorem MediaType.value_project (m : MediaType) : (m.project t p).value = .extended t [
    .node? "schema" (Traced.option (Schema.project t) (p.key "schema") m.schema).value,
    .free "example" m.sample,
    Example.projectAll t m.examples,
    .named "encoding" (Traced.named (Encoding.project t) (p.key "encoding") m.encoding).value]
      m.extensions := by
  obtain ⟨_, _, _, _, _⟩ := m
  simp only [MediaType.project, Encoding.projectNamed_eq]
  rfl

theorem Encoding.value_project (e : Encoding) : (e.project t p).value = .extended t [
    .text? "contentType" e.contentType,
    .named "headers" (Traced.named (Header.project t) (p.key "headers") e.headers).value,
    .text? "style" e.style,
    .flag "explode" e.explode,
    .flag "allowReserved" e.allowReserved] e.extensions := by
  obtain ⟨_, _, _, _, _, _⟩ := e
  simp only [Encoding.project, Header.projectNamed_eq]
  rfl

theorem Parameter.value_project (x : Parameter) (hr : nonEmpty x.ref = none) :
    (x.project t p).value = .extended t [
      .text? "name" x.name,
      .text? "in" x.place,
      .text? "description" x.description,
      .flag "required" x.required,
      .flag "deprecated" x.deprecated,
      .flag "allowEmptyValue" x.allowEmptyValue,
      .text? "style" x.style,
      .flag "explode" x.explode,
      .flag "allowReserved" x.allowReserved,
      .node? "schema" (Traced.option (Schema.project t) (p.key "schema") x.schema).value,
      .free "example" x.sample,
      Example.projectAll t x.examples,
      .named "content" (Traced.named (MediaType.project t) (p.key "content") x.content).value]
        x.extensions := by
  simp only [project, hr, MediaType.projectNamed_eq]
  rfl

theorem RequestBody.value_project (b : RequestBody) (hr : nonEmpty b.ref = none) :
    (b.project t p).value = .extended t [
      .text? "description" b.description,
      [("content", .object (Traced.named (MediaType.project t) (p.key "content") b.content).value [])],
      .flag "required" b.required] b.extensions := by
  simp only [project, hr, MediaType.projectNamed_eq]
  rfl

theorem Link.value_project (l : Link) (hr : nonEmpty l.ref = none) : (l.project t p).value = .extended t [
    .text? "operationRef" l.operationRef,
    .text? "operationId" l.operationId,
    .named "parameters" (l.parameters.map fun x => (x.1, .free x.2)),
    .free "requestBody" l.requestBody,
    .text? "description" l.description,
    .node? "server" (Traced.option (Server.project t) (p.key "server") l.server).value] l.extensions := by
  simp only [project, hr]
  rfl

theorem Response.value_project (r : Response) (hr : nonEmpty r.ref = none) :
    (r.project t p).value = .extended t [
      .text "description" r.description,
      .named "headers" (Traced.named (Header.project t) (p.key "headers") r.headers).value,
      .named "content" (Traced.named (MediaType.project t) (p.key "content") r.content).value,
      .named "links" (Traced.named (Link.project t) (p.key "links") r.links).value] r.extensions := by
  simp only [project, hr, Header.projectNamed_eq, MediaType.projectNamed_eq]
  rfl

theorem Operation.value_project (o : Operation) : (o.project t p).value = .extended t [
    .texts "tags" o.tags,
    .text? "summary" o.summary,
    .text? "description" o.description,
    .node? "externalDocs" (o.externalDocs.map fun d => d.project t),
    .text? "operationId" o.operationId,
    .nodes "parameters" (Traced.items (Parameter.project t) (p.key "parameters") 0 o.parameters).value,
    .node? "requestBody" (Traced.option (RequestBody.project t) (p.key "requestBody") o.requestBody).value,
    [("responses", .object (Traced.named (Response.project t) (p.key "responses") o.responses).value [])],
    .named "callbacks" (Traced.named (Callback.project t) (p.key "callbacks") o.callbacks).value,
    .flag "deprecated" o.deprecated,
    .nodes "security" (o.security.map SecurityRequirement.project),
    .nodes "servers" (Traced.items (Server.project t) (p.key "servers") 0 o.servers).value]
      o.extensions := by
  obtain ⟨_, _, _, _, _, _, _, _, _, _, _, _, _⟩ := o
  simp only [Operation.project, Callback.projectNamed_eq]
  rfl

/-- The operations of a path item stand in it by their methods. -/
theorem PathItem.value_project (i : PathItem) (hr : nonEmpty i.ref = none) :
    (i.project t p).value = .extended t [
      .text? "summary" i.summary,
      .text? "description" i.description,
      (Traced.named (Operation.project t) p (i.operations.map fun o => (o.1.name, o.2))).value,
      .nodes "parameters" (Traced.items (Parameter.project t) (p.key "parameters") 0 i.parameters).value]
        i.extensions := by
  obtain ⟨ref, _, _, _, _, _⟩ := i
  have hr : nonEmpty ref = none := hr
  simp only [PathItem.project, hr, Operation.projectMethods_eq]
  rfl

/-- The path items of a callback stand in it by their expressions. -/
theorem Callback.value_project (c : Callback) (hr : nonEmpty c.ref = none) :
    (c.project t p).value =
      .extended t [(Traced.named (PathItem.project t) p c.pathItems).value] c.extensions := by
  obtain ⟨ref, _, _⟩ := c
  have hr : nonEmpty ref = none := hr
  simp only [Callback.project, hr, PathItem.projectNamed_eq]
  rfl

end
end ApiProjection
