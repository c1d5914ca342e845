import ApiProjection.Proofs.Fields
import ApiProjection.Proofs.Induction
import ApiProjection.Proofs.Walk
/-!
# Nothing but references

A node with a reference may have other fields beside it, which mean nothing. `bare` takes them away, here
and in all parts: two descriptions are the same but for such fields if they are the same once they are bare.

What is projected from a node does not depend on them: `Schema.project_bare`, `Header.project_bare`,
`PathItem.project_bare` and so on, for each kind of node.
-/
namespace ApiProjection

/-! ## Taking away what stands beside a reference -/

namespace Schema

mutual
def bare : Schema → Schema
  | ⟨ref, f, items, properties, additional, patternProperties, unevaluated, allOf, anyOf, oneOf, notOf⟩ =>
    match nonEmpty ref with
    | some target => { ref := some target }
    | none => {
      ref
      facets := f
      items := bareOption items
      properties := bareNamed properties
      additional := bareAdditional additional
      patternProperties := bareNamed patternProperties
      unevaluated := bareOption unevaluated
      allOf := bareList allOf
      anyOf := bareList anyOf
      oneOf := bareList oneOf
      notOf := bareOption notOf }

def bareOption : Option Schema → Option Schema
  | none => none
  | some s => some (bare s)

def bareNamed : List (String × Schema) → List (String × Schema)
  | [] => []
  | (k, s) :: ss => (k, bare s) :: bareNamed ss

def bareList : List Schema → List Schema
  | [] => []
  | s :: ss => bare s :: bareList ss

def bareAdditional : Option (Additional Schema) → Option (Additional Schema)
  | some ⟨b, some s⟩ => some ⟨b, some (bare s)⟩
  | o => o
end

end Schema

/-- Named parts, each of them bare. -/
def bareParts {α : Type} (bare : α → α) (xs : List (String × α)) : List (String × α) :=
  xs.map fun x => (x.1, bare x.2)

def Example.bare (e : Example) : Example :=
  match nonEmpty e.ref with
  | some target => { ref := some target }
  | none => e

mutual
def Header.bare : Header → Header
  | ⟨ref, description, required, deprecated, allowEmptyValue, style, explode, schema, sample, examples,
      content, extensions⟩ =>
    match nonEmpty ref with
    | some target => { ref := some target }
    | none => ⟨ref, description, required, deprecated, allowEmptyValue, style, explode, schema.map Schema.bare,
        sample, bareParts Example.bare examples, MediaType.bareNamed content, extensions⟩

def MediaType.bare : MediaType → MediaType
  | ⟨schema, sample, examples, encoding, extensions⟩ =>
    ⟨schema.map Schema.bare, sample, bareParts Example.bare examples, Encoding.bareNamed encoding, extensions⟩

def Encoding.bare : Encoding → Encoding
  | ⟨contentType, headers, style, explode, allowReserved, extensions⟩ =>
    ⟨contentType, Header.bareNamed headers, style, explode, allowReserved, extensions⟩

def Header.bareNamed : List (String × Header) → List (String × Header)
  | [] => []
  | (k, h) :: hs => (k, h.bare) :: Header.bareNamed hs

def MediaType.bareNamed : List (String × MediaType) → List (String × MediaType)
  | [] => []
  | (k, m) :: ms => (k, m.bare) :: MediaType.bareNamed ms

def Encoding.bareNamed : List (String × Encoding) → List (String × Encoding)
  | [] => []
  | (k, e) :: es => (k, e.bare) :: Encoding.bareNamed es
end

def Parameter.bare (x : Parameter) : Parameter :=
  match nonEmpty x.ref with
  | some target => { ref := some target }
  | none => { x with
      schema := x.schema.map Schema.bare
      examples := bareParts Example.bare x.examples
      content := bareParts MediaType.bare x.content }

def RequestBody.bare (b : RequestBody) : RequestBody :=
  match nonEmpty b.ref with
  | some target => { ref := some target }
  | none => { b with content := bareParts MediaType.bare b.content }

def Link.bare (l : Link) : Link :=
  match nonEmpty l.ref with
  | some target => { ref := some target }
  | none => l

def Response.bare (r : Response) : Response :=
  match nonEmpty r.ref with
  | some target => { ref := some target }
  | none => { r with
      content := bareParts MediaType.bare r.content
      headers := bareParts Header.bare r.headers
      links := bareParts Link.bare r.links }

mutual
def Operation.bare : Operation → Operation
  | ⟨tags, summary, description, externalDocs, operationId, parameters, requestBody, responses, callbacks,
      deprecated, security, servers, extensions⟩ =>
    ⟨tags, summary, description, externalDocs, operationId, parameters.map Parameter.bare,
      requestBody.map RequestBody.bare, bareParts Response.bare responses, Callback.bareNamed callbacks,
      deprecated, security, servers, extensions⟩

def PathItem.bare : PathItem → PathItem
  | ⟨ref, summary, description, operations, parameters, extensions⟩ =>
    match nonEmpty ref with
    | some target => { ref := some target }
    | none => ⟨ref, summary, description, Operation.bareMethods operations, parameters.map Parameter.bare,
        extensions⟩

def Callback.bare : Callback → Callback
  | ⟨ref, pathItems, extensions⟩ =>
    match nonEmpty ref with
    | some target => { ref := some target }
    | none => ⟨ref, PathItem.bareNamed pathItems, extensions⟩

def Operation.bareMethods : List (Method × Operation) → List (Method × Operation)
  | [] => []
  | (m, o) :: os => (m, o.bare) :: Operation.bareMethods os

def PathItem.bareNamed : List (String × PathItem) → List (String × PathItem)
  | [] => []
  | (k, i) :: is => (k, i.bare) :: PathItem.bareNamed is

def Callback.bareNamed : List (String × Callback) → List (String × Callback)
  | [] => []
  | (k, c) :: cs => (k, c.bare) :: Callback.bareNamed cs
end

def SecurityScheme.bare (s : SecurityScheme) : SecurityScheme :=
  match nonEmpty s.ref with
  | some target => { ref := some target }
  | none => s

def Components.bare (c : Components) : Components := { c with
  schemas := bareParts Schema.bare c.schemas
  responses := bareParts Response.bare c.responses
  parameters := bareParts Parameter.bare c.parameters
  examples := bareParts Example.bare c.examples
  requestBodies := bareParts RequestBody.bare c.requestBodies
  headers := bareParts Header.bare c.headers
  securitySchemes := bareParts SecurityScheme.bare c.securitySchemes
  links := bareParts Link.bare c.links
  callbacks := bareParts Callback.bare c.callbacks
  pathItems := bareParts PathItem.bare c.pathItems }

/-- The description without what stands beside references. -/
def Api.bare (a : Api) : Api := { a with
  paths := bareParts PathItem.bare a.paths
  components := a.components.map Components.bare
  webhooks := bareParts PathItem.bare a.webhooks }

/-! ## Lists, named parts, optional parts -/

namespace Traced

variable {α β : Type} {f : α → Pointer → Traced β} {g : α → α} {p : Pointer}

theorem option_map {o : Option α} (h : ∀ x ∈ o, ∀ p, f (g x) p = f x p) :
    option f p (o.map g) = option f p o := by
  cases o with
  | none => rfl
  | some x => simp [option, h x rfl]

theorem items_map {i : Nat} {xs : List α} (h : ∀ x ∈ xs, ∀ p, f (g x) p = f x p) :
    items f p i (xs.map g) = items f p i xs := by
  induction xs generalizing i with
  | nil => rfl
  | cons x xs ih =>
    rw [List.forall_mem_cons] at h
    simp only [List.map_cons, items, h.1, ih h.2]

theorem named_bareParts {xs : List (String × α)} (h : ∀ x ∈ xs, ∀ p, f (g x.2) p = f x.2 p) :
    named f p (bareParts g xs) = named f p xs := by
  induction xs with
  | nil => rfl
  | cons x xs ih =>
    rw [List.forall_mem_cons] at h
    have hxs : named f p (xs.map fun x => (x.1, g x.2)) = named f p xs := ih h.2
    simp only [bareParts, List.map_cons, named, h.1, hxs]

end Traced

/-- A reference is still one when it is bare. -/
theorem nonEmpty_target {o : Option String} {target : String} (h : nonEmpty o = some target) :
    nonEmpty (some target) = some target := by
  rw [← h, nonEmpty_nonEmpty]

/-! ## Schemas -/

namespace Schema

theorem bareOption_eq (o : Option Schema) : bareOption o = o.map bare := by
  cases o <;> simp [bareOption]

theorem bareNamed_eq (cs : List (String × Schema)) : bareNamed cs = bareParts bare cs := by
  induction cs with
  | nil => rfl
  | cons c cs ih => simp [bareNamed, bareParts, ih]

theorem bareList_eq (cs : List Schema) : bareList cs = cs.map bare := by
  induction cs with
  | nil => rfl
  | cons c cs ih => simp [bareList, ih]

theorem bare_ref {s : Schema} {target : String} (h : nonEmpty s.ref = some target) :
    s.bare = { ref := some target } := by
  obtain ⟨_, _, _, _, _, _, _, _, _, _, _⟩ := s
  simp only at h
  simp only [bare, h]

theorem bare_eq {s : Schema} (h : nonEmpty s.ref = none) : s.bare = { s with
    items := s.items.map bare
    properties := bareParts bare s.properties
    additional := bareAdditional s.additional
    patternProperties := bareParts bare s.patternProperties
    unevaluated := s.unevaluated.map bare
    allOf := s.allOf.map bare
    anyOf := s.anyOf.map bare
    oneOf := s.oneOf.map bare
    notOf := s.notOf.map bare } := by
  obtain ⟨_, _, _, _, _, _, _, _, _, _, _⟩ := s
  simp only at h
  simp only [bare, h, bareOption_eq, bareNamed_eq, bareList_eq]

theorem additionalTo30_bare {o : Option (Additional Schema)}
    (h : ∀ a ∈ o, ∀ c ∈ a.schema, ∀ p, c.bare.to30 p = c.to30 p) (p : Pointer) :
    additionalTo30 (bareAdditional o) p = additionalTo30 o p := by
  match o with
  | none | some ⟨none, none⟩ | some ⟨some _, none⟩ => rfl
  | some ⟨_, some c⟩ => simp only [bareAdditional, additionalTo30, h _ rfl c rfl p]

theorem additionalTo31_bare {o : Option (Additional Schema)}
    (h : ∀ a ∈ o, ∀ c ∈ a.schema, c.bare.to31 = c.to31) :
    additionalTo31 (bareAdditional o) = additionalTo31 o := by
  match o with
  | none | some ⟨none, none⟩ | some ⟨some _, none⟩ => rfl
  | some ⟨_, some c⟩ => simp only [bareAdditional, additionalTo31, h _ rfl c rfl]

theorem to30_bare (s : Schema) : ∀ p, s.bare.to30 p = s.to30 p := by
  induction s using Schema.ind with
  | step s ih =>
    intro p
    cases hr : nonEmpty s.ref with
    | some target => rw [bare_ref hr, to30_eq, to30_eq, nonEmpty_target hr, hr]
    | none =>
      rw [bare_eq hr, to30_eq, to30_eq]
      simp only [hr, Option.isSome_map, additionalTo30_bare ih.additional, Traced.option_map ih.items,
        Traced.named_bareParts ih.properties, Traced.items_map ih.allOf, Traced.items_map ih.anyOf,
        Traced.items_map ih.oneOf, Traced.option_map ih.notOf]

theorem to31_bare (s : Schema) : s.bare.to31 = s.to31 := by
  induction s using Schema.ind with
  | step s ih =>
    cases hr : nonEmpty s.ref with
    | some target => rw [bare_ref hr, to31_eq, to31_eq, nonEmpty_target hr, hr]
    | none =>
      have hoption {o : Option Schema} (h : ∀ c ∈ o, c.bare.to31 = c.to31) : (o.map bare).map to31 = o.map to31 := by
        rw [Option.map_map]
        exact Option.map_congr h
      have hlist {cs : List Schema} (h : ∀ c ∈ cs, c.bare.to31 = c.to31) : (cs.map bare).map to31 = cs.map to31 := by
        rw [List.map_map]
        exact List.map_congr_left h
      have hnamed {cs : List (String × Schema)} (h : ∀ c ∈ cs, c.2.bare.to31 = c.2.to31) :
          (bareParts bare cs).map (fun c => (c.1, c.2.to31)) = cs.map fun c => (c.1, c.2.to31) := by
        rw [bareParts, List.map_map]
        exact List.map_congr_left fun c hc => by simp [h c hc]
      rw [bare_eq hr, to31_eq, to31_eq]
      simp only [hr, additionalTo31_bare ih.additional, hoption ih.items, hnamed ih.properties, hnamed ih.patternProperties,
        hoption ih.unevaluated, hlist ih.allOf, hlist ih.anyOf, hlist ih.oneOf, hoption ih.notOf]

theorem project_bare (t : Target) (s : Schema) (p : Pointer) : s.bare.project t p = s.project t p := by
  cases t with
  | v30 => rw [project, project, to30_bare]
  | v31 => rw [project, project, to31_bare]

end Schema
/-! ## Headers and bodies -/

section
variable (t : Target)

theorem Example.project_bare (e : Example) : e.bare.project t = e.project t := by
  unfold Example.bare
  split
  · rename_i target hr
    simp only [Example.project, nonEmpty_target hr, hr]
  · rfl

theorem Example.projectAll_bare (es : List (String × Example)) :
    Example.projectAll t (bareParts Example.bare es) = Example.projectAll t es := by
  simp [Example.projectAll, bareParts, Function.comp_def, Example.project_bare]

theorem MediaType.bareNamed_eq (ms : List (String × MediaType)) :
    MediaType.bareNamed ms = bareParts MediaType.bare ms := by
  induction ms with
  | nil => rfl
  | cons m ms ih => simp [MediaType.bareNamed, bareParts, ih]

theorem Encoding.bareNamed_eq (es : List (String × Encoding)) :
    Encoding.bareNamed es = bareParts Encoding.bare es := by
  induction es with
  | nil => rfl
  | cons e es ih => simp [Encoding.bareNamed, bareParts, ih]

theorem Header.bareNamed_eq (hs : List (String × Header)) :
    Header.bareNamed hs = bareParts Header.bare hs := by
  induction hs with
  | nil => rfl
  | cons h hs ih => simp [Header.bareNamed, bareParts, ih]

theorem Schema.option_bare (o : Option Schema) (p : Pointer) :
    Traced.option (Schema.project t) p (o.map Schema.bare) = Traced.option (Schema.project t) p o :=
  Traced.option_map fun s _ => s.project_bare t

theorem Header.bare_steps :
    Header.Steps (fun h => ∀ p, h.bare.project t p = h.project t p)
      (fun m => ∀ p, m.bare.project t p = m.project t p) fun e => ∀ p, e.bare.project t p = e.project t p where
  header h hm p := by
    obtain ⟨ref, _, _, _, _, _, _, _, _, _, content, _⟩ := h
    cases hr : nonEmpty ref with
    | some target => simp only [Header.bare, hr, Header.project, nonEmpty_target hr]
    | none =>
      simp only [Header.bare, hr, Header.project, MediaType.bareNamed_eq, MediaType.projectNamed_eq,
        Schema.option_bare, Traced.named_bareParts hm, Example.projectAll_bare]
  mediaType m he p := by
    obtain ⟨_, _, _, encoding, _⟩ := m
    simp only [MediaType.bare, MediaType.project, Encoding.bareNamed_eq, Encoding.projectNamed_eq,
      Schema.option_bare, Traced.named_bareParts he, Example.projectAll_bare]
  encoding e hh p := by
    obtain ⟨_, headers, _, _, _, _⟩ := e
    simp only [Encoding.bare, Encoding.project, Header.bareNamed_eq, Header.projectNamed_eq,
      Traced.named_bareParts hh]

theorem Header.project_bare (h : Header) (p : Pointer) : h.bare.project t p = h.project t p :=
  (Header.ind (Header.bare_steps t)).1 h p

theorem MediaType.project_bare (m : MediaType) (p : Pointer) : m.bare.project t p = m.project t p :=
  (Header.ind (Header.bare_steps t)).2.1 m p

theorem MediaType.named_bare (ms : List (String × MediaType)) (p : Pointer) :
    Traced.named (MediaType.project t) p (bareParts MediaType.bare ms) = Traced.named (MediaType.project t) p ms :=
  Traced.named_bareParts fun m _ => m.2.project_bare t

theorem Parameter.project_bare (x : Parameter) (p : Pointer) : x.bare.project t p = x.project t p := by
  cases hr : nonEmpty x.ref with
  | some target => simp only [Parameter.bare, hr, Parameter.project, nonEmpty_target hr]
  | none =>
    simp only [Parameter.bare, hr, Parameter.project, MediaType.projectNamed_eq, Schema.option_bare,
      MediaType.named_bare, Example.projectAll_bare]

theorem RequestBody.project_bare (b : RequestBody) (p : Pointer) : b.bare.project t p = b.project t p := by
  cases hr : nonEmpty b.ref with
  | some target => simp only [RequestBody.bare, hr, RequestBody.project, nonEmpty_target hr]
  | none => simp only [RequestBody.bare, hr, RequestBody.project, MediaType.projectNamed_eq, MediaType.named_bare]

/-! ## Responses -/

theorem Link.project_bare (l : Link) (p : Pointer) : l.bare.project t p = l.project t p := by
  cases hr : nonEmpty l.ref with
  | some target => simp only [Link.bare, hr, Link.project, nonEmpty_target hr]
  | none => simp only [Link.bare, hr]

theorem Response.project_bare (r : Response) (p : Pointer) : r.bare.project t p = r.project t p := by
  cases hr : nonEmpty r.ref with
  | some target => simp only [Response.bare, hr, Response.project, nonEmpty_target hr]
  | none =>
    simp only [Response.bare, hr, Response.project, MediaType.projectNamed_eq, Header.projectNamed_eq,
      MediaType.named_bare, Traced.named_bareParts fun x (_ : x ∈ r.headers) => x.2.project_bare t,
      Traced.named_bareParts fun x (_ : x ∈ r.links) => x.2.project_bare t]

/-! ## Operations -/

theorem Operation.bareMethods_eq (os : List (Method × Operation)) :
    (Operation.bareMethods os).map (fun o => (o.1.name, o.2)) =
      bareParts Operation.bare (os.map fun o => (o.1.name, o.2)) := by
  induction os with
  | nil => rfl
  | cons o os ih => simpa [Operation.bareMethods, bareParts] using ih

theorem PathItem.bareNamed_eq (is : List (String × PathItem)) :
    PathItem.bareNamed is = bareParts PathItem.bare is := by
  induction is with
  | nil => rfl
  | cons i is ih => simp [PathItem.bareNamed, bareParts, ih]

theorem Callback.bareNamed_eq (cs : List (String × Callback)) :
    Callback.bareNamed cs = bareParts Callback.bare cs := by
  induction cs with
  | nil => rfl
  | cons c cs ih => simp [Callback.bareNamed, bareParts, ih]

theorem Operation.bare_steps :
    Operation.Steps (fun o => ∀ p, o.bare.project t p = o.project t p)
      (fun i => ∀ p, i.bare.project t p = i.project t p) fun c => ∀ p, c.bare.project t p = c.project t p where
  operation o hc p := by
    obtain ⟨_, _, _, _, _, parameters, requestBody, responses, callbacks, _, _, _, _⟩ := o
    simp only [Operation.bare, Operation.project, Callback.bareNamed_eq, Callback.projectNamed_eq,
      Traced.items_map fun x (_ : x ∈ parameters) => x.project_bare t,
      Traced.option_map fun b (_ : b ∈ requestBody) => b.project_bare t,
      Traced.named_bareParts fun r (_ : r ∈ responses) => r.2.project_bare t, Traced.named_bareParts hc]
  pathItem i ho p := by
    obtain ⟨ref, _, _, operations, parameters, _⟩ := i
    cases hr : nonEmpty ref with
    | some target => simp only [PathItem.bare, hr, PathItem.project, nonEmpty_target hr]
    | none =>
      simp only [PathItem.bare, hr, PathItem.project, Operation.projectMethods_eq, Operation.bareMethods_eq,
        Traced.items_map fun x (_ : x ∈ parameters) => x.project_bare t]
      rw [Traced.named_bareParts (List.forall_mem_map.2 ho)]
  callback c hi p := by
    obtain ⟨ref, pathItems, _⟩ := c
    cases hr : nonEmpty ref with
    | some target => simp only [Callback.bare, hr, Callback.project, nonEmpty_target hr]
    | none =>
      simp only [Callback.bare, hr, Callback.project, PathItem.bareNamed_eq, PathItem.projectNamed_eq,
        Traced.named_bareParts hi]

theorem PathItem.project_bare (i : PathItem) (p : Pointer) : i.bare.project t p = i.project t p :=
  (Operation.ind (Operation.bare_steps t)).2.1 i p

theorem Callback.project_bare (c : Callback) (p : Pointer) : c.bare.project t p = c.project t p :=
  (Operation.ind (Operation.bare_steps t)).2.2 c p

theorem PathItem.projectNamed_bare (is : List (String × PathItem)) (p : Pointer) :
    PathItem.projectNamed t (bareParts PathItem.bare is) p = PathItem.projectNamed t is p := by
  rw [PathItem.projectNamed_eq, PathItem.projectNamed_eq]
  exact Traced.named_bareParts fun i _ => i.2.project_bare t

/-! ## Components -/

theorem SecurityScheme.project_bare (s : SecurityScheme) : s.bare.project t = s.project t := by
  unfold SecurityScheme.bare
  split
  · rename_i target hr
    simp only [SecurityScheme.project, nonEmpty_target hr, hr]
  · rfl

theorem Components.shared_bare (c : Components) : c.bare.shared t = c.shared t := by
  simp only [Components.shared, Components.bare, Header.projectNamed_eq, Callback.projectNamed_eq,
    Example.projectAll_bare, Traced.named_bareParts fun x (_ : x ∈ c.schemas) => x.2.project_bare t,
    Traced.named_bareParts fun x (_ : x ∈ c.responses) => x.2.project_bare t,
    Traced.named_bareParts fun x (_ : x ∈ c.parameters) => x.2.project_bare t,
    Traced.named_bareParts fun x (_ : x ∈ c.requestBodies) => x.2.project_bare t,
    Traced.named_bareParts fun x (_ : x ∈ c.headers) => x.2.project_bare t,
    Traced.named_bareParts fun x (_ : x ∈ c.links) => x.2.project_bare t,
    Traced.named_bareParts fun x (_ : x ∈ c.callbacks) => x.2.project_bare t]

end
end ApiProjection
