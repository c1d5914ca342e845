import Mathlib.Tactic.MkIffOfInductiveProp
import ApiProjection.Api.Basic
/-!
# Descriptions that last

A description lasts if it is read again of its dump. That asks two things of it, at every depth
(`Api.Lasts`): its numbers and those in its free-form values have a value, for others are dumped as null; and a
rule for further properties says whether they are allowed, for one with a schema alone is dumped in a way that
is taken for a schema, and one that says nothing is dumped as the schema that allows everything.
-/
namespace ApiProjection

/-! ## Free-form values -/

/-- Whether a scalar is no number without a value. -/
def Scalar.Finite : Scalar → Prop
  | .float x => x.isFinite = true
  | _ => True

mutual
/-- Whether a value holds only numbers that have a value; others are dumped as null. -/
def Value.Finite : Value → Prop
  | .scalar s => s.Finite
  | .list xs | .tuple xs => FiniteItems xs
  | .set ss => ∀ s ∈ ss, s.Finite
  | .map es => FiniteEntries es

def FiniteItems : List Value → Prop
  | [] => True
  | x :: xs => x.Finite ∧ FiniteItems xs

def FiniteEntries : List (Scalar × Value) → Prop
  | [] => True
  | (_, x) :: es => x.Finite ∧ FiniteEntries es
end

def Number.Finite : Number → Prop
  | .int _ => True
  | .float x => x.isFinite = true

/-- Extensions whose numbers have a value. -/
def ExtensionsLast (es : Extensions) : Prop := ∀ e ∈ es, e.2.Finite

/-! ## Schemas -/

@[mk_iff]
structure Facets.Lasts (f : Facets) : Prop where
  sample : f.sample.Finite
  examples : ∀ v ∈ f.examples, v.Finite
  enum : ∀ v ∈ f.enum, v.Finite
  const : f.const.Finite
  default : f.default.Finite
  multipleOf : ∀ n ∈ f.multipleOf, n.Finite
  minimum : ∀ b ∈ f.minimum, b.value.Finite
  maximum : ∀ b ∈ f.maximum, b.value.Finite
  extensions : ExtensionsLast f.extensions

namespace Schema

mutual
def Lasts : Schema → Prop
  | ⟨_, f, items, properties, additional, patternProperties, unevaluated, allOf, anyOf, oneOf, notOf⟩ =>
    f.Lasts ∧ OptionLasts items ∧ NamedLast properties ∧ FurtherLasts additional ∧ NamedLast patternProperties ∧
      OptionLasts unevaluated ∧ ListLasts allOf ∧ ListLasts anyOf ∧ ListLasts oneOf ∧ OptionLasts notOf

def OptionLasts : Option Schema → Prop
  | none => True
  | some s => s.Lasts

def ListLasts : List Schema → Prop
  | [] => True
  | s :: ss => s.Lasts ∧ ListLasts ss

def NamedLast : List (String × Schema) → Prop
  | [] => True
  | (_, s) :: ss => s.Lasts ∧ NamedLast ss

/-- A rule for further properties that says whether they are allowed. -/
def FurtherLasts : Option (Additional Schema) → Prop
  | none => True
  | some ⟨allow, schema⟩ => allow ≠ none ∧ OptionLasts schema
end

theorem optionLasts_iff {o : Option Schema} : OptionLasts o ↔ ∀ s ∈ o, s.Lasts := by
  cases o <;> simp [OptionLasts]

theorem listLasts_iff {ss : List Schema} : ListLasts ss ↔ ∀ s ∈ ss, s.Lasts := by
  induction ss with
  | nil => simp [ListLasts]
  | cons s ss ih => rw [ListLasts, ih, List.forall_mem_cons]

theorem namedLast_iff {ss : List (String × Schema)} : NamedLast ss ↔ ∀ s ∈ ss, s.2.Lasts := by
  induction ss with
  | nil => simp [NamedLast]
  | cons s ss ih => rw [NamedLast, ih, List.forall_mem_cons]

theorem furtherLasts_iff {o : Option (Additional Schema)} :
    FurtherLasts o ↔ ∀ a ∈ o, a.allow ≠ none ∧ ∀ s ∈ a.schema, s.Lasts := by
  cases o <;> simp [FurtherLasts, optionLasts_iff]

end Schema

/-! ## Document structure -/

def ExternalDocs.Lasts (d : ExternalDocs) : Prop := ExtensionsLast d.extensions

def Contact.Lasts (c : Contact) : Prop := ExtensionsLast c.extensions

def License.Lasts (l : License) : Prop := ExtensionsLast l.extensions

def Info.Lasts (i : Info) : Prop :=
  (∀ c ∈ i.contact, c.Lasts) ∧ (∀ l ∈ i.license, l.Lasts) ∧ ExtensionsLast i.extensions

def ServerVariable.Lasts (v : ServerVariable) : Prop := ExtensionsLast v.extensions

def Server.Lasts (s : Server) : Prop := (∀ v ∈ s.vars, v.2.Lasts) ∧ ExtensionsLast s.extensions

def Tag.Lasts (t : Tag) : Prop := (∀ d ∈ t.externalDocs, d.Lasts) ∧ ExtensionsLast t.extensions

/-! ## Headers and bodies -/

def Example.Lasts (e : Example) : Prop := e.value.Finite ∧ ExtensionsLast e.extensions

mutual
def Header.Lasts : Header → Prop
  | ⟨_, _, _, _, _, _, _, schema, sample, examples, content, extensions⟩ =>
    (∀ s ∈ schema, s.Lasts) ∧ sample.Finite ∧ (∀ e ∈ examples, e.2.Lasts) ∧ MediaType.NamedLast content ∧
      ExtensionsLast extensions

def MediaType.Lasts : MediaType → Prop
  | ⟨schema, sample, examples, encoding, extensions⟩ =>
    (∀ s ∈ schema, s.Lasts) ∧ sample.Finite ∧ (∀ e ∈ examples, e.2.Lasts) ∧ Encoding.NamedLast encoding ∧
      ExtensionsLast extensions

def Encoding.Lasts : Encoding → Prop
  | ⟨_, headers, _, _, _, extensions⟩ => Header.NamedLast headers ∧ ExtensionsLast extensions

def Header.NamedLast : List (String × Header) → Prop
  | [] => True
  | (_, h) :: hs => h.Lasts ∧ Header.NamedLast hs

def MediaType.NamedLast : List (String × MediaType) → Prop
  | [] => True
  | (_, m) :: ms => m.Lasts ∧ MediaType.NamedLast ms

def Encoding.NamedLast : List (String × Encoding) → Prop
  | [] => True
  | (_, e) :: es => e.Lasts ∧ Encoding.NamedLast es
end

theorem Header.namedLast_iff {hs : List (String × Header)} : NamedLast hs ↔ ∀ h ∈ hs, h.2.Lasts := by
  induction hs with
  | nil => simp [NamedLast]
  | cons h hs ih => rw [NamedLast, ih, List.forall_mem_cons]

theorem MediaType.namedLast_iff {ms : List (String × MediaType)} : NamedLast ms ↔ ∀ m ∈ ms, m.2.Lasts := by
  induction ms with
  | nil => simp [NamedLast]
  | cons m ms ih => rw [NamedLast, ih, List.forall_mem_cons]

theorem Encoding.namedLast_iff {es : List (String × Encoding)} : NamedLast es ↔ ∀ e ∈ es, e.2.Lasts := by
  induction es with
  | nil => simp [NamedLast]
  | cons e es ih => rw [NamedLast, ih, List.forall_mem_cons]

def Parameter.Lasts (p : Parameter) : Prop :=
  (∀ s ∈ p.schema, s.Lasts) ∧ p.sample.Finite ∧ (∀ e ∈ p.examples, e.2.Lasts) ∧ (∀ m ∈ p.content, m.2.Lasts) ∧
    ExtensionsLast p.extensions

def RequestBody.Lasts (b : RequestBody) : Prop := (∀ m ∈ b.content, m.2.Lasts) ∧ ExtensionsLast b.extensions

def Link.Lasts (l : Link) : Prop :=
  (∀ p ∈ l.parameters, p.2.Finite) ∧ l.requestBody.Finite ∧ (∀ s ∈ l.server, s.Lasts) ∧ ExtensionsLast l.extensions

def Response.Lasts (r : Response) : Prop :=
  (∀ m ∈ r.content, m.2.Lasts) ∧ (∀ h ∈ r.headers, h.2.Lasts) ∧ (∀ l ∈ r.links, l.2.Lasts) ∧
    ExtensionsLast r.extensions

/-! ## Operations -/

mutual
def Operation.Lasts : Operation → Prop
  | ⟨_, _, _, externalDocs, _, parameters, requestBody, responses, callbacks, _, _, servers, extensions⟩ =>
    (∀ d ∈ externalDocs, d.Lasts) ∧ (∀ p ∈ parameters, p.Lasts) ∧ (∀ b ∈ requestBody, b.Lasts) ∧
      (∀ r ∈ responses, r.2.Lasts) ∧ Callback.NamedLast callbacks ∧ (∀ s ∈ servers, s.Lasts) ∧
      ExtensionsLast extensions

def PathItem.Lasts : PathItem → Prop
  | ⟨_, _, _, operations, parameters, extensions⟩ =>
    Operation.MethodsLast operations ∧ (∀ p ∈ parameters, p.Lasts) ∧ ExtensionsLast extensions

def Callback.Lasts : Callback → Prop
  | ⟨_, pathItems, extensions⟩ => PathItem.NamedLast pathItems ∧ ExtensionsLast extensions

def Operation.MethodsLast : List (Method × Operation) → Prop
  | [] => True
  | (_, o) :: os => o.Lasts ∧ Operation.MethodsLast os

def PathItem.NamedLast : List (String × PathItem) → Prop
  | [] => True
  | (_, p) :: ps => p.Lasts ∧ PathItem.NamedLast ps

def Callback.NamedLast : List (String × Callback) → Prop
  | [] => True
  | (_, c) :: cs => c.Lasts ∧ Callback.NamedLast cs
end

theorem PathItem.namedLast_iff {ps : List (String × PathItem)} : NamedLast ps ↔ ∀ p ∈ ps, p.2.Lasts := by
  induction ps with
  | nil => simp [NamedLast]
  | cons p ps ih => rw [NamedLast, ih, List.forall_mem_cons]

theorem Callback.namedLast_iff {cs : List (String × Callback)} : NamedLast cs ↔ ∀ c ∈ cs, c.2.Lasts := by
  induction cs with
  | nil => simp [NamedLast]
  | cons c cs ih => rw [NamedLast, ih, List.forall_mem_cons]

/-! ## Security -/

def OAuthFlow.Lasts (f : OAuthFlow) : Prop := ExtensionsLast f.extensions

def OAuthFlows.Lasts (f : OAuthFlows) : Prop :=
  (∀ o ∈ [f.implicit, f.password, f.clientCredentials, f.authorizationCode], ∀ x ∈ o, x.Lasts) ∧
    ExtensionsLast f.extensions

def SecurityScheme.Lasts (s : SecurityScheme) : Prop := (∀ f ∈ s.flows, f.Lasts) ∧ ExtensionsLast s.extensions

/-! ## The whole -/

@[mk_iff]
structure Components.Lasts (c : Components) : Prop where
  schemas : ∀ s ∈ c.schemas, s.2.Lasts
  responses : ∀ r ∈ c.responses, r.2.Lasts
  parameters : ∀ p ∈ c.parameters, p.2.Lasts
  examples : ∀ e ∈ c.examples, e.2.Lasts
  requestBodies : ∀ b ∈ c.requestBodies, b.2.Lasts
  headers : ∀ h ∈ c.headers, h.2.Lasts
  securitySchemes : ∀ s ∈ c.securitySchemes, s.2.Lasts
  links : ∀ l ∈ c.links, l.2.Lasts
  callbacks : ∀ b ∈ c.callbacks, b.2.Lasts
  pathItems : ∀ p ∈ c.pathItems, p.2.Lasts
  extensions : ExtensionsLast c.extensions

@[mk_iff]
structure Api.Lasts (a : Api) : Prop where
  info : a.info.Lasts
  servers : ∀ s ∈ a.servers, s.Lasts
  paths : ∀ p ∈ a.paths, p.2.Lasts
  components : ∀ c ∈ a.components, c.Lasts
  webhooks : ∀ p ∈ a.webhooks, p.2.Lasts
  tags : ∀ t ∈ a.tags, t.Lasts
  externalDocs : ∀ d ∈ a.externalDocs, d.Lasts
  extensions : ExtensionsLast a.extensions

end ApiProjection
