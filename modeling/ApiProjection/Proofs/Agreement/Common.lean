import Mathlib.Tactic.MkIffOfInductiveProp
import ApiProjection.Proofs.Agreement.Basic
import ApiProjection.Proofs.Visit.Basic
/-!
# Features that both versions have

`Api.Common` says that a description uses nothing that one of the two versions lacks and holds no
free-form value that is no JSON value. For the visited nodes this is said node by node
(`Subject.Common`): a node with a reference may hold what it likes, as nothing of it is written.
-/
namespace ApiProjection

/-! ## Parts that are not visited -/

/-- Extensions that both versions allow, if they allow a key at all. -/
def Extension.Common (xs : Extensions) : Prop :=
  ∀ x ∈ xs, x.2.isJson = true ∧ ∀ r ∈ reserved, r.isPrefixOf x.1 = false

instance (xs : Extensions) : Decidable (Extension.Common xs) :=
  inferInstanceAs (Decidable (∀ x ∈ xs, x.2.isJson = true ∧ ∀ r ∈ Extension.reserved, r.isPrefixOf x.1 = false))

def ExternalDocs.Common (d : ExternalDocs) : Prop := Extension.Common d.extensions

def Example.Common (e : Example) : Prop :=
  nonEmpty e.ref = none → e.value.isJson = true ∧ Extension.Common e.extensions

/-- One example and several named ones that both versions write. -/
def Example.AllCommon (sample : Value) (es : List (String × Example)) : Prop :=
  sample.isJson = true ∧ ∀ e ∈ es, e.2.Common

structure Tag.Common (g : Tag) : Prop where
  externalDocs : ∀ d ∈ g.externalDocs, d.Common
  extensions : Extension.Common g.extensions

structure License.Common (l : License) : Prop where
  identifier : nonEmpty l.identifier = none
  extensions : Extension.Common l.extensions

structure Info.Common (i : Info) : Prop where
  summary : nonEmpty i.summary = none
  contact : ∀ c ∈ i.contact, Extension.Common c.extensions
  license : ∀ l ∈ i.license, l.Common
  extensions : Extension.Common i.extensions

structure OAuthFlows.Common (f : OAuthFlows) : Prop where
  flows : ∀ o ∈ [f.implicit, f.password, f.clientCredentials, f.authorizationCode],
    ∀ x ∈ o, Extension.Common x.extensions
  extensions : Extension.Common f.extensions

structure SecurityScheme.Common (s : SecurityScheme) : Prop where
  type : Components.isMutualTls s = false
  flows : nonEmpty s.ref = none → ∀ f ∈ s.flows, f.Common
  extensions : nonEmpty s.ref = none → Extension.Common s.extensions

/-! ## Visited nodes -/

/-- Keywords that mean the same in both dialects and are written alike. -/
@[mk_iff]
structure Facets.Common (f : Facets) : Prop where
  kind : f.kind ≠ some .null
  nullable : f.nullable = false
  contentEncoding : nonEmpty f.contentEncoding = none
  contentMediaType : nonEmpty f.contentMediaType = none
  sample : f.sample.isNull = true
  examples : f.examples = []
  const : f.const.isNull = true
  minimum : ∀ b ∈ f.minimum, b.exclusive = false
  maximum : ∀ b ∈ f.maximum, b.exclusive = false
  enum : ∀ v ∈ f.enum, v.isJson = true
  default : f.default.isJson = true
  extensions : Extension.Common f.extensions

@[mk_iff]
structure Schema.Common (s : Schema) : Prop where
  facets : s.facets.Common
  patternProperties : s.patternProperties = []
  unevaluated : s.unevaluated.isNone = true

@[mk_iff]
structure Link.Common (l : Link) : Prop where
  parameters : ∀ e ∈ l.parameters, e.2.isJson = true
  requestBody : l.requestBody.isJson = true
  extensions : Extension.Common l.extensions

/-- Whether both versions write a node alike, given that they do so with its visited parts. -/
def Subject.Common : Subject → Prop
  | .schema s => nonEmpty s.ref = none → s.Common
  | .header h => nonEmpty h.ref = none → Example.AllCommon h.sample h.examples ∧ Extension.Common h.extensions
  | .mediaType m => Example.AllCommon m.sample m.examples ∧ Extension.Common m.extensions
  | .encoding e => Extension.Common e.extensions
  | .parameter x => nonEmpty x.ref = none → Example.AllCommon x.sample x.examples ∧ Extension.Common x.extensions
  | .requestBody b => nonEmpty b.ref = none → Extension.Common b.extensions
  | .serverVariable v => Extension.Common v.extensions
  | .server s => Extension.Common s.extensions
  | .link l => nonEmpty l.ref = none → l.Common
  | .response r => nonEmpty r.ref = none → Extension.Common r.extensions
  | .operation o => (∀ d ∈ o.externalDocs, d.Common) ∧ Extension.Common o.extensions
  | .pathItem i => nonEmpty i.ref = none → Extension.Common i.extensions
  | .callback c => nonEmpty c.ref = none → Extension.Common c.extensions

/-! ## The whole -/

structure Components.Common (c : Components) : Prop where
  pathItems : c.pathItems = []
  examples : ∀ e ∈ c.examples, e.2.Common
  securitySchemes : ∀ s ∈ c.securitySchemes, s.2.Common
  extensions : Extension.Common c.extensions

/-- Whether a description keeps to what both versions have. -/
structure Api.Common (a : Api) : Prop where
  paths : a.paths ≠ []
  servers : a.servers ≠ []
  webhooks : a.webhooks = []
  info : a.info.Common
  components : ∀ c ∈ a.components, c.Common
  tags : ∀ g ∈ a.tags, g.Common
  externalDocs : ∀ d ∈ a.externalDocs, d.Common
  extensions : Extension.Common a.extensions
  visits : ∀ v ∈ a.visits .v30, v.subject.Common

/-! ## Decisions -/

instance (d : ExternalDocs) : Decidable d.Common := inferInstanceAs (Decidable (Extension.Common _))

instance (e : Example) : Decidable e.Common :=
  inferInstanceAs (Decidable (nonEmpty e.ref = none → e.value.isJson = true ∧ Extension.Common e.extensions))

instance (sample : Value) (es : List (String × Example)) : Decidable (Example.AllCommon sample es) :=
  inferInstanceAs (Decidable (sample.isJson = true ∧ ∀ e ∈ es, e.2.Common))

instance (f : Facets) : Decidable f.Common := decidable_of_iff _ f.common_iff.symm

instance (s : Schema) : Decidable s.Common := decidable_of_iff _ s.common_iff.symm

instance (l : Link) : Decidable l.Common := decidable_of_iff _ l.common_iff.symm

instance : DecidablePred Subject.Common
  | .schema s => inferInstanceAs (Decidable (nonEmpty s.ref = none → s.Common))
  | .header h => inferInstanceAs (Decidable
    (nonEmpty h.ref = none → Example.AllCommon h.sample h.examples ∧ Extension.Common h.extensions))
  | .mediaType m =>
    inferInstanceAs (Decidable (Example.AllCommon m.sample m.examples ∧ Extension.Common m.extensions))
  | .parameter x => inferInstanceAs (Decidable
    (nonEmpty x.ref = none → Example.AllCommon x.sample x.examples ∧ Extension.Common x.extensions))
  | .requestBody b => inferInstanceAs (Decidable (nonEmpty b.ref = none → Extension.Common b.extensions))
  | .link l => inferInstanceAs (Decidable (nonEmpty l.ref = none → l.Common))
  | .response r => inferInstanceAs (Decidable (nonEmpty r.ref = none → Extension.Common r.extensions))
  | .operation o =>
    inferInstanceAs (Decidable ((∀ d ∈ o.externalDocs, d.Common) ∧ Extension.Common o.extensions))
  | .pathItem i => inferInstanceAs (Decidable (nonEmpty i.ref = none → Extension.Common i.extensions))
  | .callback c => inferInstanceAs (Decidable (nonEmpty c.ref = none → Extension.Common c.extensions))
  | .encoding _ | .serverVariable _ | .server _ => inferInstanceAs (Decidable (Extension.Common _))

end ApiProjection
