import ApiProjection.Proofs.Reference.Site
/-!
# What a document mentions

A document mentions other parts of it in two ways: by references and by security requirements. Which
objects are references and which are requirements is told by where they stand, as the keys of many
objects are free to choose: a map of texts may well have the key of a reference. `Node.Mentions` reads a
document by the roles that its objects play.

* `Api.mentions_written`: a document mentions nothing but what the description does.
-/
namespace ApiProjection

open Node (Field)

/-! ## Reading a document -/

/-- Something that is mentioned: the target of a reference, or a security scheme by its name. -/
inductive Mention
  | target (ref : String)
  | scheme (name : String)
  deriving DecidableEq

/-- What an object is in a document, or the objects of a list are. -/
inductive Role
  /-- An object whose fields have names of their own. -/
  | record
  /-- A map of path items by expressions, which may be a reference. -/
  | callback
  /-- A map of parts by their names. -/
  | map (part : Role)
  /-- A security requirement. -/
  | requirement
  /-- Texts, whatever their keys are. -/
  | texts
  deriving DecidableEq

namespace Role

/-- The fields of records that are maps of records. -/
def maps : List String := ["paths", "webhooks", "schemas", "responses", "parameters", "examples",
  "requestBodies", "headers", "securitySchemes", "links", "pathItems", "properties", "patternProperties",
  "content", "encoding", "variables"]

/-- The role of what stands under a key. -/
def inside : Role → String → Role
  | .record, k =>
    if k = "callbacks" then .map .callback
    else if k = "security" then .requirement
    else if k = "mapping" ∨ k = "scopes" then .texts
    else if k ∈ maps then .map .record
    else .record
  | .callback, _ => .record
  | .map r, _ => r
  | .requirement, _ | .texts, _ => .texts

/-- The role of what stands in a list. -/
def item : Role → Role
  | .map r => r
  | r => r

/-- Whether an object with this role may be a reference. -/
def mayRefer : Role → Bool
  | .record | .callback => true
  | .map _ | .requirement | .texts => false

end Role

namespace Node

/-- What a node with a role mentions. -/
inductive Mentions : Role → Node → Mention → Prop
  | target {r : Role} {es : List (String × Node)} {xs : Extensions} {ref : String} :
    r.mayRefer = true → ("$ref", .text ref) ∈ es → Mentions r (.object es xs) (.target ref)
  | scheme {es : List (String × Node)} {xs : Extensions} {e : String × Node} :
    e ∈ es → Mentions .requirement (.object es xs) (.scheme e.1)
  | entry {r : Role} {es : List (String × Node)} {xs : Extensions} {e : String × Node} {m : Mention} :
    e ∈ es → Mentions (r.inside e.1) e.2 m → Mentions r (.object es xs) m
  | item {r : Role} {ns : List Node} {n : Node} {m : Mention} :
    n ∈ ns → Mentions r.item n m → Mentions r (.list ns) m

/-- Texts mention nothing. -/
theorem not_mentions_texts {n : Node} {m : Mention} : ¬n.Mentions .texts m := by
  intro h
  generalize hr : Role.texts = r at h
  induction h with
  | target h _ => cases hr; cases h
  | scheme _ => cases hr
  | entry _ _ ih => cases hr; exact ih rfl
  | item _ _ ih => cases hr; exact ih rfl

/-! ## Nodes that mention only what has a property -/

/-- Whether all that a node mentions has a property. -/
def Cites (P : Mention → Prop) (r : Role) (n : Node) : Prop := ∀ m, n.Mentions r m → P m

section
variable {P : Mention → Prop} {r : Role}

@[simp] theorem cites_free (v : Value) : Cites P r (.free v) := fun _ h => by cases h

@[simp] theorem cites_text (s : String) : Cites P r (.text s) := fun _ h => by cases h

@[simp] theorem cites_texts (n : Node) : Cites P .texts n := fun _ h => absurd h not_mentions_texts

@[simp] theorem cites_list {ns : List Node} : Cites P r (.list ns) ↔ ∀ n ∈ ns, Cites P r.item n := by
  refine ⟨fun h n hn m hm => h m (.item hn hm), fun h m hm => ?_⟩
  cases hm with
  | item hn hm => exact h _ hn m hm

@[simp] theorem cites_map {es : List (String × Node)} {xs : Extensions} :
    Cites P (.map r) (.object es xs) ↔ ∀ e ∈ es, Cites P r e.2 := by
  refine ⟨fun h e he m hm => h m (.entry he hm), fun h m hm => ?_⟩
  cases hm with
  | target hr _ => cases hr
  | entry he hm => exact h _ he m hm

@[simp] theorem cites_requirement {es : List (String × Node)} {xs : Extensions} :
    Cites P .requirement (.object es xs) ↔ ∀ e ∈ es, P (.scheme e.1) := by
  refine ⟨fun h e he => h _ (.scheme he), fun h m hm => ?_⟩
  cases hm with
  | target hr _ => cases hr
  | scheme he => exact h _ he
  | entry _ hm => exact absurd hm not_mentions_texts

theorem cites_empty (xs : Extensions) : Cites P r (.object [] xs) := by
  intro m hm
  cases hm with
  | target _ he | scheme he | entry he _ => cases he

/-- Whether an entry of an object that may be a reference mentions only what has a property. -/
def EntryCites (P : Mention → Prop) (r : Role) (e : String × Node) : Prop :=
  (∀ ref, e = ("$ref", .text ref) → P (.target ref)) ∧ Cites P (r.inside e.1) e.2

theorem cites_object {es : List (String × Node)} {xs : Extensions} (hr : r.mayRefer = true) :
    Cites P r (.object es xs) ↔ ∀ e ∈ es, EntryCites P r e := by
  constructor
  · exact fun h e he => ⟨fun ref hree => h _ (.target hr (hree ▸ he)), fun m hm => h m (.entry he hm)⟩
  · intro h m hm
    cases hm with
    | target _ he => exact (h _ he).1 _ rfl
    | scheme _ => cases hr
    | entry he hm => exact (h _ he).2 m hm

theorem cites_reference {ref : String} (hr : r.mayRefer = true) :
    Cites P r (.reference ref) ↔ P (.target ref) := by
  simp [reference, cites_object hr, EntryCites]

/-! ### Fields -/

/-- Whether the entries of a field mention only what has a property. -/
def FieldCites (P : Mention → Prop) (f : Field) : Prop := ∀ e ∈ f, EntryCites P .record e

theorem fieldCites_flatten {fields : List Field} :
    FieldCites P fields.flatten ↔ ∀ f ∈ fields, FieldCites P f := by
  refine ⟨fun h f hf e he => h e (List.mem_flatten.2 ⟨f, hf, he⟩), fun h e he => ?_⟩
  obtain ⟨f, hf, he⟩ := List.mem_flatten.1 he
  exact h f hf e he

theorem cites_fields {fields : List Field} {xs : Extensions} :
    Cites P .record (.ofFields fields xs) ↔ ∀ f ∈ fields, FieldCites P f :=
  (cites_object rfl).trans fieldCites_flatten

theorem cites_extended {t : Target} {fields : List Field} {xs : Extensions} :
    Cites P .record (.extended t fields xs) ↔ ∀ f ∈ fields, FieldCites P f := cites_fields

@[simp] theorem fieldCites_nil : FieldCites P [] := fun _ he => by cases he

section
variable {name : String} (h : name ≠ "$ref")

include h

@[simp] theorem fieldCites_single (n : Node) :
    FieldCites P [(name, n)] ↔ Cites P (Role.inside .record name) n := by
  simp [FieldCites, EntryCites, h]

@[simp] theorem fieldCites_text (s : String) : FieldCites P (.text name s) := by
  simp [Field.text, h]

@[simp] theorem fieldCites_text? (o : Option String) : FieldCites P (.text? name o) := by
  unfold Field.text?
  repeat' split
  all_goals simp [h]

@[simp] theorem fieldCites_flag (b : Bool) : FieldCites P (.flag name b) := by
  unfold Field.flag
  split <;> simp [h]

@[simp] theorem fieldCites_int? (o : Option Int) : FieldCites P (.int? name o) := by
  cases o <;> simp [Field.int?, h]

@[simp] theorem fieldCites_number? (o : Option Number) : FieldCites P (.number? name o) := by
  cases o <;> simp [Field.number?, h]

@[simp] theorem fieldCites_free (v : Value) : FieldCites P (.free name v) := by
  unfold Field.free
  split <;> simp [h]

@[simp] theorem fieldCites_frees (vs : List Value) : FieldCites P (.frees name vs) := by
  unfold Field.frees
  split <;> simp [h]

@[simp] theorem fieldCites_texts (ss : List String) : FieldCites P (.texts name ss) := by
  unfold Field.texts
  split <;> simp [h]

theorem fieldCites_node? (o : Option Node) :
    FieldCites P (.node? name o) ↔ ∀ n ∈ o, Cites P (Role.inside .record name) n := by
  cases o <;> simp [Field.node?, h]

theorem fieldCites_nodes (ns : List Node) :
    FieldCites P (.nodes name ns) ↔ ∀ n ∈ ns, Cites P (Role.inside .record name).item n := by
  cases ns <;> simp [Field.nodes, h]

theorem fieldCites_named (ns : List (String × Node)) :
    FieldCites P (.named name ns) ↔ Cites P (Role.inside .record name) (.object ns []) := by
  cases ns with
  | nil => simp [Field.named, cites_empty]
  | cons n ns => simp [Field.named, h]

end

end

end Node
end ApiProjection
