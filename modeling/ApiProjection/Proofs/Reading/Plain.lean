import ApiProjection.Api.Reader.Document
import ApiProjection.Proofs.Reading.Basic
/-!
# Recursive readers as records

The readers of recursive records take the children of a value together with the fact that they are smaller.
What they read is the same as that of the fields written without it, each over plain values
(`Record.Fields.readBelow_below`), so these readers are records like all others: `Schema.read_eq`,
`Header.read_eq`, `Operation.read_eq` and their kin.
-/
namespace ApiProjection

open Record

namespace Record

/-! ## Children -/

section
variable {γ δ α : Type}

theorem lookupText_map (g : γ → δ) (k : String) (es : List (Scalar × γ)) :
    lookupText k (es.map fun e => (e.1, g e.2)) = (lookupText k es).map g := by
  induction es with
  | nil => rfl
  | cons e es ih =>
    obtain ⟨s, c⟩ := e
    cases s with
    | text s =>
      rw [List.map_cons, lookupText, lookupText]
      split
      · rfl
      · exact ih
    | _ => exact ih

theorem Fields.find?_map (g : γ → δ) (spellings : List String) (es : List (Scalar × γ)) :
    find? spellings (es.map fun e => (e.1, g e.2)) = (find? spellings es).map fun m => (m.1, g m.2) := by
  unfold find?
  rw [List.map_findSome?]
  congr 1
  funext s
  rw [lookupText_map, Function.comp_apply]
  cases lookupText s es <;> rfl

theorem Fields.unexpected?_eq (value : γ → Value) (used : List String) (e : Scalar × γ) :
    unexpected? value used e = unexpected? id used (e.1, value e.2) := by
  obtain ⟨s, c⟩ := e
  cases s <;> rfl

theorem entriesBelow?_map (v : Value) (es : List (Scalar × Value)) (h : v = .map es) :
    ∃ bs, entriesBelow? v = some bs ∧ bs.map (fun b => (b.1, b.2.1)) = es := by
  subst h
  refine ⟨_, rfl, ?_⟩
  rw [List.map_map]
  exact List.attach_map_subtype_val es

theorem Below.entries?_map {v : Value} (c : Below v) (es : List (Scalar × Value)) (h : c.1 = .map es) :
    ∃ bs, c.entries? = some bs ∧ bs.map (fun b => (b.1, b.2.1)) = es := by
  obtain ⟨bs, hbs, hmap⟩ := entriesBelow?_map c.1 es h
  refine ⟨bs.map fun b => (b.1, c.widen b.2), by rw [entries?, hbs]; rfl, ?_⟩
  rw [List.map_map, ← hmap]
  rfl

theorem entriesBelow?_none {v : Value} (h : ∀ es, v ≠ .map es) : entriesBelow? v = none := by
  cases v with
  | map es => exact absurd rfl (h es)
  | _ => rfl

/-- A map of children is read as the map of their values. -/
theorem readMap_below {v : Value} (read : Value → Read α) (c : Below v) :
    (readMap c.1 c.entries? fun d => read d.1) = mapOf read c.1 := by
  unfold mapOf
  cases hc : c.1 with
  | map es =>
    obtain ⟨bs, hbs, hmap⟩ := c.entries?_map es hc
    rw [hbs]
    unfold readMap
    simp only
    rw [← hmap, List.map_map]
    rfl
  | _ =>
    rw [Below.entries?, entriesBelow?_none (by simp [hc])]
    rfl

/-- A list of children is read as the list of their values. -/
theorem readList_below {v : Value} (read : Value → Read α) (c : Below v) :
    (readList c.1 c.items? fun d => read d.1) = listOf read c.1 := by
  unfold listOf readList Below.items?
  cases itemsBelow? c.1 with
  | none => rfl
  | some xs =>
    simp only [Option.map_some, List.mapIdx_eq_zipIdx_map, List.zipIdx_map, List.map_map]
    rfl

end

/-! ## Fields of children -/

namespace Fields

variable {α β : Type} {v : Value}

theorem below_seq (F : Fields Value (α → β)) (x : Fields Value α) :
    (F <*> x).below = (F.below <*> x.below : Fields (Below v) β) := rfl

theorem below_map (f : α → β) (x : Fields Value α) : (f <$> x).below = (f <$> x.below : Fields (Below v) β) := rfl

theorem below_optional (spellings : List String) (default : α) (read : Value → Read α) :
    (optional spellings default read).below = (optional spellings default fun c => read c.1 : Fields (Below v) α) := by
  unfold below optional
  congr 1
  funext v' es
  have hfind : find? spellings (es.map fun e => (e.1, e.2.1)) = _ := find?_map Subtype.val spellings es
  simp only [hfind]
  cases find? spellings es <;> rfl

theorem below_mapOf (spellings : List String) (read : Value → Read α) :
    (optional spellings [] (mapOf read)).below =
      (optional spellings [] fun c => readMap c.1 c.entries? fun d => read d.1 : Fields (Below v) _) := by
  rw [below_optional]
  congr 1
  funext c
  exact (readMap_below read c).symm

theorem below_listOf (spellings : List String) (read : Value → Read α) :
    (optional spellings [] (listOf read)).below =
      (optional spellings [] fun c => readList c.1 c.items? fun d => read d.1 : Fields (Below v) _) := by
  rw [below_optional]
  congr 1
  funext c
  exact (readList_below read c).symm

/-- Fields read of children are those read of their values. -/
theorem closed_below (F : Fields Value α) (name : String) (input : Value) (es : List (Scalar × Below v)) :
    F.below.closed name input (some es) Below.value =
      F.closed name input (some (es.map fun e => (e.1, e.2.1))) id := by
  have hused : (F.spellings.filterMap fun ss => (find? ss (es.map fun e => (e.1, e.2.1))).map (·.1)) =
      F.spellings.filterMap fun ss => (find? ss es).map (·.1) := by
    congr 1
    funext ss
    rw [find?_map Subtype.val]
    cases find? ss es <;> rfl
  have hunexpected (used : List String) :
      es.filterMap (unexpected? Below.value used) = (es.map fun e => (e.1, e.2.1)).filterMap (unexpected? id used) := by
    rw [List.filterMap_map]
    exact List.filterMap_congr fun e _ => unexpected?_eq _ _ e
  unfold closed
  simp only [hused, hunexpected]
  rfl

/-- A record read of the children of a value is the one read of the value. -/
theorem readBelow_below (name : String) (v : Value) (F : Fields Value α) :
    readBelow name v F.below = F.readClosed name v := by
  unfold readBelow readClosed
  cases v with
  | map es =>
    obtain ⟨bs, hbs, hmap⟩ := entriesBelow?_map (.map es) es rfl
    rw [hbs, closed_below, hmap]
  | _ => rfl

end Fields
end Record

/-! ## Schemas -/

namespace Schema

/-- The fields that say what holds of further properties. -/
def furtherFields : Fields Value (Additional Schema) :=
  (fun allow schema => { allow, schema })
    <$> .unset? ["allow"] readBool <*> .unset? ["schema", "schema_"] Schema.read

/-- Reads what holds of further properties. -/
def readFurther (v : Value) : Read (Additional Schema) :=
  match v with
  | .scalar (.bool b) => .done { allow := some b }
  | .map es =>
    if (lookupText "allow" es).isSome || (lookupText "schema" es).isSome then
      furtherFields.readClosed "AdditionalProperties" (.map es)
    else ((Schema.read (.map es)).map fun s => { schema := some s }).under (.key "schema")
  | v => .fail (.record "AdditionalProperties") v

/-- The fields of a schema. -/
def fields : Fields Value Schema :=
  (fun (ref : Option String) (leading : Facets) (items : Option Schema) minItems maxItems uniqueItems
      (properties : List (String × Schema)) required (additional : Option (Additional Schema))
      (patternProperties : List (String × Schema)) (unevaluated : Option Schema)
      minProperties maxProperties (allOf anyOf oneOf : List Schema) (notOf : Option Schema)
      discriminator xml extensions =>
    { ref, items, properties, additional, patternProperties, unevaluated, allOf, anyOf, oneOf, notOf,
      facets := { leading with
        minItems, maxItems, uniqueItems, required, minProperties, maxProperties, discriminator, xml,
        extensions } })
    <$> .text? ["$ref", "ref"]
    <*> leadingFacets
    <*> .unset? ["items"] Schema.read
    <*> .unset? ["minItems", "min_items"] readInt
    <*> .unset? ["maxItems", "max_items"] readInt
    <*> .flag ["uniqueItems", "unique_items"]
    <*> .optional ["properties"] [] (mapOf Schema.read)
    <*> .optional ["required"] [] (listOf readText)
    <*> .unset? ["additionalProperties", "additional_properties"] readFurther
    <*> .optional ["patternProperties", "pattern_properties"] [] (mapOf Schema.read)
    <*> .unset? ["unevaluatedProperties", "unevaluated_properties"] Schema.read
    <*> .unset? ["minProperties", "min_properties"] readInt
    <*> .unset? ["maxProperties", "max_properties"] readInt
    <*> .optional ["allOf", "all_of"] [] (listOf Schema.read)
    <*> .optional ["anyOf", "any_of"] [] (listOf Schema.read)
    <*> .optional ["oneOf", "one_of"] [] (listOf Schema.read)
    <*> .unset? ["not", "not_"] Schema.read
    <*> .unset? ["discriminator"] Discriminator.read
    <*> .unset? ["xml"] XmlHints.read
    <*> .extensions

theorem additionalFields_eq {v : Value} :
    additionalFields (v := v) (fun c => Schema.read c.1) = furtherFields.below := by
  simp only [additionalFields, furtherFields, Fields.below_seq, Fields.below_map]
  rw [Fields.unset?, Fields.unset?, Fields.below_optional, Fields.below_optional]
  rfl

theorem readAdditional_eq {v : Value} (c : Below v) :
    readAdditional (fun d => Schema.read d.1) c = readFurther c.1 := by
  cases hc : c.1 with
  | map es =>
    obtain ⟨bs, hbs, hmap⟩ := c.entries?_map es hc
    have hlookup (k : String) : (lookupText k bs).isSome = (lookupText k es).isSome := by
      rw [← hmap, lookupText_map Subtype.val]
      simp
    unfold readAdditional readFurther
    rw [hbs, hc]
    simp only [hlookup, additionalFields_eq, Fields.closed_below, hmap, hc]
    rfl
  | scalar s =>
    have hnone : c.entries? = none := by
      rw [Below.entries?, entriesBelow?_none (by simp [hc])]
      rfl
    unfold readAdditional readFurther
    rw [hnone, hc]
    cases s <;> rfl
  | _ =>
    have hnone : c.entries? = none := by
      rw [Below.entries?, entriesBelow?_none (by simp [hc])]
      rfl
    unfold readAdditional readFurther
    rw [hnone, hc]

section
variable {v : Value} (spellings : List String)

theorem below_option : (Fields.unset? spellings Schema.read).below =
    (Fields.optional spellings none (schemaOrNull fun c => Schema.read c.1) : Fields (Below v) (Option Schema)) :=
  Fields.below_optional _ _ _

theorem below_named : (Fields.optional spellings [] (mapOf Schema.read)).below =
    (Fields.optional spellings [] (schemaMap fun c => Schema.read c.1) : Fields (Below v) (List (String × Schema))) :=
  Fields.below_mapOf _ _

theorem below_listed : (Fields.optional spellings [] (listOf Schema.read)).below =
    (Fields.optional spellings [] (schemaList fun c => Schema.read c.1) : Fields (Below v) (List Schema)) :=
  Fields.below_listOf _ _

theorem below_further : (Fields.unset? spellings readFurther).below =
    (Fields.optional spellings none (orNull Below.value (readAdditional fun c => Schema.read c.1)) :
      Fields (Below v) (Option (Additional Schema))) := by
  rw [Fields.unset?, Fields.below_optional]
  congr 1
  funext c
  unfold nullable orNull
  rw [readAdditional_eq]
  rfl

theorem schemaFields_eq : (schemaFields fun c => Schema.read c.1 : Fields (Below v) Schema) = fields.below := by
  unfold schemaFields fields
  simp only [Fields.below_seq, Fields.below_map, below_option, below_named, below_listed, below_further]

end

theorem read_eq : Schema.read = fields.readClosed "Schema" := by
  funext v
  rw [Schema.read, schemaFields_eq, Fields.readBelow_below]

end Schema

/-! ## Headers and bodies -/

def Header.fields : Fields Value Header :=
  (fun ref description required deprecated allowEmptyValue style explode schema sample examples
      content extensions =>
    { ref, description, required, deprecated, allowEmptyValue, style, explode, schema, sample,
      examples, content, extensions })
    <$> .text? ["$ref", "ref"]
    <*> .text? ["description"]
    <*> .flag ["required"]
    <*> .flag ["deprecated"]
    <*> .flag ["allowEmptyValue", "allow_empty_value"]
    <*> .text? ["style"]
    <*> .flag ["explode"]
    <*> .unset? ["schema", "schema_"] Schema.read
    <*> .free ["example"]
    <*> .optional ["examples"] [] (mapOf Example.read)
    <*> .optional ["content"] [] (mapOf MediaType.read)
    <*> .extensions

theorem Header.read_eq : Header.read = Header.fields.readClosed "Header" := by
  funext v
  rw [Header.read, ← Fields.readBelow_below, Header.fields]
  simp only [Fields.below_seq, Fields.below_map, Fields.below_mapOf _ MediaType.read]

def MediaType.fields : Fields Value MediaType :=
  (fun schema sample examples encoding extensions => { schema, sample, examples, encoding, extensions })
    <$> .unset? ["schema", "schema_"] Schema.read
    <*> .free ["example"]
    <*> .optional ["examples"] [] (mapOf Example.read)
    <*> .optional ["encoding"] [] (mapOf Encoding.read)
    <*> .extensions

theorem MediaType.read_eq : MediaType.read = MediaType.fields.readClosed "MediaType" := by
  funext v
  rw [MediaType.read, ← Fields.readBelow_below, MediaType.fields]
  simp only [Fields.below_seq, Fields.below_map, Fields.below_mapOf _ Encoding.read]

def Encoding.fields : Fields Value Encoding :=
  (fun contentType headers style explode allowReserved extensions =>
    { contentType, headers, style, explode, allowReserved, extensions })
    <$> .text? ["contentType", "content_type"]
    <*> .optional ["headers"] [] (mapOf Header.read)
    <*> .text? ["style"]
    <*> .flag ["explode"]
    <*> .flag ["allowReserved", "allow_reserved"]
    <*> .extensions

theorem Encoding.read_eq : Encoding.read = Encoding.fields.readClosed "Encoding" := by
  funext v
  rw [Encoding.read, ← Fields.readBelow_below, Encoding.fields]
  simp only [Fields.below_seq, Fields.below_map, Fields.below_mapOf _ Header.read]

/-! ## Operations -/

def Operation.fields : Fields Value Operation :=
  (fun tags summary description externalDocs operationId parameters requestBody responses callbacks
      deprecated security servers extensions =>
    { tags, summary, description, externalDocs, operationId, parameters, requestBody, responses,
      callbacks, deprecated, security, servers, extensions })
    <$> .optional ["tags"] [] (listOf readText)
    <*> .text? ["summary"]
    <*> .text? ["description"]
    <*> .unset? ["externalDocs", "external_docs"] ExternalDocs.read
    <*> .text? ["operationId", "operation_id"]
    <*> .optional ["parameters"] [] (listOf Parameter.read)
    <*> .unset? ["requestBody", "request_body"] RequestBody.read
    <*> .optional ["responses"] [] (mapOf Response.read)
    <*> .optional ["callbacks"] [] (mapOf Callback.read)
    <*> .flag ["deprecated"]
    <*> .optional ["security"] [] (listOf SecurityRequirement.read)
    <*> .optional ["servers"] [] (listOf Server.read)
    <*> .extensions

theorem Operation.read_eq : Operation.read = Operation.fields.readClosed "Operation" := by
  funext v
  rw [Operation.read, ← Fields.readBelow_below, Operation.fields]
  simp only [Fields.below_seq, Fields.below_map, Fields.below_mapOf _ Callback.read]

theorem PathItem.operationFields_below {v : Value} (ms : List Method) :
    (operationFields id Operation.read ms).below =
      (operationFields Below.value (fun d => Operation.read d.1) ms : Fields (Below v) _) := by
  induction ms with
  | nil => rfl
  | cons m ms ih =>
    rw [operationFields, operationFields, ← ih, Fields.below_seq, Fields.below_map, Fields.below_optional]
    rfl

def PathItem.fields : Fields Value PathItem :=
  (fun ref summary description operations parameters extensions =>
    { ref, summary, description, operations, parameters, extensions })
    <$> .text? ["$ref", "ref"]
    <*> .text? ["summary"]
    <*> .text? ["description"]
    <*> PathItem.operationFields id Operation.read Method.all
    <*> .optional ["parameters"] [] (listOf Parameter.read)
    <*> .extensions

theorem PathItem.read_eq : PathItem.read = PathItem.fields.readClosed "PathItem" := by
  funext v
  rw [PathItem.read, ← Fields.readBelow_below, PathItem.fields]
  simp only [Fields.below_seq, Fields.below_map, operationFields_below]

def Callback.fields : Fields Value Callback :=
  (fun ref pathItems extensions => { ref, pathItems, extensions })
    <$> .text? ["$ref", "ref"]
    <*> .optional ["pathItems", "path_items"] [] (mapOf PathItem.read)
    <*> .extensions

theorem Callback.read_eq : Callback.read = Callback.fields.readClosed "Callback" := by
  funext v
  rw [Callback.read, ← Fields.readBelow_below, Callback.fields]
  simp only [Fields.below_seq, Fields.below_map, Fields.below_mapOf _ PathItem.read]

end ApiProjection
