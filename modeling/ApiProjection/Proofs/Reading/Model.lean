import ApiProjection.Json.Basic
/-!
# Spellings of a description

What a description may look like as JSON: the records it is made of (`Model`), each with its fields under all
their spellings (`Model.slots`), and where in a value a record stands (`At`). Free-form values hold no records,
whatever keys they have.

Two descriptions say the same in different words if they differ in the spellings of fields and in the short
forms that a bound and the rule for further properties have (`Respelled`).
-/
namespace ApiProjection

/-- The records that a description is made of. -/
inductive Model
  | spec
  | info
  | contact
  | license
  | server
  | serverVariable
  | tag
  | externalDocs
  | example
  | header
  | mediaType
  | encoding
  | parameter
  | requestBody
  | link
  | response
  | operation
  | pathItem
  | callback
  | oauthFlow
  | oauthFlows
  | securityScheme
  | components
  | schema
  | discriminator
  | xml
  | bound
  /-- The rule for further properties, written out. -/
  | further
  deriving DecidableEq, Repr

/-- What stands at a place of a description. -/
inductive Shape
  /-- A value without records in it. -/
  | leaf
  | record (m : Model)
  | list (s : Shape)
  /-- Parts by their names, which are no keys of a record. -/
  | map (s : Shape)
  /-- A bound, or a number for short. -/
  | bound
  /-- The rule for further properties, or a truth value or a schema for short. -/
  | further
  deriving DecidableEq, Repr

/-- A field: its spellings, and what stands there. -/
structure Model.Slot where
  spellings : List String
  shape : Shape
  deriving DecidableEq, Repr

namespace Model

/-- Fields without records in them. -/
def leaves (fields : List (List String)) : List Model.Slot := fields.map fun ss => ⟨ss, .leaf⟩

/-- The fields of a record. -/
def slots : Model → List Model.Slot
  | .spec =>
    [⟨["info"], .record .info⟩, ⟨["servers"], .list (.record .server)⟩, ⟨["paths"], .map (.record .pathItem)⟩,
      ⟨["components"], .record .components⟩, ⟨["webhooks"], .map (.record .pathItem)⟩,
      ⟨["tags"], .list (.record .tag)⟩, ⟨["security"], .leaf⟩,
      ⟨["externalDocs", "external_docs"], .record .externalDocs⟩, ⟨["extensions"], .leaf⟩]
  | .info =>
    leaves [["title"], ["version"], ["summary"], ["description"], ["termsOfService", "terms_of_service"]] ++
      [⟨["contact"], .record .contact⟩, ⟨["license"], .record .license⟩, ⟨["extensions"], .leaf⟩]
  | .contact => leaves [["name"], ["url"], ["email"], ["extensions"]]
  | .license => leaves [["name"], ["identifier"], ["url"], ["extensions"]]
  | .server =>
    leaves [["url"], ["description"]] ++
      [⟨["variables"], .map (.record .serverVariable)⟩, ⟨["extensions"], .leaf⟩]
  | .serverVariable => leaves [["default"], ["enum"], ["description"], ["extensions"]]
  | .tag =>
    leaves [["name"], ["description"]] ++
      [⟨["externalDocs", "external_docs"], .record .externalDocs⟩, ⟨["extensions"], .leaf⟩]
  | .externalDocs => leaves [["url"], ["description"], ["extensions"]]
  | .example =>
    leaves [["$ref", "ref"], ["summary"], ["description"], ["value"], ["externalValue", "external_value"],
      ["extensions"]]
  | .header =>
    leaves [["$ref", "ref"], ["description"], ["required"], ["deprecated"],
      ["allowEmptyValue", "allow_empty_value"], ["style"], ["explode"]] ++
      [⟨["schema", "schema_"], .record .schema⟩, ⟨["example"], .leaf⟩, ⟨["examples"], .map (.record .example)⟩,
        ⟨["content"], .map (.record .mediaType)⟩, ⟨["extensions"], .leaf⟩]
  | .mediaType =>
    [⟨["schema", "schema_"], .record .schema⟩, ⟨["example"], .leaf⟩, ⟨["examples"], .map (.record .example)⟩,
      ⟨["encoding"], .map (.record .encoding)⟩, ⟨["extensions"], .leaf⟩]
  | .encoding =>
    [⟨["contentType", "content_type"], .leaf⟩, ⟨["headers"], .map (.record .header)⟩] ++
      leaves [["style"], ["explode"], ["allowReserved", "allow_reserved"], ["extensions"]]
  | .parameter =>
    leaves [["$ref", "ref"], ["name"], ["in", "in_"], ["description"], ["required"], ["deprecated"],
      ["allowEmptyValue", "allow_empty_value"], ["style"], ["explode"], ["allowReserved", "allow_reserved"]] ++
      [⟨["schema", "schema_"], .record .schema⟩, ⟨["example"], .leaf⟩, ⟨["examples"], .map (.record .example)⟩,
        ⟨["content"], .map (.record .mediaType)⟩, ⟨["extensions"], .leaf⟩]
  | .requestBody =>
    leaves [["$ref", "ref"], ["description"], ["required"]] ++
      [⟨["content"], .map (.record .mediaType)⟩, ⟨["extensions"], .leaf⟩]
  | .link =>
    leaves [["$ref", "ref"], ["operationRef", "operation_ref"], ["operationId", "operation_id"], ["parameters"],
      ["requestBody", "request_body"], ["description"]] ++
      [⟨["server"], .record .server⟩, ⟨["extensions"], .leaf⟩]
  | .response =>
    leaves [["$ref", "ref"], ["description"]] ++
      [⟨["content"], .map (.record .mediaType)⟩, ⟨["headers"], .map (.record .header)⟩,
        ⟨["links"], .map (.record .link)⟩, ⟨["extensions"], .leaf⟩]
  | .operation =>
    leaves [["tags"], ["summary"], ["description"]] ++
      [⟨["externalDocs", "external_docs"], .record .externalDocs⟩, ⟨["operationId", "operation_id"], .leaf⟩,
        ⟨["parameters"], .list (.record .parameter)⟩, ⟨["requestBody", "request_body"], .record .requestBody⟩,
        ⟨["responses"], .map (.record .response)⟩, ⟨["callbacks"], .map (.record .callback)⟩,
        ⟨["deprecated"], .leaf⟩, ⟨["security"], .leaf⟩, ⟨["servers"], .list (.record .server)⟩,
        ⟨["extensions"], .leaf⟩]
  | .pathItem =>
    leaves [["$ref", "ref"], ["summary"], ["description"]] ++
      ["get", "put", "post", "delete", "options", "head", "patch", "trace"].map
        (fun name => ⟨[name], .record .operation⟩) ++
      [⟨["parameters"], .list (.record .parameter)⟩, ⟨["extensions"], .leaf⟩]
  | .callback =>
    [⟨["$ref", "ref"], .leaf⟩, ⟨["pathItems", "path_items"], .map (.record .pathItem)⟩, ⟨["extensions"], .leaf⟩]
  | .oauthFlow =>
    leaves [["authorizationUrl", "authorization_url"], ["tokenUrl", "token_url"], ["refreshUrl", "refresh_url"],
      ["scopes"], ["extensions"]]
  | .oauthFlows =>
    [⟨["implicit"], .record .oauthFlow⟩, ⟨["password"], .record .oauthFlow⟩,
      ⟨["clientCredentials", "client_credentials"], .record .oauthFlow⟩,
      ⟨["authorizationCode", "authorization_code"], .record .oauthFlow⟩, ⟨["extensions"], .leaf⟩]
  | .securityScheme =>
    leaves [["$ref", "ref"], ["type"], ["description"], ["name"], ["in", "in_"], ["scheme"],
      ["bearerFormat", "bearer_format"]] ++
      [⟨["flows"], .record .oauthFlows⟩, ⟨["openIdConnectUrl", "open_id_connect_url"], .leaf⟩,
        ⟨["extensions"], .leaf⟩]
  | .components =>
    [⟨["schemas"], .map (.record .schema)⟩, ⟨["responses"], .map (.record .response)⟩,
      ⟨["parameters"], .map (.record .parameter)⟩, ⟨["examples"], .map (.record .example)⟩,
      ⟨["requestBodies", "request_bodies"], .map (.record .requestBody)⟩,
      ⟨["headers"], .map (.record .header)⟩,
      ⟨["securitySchemes", "security_schemes"], .map (.record .securityScheme)⟩,
      ⟨["links"], .map (.record .link)⟩, ⟨["callbacks"], .map (.record .callback)⟩,
      ⟨["pathItems", "path_items"], .map (.record .pathItem)⟩, ⟨["extensions"], .leaf⟩]
  | .schema =>
    leaves [["$ref", "ref"], ["kind", "type"], ["nullable"], ["title"], ["description"], ["format"],
      ["contentEncoding", "content_encoding"], ["contentMediaType", "content_media_type"], ["deprecated"],
      ["readOnly", "read_only"], ["writeOnly", "write_only"], ["example"], ["examples"], ["enum"], ["const"],
      ["default"], ["multipleOf", "multiple_of"]] ++
      [⟨["minimum"], .bound⟩, ⟨["maximum"], .bound⟩] ++
      leaves [["pattern"], ["minLength", "min_length"], ["maxLength", "max_length"]] ++
      [⟨["items"], .record .schema⟩] ++
      leaves [["minItems", "min_items"], ["maxItems", "max_items"], ["uniqueItems", "unique_items"]] ++
      [⟨["properties"], .map (.record .schema)⟩, ⟨["required"], .leaf⟩,
        ⟨["additionalProperties", "additional_properties"], .further⟩,
        ⟨["patternProperties", "pattern_properties"], .map (.record .schema)⟩,
        ⟨["unevaluatedProperties", "unevaluated_properties"], .record .schema⟩] ++
      leaves [["minProperties", "min_properties"], ["maxProperties", "max_properties"]] ++
      [⟨["allOf", "all_of"], .list (.record .schema)⟩, ⟨["anyOf", "any_of"], .list (.record .schema)⟩,
        ⟨["oneOf", "one_of"], .list (.record .schema)⟩, ⟨["not", "not_"], .record .schema⟩,
        ⟨["discriminator"], .record .discriminator⟩, ⟨["xml"], .record .xml⟩, ⟨["extensions"], .leaf⟩]
  | .discriminator => leaves [["propertyName", "property_name"], ["mapping"]]
  | .xml => leaves [["name"], ["namespace"], ["prefix"], ["attribute"], ["wrapped"]]
  | .bound => leaves [["value"], ["exclusive"]]
  | .further => [⟨["allow"], .leaf⟩, ⟨["schema", "schema_"], .record .schema⟩]

/-- No two fields of a record have a spelling in common. -/
theorem spellings_nodup (m : Model) : (m.slots.map Model.Slot.spellings).flatten.Nodup := by
  cases m <;> simp [slots, leaves]

/-- Whether an object has a key that is no spelling of a field of a record. -/
def Unknown (m : Model) (ms : List (String × Json)) : Prop :=
  ∃ e ∈ ms, ∀ slot ∈ m.slots, e.1 ∉ slot.spellings

/-- Whether an object has a field of a record under two spellings. -/
def Doubled (m : Model) (ms : List (String × Json)) : Prop :=
  ∃ slot ∈ m.slots, ∃ k ∈ slot.spellings, ∃ l ∈ slot.spellings, k ≠ l ∧ k ∈ ms.map Prod.fst ∧ l ∈ ms.map Prod.fst

end Model

/-- Whether an object is the rule for further properties written out; else it is a schema for short. -/
def writtenOut (ms : List (String × Json)) : Bool := (ms.lookup "allow").isSome || (ms.lookup "schema").isSome

/-- The record that an object is where something stands. -/
def Shape.model? (ms : List (String × Json)) : Shape → Option Model
  | .record m => some m
  | .bound => some .bound
  | .further => some (if writtenOut ms then .further else .schema)
  | .leaf | .list _ | .map _ => none

/-- Where in a value a record stands, and as which object. -/
inductive At : Shape → Json → Model → List (String × Json) → Prop
  | here {s : Shape} {m : Model} {ms : List (String × Json)} (hm : s.model? ms = some m) : At s (.object ms) m ms
  | item {s : Shape} {xs : List Json} {x : Json} {m : Model} {os : List (String × Json)} (hx : x ∈ xs)
      (h : At s x m os) : At (.list s) (.list xs) m os
  | entry {s : Shape} {ms : List (String × Json)} {k : String} {j : Json} {m : Model} {os : List (String × Json)}
      (hj : (k, j) ∈ ms) (h : At s j m os) : At (.map s) (.object ms) m os
  | field {s : Shape} {m : Model} {ms : List (String × Json)} {slot : Model.Slot} {k : String} {j : Json} {m' : Model}
      {os : List (String × Json)} (hm : s.model? ms = some m) (hslot : slot ∈ m.slots) (hk : k ∈ slot.spellings)
      (hj : (k, j) ∈ ms) (h : At slot.shape j m' os) : At s (.object ms) m' os

/-- The numbers. -/
def Json.IsNumber : Json → Prop
  | .int _ | .float _ => True
  | .null | .bool _ | .text _ | .list _ | .object _ => False

mutual
/-- A value and the same in other words. -/
inductive Respelled : Shape → Json → Json → Prop
  | same (s : Shape) (j : Json) : Respelled s j j
  | list {s : Shape} {xs ys : List Json} (hlength : xs.length = ys.length)
      (h : ∀ {x y}, (x, y) ∈ xs.zip ys → Respelled s x y) : Respelled (.list s) (.list xs) (.list ys)
  | map {s : Shape} {ms ns : List (String × Json)} (hlength : ms.length = ns.length)
      (h : ∀ {a b}, (a, b) ∈ ms.zip ns → RespelledEntry s a b) : Respelled (.map s) (.object ms) (.object ns)
  | object {s : Shape} {m : Model} {ms ns : List (String × Json)} (hm : s.model? ms = some m)
      (hlength : ms.length = ns.length) (h : ∀ {a b}, (a, b) ∈ ms.zip ns → RespelledMember m a b) :
      Respelled s (.object ms) (.object ns)
  /-- A number is an inclusive bound. -/
  | bound {j : Json} (h : j.IsNumber) : Respelled .bound j (.object [("value", j)])
  /-- A truth value says whether there may be further properties. -/
  | allow (b : Bool) : Respelled .further (.bool b) (.object [("allow", .bool b)])
  /-- A schema is that of further properties. -/
  | schema {ms ns : List (String × Json)} (hm : writtenOut ms = false) (hlength : ms.length = ns.length)
      (h : ∀ {a b}, (a, b) ∈ ms.zip ns → RespelledMember .schema a b) :
      Respelled .further (.object ms) (.object [("schema", .object ns)])

/-- A part and the same in other words, under the same name. -/
inductive RespelledEntry : Shape → String × Json → String × Json → Prop
  | mk {s : Shape} {k : String} {j j' : Json} (h : Respelled s j j') : RespelledEntry s (k, j) (k, j')

/-- A member of a record and the same in other words and perhaps under another spelling. The keys of a rule for
further properties that is written out stay as they are. -/
inductive RespelledMember : Model → String × Json → String × Json → Prop
  | same (m : Model) (e : String × Json) : RespelledMember m e e
  | field {m : Model} {slot : Model.Slot} {k k' : String} {j j' : Json} (hslot : slot ∈ m.slots)
      (hk : k ∈ slot.spellings) (hk' : k' ∈ slot.spellings) (hfixed : m = .further → k' = k) (h : Respelled slot.shape j j') :
      RespelledMember m (k, j) (k', j')
end

end ApiProjection
