import ApiProjection.Api.Basic
import ApiProjection.Json.OfValue
/-!
# The record form of a description

`Api.dump` writes a description as JSON under the second spellings of the fields, in their order,
leaving out every field that has its default. Reading the result gives the description back.
-/
namespace ApiProjection

/-- JSON made from parts that may hold bytes that are no text. -/
abbrev Dumped (α : Type) := Except Utf8.Fault α

/-- The members that one field of a record is dumped as: one, or none for the default. -/
abbrev DumpedField := Dumped (List (String × Json))

namespace Dump

/-- The record with the given fields. -/
def record (fields : List DumpedField) : Dumped Json :=
  return .object (← fields.mapM id).flatten

def always (name : String) (j : Json) : DumpedField := .ok [(name, j)]

def flag (name : String) (b : Bool) : DumpedField := .ok (if b then [(name, .bool true)] else [])

/-- A field dumped unless it is unset. -/
def unset? {α : Type} (name : String) (f : α → Dumped Json) : Option α → DumpedField
  | none => .ok []
  | some a => return [(name, ← f a)]

def text? (name : String) (o : Option String) : DumpedField := unset? name (fun s => .ok (.text s)) o

def int? (name : String) (o : Option Int) : DumpedField := unset? name (fun n => .ok (.int n)) o

def free (name : String) (v : Value) : DumpedField :=
  if v.isNull then .ok [] else return [(name, ← v.toJson)]

/-- A list already dumped, unless it is empty. -/
def listed (name : String) (xs : Dumped (List Json)) : DumpedField := do
  match ← xs with
  | [] => return []
  | xs => return [(name, .list xs)]

/-- Named parts already dumped, unless there are none. -/
def named (name : String) (ms : Dumped (List (String × Json))) : DumpedField := do
  match ← ms with
  | [] => return []
  | ms => return [(name, .object ms)]

def each {α : Type} (f : α → Dumped Json) (xs : List α) : Dumped (List Json) := xs.mapM f

def eachNamed {α : Type} (f : α → Dumped Json) (xs : List (String × α)) : Dumped (List (String × Json)) :=
  xs.mapM fun (k, x) => return (k, ← f x)

def texts (name : String) (xs : List String) : DumpedField := listed name (.ok (xs.map .text))

def vendor (es : Extensions) : DumpedField := named "extensions" (eachNamed Value.toJson es)

end Dump

open Dump

/-! ## Schemas -/

def Number.dump (n : Number) : Dumped Json := n.toValue.toJson

def Bound.dump (b : Bound) : Dumped Json :=
  record [unset? "value" Number.dump (some b.value), flag "exclusive" b.exclusive]

def Discriminator.dump (d : Discriminator) : Dumped Json :=
  record [always "property_name" (.text d.propertyName),
    named "mapping" (.ok (d.mapping.map fun (k, s) => (k, .text s)))]

def XmlHints.dump (x : XmlHints) : Dumped Json :=
  record [text? "name" x.name, text? "namespace" x.space, text? "prefix" x.spacePrefix,
    flag "attribute" x.asAttribute, flag "wrapped" x.wrapped]

namespace Schema

mutual
def dump : Schema → Dumped Json
  | ⟨ref, f, elements, properties, additional, patternProperties, unevaluated, allOf, anyOf, oneOf, notOf⟩ =>
    record [
      text? "ref" ref,
      text? "kind" (f.kind.map Kind.name),
      flag "nullable" f.nullable,
      text? "title" f.title,
      text? "description" f.description,
      text? "format" f.format,
      text? "content_encoding" f.contentEncoding,
      text? "content_media_type" f.contentMediaType,
      flag "deprecated" f.deprecated,
      flag "read_only" f.readOnly,
      flag "write_only" f.writeOnly,
      free "example" f.sample,
      listed "examples" (each Value.toJson f.examples),
      listed "enum" (each Value.toJson f.enum),
      free "const" f.const,
      free "default" f.default,
      unset? "multiple_of" Number.dump f.multipleOf,
      unset? "minimum" Bound.dump f.minimum,
      unset? "maximum" Bound.dump f.maximum,
      text? "pattern" f.pattern,
      int? "min_length" f.minLength,
      int? "max_length" f.maxLength,
      dumpOption "items" elements,
      int? "min_items" f.minItems,
      int? "max_items" f.maxItems,
      flag "unique_items" f.uniqueItems,
      named "properties" (dumpNamed properties),
      texts "required" f.required,
      dumpAdditional additional,
      named "pattern_properties" (dumpNamed patternProperties),
      dumpOption "unevaluated_properties" unevaluated,
      int? "min_properties" f.minProperties,
      int? "max_properties" f.maxProperties,
      listed "all_of" (dumpList allOf),
      listed "any_of" (dumpList anyOf),
      listed "one_of" (dumpList oneOf),
      dumpOption "not_" notOf,
      unset? "discriminator" Discriminator.dump f.discriminator,
      unset? "xml" XmlHints.dump f.xml,
      vendor f.extensions]

def dumpOption (name : String) : Option Schema → DumpedField
  | none => .ok []
  | some s => return [(name, ← dump s)]

def dumpList : List Schema → Dumped (List Json)
  | [] => .ok []
  | s :: ss => return (← dump s) :: (← dumpList ss)

def dumpNamed : List (String × Schema) → Dumped (List (String × Json))
  | [] => .ok []
  | (k, s) :: ss => return (k, ← dump s) :: (← dumpNamed ss)

def dumpAdditional : Option (Additional Schema) → DumpedField
  | none => .ok []
  | some ⟨allow, schema⟩ => do
    let fields := record [unset? "allow" (fun b => .ok (.bool b)) allow, dumpOption "schema_" schema]
    return [("additional_properties", ← fields)]
end

end Schema

/-! ## Document structure -/

def ExternalDocs.dump (d : ExternalDocs) : Dumped Json :=
  record [always "url" (.text d.url), text? "description" d.description, vendor d.extensions]

def Contact.dump (c : Contact) : Dumped Json :=
  record [text? "name" c.name, text? "url" c.url, text? "email" c.email, vendor c.extensions]

def License.dump (l : License) : Dumped Json :=
  record [always "name" (.text l.name), text? "identifier" l.identifier, text? "url" l.url,
    vendor l.extensions]

def Info.dump (i : Info) : Dumped Json :=
  record [
    always "title" (.text i.title),
    always "version" (.text i.version),
    text? "summary" i.summary,
    text? "description" i.description,
    text? "terms_of_service" i.termsOfService,
    unset? "contact" Contact.dump i.contact,
    unset? "license" License.dump i.license,
    vendor i.extensions]

def ServerVariable.dump (v : ServerVariable) : Dumped Json :=
  record [
    always "default" (.text v.default),
    unset? "enum" (fun xs => .ok (.list (xs.map .text))) v.enum,
    text? "description" v.description,
    vendor v.extensions]

def Server.dump (s : Server) : Dumped Json :=
  record [
    always "url" (.text s.url),
    text? "description" s.description,
    named "variables" (eachNamed ServerVariable.dump s.vars),
    vendor s.extensions]

def Tag.dump (t : Tag) : Dumped Json :=
  record [
    always "name" (.text t.name),
    text? "description" t.description,
    unset? "external_docs" ExternalDocs.dump t.externalDocs,
    vendor t.extensions]

def SecurityRequirement.dump (r : SecurityRequirement) : Dumped Json :=
  .ok (.object (r.map fun (k, scopes) => (k, .list (scopes.map .text))))

/-! ## Headers and bodies -/

def Example.dump (e : Example) : Dumped Json :=
  record [
    text? "ref" e.ref,
    text? "summary" e.summary,
    text? "description" e.description,
    free "value" e.value,
    text? "external_value" e.externalValue,
    vendor e.extensions]

mutual
def Header.dump : Header → Dumped Json
  | ⟨ref, description, required, deprecated, allowEmptyValue, style, explode, schema, sample,
      examples, content, exts⟩ =>
    record [
      text? "ref" ref,
      text? "description" description,
      flag "required" required,
      flag "deprecated" deprecated,
      flag "allow_empty_value" allowEmptyValue,
      text? "style" style,
      flag "explode" explode,
      unset? "schema_" Schema.dump schema,
      free "example" sample,
      named "examples" (eachNamed Example.dump examples),
      named "content" (MediaType.dumpNamed content),
      vendor exts]

def MediaType.dump : MediaType → Dumped Json
  | ⟨schema, sample, examples, encoding, exts⟩ =>
    record [
      unset? "schema_" Schema.dump schema,
      free "example" sample,
      named "examples" (eachNamed Example.dump examples),
      named "encoding" (Encoding.dumpNamed encoding),
      vendor exts]

def Encoding.dump : Encoding → Dumped Json
  | ⟨contentType, headers, style, explode, allowReserved, exts⟩ =>
    record [
      text? "content_type" contentType,
      named "headers" (Header.dumpNamed headers),
      text? "style" style,
      flag "explode" explode,
      flag "allow_reserved" allowReserved,
      vendor exts]

def Header.dumpNamed : List (String × Header) → Dumped (List (String × Json))
  | [] => .ok []
  | (k, h) :: hs => return (k, ← h.dump) :: (← Header.dumpNamed hs)

def MediaType.dumpNamed : List (String × MediaType) → Dumped (List (String × Json))
  | [] => .ok []
  | (k, m) :: ms => return (k, ← m.dump) :: (← MediaType.dumpNamed ms)

def Encoding.dumpNamed : List (String × Encoding) → Dumped (List (String × Json))
  | [] => .ok []
  | (k, e) :: es => return (k, ← e.dump) :: (← Encoding.dumpNamed es)
end

def Parameter.dump (p : Parameter) : Dumped Json :=
  record [
    text? "ref" p.ref,
    text? "name" p.name,
    text? "in_" p.place,
    text? "description" p.description,
    flag "required" p.required,
    flag "deprecated" p.deprecated,
    flag "allow_empty_value" p.allowEmptyValue,
    text? "style" p.style,
    flag "explode" p.explode,
    flag "allow_reserved" p.allowReserved,
    unset? "schema_" Schema.dump p.schema,
    free "example" p.sample,
    named "examples" (eachNamed Example.dump p.examples),
    named "content" (MediaType.dumpNamed p.content),
    vendor p.extensions]

def RequestBody.dump (b : RequestBody) : Dumped Json :=
  record [
    text? "ref" b.ref,
    text? "description" b.description,
    flag "required" b.required,
    named "content" (MediaType.dumpNamed b.content),
    vendor b.extensions]

def Link.dump (l : Link) : Dumped Json :=
  record [
    text? "ref" l.ref,
    text? "operation_ref" l.operationRef,
    text? "operation_id" l.operationId,
    named "parameters" (eachNamed Value.toJson l.parameters),
    free "request_body" l.requestBody,
    text? "description" l.description,
    unset? "server" Server.dump l.server,
    vendor l.extensions]

def Response.dump (r : Response) : Dumped Json :=
  record [
    text? "ref" r.ref,
    text? "description" (if r.description = "" then none else some r.description),
    named "content" (MediaType.dumpNamed r.content),
    named "headers" (Header.dumpNamed r.headers),
    named "links" (eachNamed Link.dump r.links),
    vendor r.extensions]

/-! ## Operations -/

mutual
def Operation.dump : Operation → Dumped Json
  | ⟨tags, summary, description, externalDocs, operationId, parameters, requestBody, responses,
      callbacks, deprecated, security, servers, exts⟩ =>
    record [
      texts "tags" tags,
      text? "summary" summary,
      text? "description" description,
      unset? "external_docs" ExternalDocs.dump externalDocs,
      text? "operation_id" operationId,
      listed "parameters" (each Parameter.dump parameters),
      unset? "request_body" RequestBody.dump requestBody,
      named "responses" (eachNamed Response.dump responses),
      named "callbacks" (Callback.dumpNamed callbacks),
      flag "deprecated" deprecated,
      listed "security" (each SecurityRequirement.dump security),
      listed "servers" (each Server.dump servers),
      vendor exts]

def PathItem.dump : PathItem → Dumped Json
  | ⟨ref, summary, description, operations, parameters, exts⟩ =>
    record [
      text? "ref" ref,
      text? "summary" summary,
      text? "description" description,
      Operation.dumpMethods operations,
      listed "parameters" (each Parameter.dump parameters),
      vendor exts]

def Callback.dump : Callback → Dumped Json
  | ⟨ref, pathItems, exts⟩ =>
    record [
      text? "ref" ref,
      named "path_items" (PathItem.dumpNamed pathItems),
      vendor exts]

def Operation.dumpMethods : List (Method × Operation) → Dumped (List (String × Json))
  | [] => .ok []
  | (m, o) :: os => return (m.name, ← o.dump) :: (← Operation.dumpMethods os)

def PathItem.dumpNamed : List (String × PathItem) → Dumped (List (String × Json))
  | [] => .ok []
  | (k, p) :: ps => return (k, ← p.dump) :: (← PathItem.dumpNamed ps)

def Callback.dumpNamed : List (String × Callback) → Dumped (List (String × Json))
  | [] => .ok []
  | (k, c) :: cs => return (k, ← c.dump) :: (← Callback.dumpNamed cs)
end

/-! ## Security -/

def OAuthFlow.dump (f : OAuthFlow) : Dumped Json :=
  record [
    text? "authorization_url" f.authorizationUrl,
    text? "token_url" f.tokenUrl,
    text? "refresh_url" f.refreshUrl,
    named "scopes" (.ok (f.scopes.map fun (k, s) => (k, .text s))),
    vendor f.extensions]

def OAuthFlows.dump (f : OAuthFlows) : Dumped Json :=
  record [
    unset? "implicit" OAuthFlow.dump f.implicit,
    unset? "password" OAuthFlow.dump f.password,
    unset? "client_credentials" OAuthFlow.dump f.clientCredentials,
    unset? "authorization_code" OAuthFlow.dump f.authorizationCode,
    vendor f.extensions]

def SecurityScheme.dump (s : SecurityScheme) : Dumped Json :=
  record [
    text? "ref" s.ref,
    text? "type" s.type,
    text? "description" s.description,
    text? "name" s.name,
    text? "in_" s.place,
    text? "scheme" s.scheme,
    text? "bearer_format" s.bearerFormat,
    unset? "flows" OAuthFlows.dump s.flows,
    text? "open_id_connect_url" s.openIdConnectUrl,
    vendor s.extensions]

/-! ## The whole -/

def Components.dump (c : Components) : Dumped Json :=
  record [
    named "schemas" (Schema.dumpNamed c.schemas),
    named "responses" (eachNamed Response.dump c.responses),
    named "parameters" (eachNamed Parameter.dump c.parameters),
    named "examples" (eachNamed Example.dump c.examples),
    named "request_bodies" (eachNamed RequestBody.dump c.requestBodies),
    named "headers" (Header.dumpNamed c.headers),
    named "security_schemes" (eachNamed SecurityScheme.dump c.securitySchemes),
    named "links" (eachNamed Link.dump c.links),
    named "callbacks" (Callback.dumpNamed c.callbacks),
    named "path_items" (PathItem.dumpNamed c.pathItems),
    vendor c.extensions]

def Api.dump (a : Api) : Dumped Json :=
  record [
    unset? "info" Info.dump (some a.info),
    listed "servers" (each Server.dump a.servers),
    named "paths" (PathItem.dumpNamed a.paths),
    unset? "components" Components.dump a.components,
    named "webhooks" (PathItem.dumpNamed a.webhooks),
    listed "tags" (each Tag.dump a.tags),
    listed "security" (each SecurityRequirement.dump a.security),
    unset? "external_docs" ExternalDocs.dump a.externalDocs,
    vendor a.extensions]

end ApiProjection
