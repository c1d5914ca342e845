import ApiProjection.Api.Basic
import ApiProjection.Projection.Schema
/-!
# Projecting operations

The objects below the root of a document have one shape in both versions and differ only in the
schemas and extensions inside them. Each function takes the place of the node that it writes, so
that whatever is found further in is reported there.
-/
namespace ApiProjection

open Node (Field)

/-- An object with the extensions that may be written in a version. -/
def Node.extended (t : Target) (fields : List Field) (extensions : Extensions) : Node :=
  .ofFields fields (Extension.allowed t extensions)

namespace Traced

/-- Each of a list at its position. -/
def items {α β : Type} (f : α → Pointer → Traced β) (p : Pointer) : Nat → List α → Traced (List β)
  | _, [] => pure []
  | i, x :: xs => return (← f x (p.index i)) :: (← items f p (i + 1) xs)

/-- Each of a list of named parts at its name. -/
def named {α β : Type} (f : α → Pointer → Traced β) (p : Pointer) :
    List (String × α) → Traced (List (String × β))
  | [] => pure []
  | (k, x) :: xs => return (k, ← f x (p.key k)) :: (← named f p xs)

/-- A part that may be absent. -/
def option {α β : Type} (f : α → Pointer → Traced β) (p : Pointer) : Option α → Traced (Option β)
  | none => pure none
  | some x => return some (← f x p)

end Traced

/-! ## Parts without schemas -/

def ExternalDocs.project (t : Target) (d : ExternalDocs) : Node :=
  .extended t [.text? "description" d.description, .text "url" d.url] d.extensions

def Contact.project (t : Target) (c : Contact) : Node :=
  .extended t [.text? "name" c.name, .text? "url" c.url, .text? "email" c.email] c.extensions

def Tag.project (t : Target) (g : Tag) : Node :=
  .extended t [.text "name" g.name, .text? "description" g.description,
    .node? "externalDocs" (g.externalDocs.map fun d => d.project t)] g.extensions

def SecurityRequirement.project (r : SecurityRequirement) : Node :=
  .object (r.map fun (name, scopes) => (name, .list (scopes.map .text))) []

def Example.project (t : Target) (e : Example) : Node :=
  match nonEmpty e.ref with
  | some target => .reference target
  | none => .extended t [.text? "summary" e.summary, .text? "description" e.description,
      .free "value" e.value, .text? "externalValue" e.externalValue] e.extensions

/-- Named examples, unless there are none. -/
def Example.projectAll (t : Target) (es : List (String × Example)) : Field :=
  .named "examples" (es.map fun (name, e) => (name, e.project t))

/-! ## Servers -/

namespace ServerVariable

/-- What is wrong with the enumeration of a variable in the newer version. -/
def finding? (t : Target) (v : ServerVariable) : Option Finding :=
  match t, v.enum with
  | .v30, _ | .v31, none => none
  | .v31, some [] => some .emptyEnum
  | .v31, some values => if values.contains v.default then none else some (.defaultNotInEnum v.default)

def project (t : Target) (v : ServerVariable) (p : Pointer) : Traced Node := do
  match v.finding? t with
  | some f => Traced.warn f p
  | none => pure ()
  return .extended t [.texts "enum" (v.enum.getD []), .text "default" v.default,
    .text? "description" v.description] v.extensions

end ServerVariable

def Server.project (t : Target) (s : Server) (p : Pointer) : Traced Node := do
  let vars ← Traced.named (ServerVariable.project t) (p.key "variables") s.vars
  return .extended t [.text "url" s.url, .text? "description" s.description,
    .named "variables" vars] s.extensions

def Server.projectAll (t : Target) (ss : List Server) (p : Pointer) : Traced (List Node) :=
  Traced.items (Server.project t) p 0 ss

/-! ## Headers and bodies -/

mutual
def Header.project (t : Target) : Header → Pointer → Traced Node
  | ⟨ref, description, required, deprecated, allowEmptyValue, style, explode, schema, sample,
      examples, content, extensions⟩, p =>
    match nonEmpty ref with
    | some target => pure (.reference target)
    | none => do
      let schema ← Traced.option (Schema.project t) (p.key "schema") schema
      let content ← MediaType.projectNamed t content (p.key "content")
      return .extended t [
        .text? "description" description,
        .flag "required" required,
        .flag "deprecated" deprecated,
        .flag "allowEmptyValue" allowEmptyValue,
        .text? "style" style,
        .flag "explode" explode,
        .node? "schema" schema,
        .free "example" sample,
        Example.projectAll t examples,
        .named "content" content] extensions

def MediaType.project (t : Target) : MediaType → Pointer → Traced Node
  | ⟨schema, sample, examples, encoding, extensions⟩, p => do
    let encoding ← Encoding.projectNamed t encoding (p.key "encoding")
    let schema ← Traced.option (Schema.project t) (p.key "schema") schema
    return .extended t [
      .node? "schema" schema,
      .free "example" sample,
      Example.projectAll t examples,
      .named "encoding" encoding] extensions

def Encoding.project (t : Target) : Encoding → Pointer → Traced Node
  | ⟨contentType, headers, style, explode, allowReserved, extensions⟩, p => do
    let headers ← Header.projectNamed t headers (p.key "headers")
    return .extended t [
      .text? "contentType" contentType,
      .named "headers" headers,
      .text? "style" style,
      .flag "explode" explode,
      .flag "allowReserved" allowReserved] extensions

def Header.projectNamed (t : Target) :
    List (String × Header) → Pointer → Traced (List (String × Node))
  | [], _ => pure []
  | (k, h) :: hs, p => return (k, ← h.project t (p.key k)) :: (← Header.projectNamed t hs p)

def MediaType.projectNamed (t : Target) :
    List (String × MediaType) → Pointer → Traced (List (String × Node))
  | [], _ => pure []
  | (k, m) :: ms, p => return (k, ← m.project t (p.key k)) :: (← MediaType.projectNamed t ms p)

def Encoding.projectNamed (t : Target) :
    List (String × Encoding) → Pointer → Traced (List (String × Node))
  | [], _ => pure []
  | (k, e) :: es, p => return (k, ← e.project t (p.key k)) :: (← Encoding.projectNamed t es p)
end

def Parameter.project (t : Target) (x : Parameter) (p : Pointer) : Traced Node :=
  match nonEmpty x.ref with
  | some target => pure (.reference target)
  | none => do
    let schema ← Traced.option (Schema.project t) (p.key "schema") x.schema
    let content ← MediaType.projectNamed t x.content (p.key "content")
    return .extended t [
      .text? "name" x.name,
      .text? "in" x.place,
      .text? "description" x.description,
      .flag "required" x.required,
      .flag "deprecated" x.deprecated,
      .flag "allowEmptyValue" x.allowEmptyValue,
      .text? "style" x.style,
      .flag "explode" x.explode,
      .flag "allowReserved" x.allowReserved,
      .node? "schema" schema,
      .free "example" x.sample,
      Example.projectAll t x.examples,
      .named "content" content] x.extensions

def RequestBody.project (t : Target) (b : RequestBody) (p : Pointer) : Traced Node :=
  match nonEmpty b.ref with
  | some target => pure (.reference target)
  | none => do
    let content ← MediaType.projectNamed t b.content (p.key "content")
    return .extended t [
      .text? "description" b.description,
      [("content", .object content [])],
      .flag "required" b.required] b.extensions

/-! ## Responses -/

def Link.project (t : Target) (l : Link) (p : Pointer) : Traced Node :=
  match nonEmpty l.ref with
  | some target => pure (.reference target)
  | none => do
    let server ← Traced.option (Server.project t) (p.key "server") l.server
    return .extended t [
      .text? "operationRef" l.operationRef,
      .text? "operationId" l.operationId,
      .named "parameters" (l.parameters.map fun (k, v) => (k, .free v)),
      .free "requestBody" l.requestBody,
      .text? "description" l.description,
      .node? "server" server] l.extensions

def Response.project (t : Target) (r : Response) (p : Pointer) : Traced Node :=
  match nonEmpty r.ref with
  | some target => pure (.reference target)
  | none => do
    let links ← Traced.named (Link.project t) (p.key "links") r.links
    let headers ← Header.projectNamed t r.headers (p.key "headers")
    let content ← MediaType.projectNamed t r.content (p.key "content")
    return .extended t [
      .text "description" r.description,
      .named "headers" headers,
      .named "content" content,
      .named "links" links] r.extensions

/-! ## Operations -/

mutual
def Operation.project (t : Target) : Operation → Pointer → Traced Node
  | ⟨tags, summary, description, externalDocs, operationId, parameters, requestBody, responses,
      callbacks, deprecated, security, servers, extensions⟩, p => do
    let parameters ← Traced.items (Parameter.project t) (p.key "parameters") 0 parameters
    let requestBody ← Traced.option (RequestBody.project t) (p.key "requestBody") requestBody
    let responses ← Traced.named (Response.project t) (p.key "responses") responses
    let callbacks ← Callback.projectNamed t callbacks (p.key "callbacks")
    let servers ← Server.projectAll t servers (p.key "servers")
    return .extended t [
      .texts "tags" tags,
      .text? "summary" summary,
      .text? "description" description,
      .node? "externalDocs" (externalDocs.map fun d => d.project t),
      .text? "operationId" operationId,
      .nodes "parameters" parameters,
      .node? "requestBody" requestBody,
      [("responses", .object responses [])],
      .named "callbacks" callbacks,
      .flag "deprecated" deprecated,
      .nodes "security" (security.map SecurityRequirement.project),
      .nodes "servers" servers] extensions

def PathItem.project (t : Target) : PathItem → Pointer → Traced Node
  | ⟨ref, summary, description, operations, parameters, extensions⟩, p =>
    match nonEmpty ref with
    | some target => pure (.reference target)
    | none => do
      let parameters ← Traced.items (Parameter.project t) (p.key "parameters") 0 parameters
      let operations ← Operation.projectMethods t operations p
      return .extended t [
        .text? "summary" summary,
        .text? "description" description,
        operations,
        .nodes "parameters" parameters] extensions

def Callback.project (t : Target) : Callback → Pointer → Traced Node
  | ⟨ref, pathItems, extensions⟩, p =>
    match nonEmpty ref with
    | some target => pure (.reference target)
    | none => do
      let items ← PathItem.projectNamed t pathItems p
      return .extended t [items] extensions

def Operation.projectMethods (t : Target) :
    List (Method × Operation) → Pointer → Traced (List (String × Node))
  | [], _ => pure []
  | (m, o) :: os, p =>
    return (m.name, ← o.project t (p.key m.name)) :: (← Operation.projectMethods t os p)

def PathItem.projectNamed (t : Target) :
    List (String × PathItem) → Pointer → Traced (List (String × Node))
  | [], _ => pure []
  | (k, i) :: is, p => return (k, ← i.project t (p.key k)) :: (← PathItem.projectNamed t is p)

def Callback.projectNamed (t : Target) :
    List (String × Callback) → Pointer → Traced (List (String × Node))
  | [], _ => pure []
  | (k, c) :: cs, p => return (k, ← c.project t (p.key k)) :: (← Callback.projectNamed t cs p)
end

/-! ## Security -/

def OAuthFlow.project (t : Target) (f : OAuthFlow) : Node :=
  .extended t [
    .text? "authorizationUrl" f.authorizationUrl,
    .text? "tokenUrl" f.tokenUrl,
    .text? "refreshUrl" f.refreshUrl,
    [("scopes", .object (f.scopes.map fun (k, s) => (k, .text s)) [])]] f.extensions

/-- The flows of a scheme, unless there is none. -/
def OAuthFlows.project? (t : Target) (f : OAuthFlows) : Option Node :=
  let flow (name : String) (o : Option OAuthFlow) : Field := .node? name (o.map fun x => x.project t)
  match [flow "implicit" f.implicit, flow "password" f.password,
      flow "clientCredentials" f.clientCredentials,
      flow "authorizationCode" f.authorizationCode].flatten with
  | [] => none
  | flows => some (.extended t [flows] f.extensions)

def SecurityScheme.project (t : Target) (s : SecurityScheme) : Node :=
  match nonEmpty s.ref with
  | some target => .reference target
  | none => .extended t [
      .node? "type" (s.type.map .text),
      .text? "description" s.description,
      .text? "name" s.name,
      .text? "in" s.place,
      .text? "scheme" s.scheme,
      .text? "bearerFormat" s.bearerFormat,
      .node? "flows" (s.flows.bind fun f => f.project? t),
      .text? "openIdConnectUrl" s.openIdConnectUrl] s.extensions

end ApiProjection
