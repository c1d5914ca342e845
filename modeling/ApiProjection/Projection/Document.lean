import ApiProjection.Projection.Operation
/-!
# Projecting whole documents

`Api.toDocument` writes a description as a document of the target version. A projection fails only
for what the version must have or excludes, and, if it is strict, for three features of the newer
version that the older one drops; the warnings recorded before a failure are kept.
-/
namespace ApiProjection

open Node (Field)

/-- Why there is no document of a version. -/
inductive Refusal
  | pathsMissing
  | licenseIdentifierAndUrl
  | strictSummary
  | strictMutualTls
  | strictWebhooks
  deriving DecidableEq, Repr

namespace Refusal

def message : Refusal → String
  | .pathsMissing => "OpenAPI 3.0 requires 'paths'"
  | .licenseIdentifierAndUrl =>
    "license identifier and url are mutually exclusive in OpenAPI 3.1; both fields cannot be set"
  | .strictSummary => "info.summary not supported in OpenAPI 3.0"
  | .strictMutualTls => "mutualTLS security type not supported in OpenAPI 3.0"
  | .strictWebhooks => "webhooks not supported in OpenAPI 3.0"

/-- Whether only a strict projection refuses this. -/
def isStrict : Refusal → Bool
  | .pathsMissing | .licenseIdentifierAndUrl => false
  | .strictSummary | .strictMutualTls | .strictWebhooks => true

end Refusal

/-- A projection that records warnings and may be refused. -/
abbrev Walk := ExceptT Refusal Traced

namespace Walk

/-- Goes on with what records warnings only. -/
def step {α : Type} (x : Traced α) : Walk α := ExceptT.lift x

/-- Ends the projection if the condition holds. -/
def refuseIf (c : Bool) (r : Refusal) : Walk Unit := if c then throw r else pure ()

end Walk

/-- Whether an optional text is set and not empty. -/
def isSet (o : Option String) : Bool := (nonEmpty o).isSome

/-! ## General information -/

def License.project30 (l : License) : Traced Node := do
  Traced.warnIf (isSet l.identifier) .licenseIdentifier ((Pointer.root.key "info").key "license")
  return .extended .v30 [.text "name" l.name, .text? "url" l.url] l.extensions

def Info.project30 (i : Info) : Traced Node := do
  Traced.warnIf (isSet i.summary) .infoSummary ((Pointer.root.key "info").key "summary")
  let license ← Traced.option (fun l _ => License.project30 l) .root i.license
  return .extended .v30 [
    .text "title" i.title,
    .text? "description" i.description,
    .text? "termsOfService" i.termsOfService,
    .node? "contact" (i.contact.map fun c => c.project .v30),
    .node? "license" license,
    .text "version" i.version] i.extensions

def License.project31 (l : License) : Walk Node := do
  Walk.refuseIf (isSet l.identifier && isSet l.url) .licenseIdentifierAndUrl
  return .extended .v31 [.text "name" l.name, .text? "identifier" l.identifier,
    .text? "url" l.url] l.extensions

def Info.project31 (i : Info) : Walk Node := do
  let license ← i.license.mapM License.project31
  return .extended .v31 [
    .text "title" i.title,
    .text? "summary" i.summary,
    .text? "description" i.description,
    .text? "termsOfService" i.termsOfService,
    .node? "contact" (i.contact.map fun c => c.project .v31),
    .node? "license" license,
    .text "version" i.version] i.extensions

/-! ## Components -/

namespace Components

/-- The place of all components. -/
def place : Pointer := Pointer.root.key "components"

/-- The security type that only the newer version has. -/
def mutualTls : String := "mutualTLS"

/-- The components that both versions have, apart from the security schemes. -/
structure Shared where
  schemas : List (String × Node)
  responses : List (String × Node)
  parameters : List (String × Node)
  examples : Field
  requestBodies : List (String × Node)
  headers : List (String × Node)
  links : List (String × Node)
  callbacks : List (String × Node)

def shared (t : Target) (c : Components) : Traced Shared := do
  let schemas ← Traced.named (Schema.project t) (place.key "schemas") c.schemas
  let responses ← Traced.named (Response.project t) (place.key "responses") c.responses
  let parameters ← Traced.named (Parameter.project t) (place.key "parameters") c.parameters
  let requestBodies ← Traced.named (RequestBody.project t) (place.key "requestBodies") c.requestBodies
  let headers ← Header.projectNamed t c.headers (place.key "headers")
  let links ← Traced.named (Link.project t) (place.key "links") c.links
  let callbacks ← Callback.projectNamed t c.callbacks (place.key "callbacks")
  let examples := Example.projectAll t c.examples
  return { schemas, responses, parameters, examples, requestBodies, headers, links, callbacks }

/-- The components of a document; reusable paths stand last. -/
def node (t : Target) (s : Shared) (schemes pathItems : List (String × Node)) (x : Extensions) : Node :=
  .extended t [
    .named "schemas" s.schemas,
    .named "responses" s.responses,
    .named "parameters" s.parameters,
    s.examples,
    .named "requestBodies" s.requestBodies,
    .named "headers" s.headers,
    .named "securitySchemes" schemes,
    .named "links" s.links,
    .named "callbacks" s.callbacks,
    .named "pathItems" pathItems] x

/-- Whether a scheme is of the type that only the newer version has. -/
def isMutualTls (s : SecurityScheme) : Bool := s.type == some mutualTls

/-- The names of the schemes that the older version drops. -/
def droppedSchemes (c : Components) : List String :=
  (c.securitySchemes.filter fun (_, s) => isMutualTls s).map (·.1)

/-- Records each dropped scheme at its place. -/
def warnDropped : List String → Traced Unit
  | [] => pure ()
  | name :: names => do
    Traced.warn .mutualTls ((place.key "securitySchemes").key name)
    warnDropped names

def project30 (strict : Bool) (c : Components) : Walk Node := do
  let s ← Walk.step (c.shared .v30)
  let kept := c.securitySchemes.filter fun (_, s) => !isMutualTls s
  let dropped := c.droppedSchemes
  Walk.step (warnDropped dropped)
  Walk.refuseIf (strict && !dropped.isEmpty) .strictMutualTls
  Walk.step (Traced.warnIf (!c.pathItems.isEmpty) .pathItems (place.key "pathItems"))
  return node .v30 s (kept.map fun (k, s) => (k, s.project .v30)) [] c.extensions

def project31 (c : Components) : Traced Node := do
  let pathItems ← PathItem.projectNamed .v31 c.pathItems (place.key "pathItems")
  let s ← c.shared .v31
  let schemes := c.securitySchemes.map fun (k, s) => (k, s.project .v31)
  return node .v31 s schemes pathItems c.extensions

end Components

/-! ## The whole -/

namespace Api

/-- The dialect that schemas of the newer version are written in. -/
def schemaDialect : String := "https://spec.openapis.org/oas/3.1/dialect/2024-11-10"

/-- The server of a document that names none. -/
def defaultServer : Node := .object [("url", .text "/")] []

/-- The description as a document of the older version. -/
def project30 (strict : Bool) (a : Api) : Walk Node := do
  Walk.refuseIf a.paths.isEmpty .pathsMissing
  let info ← Walk.step a.info.project30
  let servers ← Walk.step (Server.projectAll .v30 a.servers (Pointer.root.key "servers"))
  let paths ← Walk.step (PathItem.projectNamed .v30 a.paths (Pointer.root.key "paths"))
  Walk.refuseIf (strict && isSet a.info.summary) .strictSummary
  let components ← a.components.mapM (Components.project30 strict)
  Walk.step (Traced.warnIf (!a.webhooks.isEmpty) .webhooks (Pointer.root.key "webhooks"))
  Walk.refuseIf (strict && !a.webhooks.isEmpty) .strictWebhooks
  return .extended .v30 [
    .text "openapi" Target.v30.version,
    [("info", info)],
    .nodes "servers" servers,
    [("paths", .object paths [])],
    .node? "components" components,
    .nodes "security" (a.security.map SecurityRequirement.project),
    .nodes "tags" (a.tags.map fun g => g.project .v30),
    .node? "externalDocs" (a.externalDocs.map fun d => d.project .v30)] a.extensions

/-- The description as a document of the newer version. -/
def project31 (a : Api) : Walk Node := do
  let info ← a.info.project31
  let servers ← Walk.step (Server.projectAll .v31 a.servers (Pointer.root.key "servers"))
  let paths ← Walk.step (PathItem.projectNamed .v31 a.paths (Pointer.root.key "paths"))
  let components ← Walk.step (a.components.mapM Components.project31)
  let webhooks ← Walk.step (PathItem.projectNamed .v31 a.webhooks (Pointer.root.key "webhooks"))
  return .extended .v31 [
    .text "openapi" Target.v31.version,
    .text "jsonSchemaDialect" schemaDialect,
    [("info", info)],
    .nodes "servers" (if servers.isEmpty then [defaultServer] else servers),
    .named "paths" paths,
    .named "webhooks" webhooks,
    .node? "components" components,
    .nodes "security" (a.security.map SecurityRequirement.project),
    .nodes "tags" (a.tags.map fun g => g.project .v31),
    .node? "externalDocs" (a.externalDocs.map fun d => d.project .v31)] a.extensions

/-- The description as a document of a version, with the warnings on the way to it. -/
def toDocument (t : Target) (strict : Bool) (a : Api) : Traced (Except Refusal Node) :=
  match t with
  | .v30 => (a.project30 strict).run
  | .v31 => a.project31.run

end Api
end ApiProjection
