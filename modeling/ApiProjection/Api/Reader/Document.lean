import ApiProjection.Api.Reader.Schema
import ApiProjection.Api.Basic
/-!
# Reading descriptions

`Api.read` reads a value as a whole description and finds every issue in it, in the order of the
fields; `Api.parse` adds where the value came from.
-/
namespace ApiProjection

open Record

def ExternalDocs.read : Value → Read ExternalDocs :=
  Fields.readClosed "ExternalDocs" <|
    (fun url description extensions => { url, description, extensions })
      <$> .required ["url"] readText <*> .text? ["description"] <*> .extensions

def Contact.read : Value → Read Contact :=
  Fields.readClosed "Contact" <|
    (fun name url email extensions => { name, url, email, extensions })
      <$> .text? ["name"] <*> .text? ["url"] <*> .text? ["email"] <*> .extensions

def License.read : Value → Read License :=
  Fields.readClosed "License" <|
    (fun name identifier url extensions => { name, identifier, url, extensions })
      <$> .required ["name"] readText <*> .text? ["identifier"] <*> .text? ["url"] <*> .extensions

def Info.read : Value → Read Info :=
  Fields.readClosed "Info" <|
    (fun title version summary description termsOfService contact license extensions =>
      { title, version, summary, description, termsOfService, contact, license, extensions })
      <$> .required ["title"] readText
      <*> .required ["version"] readText
      <*> .text? ["summary"]
      <*> .text? ["description"]
      <*> .text? ["termsOfService", "terms_of_service"]
      <*> .unset? ["contact"] Contact.read
      <*> .unset? ["license"] License.read
      <*> .extensions

def ServerVariable.read : Value → Read ServerVariable :=
  Fields.readClosed "ServerVariable" <|
    (fun default enum description extensions => { default, enum, description, extensions })
      <$> .required ["default"] readText
      <*> .unset? ["enum"] (listOf readText)
      <*> .text? ["description"]
      <*> .extensions

def Server.read : Value → Read Server :=
  Fields.readClosed "Server" <|
    (fun url description vars extensions => { url, description, vars, extensions })
      <$> .required ["url"] readText
      <*> .text? ["description"]
      <*> .optional ["variables"] [] (mapOf ServerVariable.read)
      <*> .extensions

def Tag.read : Value → Read Tag :=
  Fields.readClosed "Tag" <|
    (fun name description externalDocs extensions => { name, description, externalDocs, extensions })
      <$> .required ["name"] readText
      <*> .text? ["description"]
      <*> .unset? ["externalDocs", "external_docs"] ExternalDocs.read
      <*> .extensions

def SecurityRequirement.read : Value → Read SecurityRequirement := mapOf (listOf readText)

def Example.read : Value → Read Example :=
  Fields.readClosed "Example" <|
    (fun ref summary description value externalValue extensions =>
      { ref, summary, description, value, externalValue, extensions })
      <$> .text? ["$ref", "ref"]
      <*> .text? ["summary"]
      <*> .text? ["description"]
      <*> .free ["value"]
      <*> .text? ["externalValue", "external_value"]
      <*> .extensions

/-! ## Headers and bodies -/

mutual
/-- Reads a header. -/
def Header.read (v : Value) : Read Header :=
  Fields.readBelow "Header" v <|
    (fun ref description required deprecated allowEmptyValue style explode schema sample examples
        content extensions =>
      { ref, description, required, deprecated, allowEmptyValue, style, explode, schema, sample,
        examples, content, extensions })
      <$> .below (.text? ["$ref", "ref"])
      <*> .below (.text? ["description"])
      <*> .below (.flag ["required"])
      <*> .below (.flag ["deprecated"])
      <*> .below (.flag ["allowEmptyValue", "allow_empty_value"])
      <*> .below (.text? ["style"])
      <*> .below (.flag ["explode"])
      <*> .below (.unset? ["schema", "schema_"] Schema.read)
      <*> .below (.free ["example"])
      <*> .below (.optional ["examples"] [] (mapOf Example.read))
      <*> .optional ["content"] [] (fun c => readMap c.1 c.entries? fun d => MediaType.read d.1)
      <*> .below .extensions
termination_by sizeOf v
decreasing_by exact d.2

/-- Reads what a body holds in one content type. -/
def MediaType.read (v : Value) : Read MediaType :=
  Fields.readBelow "MediaType" v <|
    (fun schema sample examples encoding extensions =>
      { schema, sample, examples, encoding, extensions })
      <$> .below (.unset? ["schema", "schema_"] Schema.read)
      <*> .below (.free ["example"])
      <*> .below (.optional ["examples"] [] (mapOf Example.read))
      <*> .optional ["encoding"] [] (fun c => readMap c.1 c.entries? fun d => Encoding.read d.1)
      <*> .below .extensions
termination_by sizeOf v
decreasing_by exact d.2

/-- Reads how a property of a body is encoded. -/
def Encoding.read (v : Value) : Read Encoding :=
  Fields.readBelow "Encoding" v <|
    (fun contentType headers style explode allowReserved extensions =>
      { contentType, headers, style, explode, allowReserved, extensions })
      <$> .below (.text? ["contentType", "content_type"])
      <*> .optional ["headers"] [] (fun c => readMap c.1 c.entries? fun d => Header.read d.1)
      <*> .below (.text? ["style"])
      <*> .below (.flag ["explode"])
      <*> .below (.flag ["allowReserved", "allow_reserved"])
      <*> .below .extensions
termination_by sizeOf v
decreasing_by exact d.2
end

def Parameter.read : Value → Read Parameter :=
  Fields.readClosed "Parameter" <|
    (fun ref name place description required deprecated allowEmptyValue style explode allowReserved
        schema sample examples content extensions =>
      { ref, name, place, description, required, deprecated, allowEmptyValue, style, explode,
        allowReserved, schema, sample, examples, content, extensions })
      <$> .text? ["$ref", "ref"]
      <*> .text? ["name"]
      <*> .text? ["in", "in_"]
      <*> .text? ["description"]
      <*> .flag ["required"]
      <*> .flag ["deprecated"]
      <*> .flag ["allowEmptyValue", "allow_empty_value"]
      <*> .text? ["style"]
      <*> .flag ["explode"]
      <*> .flag ["allowReserved", "allow_reserved"]
      <*> .unset? ["schema", "schema_"] Schema.read
      <*> .free ["example"]
      <*> .optional ["examples"] [] (mapOf Example.read)
      <*> .optional ["content"] [] (mapOf MediaType.read)
      <*> .extensions

def RequestBody.read : Value → Read RequestBody :=
  Fields.readClosed "RequestBody" <|
    (fun ref description required content extensions =>
      { ref, description, required, content, extensions })
      <$> .text? ["$ref", "ref"]
      <*> .text? ["description"]
      <*> .flag ["required"]
      <*> .optional ["content"] [] (mapOf MediaType.read)
      <*> .extensions

def Link.read : Value → Read Link :=
  Fields.readClosed "Link" <|
    (fun ref operationRef operationId parameters requestBody description server extensions =>
      { ref, operationRef, operationId, parameters, requestBody, description, server, extensions })
      <$> .text? ["$ref", "ref"]
      <*> .text? ["operationRef", "operation_ref"]
      <*> .text? ["operationId", "operation_id"]
      <*> .optional ["parameters"] [] (mapOf .done)
      <*> .free ["requestBody", "request_body"]
      <*> .text? ["description"]
      <*> .unset? ["server"] Server.read
      <*> .extensions

def Response.read : Value → Read Response :=
  Fields.readClosed "Response" <|
    (fun ref description content headers links extensions =>
      { ref, description, content, headers, links, extensions })
      <$> .text? ["$ref", "ref"]
      <*> .optional ["description"] "" readText
      <*> .optional ["content"] [] (mapOf MediaType.read)
      <*> .optional ["headers"] [] (mapOf Header.read)
      <*> .optional ["links"] [] (mapOf Link.read)
      <*> .extensions

/-! ## Operations -/

/-- The fields of a path, one for each method, given how an operation is read. -/
def PathItem.operationFields {γ : Type} (value : γ → Value) (read : γ → Read Operation) :
    List Method → Fields γ (List (Method × Operation))
  | [] => pure []
  | m :: ms =>
    (fun o os => (o.map (m, ·)).toList ++ os)
      <$> .optional [m.name] none (orNull value read) <*> operationFields value read ms

mutual
/-- Reads an operation. -/
def Operation.read (v : Value) : Read Operation :=
  Fields.readBelow "Operation" v <|
    (fun tags summary description externalDocs operationId parameters requestBody responses callbacks
        deprecated security servers extensions =>
      { tags, summary, description, externalDocs, operationId, parameters, requestBody, responses,
        callbacks, deprecated, security, servers, extensions })
      <$> .below (.optional ["tags"] [] (listOf readText))
      <*> .below (.text? ["summary"])
      <*> .below (.text? ["description"])
      <*> .below (.unset? ["externalDocs", "external_docs"] ExternalDocs.read)
      <*> .below (.text? ["operationId", "operation_id"])
      <*> .below (.optional ["parameters"] [] (listOf Parameter.read))
      <*> .below (.unset? ["requestBody", "request_body"] RequestBody.read)
      <*> .below (.optional ["responses"] [] (mapOf Response.read))
      <*> .optional ["callbacks"] [] (fun c => readMap c.1 c.entries? fun d => Callback.read d.1)
      <*> .below (.flag ["deprecated"])
      <*> .below (.optional ["security"] [] (listOf SecurityRequirement.read))
      <*> .below (.optional ["servers"] [] (listOf Server.read))
      <*> .below .extensions
termination_by sizeOf v
decreasing_by exact d.2

/-- Reads what is offered under a path. -/
def PathItem.read (v : Value) : Read PathItem :=
  Fields.readBelow "PathItem" v <|
    (fun ref summary description operations parameters extensions =>
      { ref, summary, description, operations, parameters, extensions })
      <$> .below (.text? ["$ref", "ref"])
      <*> .below (.text? ["summary"])
      <*> .below (.text? ["description"])
      <*> PathItem.operationFields Below.value (fun d => Operation.read d.1) Method.all
      <*> .below (.optional ["parameters"] [] (listOf Parameter.read))
      <*> .below .extensions
termination_by sizeOf v
decreasing_by exact d.2

/-- Reads the paths that are called back. -/
def Callback.read (v : Value) : Read Callback :=
  Fields.readBelow "Callback" v <|
    (fun ref pathItems extensions => { ref, pathItems, extensions })
      <$> .below (.text? ["$ref", "ref"])
      <*> .optional ["pathItems", "path_items"] []
        (fun c => readMap c.1 c.entries? fun d => PathItem.read d.1)
      <*> .below .extensions
termination_by sizeOf v
decreasing_by exact d.2
end

/-! ## Security -/

def OAuthFlow.read : Value → Read OAuthFlow :=
  Fields.readClosed "OAuthFlow" <|
    (fun authorizationUrl tokenUrl refreshUrl scopes extensions =>
      { authorizationUrl, tokenUrl, refreshUrl, scopes, extensions })
      <$> .text? ["authorizationUrl", "authorization_url"]
      <*> .text? ["tokenUrl", "token_url"]
      <*> .text? ["refreshUrl", "refresh_url"]
      <*> .optional ["scopes"] [] (mapOf readText)
      <*> .extensions

def OAuthFlows.read : Value → Read OAuthFlows :=
  Fields.readClosed "OAuthFlows" <|
    (fun implicit password clientCredentials authorizationCode extensions =>
      { implicit, password, clientCredentials, authorizationCode, extensions })
      <$> .unset? ["implicit"] OAuthFlow.read
      <*> .unset? ["password"] OAuthFlow.read
      <*> .unset? ["clientCredentials", "client_credentials"] OAuthFlow.read
      <*> .unset? ["authorizationCode", "authorization_code"] OAuthFlow.read
      <*> .extensions

def SecurityScheme.read : Value → Read SecurityScheme :=
  Fields.readClosed "SecurityScheme" <|
    (fun ref type description name place scheme bearerFormat flows openIdConnectUrl extensions =>
      { ref, type, description, name, place, scheme, bearerFormat, flows, openIdConnectUrl,
        extensions })
      <$> .text? ["$ref", "ref"]
      <*> .text? ["type"]
      <*> .text? ["description"]
      <*> .text? ["name"]
      <*> .text? ["in", "in_"]
      <*> .text? ["scheme"]
      <*> .text? ["bearerFormat", "bearer_format"]
      <*> .unset? ["flows"] OAuthFlows.read
      <*> .text? ["openIdConnectUrl", "open_id_connect_url"]
      <*> .extensions

/-! ## The whole -/

def Components.read : Value → Read Components :=
  Fields.readClosed "Components" <|
    (fun schemas responses parameters examples requestBodies headers securitySchemes links callbacks
        pathItems extensions =>
      { schemas, responses, parameters, examples, requestBodies, headers, securitySchemes, links,
        callbacks, pathItems, extensions })
      <$> .optional ["schemas"] [] (mapOf Schema.read)
      <*> .optional ["responses"] [] (mapOf Response.read)
      <*> .optional ["parameters"] [] (mapOf Parameter.read)
      <*> .optional ["examples"] [] (mapOf Example.read)
      <*> .optional ["requestBodies", "request_bodies"] [] (mapOf RequestBody.read)
      <*> .optional ["headers"] [] (mapOf Header.read)
      <*> .optional ["securitySchemes", "security_schemes"] [] (mapOf SecurityScheme.read)
      <*> .optional ["links"] [] (mapOf Link.read)
      <*> .optional ["callbacks"] [] (mapOf Callback.read)
      <*> .optional ["pathItems", "path_items"] [] (mapOf PathItem.read)
      <*> .extensions

namespace Api

def read : Value → Read Api :=
  Fields.readClosed "Spec" <|
    (fun info servers paths components webhooks tags security externalDocs extensions =>
      { info, servers, paths, components, webhooks, tags, security, externalDocs, extensions })
      <$> .required ["info"] Info.read
      <*> .optional ["servers"] [] (listOf Server.read)
      <*> .optional ["paths"] [] (mapOf PathItem.read)
      <*> .unset? ["components"] Components.read
      <*> .optional ["webhooks"] [] (mapOf PathItem.read)
      <*> .optional ["tags"] [] (listOf Tag.read)
      <*> .optional ["security"] [] (listOf SecurityRequirement.read)
      <*> .unset? ["externalDocs", "external_docs"] ExternalDocs.read
      <*> .extensions

/-- A value that is no description, with where it came from. -/
structure Rejection where
  source : String
  issues : List Issue

def Rejection.message (r : Rejection) : String :=
  let head := s!"Invalid IR document {r.source} ({r.issues.length} error(s)):"
  "\n".intercalate (head :: r.issues.map fun i => "  " ++ i.line)

/-- Where a value is said to come from if nothing is known about it. -/
def unknownSource : String := "<data>"

/-- The description that a value from the given source is. -/
def parse (source : String) (v : Value) : Except Rejection Api :=
  match read v with
  | .done api => .ok api
  | .failed issues => .error ⟨source, issues⟩

end Api
end ApiProjection
