import ApiProjection.Api.Schema
/-!
# Descriptions of interfaces

`Api` is a whole description: who offers what under which paths, with what parameters, bodies and
responses, and under which security. It can say everything that either version of the written
format can. Nodes that may stand for another one by reference carry a `ref`; such a node is that
reference and nothing else.
-/
namespace ApiProjection

/-! ## Document structure -/

structure ExternalDocs where
  url : String
  description : Option String := none
  extensions : Extensions := []

structure Contact where
  name : Option String := none
  url : Option String := none
  email : Option String := none
  extensions : Extensions := []

/-- A license; its identifier and its url exclude each other in the newer version. -/
structure License where
  name : String
  identifier : Option String := none
  url : Option String := none
  extensions : Extensions := []

structure Info where
  title : String
  version : String
  summary : Option String := none
  description : Option String := none
  termsOfService : Option String := none
  contact : Option Contact := none
  license : Option License := none
  extensions : Extensions := []

/-- A variable of a server's url. An absent enumeration allows every value, an empty one none. -/
structure ServerVariable where
  default : String
  enum : Option (List String) := none
  description : Option String := none
  extensions : Extensions := []

structure Server where
  url : String
  description : Option String := none
  vars : List (String × ServerVariable) := []
  extensions : Extensions := []

structure Tag where
  name : String
  description : Option String := none
  externalDocs : Option ExternalDocs := none
  extensions : Extensions := []

/-- The scopes required of each of several security schemes. -/
abbrev SecurityRequirement := List (String × List String)

/-! ## Operations -/

structure Example where
  ref : Option String := none
  summary : Option String := none
  description : Option String := none
  value : Value := .null
  externalValue : Option String := none
  extensions : Extensions := []

mutual
/-- A header of a response or of one part of a body. -/
structure Header where
  ref : Option String := none
  description : Option String := none
  required : Bool := false
  deprecated : Bool := false
  allowEmptyValue : Bool := false
  style : Option String := none
  explode : Bool := false
  schema : Option Schema := none
  sample : Value := .null
  examples : List (String × Example) := []
  content : List (String × MediaType) := []
  extensions : Extensions := []

/-- What a body holds in one content type. -/
structure MediaType where
  schema : Option Schema := none
  sample : Value := .null
  examples : List (String × Example) := []
  encoding : List (String × Encoding) := []
  extensions : Extensions := []

/-- How one property of a body is encoded. -/
structure Encoding where
  contentType : Option String := none
  headers : List (String × Header) := []
  style : Option String := none
  explode : Bool := false
  allowReserved : Bool := false
  extensions : Extensions := []
end

structure Parameter where
  ref : Option String := none
  name : Option String := none
  place : Option String := none
  description : Option String := none
  required : Bool := false
  deprecated : Bool := false
  allowEmptyValue : Bool := false
  style : Option String := none
  explode : Bool := false
  allowReserved : Bool := false
  schema : Option Schema := none
  sample : Value := .null
  examples : List (String × Example) := []
  content : List (String × MediaType) := []
  extensions : Extensions := []

structure RequestBody where
  ref : Option String := none
  description : Option String := none
  required : Bool := false
  content : List (String × MediaType) := []
  extensions : Extensions := []

/-- A link from a response to another operation. -/
structure Link where
  ref : Option String := none
  operationRef : Option String := none
  operationId : Option String := none
  parameters : List (String × Value) := []
  requestBody : Value := .null
  description : Option String := none
  server : Option Server := none
  extensions : Extensions := []

structure Response where
  ref : Option String := none
  description : String := ""
  content : List (String × MediaType) := []
  headers : List (String × Header) := []
  links : List (String × Link) := []
  extensions : Extensions := []

/-- The methods of a path, in the order they are written. -/
inductive Method
  | get
  | put
  | post
  | delete
  | options
  | head
  | patch
  | trace
  deriving DecidableEq, Repr

def Method.all : List Method := [.get, .put, .post, .delete, .options, .head, .patch, .trace]

def Method.name : Method → String
  | .get => "get"
  | .put => "put"
  | .post => "post"
  | .delete => "delete"
  | .options => "options"
  | .head => "head"
  | .patch => "patch"
  | .trace => "trace"

mutual
structure Operation where
  tags : List String := []
  summary : Option String := none
  description : Option String := none
  externalDocs : Option ExternalDocs := none
  operationId : Option String := none
  parameters : List Parameter := []
  requestBody : Option RequestBody := none
  responses : List (String × Response) := []
  callbacks : List (String × Callback) := []
  deprecated : Bool := false
  security : List SecurityRequirement := []
  servers : List Server := []
  extensions : Extensions := []

/-- What is offered under one path: at most one operation for each method, in the order of
`Method.all`. -/
structure PathItem where
  ref : Option String := none
  summary : Option String := none
  description : Option String := none
  operations : List (Method × Operation) := []
  parameters : List Parameter := []
  extensions : Extensions := []

/-- The paths that are called back, by the expressions that compute them. -/
structure Callback where
  ref : Option String := none
  pathItems : List (String × PathItem) := []
  extensions : Extensions := []
end

/-! ## Security -/

structure OAuthFlow where
  authorizationUrl : Option String := none
  tokenUrl : Option String := none
  refreshUrl : Option String := none
  scopes : List (String × String) := []
  extensions : Extensions := []

structure OAuthFlows where
  implicit : Option OAuthFlow := none
  password : Option OAuthFlow := none
  clientCredentials : Option OAuthFlow := none
  authorizationCode : Option OAuthFlow := none
  extensions : Extensions := []

structure SecurityScheme where
  ref : Option String := none
  type : Option String := none
  description : Option String := none
  name : Option String := none
  place : Option String := none
  scheme : Option String := none
  bearerFormat : Option String := none
  flows : Option OAuthFlows := none
  openIdConnectUrl : Option String := none
  extensions : Extensions := []

/-! ## The whole -/

/-- Nodes that other parts of the description refer to by name. -/
structure Components where
  schemas : List (String × Schema) := []
  responses : List (String × Response) := []
  parameters : List (String × Parameter) := []
  examples : List (String × Example) := []
  requestBodies : List (String × RequestBody) := []
  headers : List (String × Header) := []
  securitySchemes : List (String × SecurityScheme) := []
  links : List (String × Link) := []
  callbacks : List (String × Callback) := []
  pathItems : List (String × PathItem) := []
  extensions : Extensions := []

/-- A complete description of an interface. -/
structure Api where
  info : Info
  servers : List Server := []
  paths : List (String × PathItem) := []
  components : Option Components := none
  webhooks : List (String × PathItem) := []
  tags : List Tag := []
  security : List SecurityRequirement := []
  externalDocs : Option ExternalDocs := none
  extensions : Extensions := []

end ApiProjection
