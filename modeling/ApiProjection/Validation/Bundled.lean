import ApiProjection.Api.Schema
import ApiProjection.Target
import ApiProjection.Validation.Rule
/-!
# The bundled meta-schemas

A meta-schema for each version that fixes the outline of a document: the fields it must have at the
top, the shape of `info`, of its license and of the servers, and which keys are extensions. The
operations and the schemas in a document are left alone.
-/
namespace ApiProjection.MetaSchema

/-- An object of a meta-schema. -/
def object (members : List (String × Value)) : Value :=
  .map (members.map fun (k, v) => (.text k, v))

def texts (xs : List String) : Value := .list (xs.map .text)

def required (names : List String) : String × Value := ("required", texts names)

/-- Anything of one type. -/
def ofType (k : Kind) : Value := object [("type", .text k.name)]

/-- A list of which each item keeps a rule. -/
def listOf (items : Value) : Value :=
  object [("type", .text Kind.array.name), ("items", items)]

/-- The rule by which the names of extensions are told. -/
def extensionRule : String × Value := ("^x-", object [])

def closedMembers (properties : List (String × Value)) (names : List String) : List (String × Value) :=
  [("type", .text Kind.object.name), required names, ("properties", object properties),
    ("patternProperties", object [extensionRule]), ("additionalProperties", .bool false)]

/-- An object with the given properties and extensions, and with nothing else. -/
def closed (properties : List (String × Value)) (names : List String) : Value :=
  object (closedMembers properties names)

def string : Value := ofType .string

def contact : Value := closed [("name", string), ("url", string), ("email", string)] []

def serverVariable : Value :=
  closed [
    ("enum", object [("type", .text Kind.array.name), ("items", string), ("minItems", .int 1)]),
    ("default", string),
    ("description", string)] ["default"]

def server : Value :=
  closed [
    ("url", string),
    ("description", string),
    ("variables", object [("type", .text Kind.object.name), ("additionalProperties", serverVariable)])]
    ["url"]

def externalDocs : Value := closed [("description", string), ("url", string)] ["url"]

def tag : Value :=
  closed [("name", string), ("description", string), ("externalDocs", externalDocs)] ["name"]

/-- Paths begin with a slash. -/
def paths : Value :=
  object [("type", .text Kind.object.name),
    ("patternProperties", object [("^/", ofType .object), extensionRule]),
    ("additionalProperties", .bool false)]

/-- The members of a whole document's rule, given what differs between the versions. -/
def rootMembers (version : String) (info : Value) (extra : List (String × Value)) (names : List String) :
    List (String × Value) :=
  closedMembers ([
    ("openapi", object [("type", .text Kind.string.name), ("pattern", .text version)]),
    ("info", info),
    ("servers", listOf server),
    ("paths", paths),
    ("components", ofType .object),
    ("security", listOf (ofType .object)),
    ("tags", listOf tag),
    ("externalDocs", externalDocs)] ++ extra) names ++
  [("$schema", .text Dialect.draft2020.uri)]

def license30 : Value := closed [("name", string), ("url", string)] ["name"]

/-- A license has an identifier or an address, not both. -/
def license31 : Value :=
  object (closedMembers [("name", string), ("identifier", string), ("url", string)] ["name"] ++
    [("not", object [required ["identifier", "url"]])])

def info30 : Value :=
  closed [("title", string), ("description", string), ("termsOfService", string),
    ("contact", contact), ("license", license30), ("version", string)] ["title", "version"]

def info31 : Value :=
  closed [("title", string), ("summary", string), ("description", string),
    ("termsOfService", string), ("contact", contact), ("license", license31),
    ("version", string)] ["title", "version"]

/-- The outline of a document of a version. -/
def bundled : Target → Value
  | .v30 => object (rootMembers "^3\\.0\\.\\d+(-.+)?$" info30 [] ["openapi", "info", "paths"])
  | .v31 => object (rootMembers "^3\\.1\\.\\d+(-.+)?$" info31
      [("jsonSchemaDialect", string), ("webhooks", ofType .object)] ["openapi", "info"] ++
      [("anyOf", .list (["paths", "components", "webhooks"].map fun n => object [required [n]]))])

end ApiProjection.MetaSchema
