import ApiProjection.Api.Basic
import ApiProjection.Json.Basic
import ApiProjection.Projection.Document
/-!
# Sketches of operations

A `Sketch` is what a document says about the operations of an interface and nothing else: the paths and their
methods, the parameters, bodies and responses by their names, and the texts that name or describe them.

* `Json.draw` takes a sketch from a JSON value. It knows which members of which objects belong to a sketch
  (`Element.slot`) and keeps them in their order.
* `Api.sketch` and its like draw a description itself, with nothing said about documents.
-/
namespace ApiProjection

inductive Sketch
  | text (s : String)
  | ref (target : String)
  | items (parts : List Sketch)
  | parts (parts : List (String × Sketch))

/-! ## From documents -/

/-- The objects that a sketch is made of. -/
inductive Element
  | document
  | components
  | pathItem
  | operation
  | parameter
  | requestBody
  | mediaType
  | encoding
  | header
  | response
  | link
  | callback
  | sample
  | scheme
  | schema
  deriving DecidableEq

/-- What a member of an object holds: a text, an object, a list of objects or objects by their names. -/
inductive Slot
  | text
  | one (e : Element)
  | each (e : Element)
  | named (e : Element)

namespace Element

/-- The members that belong to a sketch. -/
def members : Element → List (String × Slot)
  | .document => [("paths", .named .pathItem), ("webhooks", .named .pathItem), ("components", .one .components)]
  | .components => [("schemas", .named .schema), ("responses", .named .response), ("parameters", .named .parameter),
    ("examples", .named .sample), ("requestBodies", .named .requestBody), ("headers", .named .header),
    ("securitySchemes", .named .scheme), ("links", .named .link), ("callbacks", .named .callback),
    ("pathItems", .named .pathItem)]
  | .pathItem => ("description", .text) :: ("parameters", .each .parameter) ::
    Method.all.map fun m => (m.name, .one .operation)
  | .operation => [("description", .text), ("operationId", .text), ("parameters", .each .parameter),
    ("requestBody", .one .requestBody), ("responses", .named .response), ("callbacks", .named .callback)]
  | .parameter => [("name", .text), ("in", .text), ("description", .text), ("examples", .named .sample),
    ("content", .named .mediaType)]
  | .requestBody => [("description", .text), ("content", .named .mediaType)]
  | .mediaType => [("examples", .named .sample), ("encoding", .named .encoding)]
  | .encoding => [("headers", .named .header)]
  | .header => [("description", .text), ("examples", .named .sample), ("content", .named .mediaType)]
  | .response => [("description", .text), ("headers", .named .header), ("content", .named .mediaType),
    ("links", .named .link)]
  | .link => [("operationId", .text), ("description", .text)]
  | .sample => [("description", .text)]
  | .scheme => [("description", .text), ("name", .text), ("in", .text)]
  | .schema | .callback => []

/-- What the member with a key holds. Those of a callback are its paths, by any key but that of an extension. -/
def slot : Element → String → Option Slot
  | .callback, k => if "x-".isPrefixOf k then none else some (.one .pathItem)
  | e, k => e.members.lookup k

end Element

namespace Json

/-- What an object refers to, if it does. -/
def target? (ms : List (String × Json)) : Option String :=
  match ms.lookup "$ref" with
  | some (.text target) => some target
  | _ => none

mutual
/-- The sketch of a value in a slot. -/
def draw : Slot → Json → Sketch
  | .text, .text s => .text s
  | .one e, .object ms => match target? ms with
    | some target => .ref target
    | none => .parts (drawMembers e ms)
  | .each e, .list js => .items (drawItems e js)
  | .named e, .object ms => .parts (drawNamed e ms)
  | _, _ => .parts []

def drawMembers (e : Element) : List (String × Json) → List (String × Sketch)
  | [] => []
  | (k, j) :: ms => match e.slot k with
    | some r => (k, j.draw r) :: drawMembers e ms
    | none => drawMembers e ms

def drawItems (e : Element) : List Json → List Sketch
  | [] => []
  | j :: js => j.draw (.one e) :: drawItems e js

def drawNamed (e : Element) : List (String × Json) → List (String × Sketch)
  | [] => []
  | (k, j) :: ms => (k, j.draw (.one e)) :: drawNamed e ms
end

end Json

/-! ## From descriptions -/

namespace Sketch

/-- The parts of one field: one, or none if it is not written. -/
abbrev Field := List (String × Sketch)

/-- A node that may stand for another one by reference. -/
def node (ref : Option String) (fields : List Field) : Sketch :=
  match nonEmpty ref with
  | some target => .ref target
  | none => .parts fields.flatten

/-- A text that is left out if it is empty. -/
def text? (name : String) (o : Option String) : Field := (nonEmpty o).toList.map fun s => (name, .text s)

def node? (name : String) (o : Option Sketch) : Field := o.toList.map fun s => (name, s)

/-- Items that are left out if there are none. -/
def nodes (name : String) (ss : List Sketch) : Field := if ss.isEmpty then [] else [(name, .items ss)]

/-- Named parts that are left out if there are none. -/
def named (name : String) (ss : List (String × Sketch)) : Field := if ss.isEmpty then [] else [(name, .parts ss)]

end Sketch

open Sketch (node text? node? nodes named)

def Example.sketch (e : Example) : Sketch := node e.ref [text? "description" e.description]

/-- Named examples. -/
def Example.sketches (es : List (String × Example)) : List (String × Sketch) := es.map fun e => (e.1, e.2.sketch)

mutual
def Header.sketch : Header → Sketch
  | ⟨ref, description, _, _, _, _, _, _, _, examples, content, _⟩ =>
    node ref [text? "description" description, named "examples" (Example.sketches examples),
      named "content" (MediaType.sketches content)]

def MediaType.sketch : MediaType → Sketch
  | ⟨_, _, examples, encoding, _⟩ =>
    .parts [named "examples" (Example.sketches examples), named "encoding" (Encoding.sketches encoding)].flatten

def Encoding.sketch : Encoding → Sketch
  | ⟨_, headers, _, _, _, _⟩ => .parts [named "headers" (Header.sketches headers)].flatten

def Header.sketches : List (String × Header) → List (String × Sketch)
  | [] => []
  | (k, h) :: hs => (k, h.sketch) :: Header.sketches hs

def MediaType.sketches : List (String × MediaType) → List (String × Sketch)
  | [] => []
  | (k, m) :: ms => (k, m.sketch) :: MediaType.sketches ms

def Encoding.sketches : List (String × Encoding) → List (String × Sketch)
  | [] => []
  | (k, e) :: es => (k, e.sketch) :: Encoding.sketches es
end

def Parameter.sketch (x : Parameter) : Sketch :=
  node x.ref [text? "name" x.name, text? "in" x.place, text? "description" x.description,
    named "examples" (Example.sketches x.examples), named "content" (MediaType.sketches x.content)]

/-- A body has its media types, even if there are none. -/
def RequestBody.sketch (b : RequestBody) : Sketch :=
  node b.ref [text? "description" b.description, [("content", .parts (MediaType.sketches b.content))]]

def Link.sketch (l : Link) : Sketch :=
  node l.ref [text? "operationId" l.operationId, text? "description" l.description]

/-- The description of a response is not optional. -/
def Response.sketch (r : Response) : Sketch :=
  node r.ref [[("description", .text r.description)], named "headers" (Header.sketches r.headers),
    named "content" (MediaType.sketches r.content), named "links" (r.links.map fun l => (l.1, l.2.sketch))]

mutual
/-- An operation has its responses, even if there are none. -/
def Operation.sketch : Operation → Sketch
  | ⟨_, _, description, _, operationId, parameters, requestBody, responses, callbacks, _, _, _, _⟩ =>
    .parts [text? "description" description, text? "operationId" operationId,
      nodes "parameters" (parameters.map Parameter.sketch), node? "requestBody" (requestBody.map RequestBody.sketch),
      [("responses", .parts (responses.map fun r => (r.1, r.2.sketch)))],
      named "callbacks" (Callback.sketches callbacks)].flatten

/-- A path item has the methods that are set, in the order of all methods. -/
def PathItem.sketch : PathItem → Sketch
  | ⟨ref, _, description, operations, parameters, _⟩ =>
    node ref [text? "description" description,
      Method.all.filterMap fun m => ((Operation.sketches operations).lookup m).map fun s => (m.name, s),
      nodes "parameters" (parameters.map Parameter.sketch)]

def Callback.sketch : Callback → Sketch
  | ⟨ref, pathItems, _⟩ => node ref [PathItem.sketches pathItems]

def Operation.sketches : List (Method × Operation) → List (Method × Sketch)
  | [] => []
  | (m, o) :: os => (m, o.sketch) :: Operation.sketches os

def PathItem.sketches : List (String × PathItem) → List (String × Sketch)
  | [] => []
  | (k, i) :: is => (k, i.sketch) :: PathItem.sketches is

def Callback.sketches : List (String × Callback) → List (String × Sketch)
  | [] => []
  | (k, c) :: cs => (k, c.sketch) :: Callback.sketches cs
end

def SecurityScheme.sketch (s : SecurityScheme) : Sketch :=
  node s.ref [text? "description" s.description, text? "name" s.name, text? "in" s.place]

/-- Of a schema it is said only whether it is a reference. -/
def Schema.sketch (s : Schema) : Sketch := node s.ref []

/-- The reusable parts. The older version has no reusable paths and no schemes of type `mutualTLS`. -/
def Components.sketch (t : Target) (c : Components) : Sketch :=
  .parts [named "schemas" (c.schemas.map fun s => (s.1, s.2.sketch)),
    named "responses" (c.responses.map fun r => (r.1, r.2.sketch)),
    named "parameters" (c.parameters.map fun x => (x.1, x.2.sketch)),
    named "examples" (Example.sketches c.examples),
    named "requestBodies" (c.requestBodies.map fun b => (b.1, b.2.sketch)),
    named "headers" (Header.sketches c.headers),
    named "securitySchemes" ((c.securitySchemes.filter fun s =>
      t = .v31 || s.2.type != some "mutualTLS").map fun s => (s.1, s.2.sketch)),
    named "links" (c.links.map fun l => (l.1, l.2.sketch)),
    named "callbacks" (Callback.sketches c.callbacks),
    named "pathItems" (if t = .v31 then PathItem.sketches c.pathItems else [])].flatten

/-- The whole. The older version has paths, even if there are none, and no webhooks. -/
def Api.sketch (t : Target) (a : Api) : Sketch :=
  let components := node? "components" (a.components.map fun c => c.sketch t)
  match t with
  | .v30 => .parts [[("paths", .parts (PathItem.sketches a.paths))], components].flatten
  | .v31 => .parts [named "paths" (PathItem.sketches a.paths), named "webhooks" (PathItem.sketches a.webhooks),
    components].flatten

end ApiProjection
