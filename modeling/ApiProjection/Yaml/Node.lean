import ApiProjection.Yaml.Plain
import ApiProjection.Yaml.Token
/-!
# Nodes of YAML text

A `Node` is a scalar, a sequence or a mapping with the tag that says what it stands for. A scalar
without a tag has the one that its form implies; an alias is a copy of the node it names.
`Node.ofTokens` builds the node of a document and refuses a second document after it.
-/
namespace ApiProjection.Yaml

/-- What a node stands for. -/
inductive Tag
  | null
  | bool
  | int
  | float
  | binary
  | timestamp
  | omap
  | pairs
  | set
  | str
  | seq
  | map
  | merge
  | value
  | other (name : String)
  deriving DecidableEq, Repr

namespace Tag

/-- What the names of all tags but the other ones begin with. -/
def namespaceName : String := "tag:yaml.org,2002:"

/-- The tags of that namespace, by the rest of their names. -/
def named : List (String × Tag) :=
  [("null", .null), ("bool", .bool), ("int", .int), ("float", .float), ("binary", .binary),
    ("timestamp", .timestamp), ("omap", .omap), ("pairs", .pairs), ("set", .set), ("str", .str),
    ("seq", .seq), ("map", .map), ("merge", .merge), ("value", .value)]

def ofName (s : String) : Tag :=
  match named.find? fun (name, _) => namespaceName ++ name = s with
  | some (_, t) => t
  | none => .other s

def name (t : Tag) : String :=
  match t, named.find? fun (_, u) => u = t with
  | .other s, _ => s
  | _, some (name, _) => namespaceName ++ name
  | _, none => namespaceName

/-- The tag that the form of a plain scalar implies. -/
def ofPlain : Plain → Tag
  | .null => .null
  | .bool => .bool
  | .int => .int
  | .float => .float
  | .timestamp => .timestamp
  | .merge => .merge
  | .default => .value
  | .text => .str

end Tag

inductive Node
  | scalar (tag : Tag) (text : String)
  | sequence (tag : Tag) (items : List Node)
  | mapping (tag : Tag) (entries : List (Node × Node))

namespace Node

/-- The node that stands where nothing is written. -/
def empty : Node := .scalar .null ""

/-! ## Tokens and names -/

/-- The tokens still to be read, the nodes with names so far, of which those that are still being
read are not known yet, and what the handles of tags stand for. -/
structure Source where
  tokens : List Token
  anchors : List (String × Option Node) := []
  handles : List (String × String)

/-- The handles that every document has. -/
def standardHandles : List (String × String) := [("!", "!"), ("!!", Tag.namespaceName)]

/-- The fault at the next token, which is not what is wanted there. -/
def Source.fault (s : Source) (p : Problem) : Fault :=
  match s.tokens with
  | .broken f :: _ => f
  | _ => .malformed p

def Source.advance (s : Source) : Source := { s with tokens := s.tokens.drop 1 }

/-- Gives a name to a node. -/
def Source.bind (s : Source) (name : Option String) (n : Option Node) : Source :=
  match name with
  | some a => { s with anchors := (a, n) :: s.anchors }
  | none => s

/-- What stands before a node. -/
structure Properties where
  anchor : Option String := none
  /-- The handle, if there is one, and the rest of the tag. -/
  tag : Option (Option String × String) := none

def Properties.isNone (p : Properties) : Bool := p.anchor.isNone && p.tag.isNone

/-- The name and the tag here, in either order. -/
def properties (s : Source) : Properties × Source :=
  match s.tokens with
  | .anchor a :: .tag h t :: ts => (⟨some a, some (h, t)⟩, { s with tokens := ts })
  | .anchor a :: ts => (⟨some a, none⟩, { s with tokens := ts })
  | .tag h t :: .anchor a :: ts => (⟨some a, some (h, t)⟩, { s with tokens := ts })
  | .tag h t :: ts => (⟨none, some (h, t)⟩, { s with tokens := ts })
  | _ => ({}, s)

/-- The full name of a tag, if there is one other than the mark that the form is to decide. -/
def tagName? (s : Source) (p : Properties) : Except Fault (Option String) :=
  let given (name : String) := if name = "!" then none else some name
  match p.tag with
  | none => .ok none
  | some (none, suffix) => .ok (given suffix)
  | some (some h, suffix) =>
    match s.handles.lookup h with
    | some start => .ok (given (start ++ suffix))
    | none => .error (.malformed (.tagHandle h))

/-- The tag of a scalar; without one, plain text and text with the bare mark say what they are. -/
def scalarTag (p : Properties) (name : Option String) (plain : Bool) (text : String) : Tag :=
  match name with
  | some n => .ofName n
  | none => if plain || p.tag.isSome then .ofPlain (.ofText text) else .str

/-- Refuses a name that is taken. -/
def Source.checkName (s : Source) (p : Properties) : Except Fault Unit :=
  match p.anchor with
  | some a => if (s.anchors.lookup a).isSome then .error (.malformed (.repeatedAnchor a)) else .ok ()
  | none => .ok ()

/-! ## Building nodes -/

/-- Where a node stands: in brackets, in a block, or after a key in a block, where a sequence need
not be indented. -/
inductive Position
  | flow
  | block
  | afterKey
  deriving DecidableEq, Repr

/-- Whether nothing is written where a node could be. -/
def endsIndentless (s : Source) : Bool :=
  match s.tokens with
  | .entry :: _ | .key :: _ | .value :: _ | .blockEnd :: _ => true
  | _ => false

def endsEntry (s : Source) : Bool :=
  match s.tokens with
  | .entry :: _ | .blockEnd :: _ => true
  | _ => false

def endsMember (s : Source) : Bool :=
  match s.tokens with
  | .key :: _ | .value :: _ | .blockEnd :: _ => true
  | _ => false

def endsFlowItem (s : Source) : Bool :=
  match s.tokens with
  | .comma :: _ | .flowSequenceEnd :: _ => true
  | _ => false

def endsFlowMember (s : Source) : Bool :=
  match s.tokens with
  | .comma :: _ | .flowMappingEnd :: _ => true
  | _ => false

def beginsWithValue (s : Source) : Bool :=
  match s.tokens with
  | .value :: _ => true
  | _ => false

mutual
/-- The node here. -/
def read (position : Position) : Nat → Source → Except Fault (Node × Source)
  | 0, s => .error (s.fault .node)
  | fuel + 1, s =>
    match s.tokens with
    | .alias a :: ts =>
      match s.anchors.lookup a with
      | some (some n) => .ok (n, { s with tokens := ts })
      | some none => .error (.malformed (.recursion a))
      | none => .error (.malformed (.unknownAlias a))
    | _ => do
      let (p, s) := properties s
      let name ← tagName? s p
      s.checkName p
      let collection (tag : Tag) := match name with
        | some n => Tag.ofName n
        | none => tag
      let finish (n : Node) (s : Source) : Except Fault (Node × Source) := .ok (n, s.bind p.anchor (some n))
      let inside := s.advance.bind p.anchor none
      match s.tokens, position with
      | .scalar plain text :: _, _ => finish (.scalar (scalarTag p name plain text) text) s.advance
      | .flowSequence :: _, _ =>
        let (items, s) ← readFlowSequence true fuel inside
        finish (.sequence (collection .seq) items) s
      | .flowMapping :: _, _ =>
        let (entries, s) ← readFlowMapping true fuel inside
        finish (.mapping (collection .map) entries) s
      | .blockSequence :: _, .block | .blockSequence :: _, .afterKey =>
        let (items, s) ← readSequence fuel inside
        finish (.sequence (collection .seq) items) s
      | .blockMapping :: _, .block | .blockMapping :: _, .afterKey =>
        let (entries, s) ← readMapping fuel inside
        finish (.mapping (collection .map) entries) s
      | .entry :: _, .afterKey =>
        let (items, s) ← readIndentless fuel (s.bind p.anchor none)
        finish (.sequence (collection .seq) items) s
      | _, _ =>
        if p.isNone then throw (s.fault .node)
        finish (.scalar (scalarTag p name true "") "") s

/-- The items of a sequence in a block, up to its end. -/
def readSequence : Nat → Source → Except Fault (List Node × Source)
  | 0, s => .error (s.fault .blockEnd)
  | fuel + 1, s =>
    match s.tokens with
    | .entry :: ts => do
      let s := { s with tokens := ts }
      let (x, s) ← if endsEntry s then .ok (empty, s) else read .block fuel s
      let (xs, s) ← readSequence fuel s
      return (x :: xs, s)
    | .blockEnd :: ts => .ok ([], { s with tokens := ts })
    | _ => .error (s.fault .blockEnd)

/-- The items of a sequence that is not indented. -/
def readIndentless : Nat → Source → Except Fault (List Node × Source)
  | 0, s => .error (s.fault .blockEnd)
  | fuel + 1, s =>
    match s.tokens with
    | .entry :: ts => do
      let s := { s with tokens := ts }
      let (x, s) ← if endsIndentless s then .ok (empty, s) else read .block fuel s
      let (xs, s) ← readIndentless fuel s
      return (x :: xs, s)
    | _ => .ok ([], s)

/-- The entries of a mapping in a block, up to its end. -/
def readMapping : Nat → Source → Except Fault (List (Node × Node) × Source)
  | 0, s => .error (s.fault .blockEnd)
  | fuel + 1, s =>
    match s.tokens with
    | .key :: ts => do
      let s := { s with tokens := ts }
      let (k, s) ← if endsMember s then .ok (empty, s) else read .afterKey fuel s
      let (v, s) ← readMember fuel s
      let (es, s) ← readMapping fuel s
      return ((k, v) :: es, s)
    | .blockEnd :: ts => .ok ([], { s with tokens := ts })
    | _ => .error (s.fault .blockEnd)

/-- The value after a key in a block. -/
def readMember : Nat → Source → Except Fault (Node × Source)
  | 0, s => .error (s.fault .node)
  | fuel + 1, s =>
    match s.tokens with
    | .value :: ts =>
      let s := { s with tokens := ts }
      if endsMember s then .ok (empty, s) else read .afterKey fuel s
    | _ => .ok (empty, s)

/-- The items of a sequence in brackets, up to its end. -/
def readFlowSequence (first : Bool) : Nat → Source → Except Fault (List Node × Source)
  | 0, s => .error (s.fault .separator)
  | fuel + 1, s => do
    let s ← match s.tokens with
      | .flowSequenceEnd :: _ => .ok s
      | .comma :: ts => if first then .ok s else .ok { s with tokens := ts }
      | _ => if first then .ok s else .error (s.fault .separator)
    match s.tokens with
    | .flowSequenceEnd :: ts => return ([], { s with tokens := ts })
    | .key :: ts =>
      let s := { s with tokens := ts }
      let (k, s) ← if endsFlowItem s || beginsWithValue s then .ok (empty, s) else read .flow fuel s
      let (v, s) ← match s.tokens with
        | .value :: ts =>
          let s := { s with tokens := ts }
          if endsFlowItem s then .ok (empty, s) else read .flow fuel s
        | _ => .ok (empty, s)
      let (xs, s) ← readFlowSequence false fuel s
      return (.mapping .map [(k, v)] :: xs, s)
    | _ =>
      let (x, s) ← read .flow fuel s
      let (xs, s) ← readFlowSequence false fuel s
      return (x :: xs, s)

/-- The entries of a mapping in brackets, up to its end. -/
def readFlowMapping (first : Bool) : Nat → Source → Except Fault (List (Node × Node) × Source)
  | 0, s => .error (s.fault .separator)
  | fuel + 1, s => do
    let s ← match s.tokens with
      | .flowMappingEnd :: _ => .ok s
      | .comma :: ts => if first then .ok s else .ok { s with tokens := ts }
      | _ => if first then .ok s else .error (s.fault .separator)
    match s.tokens with
    | .flowMappingEnd :: ts => return ([], { s with tokens := ts })
    | .key :: ts =>
      let s := { s with tokens := ts }
      let (k, s) ← if endsFlowMember s || beginsWithValue s then .ok (empty, s) else read .flow fuel s
      let (v, s) ← match s.tokens with
        | .value :: ts =>
          let s := { s with tokens := ts }
          if endsFlowMember s then .ok (empty, s) else read .flow fuel s
        | _ => .ok (empty, s)
      let (es, s) ← readFlowMapping false fuel s
      return ((k, v) :: es, s)
    | _ =>
      let (k, s) ← read .flow fuel s
      let (es, s) ← readFlowMapping false fuel s
      return ((k, empty) :: es, s)
end

/-! ## Documents -/

/-- The directives here: whether there is one of the version, and the handles they define. -/
def directives (version : Bool) (handles : List (String × String)) :
    List Token → Except Fault (List (String × String) × List Token)
  | .directive (.version major) :: ts =>
    if version then .error (.malformed .repeatedDirective)
    else if major ≠ 1 then .error (.malformed .version)
    else directives true handles ts
  | .directive (.tag h shorthand) :: ts =>
    if (handles.lookup h).isSome then .error (.malformed .repeatedDirective)
    else directives version ((h, shorthand) :: handles) ts
  | .directive (.other _) :: ts => directives version handles ts
  | ts => .ok (handles ++ standardHandles, ts)

/-- Whether no node follows. -/
def endsDocument : List Token → Bool
  | [] | .directive _ :: _ | .documentStart :: _ | .documentEnd :: _ => true
  | _ => false

/-- The node of the document here and the tokens after the end of the document. Each nested call
has taken a token or is one of two for the same token. -/
def document (s : Source) : Except Fault (Node × List Token) := do
  let (n, s) ← read .block (2 * s.tokens.length + 2) s
  match s.tokens with
  | .documentEnd :: ts => return (n, ts)
  | ts => return (n, ts)

/-- The tokens after what ends documents. -/
def skipEnds (ts : List Token) : List Token := ts.dropWhile fun t => t == .documentEnd

/-- Whether the first document of a text begins without a mark. -/
def beginsBare : List Token → Bool
  | [] | .directive _ :: _ | .documentStart :: _ => false
  | _ => true

/-- Reads a document that begins with its mark. -/
def markedDocument (ts : List Token) : Except Fault (Node × List Token) := do
  let (handles, ts) ← directives false [] ts
  match ts with
  | .documentStart :: ts =>
    if endsDocument ts then return (empty, match ts with | .documentEnd :: ts => ts | ts => ts)
    else document { tokens := ts, handles }
  | ts => throw (Source.fault ⟨ts, [], []⟩ .documentStart)

/-- The node of the only document of a text, if there is one. -/
def ofTokens (ts : List Token) : Except Fault (Option Node) := do
  if beginsBare ts then
    finish (← document { tokens := ts, handles := standardHandles })
  else match skipEnds ts with
    | [] => return none
    | ts => finish (← markedDocument ts)
where
  finish (x : Node × List Token) : Except Fault (Option Node) :=
    match skipEnds x.2 with
    | [] => .ok (some x.1)
    | ts => .error (Source.fault ⟨ts, [], []⟩ .secondDocument)

end Node
end ApiProjection.Yaml
