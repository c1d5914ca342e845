import ApiProjection.Text.Utf8
import ApiProjection.Yaml.Token.Scalar
/-!
# Names, tags and directives in YAML text

A node may have a name to refer to it and a tag that says its kind; a directive fixes the version
or a shorthand for tags.
-/
namespace ApiProjection.Yaml

open Cursor

/-- A character of a name. -/
def isNameChar (c : Char) : Bool :=
  Json.isDigit c || ('A' ≤ c && c ≤ 'Z') || ('a' ≤ c && c ≤ 'z') || c == '-' || c == '_'

/-- A character of a tag. -/
def isTagChar (c : Char) : Bool := isNameChar c || ";/?:@&=+$,.!~*'()[]%".toList.contains c

/-- A blank, a break or the end: what a tag ends at. -/
def isTagEnd (c : Char) : Bool := c == ' ' || isLineStop c

/-- The name after an indicator, for an anchor or a reference to one. -/
def anchorName (c : Cursor) : Except Fault (String × Cursor) :=
  let (name, after) := c.next.span isNameChar
  if name.isEmpty || !(isGap after.peek || "?:,]\x7d%@\x60".toList.contains after.peek) then
    .error (.malformed .anchorName)
  else .ok (String.ofList name, after)

/-! ## Tags -/

/-- The bytes of escapes by number, as many as stand here in a row. -/
def escapedBytes : Nat → Cursor → Except Fault (List UInt8 × Cursor)
  | 0, c => .ok ([], c)
  | fuel + 1, c =>
    if c.peek != '%' then .ok ([], c)
    else match Json.hexValue? (c.peekAt 1), Json.hexValue? (c.peekAt 2) with
      | some m, some n => do
        let (bs, c) ← escapedBytes fuel (c.skip 3)
        return (UInt8.ofNat (16 * m + n) :: bs, c)
      | _, _ => .error (.malformed .tag)

/-- The characters of a tag. -/
def tagChars : Nat → Cursor → Except Fault (List Char × Cursor)
  | 0, c => .ok ([], c)
  | fuel + 1, c =>
    let (run, c) := c.span fun ch => isTagChar ch && ch != '%'
    if c.peek != '%' then .ok (run, c)
    else do
      let (bytes, c) ← escapedBytes (c.rest.length + 1) c
      match Utf8.decode bytes with
      | .error _ => .error (.malformed .tag)
      | .ok s =>
        let (more, c) ← tagChars fuel c
        return (run ++ s.toList ++ more, c)

/-- The end of a tag after its handle. -/
def tagSuffix (c : Cursor) : Except Fault (String × Cursor) := do
  if !isTagChar c.peek then throw (.malformed .tag)
  let (cs, c) ← tagChars (c.rest.length + 1) c
  return (String.ofList cs, c)

/-- A handle: one exclamation mark, or two with a name or nothing between them. -/
def tagHandle (c : Cursor) : Except Fault (String × Cursor) :=
  if c.peek != '!' then .error (.malformed .tag)
  else
    let (name, after) := c.next.span isNameChar
    if after.peek == '!' then .ok ("!" ++ String.ofList name ++ "!", after.next)
    else if name.isEmpty && after.peek == ' ' then .ok ("!", after)
    else .error (.malformed .tag)

/-- Whether the tag here has a handle of its own. -/
def hasHandle (c : Cursor) : Bool := (c.next.rest.takeWhile fun ch => !isTagEnd ch).contains '!'

/-- The tag here. -/
def tagToken (c : Cursor) : Except Fault (Token × Cursor) := do
  let (token, after) ←
    if c.peekAt 1 == '<' then do
      let (suffix, after) ← tagSuffix (c.skip 2)
      if after.peek != '>' then throw (.malformed .tag)
      pure (Token.tag none suffix, after.next)
    else if isGap (c.peekAt 1) then pure (Token.tag none "!", c.next)
    else do
      let (handle, after) ← if hasHandle c then tagHandle c else pure ("!", c.next)
      let (suffix, after) ← tagSuffix after
      pure (Token.tag (some handle) suffix, after)
  if isTagEnd after.peek then return (token, after) else throw (.malformed .tag)

/-! ## Directives -/

/-- The digits of a number of a version. -/
def versionPart (c : Cursor) : Except Fault (Nat × Cursor) :=
  let (digits, after) := c.span Json.isDigit
  if digits.isEmpty then .error (.malformed .directive) else .ok (Json.digitsValue digits, after)

/-- The directive here and the place after what it says. -/
def directiveBody (c : Cursor) : Except Fault (Directive × Cursor) := do
  let (name, c) := c.next.span isNameChar
  if name.isEmpty || !isTagEnd c.peek then throw (.malformed .directive)
  match String.ofList name with
  | "YAML" =>
    let (major, c) ← versionPart c.skipSpaces
    if c.peek != '.' then throw (.malformed .directive)
    let (_, c) ← versionPart c.next
    if !isTagEnd c.peek then throw (.malformed .directive)
    return (.version major, c)
  | "TAG" =>
    let (handle, c) ← tagHandle c.skipSpaces
    if c.peek != ' ' then throw (.malformed .directive)
    let (shorthand, c) ← tagSuffix c.skipSpaces
    if !isTagEnd c.peek then throw (.malformed .directive)
    return (.tag handle shorthand, c)
  | name => return (.other name, c.skipWhile fun ch => !isLineStop ch)

/-- The directive here, which has a line to itself. -/
def directiveToken (c : Cursor) : Except Fault (Token × Cursor) := do
  let (d, c) ← directiveBody c
  return (.directive d, ← emptyLine .directive c)

end ApiProjection.Yaml
