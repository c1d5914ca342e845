import ApiProjection.Text.Blank
/-!
# Marked-up messages

A message may mark parts of itself with tags in square brackets, such as `[bold]` and `[/bold]`.
`Markup.plain` is what is left of it where styles cannot be shown. A backslash before a bracket
keeps it from beginning a tag.
-/
namespace ApiProjection.Markup

/-- A character that a tag may begin with. -/
def beginsTag (c : Char) : Bool := ('a' ≤ c && c ≤ 'z') || c == '#' || c == '/' || c == '@'

/-- The inside of a tag and what follows it, from behind its opening bracket on. -/
def tag? (cs : List Char) : Option (List Char × List Char) :=
  let inside := cs.takeWhile fun c => c != '[' && c != ']'
  match cs, cs.drop inside.length with
  | c :: _, ']' :: rest => if beginsTag c then some (inside, rest) else none
  | _, _ => none

/-- The name of a style, apart from what is set by it. -/
def styleName (inside : List Char) : String :=
  Text.lowerAscii (String.ofList (Text.trimBy Text.isBlank (inside.takeWhile (· != '='))))

/-- The styles that are on after one of them is taken off, if it is on. -/
def takeOff? (name : String) (styles : List String) : Option (List String) :=
  match styles with
  | [] => none
  | s :: rest => if name = "" || s = name then some rest else (takeOff? name rest).map (s :: ·)

/-- What is said about a tag that takes off a style that is not on. -/
def strayMessage (inside : List Char) (position : Nat) : String :=
  if styleName (inside.drop 1) = "" then s!"closing tag '[/]' at position {position} has nothing to close"
  else s!"closing tag '[{String.ofList inside}]' at position {position} doesn't match any open tag"

/-- The text without tags, given the styles that are on and the position. -/
def plainFrom : Nat → Nat → List String → List Char → Except String (List Char)
  | 0, _, _, cs => .ok cs
  | fuel + 1, position, styles, cs =>
    let slashes := (cs.takeWhile (· == '\\')).length
    match cs.drop slashes with
    | '[' :: inner =>
      match tag? inner with
      | some (inside, rest) =>
        let next := position + slashes + inside.length + 2
        let kept := List.replicate (slashes / 2) '\\'
        if slashes % 2 = 1 then do
          let more ← plainFrom fuel next styles rest
          return kept ++ '[' :: inside ++ ']' :: more
        else match inside with
          | '/' :: name => match takeOff? (styleName name) styles with
            | some styles => return kept ++ (← plainFrom fuel next styles rest)
            | none => .error (strayMessage inside (position + slashes))
          | _ => return kept ++ (← plainFrom fuel next (styleName inside :: styles) rest)
      | none => do
        let more ← plainFrom fuel (position + slashes + 1) styles inner
        return List.replicate (slashes - 1) '\\' ++ '[' :: more
    | [] => .ok cs
    | c :: rest => do
      let more ← plainFrom fuel (position + slashes + 1) styles rest
      return List.replicate slashes '\\' ++ c :: more

/-- The text of a message without its tags, or what is wrong with them. -/
def plain (s : String) : Except String String :=
  (plainFrom (s.length + 1) 0 [] s.toList).map String.ofList

end ApiProjection.Markup
