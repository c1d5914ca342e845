import ApiProjection.Text.Blank
/-!
# JSON pointers

A `Pointer` is a place in a document: a base and the keys and positions that lead on from it. Its
text joins the segments by slashes; inside a segment `~0` stands for a tilde and `~1` for a slash.
-/
namespace ApiProjection

namespace Pointer

def escapeChar (c : Char) : List Char :=
  if c == '~' then ['~', '0'] else if c == '/' then ['~', '1'] else [c]

/-- A segment as it stands between slashes. -/
def escape (segment : String) : String := String.ofList (segment.toList.flatMap escapeChar)

def unescapeChars : List Char → List Char
  | '~' :: '0' :: cs => '~' :: unescapeChars cs
  | '~' :: '1' :: cs => '/' :: unescapeChars cs
  | c :: cs => c :: unescapeChars cs
  | [] => []

/-- The segment that stands between slashes as the given text. -/
def unescape (s : String) : String := String.ofList (unescapeChars s.toList)

/-- The base followed by escaped segments. -/
def extend (base : String) (segments : List String) : String :=
  "/".intercalate (base :: segments.map escape)

end Pointer

/-- A place in a document. -/
structure Pointer where
  base : String
  segments : List String := []
  deriving DecidableEq, Repr, Inhabited

namespace Pointer

/-- The document itself. -/
def root : Pointer := ⟨"#", []⟩

/-- The place of a member with the given key. -/
def key (p : Pointer) (k : String) : Pointer := { p with segments := p.segments ++ [k] }

/-- The place of an item at the given position. -/
def index (p : Pointer) (i : Nat) : Pointer := p.key (toString i)

def text (p : Pointer) : String := extend p.base p.segments

end Pointer
end ApiProjection
