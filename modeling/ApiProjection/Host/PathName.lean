import ApiProjection.Text.Blank
/-!
# Names of files

A `PathName` is the name of a file in parts, relative or from the root. Empty parts and single dots
are left out when a text is taken apart; double dots stay, since what they mean depends on the disk.
-/
namespace ApiProjection

structure PathName where
  /-- What the name begins with: nothing, one slash or two. -/
  anchor : String := ""
  parts : List String := []
  deriving DecidableEq, Repr

/-- The parts of a name between its slashes. -/
def allParts (s : String) : List String := (Text.splitAt '/' s).filter (· ≠ "")

/-- The parts of a name that lead somewhere else. -/
def pathParts (s : String) : List String := (allParts s).filter (· ≠ ".")

namespace PathName

def ofText (s : String) : PathName :=
  let slashes := (s.toList.takeWhile (· == '/')).length
  let anchor := if slashes = 0 then "" else if slashes = 2 then "//" else "/"
  ⟨anchor, pathParts s⟩

/-- The name as it is written; a name without parts is the current folder. -/
def text (p : PathName) : String :=
  if p.anchor = "" && p.parts.isEmpty then "." else p.anchor ++ "/".intercalate p.parts

/-- The name of something in a folder. -/
def child (p : PathName) (part : String) : PathName := { p with parts := p.parts ++ [part] }

/-- The name of the folder that holds the file; a name without parts is its own. -/
def parent (p : PathName) : PathName := { p with parts := p.parts.dropLast }

/-- The last part. -/
def name (p : PathName) : String := p.parts.getLast?.getD ""

/-- The last part from its last dot on, unless the dot is its first or last character. -/
def suffix (p : PathName) : String :=
  let cs := p.name.toList
  let ending := (cs.reverse.takeWhile (· != '.')).reverse
  if ending.isEmpty || cs.length ≤ ending.length + 1 then "" else String.ofList ('.' :: ending)

end PathName
end ApiProjection
