import ApiProjection.Text.Blank
/-!
# Unexpected errors

An error that a step was not written to report: the name of its kind and its text.
-/
namespace ApiProjection

structure Crash where
  /-- The full name of the kind, which begins with the names of what it belongs to. -/
  kind : String
  message : String
  deriving DecidableEq, Repr

/-- The last name of the kind. -/
def Crash.shortKind (c : Crash) : String := ((Text.splitAt '.' c.kind).getLast?).getD ""

/-- The error as the last line of a crash log. -/
def Crash.line (c : Crash) : String := if c.message = "" then c.kind else c.kind ++ ": " ++ c.message

end ApiProjection
