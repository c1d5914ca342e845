import ApiProjection.Crash
import ApiProjection.Diagnostic.Warnings
/-!
# Failures of the program

Each failure that the program reports has a kind, which decides the exit code, and a text; that of
a projection also has the warnings recorded before it.
-/
namespace ApiProjection

inductive FailureKind
  | general
  | usage
  | configuration
  | input
  | projection
  | invalidDescription
  | unsupportedTarget
  | strictness
  | validation
  deriving DecidableEq, Repr

namespace FailureKind

/-- The code with which the program ends. -/
def exitCode : FailureKind → Int
  | .general | .configuration => 1
  | .usage => 2
  | .input => 7
  | .projection | .invalidDescription | .unsupportedTarget | .strictness => 8
  | .validation => 9

/-- Whether warnings go with a failure of the kind. -/
def isProjection : FailureKind → Bool
  | .projection | .invalidDescription | .unsupportedTarget | .strictness | .validation => true
  | _ => false

end FailureKind

/-- A failure that the program reports. -/
structure Failure where
  kind : FailureKind
  message : String
  warnings : Warnings := []
  /-- The exit code, if it is not that of the kind. -/
  code : Option Int := none

def Failure.exitCode (f : Failure) : Int := f.code.getD f.kind.exitCode

/-- What ends a step of the program early. -/
inductive Stop
  | failed (f : Failure)
  | crashed (c : Crash)
  /-- Everything has been said. -/
  | ended (code : Int)

end ApiProjection
