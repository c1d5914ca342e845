import ApiProjection.Diagnostic.Warning
/-!
# Collections of warnings

Queries on the warnings of a projection, in the order in which they were recorded. Codes are
compared by their texts; a query without codes finds nothing.
-/
namespace ApiProjection

abbrev Warnings := List Warning

namespace Warnings

/-- Whether the code of a warning is one of the given ones. -/
def isOneOf (codes : List Code) (w : Warning) : Bool := codes.any fun c => w.code.text == c.text

def has (ws : Warnings) (code : Code) : Bool := ws.any fun w => w.code == code

def hasAny (ws : Warnings) (codes : List Code) : Bool := ws.any (isOneOf codes)

def hasCategory (ws : Warnings) (c : Category) : Bool := ws.any fun w => w.category == c

/-- The warnings with one of the codes. -/
def only (ws : Warnings) (codes : List Code) : Warnings := ws.filter (isOneOf codes)

/-- The warnings of a category. -/
def ofCategory (ws : Warnings) (c : Category) : Warnings := ws.filter fun w => w.category == c

/-- The warnings with none of the codes. -/
def exclude (ws : Warnings) (codes : List Code) : Warnings := ws.filter fun w => !isOneOf codes w

/-- The codes that occur, each once, in order of first occurrence. -/
def codes (ws : Warnings) : List Code :=
  ws.foldl (fun seen w => if seen.any (· == w.code) then seen else seen ++ [w.code]) []

/-- One more of a category. -/
def countOne (c : Category) : List (Category × Nat) → List (Category × Nat)
  | [] => [(c, 1)]
  | (c', n) :: rest => if c' = c then (c', n + 1) :: rest else (c', n) :: countOne c rest

/-- The number of warnings of each category that occurs, in order of first occurrence. -/
def counts (ws : Warnings) : List (Category × Nat) :=
  ws.foldl (fun acc w => countOne w.category acc) []

/-- The warnings over numbered lines. -/
def text (ws : Warnings) : String :=
  match ws with
  | [] => "no warnings"
  | ws => "\n".intercalate <| s!"{ws.length} warning(s):" ::
      ws.mapIdx fun i w => s!"  [{i + 1}] {w.text}"

/-- The warnings as a message quotes them. -/
def literal (ws : Warnings) : String :=
  "Warnings([" ++ ", ".intercalate (ws.map Warning.literal) ++ "])"

/-! ## Positions -/

/-- The warning at a position; a negative one counts from the end. -/
def at? (ws : Warnings) (i : Int) : Option Warning :=
  let j := if i < 0 then i + ws.length else i
  if j < 0 then none else ws[j.toNat]?

/-- The first position of a warning. -/
def indexOf? (ws : Warnings) (w : Warning) : Option Nat := ws.findIdx? (· == w)

/-- A bound of a slice moved into the range of positions. -/
def clampBound (length lo hi : Int) (default : Int) : Option Int → Int
  | none => default
  | some i => let j := if i < 0 then i + length else i; max lo (min j hi)

/-- The warnings from one bound up to another in steps, which may be negative but not zero. -/
def slice (ws : Warnings) (start stop step : Option Int) : Warnings :=
  let n : Int := ws.length
  let step := step.getD 1
  if 0 < step then
    let i := clampBound n 0 n 0 start
    let j := clampBound n 0 n n stop
    let count := ((j - i + step - 1) / step).toNat
    (List.range count).filterMap fun (k : Nat) => ws[(i + (k : Int) * step).toNat]?
  else if step < 0 then
    let i := clampBound n (-1) (n - 1) (n - 1) start
    let j := clampBound n (-1) (n - 1) (-1) stop
    let count := ((i - j - step - 1) / (-step)).toNat
    (List.range count).filterMap fun (k : Nat) => ws[(i + (k : Int) * step).toNat]?
  else []

end Warnings
end ApiProjection
