import ApiProjection.Json.Reader
import ApiProjection.Text.Utf8
import ApiProjection.Validation.Check
/-!
# Checking against a meta-schema

`MetaSchema.check` lists what in a value violates a meta-schema. References inside the meta-schema
are followed where they lead to a part of it. A reference that leads back to itself without going
down in the value is never used up; the search stops there.
-/
namespace ApiProjection

/-! ## Places in a meta-schema -/

/-- The bytes that a text with percent escapes stands for. -/
def percentBytes : List Char → List UInt8
  | '%' :: a :: b :: rest =>
    match Json.hexValue? a, Json.hexValue? b with
    | some m, some n => UInt8.ofNat (16 * m + n) :: percentBytes rest
    | _, _ => (Utf8.encode "%") ++ percentBytes (a :: b :: rest)
  | c :: rest => Utf8.encode (String.singleton c) ++ percentBytes rest
  | [] => []

/-- A text with its percent escapes taken out. -/
def percentDecoded (s : String) : String :=
  match Utf8.decode (percentBytes s.toList) with
  | .ok t => t
  | .error _ => s

namespace Value

/-- The item of a list or the member of an object that a segment of a pointer names. -/
def child? (v : Value) (segment : String) : Option Value :=
  match v with
  | .map es => lookupText segment es
  | .list xs | .tuple xs =>
    let digits := segment.toList
    if !digits.isEmpty && digits.all Json.isDigit then xs[Json.digitsValue digits]? else none
  | _ => none

/-- The part of a value that a pointer leads to. -/
def at? : Value → List String → Option Value
  | v, [] => some v
  | v, s :: ss => (v.child? s).bind fun w => w.at? ss

mutual
/-- How many values stand inside one another at most. -/
def depth : Value → Nat
  | .list xs | .tuple xs => depthOfAll xs + 1
  | .map es => depthOfEntries es + 1
  | _ => 1

def depthOfAll : List Value → Nat
  | [] => 0
  | x :: xs => max x.depth (depthOfAll xs)

def depthOfEntries : List (Scalar × Value) → Nat
  | [] => 0
  | (_, x) :: es => max x.depth (depthOfEntries es)

/-- How many values there are in a value. -/
def size : Value → Nat
  | .list xs | .tuple xs => sizeOfAll xs + 1
  | .map es => sizeOfEntries es + 1
  | _ => 1

def sizeOfAll : List Value → Nat
  | [] => 0
  | x :: xs => x.size + sizeOfAll xs

def sizeOfEntries : List (Scalar × Value) → Nat
  | [] => 0
  | (_, x) :: es => x.size + sizeOfEntries es
end

end Value

namespace MetaSchema

/-- A segment of a reference as the name it stands for. -/
def segmentName (s : String) : String := ((s.replace "~1" "/").replace "~0" "~")

/-- The part of a meta-schema that a reference leads to. -/
def resolve (root : Value) (reference : String) : Except Defect Value :=
  let unresolvable (message : String) : Defect := ⟨"_WrappedReferencingError", message⟩
  match reference.toList with
  | ['#'] => .ok root
  | '#' :: '/' :: rest =>
    let pointer := String.ofList ('/' :: rest)
    let segments := Text.splitAt '/' (percentDecoded (String.ofList rest))
    match root.at? (segments.map segmentName) with
    | some v => .ok v
    | none => .error (unresolvable ("PointerToNowhere: " ++ Text.quoted pointer ++
        " does not exist within " ++ root.literal))
  | _ => .error (unresolvable ("Unresolvable: " ++ reference))

/-- What a value has against the part of a meta-schema that a reference leads to, following so many
references at most. -/
def follow (root : Value) (d : Dialect) : Nat → Follow
  | 0, _, _ => .none
  | n + 1, reference, v =>
    match resolve root reference with
    | .ok part => (Rule.ofValue d part).check (follow root d n) v
    | .error e => .broken e

/-- The defect of a whole meta-schema that is neither an object nor a truth value. -/
def rootDefect? (root : Value) : Option Defect :=
  match root with
  | .map _ | .scalar (.bool _) => none
  | .list _ | .tuple _ | .set _ | .scalar (.text _) => some (Rule.notASchema root)
  | v => some ⟨"TypeError", "argument of type " ++ Text.quoted (Record.typeName v) ++ " is not iterable"⟩

/-- What a value has against a meta-schema. -/
def check (root v : Value) : Findings :=
  match rootDefect? root with
  | some d => .broken d
  | none =>
    let dialect := Rule.dialectOf root
    (Rule.ofValue dialect root).check (follow root dialect (root.size * v.depth)) v

end MetaSchema
end ApiProjection
