import ApiProjection.Text.Utf8
import ApiProjection.Value.Basic
import ApiProjection.Yaml.Node
import ApiProjection.Yaml.Number
/-!
# The value of a node

`Node.value` turns a node into the value it stands for. Nodes are looked at level by level: what is
wrong with one is reported before what is wrong further in, and on one level the first counts.
Keys must be scalars; of two entries with equal keys the later one counts. The entries of the maps
under the key `<<` come before the entries beside it.
-/
namespace ApiProjection.Yaml.Node

/-! ## Scalars -/

def boolWords : List (String × Bool) :=
  [("yes", true), ("no", false), ("true", true), ("false", false), ("on", true), ("off", false)]

def boolOf (s : String) : Except Fault Scalar :=
  let word := Text.lowerAscii s
  match boolWords.lookup word with
  | some b => .ok (.bool b)
  | none => .error (.notABool word)

/-- The first six digits of a fraction of a second. -/
def microseconds (digits : List Char) : Nat :=
  Json.digitsValue ((digits ++ List.replicate 6 '0').take 6)

/-- An offset in seconds, if one is written. -/
def offsetSeconds? : List Char → Option Int
  | [] => none
  | sign :: cs =>
    if sign == 'Z' then some 0
    else
      let (hours, rest) := Json.takeDigits cs
      let minutes := Json.digitsValue (rest.drop 1)
      let seconds : Int := Json.digitsValue hours * 3600 + minutes * 60
      some (if sign == '-' then -seconds else seconds)

def stampOf (s : Plain.Stamp) : Except CalendarFault Scalar :=
  let year := Json.digitsValue s.year
  let month := Json.digitsValue s.month
  let day := Json.digitsValue s.day
  match s.time with
  | none => (Date.ofParts? year month day).map .date
  | some (hour, minute, second, fraction, offset) =>
    (Moment.ofParts? year month day (Json.digitsValue hour) (Json.digitsValue minute)
      (Json.digitsValue second) (microseconds fraction) (offsetSeconds? offset)).map .moment

def timestampOf (s : String) : Except Fault Scalar :=
  match Plain.stamp? s.toList with
  | none => .error .notATimestamp
  | some stamp => (stampOf stamp).mapError .calendar

/-! ## Bytes -/

/-- The six bits that a character stands for. -/
def sixBits? (c : Char) : Option Nat :=
  if 'A' ≤ c && c ≤ 'Z' then some (c.toNat - 'A'.toNat)
  else if 'a' ≤ c && c ≤ 'z' then some (c.toNat - 'a'.toNat + 26)
  else if Json.isDigit c then some (c.toNat - '0'.toNat + 52)
  else if c == '+' then some 62
  else if c == '/' then some 63
  else none

/-- Reads groups of four characters for three bytes: how many characters of the group have been
read, the bits left over from them, and how many fillers stand behind them. Other characters are
passed over, and enough fillers end the text. -/
def base64From (position bits fillers : Nat) : List Char → Option (List UInt8)
  | [] => if position = 0 then some [] else none
  | '=' :: cs =>
    if 2 ≤ position && 4 ≤ position + fillers + 1 then some []
    else base64From position bits (if 2 ≤ position then fillers + 1 else fillers) cs
  | c :: cs =>
    match sixBits? c with
    | none => base64From position bits fillers cs
    | some n =>
      match position with
      | 0 => base64From 1 n 0 cs
      | 1 => (base64From 2 (n % 16) 0 cs).map (UInt8.ofNat (bits * 4 + n / 16) :: ·)
      | 2 => (base64From 3 (n % 4) 0 cs).map (UInt8.ofNat (bits * 16 + n / 4) :: ·)
      | _ => (base64From 0 0 0 cs).map (UInt8.ofNat (bits * 64 + n) :: ·)

def binaryOf (s : String) : Except Fault Scalar :=
  if s.toList.any fun c => 0x7f < c.toNat then .error (.malformed .binary)
  else match base64From 0 0 0 s.toList with
    | some bs => .ok (.bytes bs)
    | none => .error (.malformed .binary)

/-- The value of a text with the tag of a scalar. -/
def scalarOf (tag : Tag) (text : String) : Except Fault Scalar :=
  match tag with
  | .null => .ok .null
  | .bool => boolOf text
  | .int => (Number.int text).map .int
  | .float => (Number.float text).map .float
  | .binary => binaryOf text
  | .timestamp => timestampOf text
  | .str => .ok (.text text)
  | .seq | .omap | .pairs => .error (.malformed .sequenceExpected)
  | .map | .set => .error (.malformed .mappingExpected)
  | .merge | .value | .other _ => .error (.malformed (.unknownTag tag.name))

/-! ## Levels -/

/-- A value with what is wrong on the way to it, each at its level. -/
structure Built where
  value : Value := .null
  faults : List (Nat × Fault) := []

namespace Built

def failed (level : Nat) (f : Fault) : Built := { faults := [(level, f)] }

def ofScalar (x : Except Fault Scalar) : Built :=
  match x with
  | .ok s => { value := .scalar s }
  | .error f => failed 0 f

/-- The faults as they are counted one level further out. -/
def deeper (b : Built) : List (Nat × Fault) := b.faults.map fun (level, f) => (level + 1, f)

/-- The first fault on the outermost level that has one. -/
def first? (b : Built) : Option Fault :=
  let least := (b.faults.map (·.1)).foldl min (b.faults.headD (0, .noDigits)).1
  (b.faults.find? fun (level, _) => level == least).map (·.2)

def result (b : Built) : Except Fault Value :=
  match b.first? with
  | some f => .error f
  | none => .ok b.value

end Built

/-- An entry of a map with its key and its value built. -/
structure Member where
  key : Built
  value : Built

/-- Whether two keys are equal. Here not-a-number is, too. -/
def sameKey (a b : Scalar) : Bool := a.same b || (a == .float .nan && b == .float .nan)

/-- The entries as a map. A key that is no scalar is a fault. -/
def mapOf (members : List Member) : Built :=
  let faults := members.flatMap fun m =>
    m.key.deeper ++
      (match m.key.value with
        | .scalar _ => []
        | _ => [(1, .malformed .unhashableKey)]) ++
      m.value.deeper
  let entries := members.filterMap fun m => match m.key.value with
    | .scalar k => some (k, m.value.value)
    | _ => none
  { value := .map (collapse sameKey entries), faults }

/-- The keys of a map as a set. -/
def setOf (b : Built) : Built :=
  match b.value with
  | .map es => { b with value := .set (es.map (·.1)) }
  | _ => b

/-- The entries of each map in a list, the later maps first. -/
def joined (sources : List (List Member)) : List Member := sources.reverse.flatten

mutual
/-- The value of a node, with the faults on the way. -/
def build : Node → Built
  | .scalar tag text => .ofScalar (scalarOf tag text)
  | .sequence tag items =>
    match tag with
    | .seq =>
      let built := buildAll items
      { value := .list (built.map (·.value)), faults := built.flatMap Built.deeper }
    | .omap | .pairs => buildPairs items
    | .map | .set => .failed 1 (.malformed .mappingExpected)
    | .merge | .value | .other _ => .failed 0 (.malformed (.unknownTag tag.name))
    | _ => .failed 0 (.malformed .scalarExpected)
  | .mapping tag entries =>
    match tag with
    | .map => match members entries with
      | .ok ms => mapOf ms
      | .error f => .failed 1 f
    | .set => match members entries with
      | .ok ms => setOf (mapOf ms)
      | .error f => .failed 1 f
    | .seq | .omap | .pairs => .failed 1 (.malformed .sequenceExpected)
    | .merge | .value | .other _ => .failed 0 (.malformed (.unknownTag tag.name))
    | tag => buildDefault tag entries

/-- The scalar that a map has under the default key, read with the tag of the map. -/
def buildDefault (tag : Tag) : List (Node × Node) → Built
  | [] => .failed 0 (.malformed .scalarExpected)
  | (.scalar .value _, .scalar _ text) :: _ => .ofScalar (scalarOf tag text)
  | (.scalar .value _, .mapping _ entries) :: _ => buildDefault tag entries
  | (.scalar .value _, .sequence _ _) :: _ => .failed 0 (.malformed .scalarExpected)
  | _ :: es => buildDefault tag es

def buildAll : List Node → List Built
  | [] => []
  | n :: ns => build n :: buildAll ns

/-- Maps with one entry each, as rows of a key and a value. -/
def buildPairs : List Node → Built
  | [] => { value := .list [] }
  | .mapping _ [(k, v)] :: ns =>
    let key := build k
    let value := build v
    let rest := buildPairs ns
    { value := match rest.value with
        | .list rows => .list (.tuple [key.value, value.value] :: rows)
        | v => v
      faults := key.deeper ++ value.deeper ++ rest.faults }
  | .mapping _ _ :: _ => .failed 1 (.malformed .pairExpected)
  | _ :: _ => .failed 1 (.malformed .mappingExpected)

/-- The entries of a map, those merged in first. -/
def members (entries : List (Node × Node)) : Except Fault (List Member) := do
  let (merged, own) ← splitMembers entries
  return merged ++ own

/-- The entries merged in and the others. -/
def splitMembers : List (Node × Node) → Except Fault (List Member × List Member)
  | [] => .ok ([], [])
  | (.scalar .merge _, source) :: es => do
    let here ← sourceMembers source
    let (merged, own) ← splitMembers es
    return (here ++ merged, own)
  | (.sequence .merge _, source) :: es => do
    let here ← sourceMembers source
    let (merged, own) ← splitMembers es
    return (here ++ merged, own)
  | (.mapping .merge _, source) :: es => do
    let here ← sourceMembers source
    let (merged, own) ← splitMembers es
    return (here ++ merged, own)
  | (.scalar .value text, v) :: es => do
    let (merged, own) ← splitMembers es
    return (merged, ⟨.ofScalar (scalarOf .str text), build v⟩ :: own)
  | (k, v) :: es => do
    let (merged, own) ← splitMembers es
    return (merged, ⟨build k, build v⟩ :: own)

/-- The entries that are merged in from a map or from a list of maps, the last of them first. -/
def sourceMembers : Node → Except Fault (List Member)
  | .mapping _ entries => members entries
  | .sequence _ items => return joined (← eachMembers items)
  | .scalar _ _ => .error (.malformed .merge)

def eachMembers : List Node → Except Fault (List (List Member))
  | [] => .ok []
  | .mapping _ entries :: ns => do
    let here ← members entries
    return here :: (← eachMembers ns)
  | _ :: _ => .error (.malformed .merge)
end

/-- The value that a node stands for. -/
def value (n : Node) : Except Fault Value := n.build.result

end ApiProjection.Yaml.Node
