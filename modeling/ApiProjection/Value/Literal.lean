import ApiProjection.Value.Basic
import ApiProjection.Text.Quoted
/-!
# Values in messages

`Value.literal` is how a message quotes a value: texts between quotes, lists in brackets, maps in
braces. `Value.display` is the same for all but texts and dates, which stand there unquoted.
-/
namespace ApiProjection

/-- A length of time given in seconds, as whole days and the seconds left over. -/
def durationLiteral (s : Int) : String :=
  let days := s.fdiv secondsPerDay
  let seconds := s.fmod secondsPerDay
  let parts := (if days = 0 then [] else [s!"days={days}"]) ++
    (if seconds = 0 then [] else [s!"seconds={seconds}"])
  "datetime.timedelta(" ++ ", ".intercalate parts ++ ")"

def Date.literal (d : Date) : String := s!"datetime.date({d.year}, {d.month}, {d.day})"

def Moment.literal (t : Moment) : String :=
  let tail :=
    if t.microsecond ≠ 0 then [t.second, t.microsecond]
    else if t.second ≠ 0 then [t.second] else []
  let parts := ([t.date.year, t.date.month, t.date.day, t.hour, t.minute] ++ tail).map toString
  let zone := match t.offset with
    | none => []
    | some 0 => ["tzinfo=datetime.timezone.utc"]
    | some s => [s!"tzinfo=datetime.timezone({durationLiteral s})"]
  "datetime.datetime(" ++ ", ".intercalate (parts ++ zone) ++ ")"

/-- A scalar as a message quotes it. -/
def Scalar.literal : Scalar → String
  | .null => "None"
  | .bool b => if b then "True" else "False"
  | .int n => toString n
  | .float x => x.text
  | .text s => Text.quoted s
  | .bytes bs => Text.quotedBytes bs
  | .date d => d.literal
  | .moment t => t.literal

namespace Value

mutual
/-- A value as a message quotes it. -/
def literal : Value → String
  | .scalar s => s.literal
  | .list xs => "[" ++ ", ".intercalate (literals xs) ++ "]"
  | .tuple [x] => "(" ++ x.literal ++ ",)"
  | .tuple xs => "(" ++ ", ".intercalate (literals xs) ++ ")"
  | .set [] => "set()"
  | .set xs => "\x7b" ++ ", ".intercalate (xs.map Scalar.literal) ++ "\x7d"
  | .map es => "\x7b" ++ ", ".intercalate (entryLiterals es) ++ "\x7d"

def literals : List Value → List String
  | [] => []
  | x :: xs => x.literal :: literals xs

def entryLiterals : List (Scalar × Value) → List String
  | [] => []
  | (k, x) :: es => (k.literal ++ ": " ++ x.literal) :: entryLiterals es
end

/-- A value as it is shown on its own. -/
def display : Value → String
  | .text s => s
  | .scalar (.date d) => d.text
  | .scalar (.moment t) => t.text.map fun c => if c == 'T' then ' ' else c
  | v => v.literal

end Value
end ApiProjection
