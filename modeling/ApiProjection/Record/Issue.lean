import ApiProjection.Value.Literal
/-!
# What is wrong with a record

An `Issue` is one fault found while a value is read as a record: the place, the cause and the
value that stands there. `Issue.line` is its short form on one line; `Issue.report` is the long
form with the kind of the cause and the value.
-/
namespace ApiProjection.Record

/-- One step into a value: a key of a map or a position in a list. -/
inductive Step
  | key (name : String)
  | index (n : Int)
  deriving DecidableEq, Repr

inductive Cause
  | text
  /-- Bytes that encode no text. -/
  | encoding
  | truth
  | truthWord
  | whole
  | wholeDigits
  | wholeFraction
  | wholeSize
  | finite
  | number
  | numberDigits
  /-- A word that is none of a list. -/
  | word (allowed : List String)
  | map
  | record (name : String)
  | list
  | missing
  | unexpected
  | keyText
  deriving DecidableEq, Repr

structure Issue where
  place : List Step
  cause : Cause
  input : Value
  deriving Repr

/-- The words in quotes, with "or" before the last. -/
def orList (words : List String) : String :=
  let qs := words.map Text.quoted
  match qs.reverse with
  | [] => ""
  | [q] => q
  | last :: rest => ", ".intercalate rest.reverse ++ " or " ++ last

def Cause.message : Cause → String
  | .text => "Input should be a valid string"
  | .encoding => "Input should be a valid string, unable to parse raw data as a unicode string"
  | .truth => "Input should be a valid boolean"
  | .truthWord => "Input should be a valid boolean, unable to interpret input"
  | .whole => "Input should be a valid integer"
  | .wholeDigits => "Input should be a valid integer, unable to parse string as an integer"
  | .wholeFraction => "Input should be a valid integer, got a number with a fractional part"
  | .wholeSize => "Unable to parse input string as an integer, exceeded maximum size"
  | .finite => "Input should be a finite number"
  | .number => "Input should be a valid number"
  | .numberDigits => "Input should be a valid number, unable to parse string as a number"
  | .word allowed => "Input should be " ++ orList allowed
  | .map => "Input should be a valid dictionary"
  | .record name => "Input should be a valid dictionary or instance of " ++ name
  | .list => "Input should be a valid list"
  | .missing => "Field required"
  | .unexpected => "Extra inputs are not permitted"
  | .keyText => "Keys should be strings"

/-- The name of the kind of a cause. -/
def Cause.kind : Cause → String
  | .text => "string_type"
  | .encoding => "string_unicode"
  | .truth => "bool_type"
  | .truthWord => "bool_parsing"
  | .whole => "int_type"
  | .wholeDigits => "int_parsing"
  | .wholeFraction => "int_from_float"
  | .wholeSize => "int_parsing_size"
  | .finite => "finite_number"
  | .number => "float_type"
  | .numberDigits => "float_parsing"
  | .word _ => "enum"
  | .map => "dict_type"
  | .record _ => "model_type"
  | .list => "list_type"
  | .missing => "missing"
  | .unexpected => "extra_forbidden"
  | .keyText => "invalid_key"

/-- The step as it is shown in a path. -/
def Step.text : Step → String
  | .key name => name
  | .index n => toString n

/-- The step with a name that holds a dot set off. -/
def Step.setOff : Step → String
  | .key name => if name.contains '.' then "\x60" ++ name ++ "\x60" else name
  | .index n => toString n

/-- The path of an issue; the whole value is the root. -/
def Issue.path (i : Issue) : String :=
  match i.place with
  | [] => "<root>"
  | steps => ".".intercalate (steps.map Step.text)

/-- The issue on one line. -/
def Issue.line (i : Issue) : String := i.path ++ ": " ++ i.cause.message

/-- The name of the type of a value. -/
def typeName : Value → String
  | .scalar .null => "NoneType"
  | .scalar (.bool _) => "bool"
  | .scalar (.int _) => "int"
  | .scalar (.float _) => "float"
  | .scalar (.text _) => "str"
  | .scalar (.bytes _) => "bytes"
  | .scalar (.date _) => "date"
  | .scalar (.moment _) => "datetime"
  | .list _ => "list"
  | .tuple _ => "tuple"
  | .set _ => "set"
  | .map _ => "dict"

/-- The longest run of characters in front that has at most `n` bytes. -/
def takeBytes : Nat → List Char → List Char
  | n, c :: cs => if c.utf8Size ≤ n then c :: takeBytes (n - c.utf8Size) cs else []
  | _, [] => []

/-- A text with its middle left out if it has more than fifty bytes. -/
def shortened (s : String) : String :=
  if 50 < s.utf8ByteSize then
    let cs := s.toList
    String.ofList (takeBytes 25 cs) ++ "..." ++ String.ofList (takeBytes 24 cs.reverse).reverse
  else s

/-- The issue over two or three lines, with the value that stands there. -/
def Issue.report (i : Issue) : String :=
  let head := match i.place with
    | [] => ""
    | steps => ".".intercalate (steps.map Step.setOff) ++ "\n"
  let kind := i.cause.kind
  head ++ s!"  {i.cause.message} [type={kind}, input_value={shortened i.input.literal}, " ++
    s!"input_type={typeName i.input}]\n    For further information visit " ++
    s!"https://errors.pydantic.dev/2.14/v/{kind}"

/-- All issues of a record of the given name. -/
def reportAll (name : String) (issues : List Issue) : String :=
  let n := issues.length
  let head := s!"{n} validation error" ++ (if n = 1 then "" else "s") ++ " for " ++ name
  "\n".intercalate (head :: issues.map Issue.report)

end ApiProjection.Record
