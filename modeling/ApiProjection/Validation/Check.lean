import ApiProjection.Api.Schema
import ApiProjection.Validation.Rule
/-!
# Checking documents

`Rule.check` lists what in a value violates a rule, each with its place. A meta-schema that cannot
be used shows only when the check gets there; what was found before is kept.
-/
namespace ApiProjection

/-- What is wrong at one place of a document. -/
structure Violation where
  place : List Record.Step
  message : String
  deriving DecidableEq, Repr

/-- The violations found, and the defect of the meta-schema that ended the search. -/
structure Findings where
  violations : List Violation := []
  defect : Option Defect := none

namespace Findings

def none : Findings := {}

def violation (message : String) : Findings := { violations := [⟨[], message⟩] }

def broken (d : Defect) : Findings := { defect := some d }

/-- What the first search found and then, if it came to its end, what the second found. -/
def append (a b : Findings) : Findings :=
  match a.defect with
  | some _ => a
  | Option.none => ⟨a.violations ++ b.violations, b.defect⟩

instance : Append Findings := ⟨append⟩

def concat (fs : List Findings) : Findings := fs.foldr append none

/-- What was found one step further in. -/
def under (step : Record.Step) (f : Findings) : Findings :=
  { f with violations := f.violations.map fun v => { v with place := step :: v.place } }

/-- A violation if the condition holds. -/
def when (c : Bool) (message : String) : Findings := if c then violation message else none

/-- Whether nothing was found. A violation found first hides a defect. -/
def holds (f : Findings) : Except Defect Bool :=
  match f.violations, f.defect with
  | _ :: _, _ => .ok false
  | [], some d => .error d
  | [], Option.none => .ok true

/-- What is found if a condition can be decided. -/
def given (c : Except Defect Bool) (f : Bool → Findings) : Findings :=
  match c with
  | .ok b => f b
  | .error d => broken d

end Findings

/-! ## Single keywords -/

/-- Whether a value is of the type with a name, if there is such a type. -/
def hasType (wholeFloats : Bool) (v : Value) (name : String) : Option Bool :=
  match name, v with
  | "null", .null => some true
  | "boolean", .bool _ => some true
  | "string", .text _ => some true
  | "object", .map _ => some true
  | "array", .list _ => some true
  | "number", .scalar (.int _) | "number", .scalar (.float _) => some true
  | "integer", .scalar (.int _) => some true
  | "integer", .scalar (.float x) => some (wholeFloats && x.toInt?.isSome)
  | name, _ => if (Kind.all.map Kind.name).contains name then some false else none

/-- Whether a value is of one of several types. The first name that is no type's is an error, unless
the value is of a type named before it. -/
def hasSomeType (wholeFloats : Bool) (v : Value) : List Value → Except Defect Bool
  | [] => .ok false
  | n :: ns =>
    match n with
    | .text s => match hasType wholeFloats v s with
      | some true => .ok true
      | some false => hasSomeType wholeFloats v ns
      | none => .error ⟨"UnknownType", "Unknown type " ++ n.literal⟩
    | _ => .error ⟨"UnknownType", "Unknown type " ++ n.literal⟩

/-- The number that a value is. -/
def numberOf? : Value → Option Scalar
  | .scalar s@(.int _) => some s
  | .scalar s@(.float _) => some s
  | _ => none

def Side.isViolated (side : Side) (x limit : Scalar) : Bool :=
  match x.compare? limit with
  | none => false
  | some o => match side with
    | .atLeast => o == .lt
    | .above => o != .gt
    | .atMost => o == .gt
    | .below => o != .lt

def Side.text : Side → String
  | .atLeast => "less than the minimum of"
  | .above => "less than or equal to the minimum of"
  | .atMost => "greater than the maximum of"
  | .below => "greater than or equal to the maximum of"

/-- Whether the first of two numbers is no multiple of the second. -/
def isNoMultiple (x y : Scalar) : Except Defect Bool :=
  match x.ratio?, y.ratio? with
  | some (n, d), some (m, e) =>
    if m = 0 then
      .error ⟨"ZeroDivisionError", match x, y with
        | .int _, .int _ => "integer modulo by zero"
        | _, .float _ => "float division by zero"
        | _, _ => "float modulo"⟩
    else match y with
      | .float q => match (Binary64.ofRatio (n < 0) n.natAbs d).div q with
        | .finite s k p => .ok ((Binary64.finite s k p).toInt?.isNone)
        | _ => .ok ((n * e) % (m * d) != 0)
      | _ => .ok ((n * e) % (m * d) != 0)
  | none, some _ => match y with
    | .float _ => .ok true
    | _ => .ok true
  | _, _ => .ok true

/-- The extent of a value, if it has one of that kind. -/
def Extent.of? (what : Extent) (v : Value) : Option Nat :=
  match what, v with
  | .characters, .text s => some s.length
  | .items, .list xs => some xs.length
  | .members, .map es => some es.length
  | _, _ => none

def Extent.tooFew : Extent → String
  | .members => "does not have enough properties"
  | _ => "is too short"

def Extent.tooMany : Extent → String
  | .members => "has too many properties"
  | _ => "is too long"

def Pattern.matches? (p : Pattern) (s : String) : Except Defect Bool :=
  match p.regex with
  | .ok r => .ok (r.search s)
  | .error e => .error ⟨e.fault.kind, e.message p.source⟩

/-- Whether some pattern is found in a text. -/
def Pattern.anyMatches (ps : List Pattern) (s : String) : Except Defect Bool :=
  match ps with
  | [] => .ok false
  | p :: ps => do if ← p.matches? s then return true else anyMatches ps s

/-- The members of an object whose names are not listed and match no pattern. -/
def extraMembers (listed : List String) (ps : List Pattern) :
    List (Scalar × Value) → Except Defect (List (String × Value))
  | [] => .ok []
  | (k, x) :: es => do
    let name := (Value.scalar k).display
    let rest ← extraMembers listed ps es
    if listed.contains name then return rest
    else if ← Pattern.anyMatches ps name then return rest
    else return (name, x) :: rest

def sortTexts (xs : List String) : List String := xs.mergeSort fun a b => a ≤ b

def quotedList (xs : List String) : String := ", ".intercalate (xs.map Text.quoted)

/-- What is said about members that no rule allows. -/
def extrasMessage (names : List String) (patterns : List Pattern) (hasPatterns : Bool) : String :=
  let sorted := quotedList (sortTexts names)
  if hasPatterns then
    sorted ++ (if names.length = 1 then " does" else " do") ++ " not match any of the regexes: " ++
      quotedList (sortTexts (patterns.map Pattern.source))
  else
    "Additional properties are not allowed (" ++ sorted ++
      (if names.length = 1 then " was" else " were") ++ " unexpected)"

/-- A value without the members of a given number at its front, for a message. -/
def restLiteral (xs : List Value) : String :=
  match xs with
  | [x] => x.literal
  | xs => (Value.list xs).literal

namespace Keyword

/-- What a value has against a keyword that holds no other schema. -/
def checkSimple (k : Keyword) (v : Value) : Findings :=
  match k with
  | .type wholeFloats names => .given (hasSomeType wholeFloats v names) fun b =>
    .when (!b) (v.literal ++ " is not of type " ++ ", ".intercalate (names.map Value.literal))
  | .enum values =>
    .when (!values.any fun x => x.equal v) (v.literal ++ " is not one of " ++ (Value.list values).literal)
  | .const x => .when (!v.equal x) (x.literal ++ " was expected")
  | .limit side bound => match numberOf? v with
    | some x => .when (side.isViolated x bound) (v.literal ++ " is " ++ side.text ++ " " ++ bound.literal)
    | Option.none => .none
  | .multipleOf y => match numberOf? v with
    | some x => .given (isNoMultiple x y) fun b => .when b (v.literal ++ " is not a multiple of " ++ y.literal)
    | Option.none => .none
  | .least what count => match what.of? v with
    | some n =>
      let message := if count.same (.int 1) then "should be non-empty" else what.tooFew
      .when ((Scalar.int n).compare? count == some .lt) (v.literal ++ " " ++ message)
    | Option.none => .none
  | .most what count => match what.of? v with
    | some n =>
      let message := if count.same (.int 0) then "is expected to be empty" else what.tooMany
      .when ((Scalar.int n).compare? count == some .gt) (v.literal ++ " " ++ message)
    | Option.none => .none
  | .pattern p => match v with
    | .text s => .given (p.matches? s) fun b =>
      .when (!b) (v.literal ++ " does not match " ++ Text.quoted p.source)
    | _ => .none
  | .uniqueItems => match v with
    | .list xs => .when (!Value.allDistinct xs) (v.literal ++ " has non-unique elements")
    | _ => .none
  | .required names => match v with
    | .map es => .concat (names.map fun n =>
        .when (match n with | .scalar s => (lookupScalar s es).isNone | _ => true)
          (n.literal ++ " is a required property"))
    | _ => .none
  | .needed owner names => match v with
    | .map es => .concat (names.map fun n =>
        .when (match n with | .scalar s => (lookupScalar s es).isNone | _ => true)
          (n.literal ++ " is a dependency of " ++ Text.quoted owner))
    | _ => .none
  | .defective d => .broken d
  | _ => .none

/-- Whether a keyword allows nothing. -/
def isNever : Rule → Bool
  | .always false => true
  | _ => false

/-- What is said about how many items match. -/
def containsMessage (v : Value) (found : Nat) (least most : Option Scalar) : Findings :=
  let n : Scalar := .int found
  let low := least.getD (.int 1)
  match most with
  | some m =>
    if n.compare? m == some .gt then
      .violation ("Too many items match the given schema (expected at most " ++ m.literal ++ ")")
    else tooFew n low
  | Option.none => tooFew n low
where
  tooFew (n low : Scalar) : Findings :=
    if n.compare? low == some .lt then
      .violation (if found = 0 then v.literal ++ " does not contain items matching the given schema"
        else "Too few items match the given schema (expected at least " ++ low.literal ++
          " but only " ++ n.literal ++ " matched)")
    else .none

end Keyword

/-! ## Rules -/

/-- How references are followed. -/
abbrev Follow := String → Value → Findings

/-- Where in a value a rule for a part of it finds something: one step further in. Only that nothing
is allowed there is reported of the whole. -/
def Rule.place (r : Rule) (step : Record.Step) (f : Findings) : Findings :=
  match r with
  | .always false => f
  | _ => f.under step

/-- Each item of a list from a position on. -/
def eachItem (f : Record.Step → Value → Findings) : Nat → List Value → Findings
  | _, [] => .none
  | i, x :: xs => f (.index i) x ++ eachItem f (i + 1) xs

/-- Each member of an object whose name satisfies a condition. -/
def eachMember (p : String → Except Defect Bool) (f : Record.Step → Value → Findings) :
    List (Scalar × Value) → Findings
  | [] => .none
  | (k, x) :: es =>
    let name := (Value.scalar k).display
    .given (p name) (fun b => if b then f (.key name) x else .none) ++ eachMember p f es

/-- The number of items for which nothing is found. -/
def countHolding (f : Value → Findings) : List Value → Except Defect Nat
  | [] => .ok 0
  | x :: xs => do
    let b ← (f x).holds
    let n ← countHolding f xs
    return if b then n + 1 else n

/-- How the alternatives of a choice fared: nothing held, or the first that did with the further
ones that did too. -/
structure Choice where
  first : Option Value := none
  more : List Value := []
  defect : Option Defect := none

/-- What a value has against exactly one of several alternatives. -/
def Choice.findings (c : Choice) (v : Value) : Findings :=
  match c.defect, c.first, c.more with
  | some d, _, _ => .broken d
  | none, none, _ => .violation (v.literal ++ " is not valid under any of the given schemas")
  | none, some _, [] => .none
  | none, some x, more =>
    .violation (v.literal ++ " is valid under each of " ++ ", ".intercalate ((more ++ [x]).map Value.literal))

mutual
/-- What a value has against a rule. -/
def Rule.check (follow : Follow) : Rule → Value → Findings
  | .always true, _ => .none
  | .always false, v => .violation ("False schema does not allow " ++ v.literal)
  | .defective d, _ => .broken d
  | .all ks, v => Keyword.checkEach follow (Keyword.condition follow ks v) ks v

/-- Whether the condition among the keywords holds, if there is one. -/
def Keyword.condition (follow : Follow) : List Keyword → Value → Option (Except Defect Bool)
  | [], _ => none
  | .ifHolds r :: _, v => some (r.check follow v).holds
  | _ :: ks, v => Keyword.condition follow ks v

/-- What a value has against each of several keywords. -/
def Keyword.checkEach (follow : Follow) (condition : Option (Except Defect Bool)) :
    List Keyword → Value → Findings
  | [], _ => .none
  | k :: ks, v => Keyword.check follow condition k v ++ Keyword.checkEach follow condition ks v

def Keyword.check (follow : Follow) (condition : Option (Except Defect Bool)) :
    Keyword → Value → Findings
  | .properties rules, v => match v with
    | .map es => Rule.checkNamed follow rules es
    | _ => .none
  | .patternProperties rules, v => match v with
    | .map es => Rule.checkPatterns follow rules es
    | _ => .none
  | .additionalProperties listed ps hasPatterns rule, v => match v with
    | .map es => match extraMembers listed ps es with
      | .error d => .broken d
      | .ok extras =>
        if Keyword.isNever rule then
          .when (!extras.isEmpty) (extrasMessage (extras.map (·.1)) ps hasPatterns)
        else .concat (extras.map fun (name, x) => rule.place (.key name) (rule.check follow x))
    | _ => .none
  | .propertyNames rule, v => match v with
    | .map es => .concat (es.map fun (k, _) => rule.check follow (.scalar k))
    | _ => .none
  | .prefixItems rules, v => match v with
    | .list xs => Rule.checkPrefix follow rules 0 xs
    | _ => .none
  | .items after rule, v => match v with
    | .list xs =>
      let rest := xs.drop after
      if Keyword.isNever rule && !rest.isEmpty && 0 < after then
        .violation (s!"Expected at most {after} " ++ (if after = 1 then "item" else "items") ++
          s!" but found {rest.length} extra: " ++ restLiteral rest)
      else if Keyword.isNever rule && !rest.isEmpty then
        .violation (s!"Expected at most 0 items but found {rest.length} extra: " ++ restLiteral rest)
      else eachItem (fun step x => rule.place step (rule.check follow x)) after rest
    | _ => .none
  | .additionalItems after rule, v => match v with
    | .list xs =>
      let rest := xs.drop after
      if Keyword.isNever rule then
        .when (!rest.isEmpty) ("Additional items are not allowed (" ++
          ", ".intercalate (rest.map Value.literal) ++
          (if rest.length = 1 then " was" else " were") ++ " unexpected)")
      else eachItem (fun step x => rule.place step (rule.check follow x)) after rest
    | _ => .none
  | .contains least most rule, v => match v with
    | .list xs => match countHolding (rule.check follow) xs with
      | .ok n => Keyword.containsMessage v n least most
      | .error d => .broken d
    | _ => .none
  | .containsAny rule, v => match v with
    | .list xs => match countHolding (rule.check follow) xs with
      | .ok n => .when (n == 0) ("None of " ++ v.literal ++ " are valid under the given schema")
      | .error d => .broken d
    | _ => .none
  | .allOf rules, v => Rule.checkAll follow rules v
  | .anyOf rules, v => Rule.checkAny follow rules v
  | .oneOf rules, v => (Rule.choose follow rules v {}).findings v
  | .not source rule, v =>
    .given (rule.check follow v).holds fun b =>
      .when b (v.literal ++ " should not be valid under " ++ source.literal)
  | .ifHolds _, _ => match condition with
    | some (.error d) => .broken d
    | _ => .none
  | .thenHolds rule, v => match condition with
    | some (.ok true) => rule.check follow v
    | _ => .none
  | .elseHolds rule, v => match condition with
    | some (.ok false) => rule.check follow v
    | _ => .none
  | .dependentSchemas rules, v => match v with
    | .map es => Rule.checkDependent follow rules es v
    | _ => .none
  | .reference target, v => follow target v
  | .type w ns, v => Keyword.checkSimple (.type w ns) v
  | .enum vs, v => Keyword.checkSimple (.enum vs) v
  | .const x, v => Keyword.checkSimple (.const x) v
  | .limit s x, v => Keyword.checkSimple (.limit s x) v
  | .multipleOf x, v => Keyword.checkSimple (.multipleOf x) v
  | .least w n, v => Keyword.checkSimple (.least w n) v
  | .most w n, v => Keyword.checkSimple (.most w n) v
  | .pattern p, v => Keyword.checkSimple (.pattern p) v
  | .uniqueItems, v => Keyword.checkSimple .uniqueItems v
  | .required ns, v => Keyword.checkSimple (.required ns) v
  | .needed o ns, v => Keyword.checkSimple (.needed o ns) v
  | .defective d, _ => .broken d

/-- The members with the given names, each against its rule. -/
def Rule.checkNamed (follow : Follow) : List (String × Rule) → List (Scalar × Value) → Findings
  | [], _ => .none
  | (name, r) :: rs, es =>
    (match lookupText name es with
      | some x => r.place (.key name) (r.check follow x)
      | none => .none) ++ Rule.checkNamed follow rs es

/-- The members whose names match a pattern, each against the rule of the pattern. -/
def Rule.checkPatterns (follow : Follow) : List (Pattern × Rule) → List (Scalar × Value) → Findings
  | [], _ => .none
  | (p, r) :: rs, es => eachMember p.matches? (fun step x => r.place step (r.check follow x)) es ++ Rule.checkPatterns follow rs es

/-- The rules whose names are among the members, each against the whole. -/
def Rule.checkDependent (follow : Follow) :
    List (String × Rule) → List (Scalar × Value) → Value → Findings
  | [], _, _ => .none
  | (name, r) :: rs, es, v =>
    (if (lookupText name es).isSome then r.check follow v else .none) ++
      Rule.checkDependent follow rs es v

/-- The first items, each against its own rule. -/
def Rule.checkPrefix (follow : Follow) : List Rule → Nat → List Value → Findings
  | r :: rs, i, x :: xs => r.place (.index i) (r.check follow x) ++ Rule.checkPrefix follow rs (i + 1) xs
  | _, _, _ => .none

def Rule.checkAll (follow : Follow) : List Rule → Value → Findings
  | [], _ => .none
  | r :: rs, v => r.check follow v ++ Rule.checkAll follow rs v

/-- A violation unless one of the rules is kept. -/
def Rule.checkAny (follow : Follow) : List Rule → Value → Findings
  | [], v => .violation (v.literal ++ " is not valid under any of the given schemas")
  | r :: rs, v =>
    let f := r.check follow v
    match f.defect, f.violations with
    | some d, _ => .broken d
    | none, [] => .none
    | none, _ => Rule.checkAny follow rs v

/-- Which of several alternatives are kept. -/
def Rule.choose (follow : Follow) : List (Value × Rule) → Value → Choice → Choice
  | [], _, c => c
  | (source, r) :: rs, v, c =>
    let f := r.check follow v
    match c.defect with
    | some _ => c
    | none => match f.holds with
      | .error d => { c with defect := some d }
      | .ok false => Rule.choose follow rs v c
      | .ok true => match c.first with
        | none => Rule.choose follow rs v { c with first := some source }
        | some _ => Rule.choose follow rs v { c with more := c.more ++ [source] }
end

/-! ## Keywords about the value alone -/

namespace Keyword

variable (follow : Follow) (condition : Option (Except Defect Bool)) (v : Value)

theorem check_type (wholeFloats : Bool) (names : List Value) :
    check follow condition (.type wholeFloats names) v = checkSimple (.type wholeFloats names) v := by
  rw [check]

theorem check_pattern (p : Pattern) : check follow condition (.pattern p) v = checkSimple (.pattern p) v := by
  rw [check]

theorem check_required (names : List Value) :
    check follow condition (.required names) v = checkSimple (.required names) v := by
  rw [check]

theorem check_least (what : Extent) (count : Scalar) :
    check follow condition (.least what count) v = checkSimple (.least what count) v := by
  rw [check]

end Keyword

end ApiProjection
