import ApiProjection.Record.Issue
/-!
# Reading records

`Read` is the outcome of reading a value: a result, or every issue found. Its `<*>` goes on after
an issue, so that all of them are reported. `Fields` reads the entries of a map as the fields of
a record and remembers their spellings, so that `Fields.closed` can refuse every other key.
The entries of a map may be of any type that a value can be had from; recursive readers take
the children of a value together with the fact that they are smaller (`Below`).
-/
namespace ApiProjection.Record

/-! ## Outcomes -/

inductive Read (α : Type)
  | done (a : α)
  | failed (issues : List Issue)

namespace Read

def map {α β : Type} (f : α → β) : Read α → Read β
  | done a => done (f a)
  | failed is => failed is

/-- Both outcomes; the issues of the first come first. -/
def both {α β : Type} : Read α → Read β → Read (α × β)
  | done a, done b => done (a, b)
  | done _, failed is => failed is
  | failed is, done _ => failed is
  | failed is, failed js => failed (is ++ js)

instance : Applicative Read where
  pure := done
  seq f x := map (fun (g, a) => g a) (both f (x ()))

/-- The issue that a value is not what it should be. -/
def fail {α : Type} (cause : Cause) (input : Value) : Read α := failed [⟨[], cause, input⟩]

/-- An outcome found one step further in. -/
def under {α : Type} (step : Step) : Read α → Read α
  | done a => done a
  | failed is => failed (is.map fun i => { i with place := step :: i.place })

/-- All outcomes of a list. -/
def all {α : Type} : List (Read α) → Read (List α)
  | [] => done []
  | r :: rs => map (fun (a, as) => a :: as) (both r (all rs))

end Read

/-! ## Children of a value -/

/-- A value smaller than `v`. -/
abbrev Below (v : Value) := { c : Value // sizeOf c < sizeOf v }

theorem sizeOf_lt_list {x : Value} {xs : List Value} (h : x ∈ xs) : sizeOf x < sizeOf (Value.list xs) := by
  have := List.sizeOf_lt_of_mem h
  simp only [Value.list.sizeOf_spec]
  omega

theorem sizeOf_lt_tuple {x : Value} {xs : List Value} (h : x ∈ xs) : sizeOf x < sizeOf (Value.tuple xs) := by
  have := List.sizeOf_lt_of_mem h
  simp only [Value.tuple.sizeOf_spec]
  omega

theorem sizeOf_lt_map {e : Scalar × Value} {es : List (Scalar × Value)} (h : e ∈ es) :
    sizeOf e.2 < sizeOf (Value.map es) := by
  have := List.sizeOf_lt_of_mem h
  have hp : sizeOf e = 1 + sizeOf e.1 + sizeOf e.2 := by cases e; rfl
  simp only [Value.map.sizeOf_spec]
  omega

theorem sizeOf_lt_set {s : Scalar} {ss : List Scalar} (h : s ∈ ss) :
    sizeOf (Value.scalar s) < sizeOf (Value.set ss) := by
  have := List.sizeOf_lt_of_mem h
  simp only [Value.scalar.sizeOf_spec, Value.set.sizeOf_spec]
  omega

/-- The entries of a map. -/
def entriesBelow? (v : Value) : Option (List (Scalar × Below v)) :=
  match v with
  | .map es => some (es.attach.map fun ⟨e, h⟩ => (e.1, ⟨e.2, sizeOf_lt_map h⟩))
  | _ => none

/-- The items of a list, a row or a set. -/
def itemsBelow? (v : Value) : Option (List (Below v)) :=
  match v with
  | .list xs => some (xs.attach.map fun ⟨x, h⟩ => ⟨x, sizeOf_lt_list h⟩)
  | .tuple xs => some (xs.attach.map fun ⟨x, h⟩ => ⟨x, sizeOf_lt_tuple h⟩)
  | .set ss => some (ss.attach.map fun ⟨s, h⟩ => ⟨.scalar s, sizeOf_lt_set h⟩)
  | _ => none

namespace Below

/-- A child of a child. -/
def widen {v : Value} (c : Below v) (d : Below c.1) : Below v := ⟨d.1, Nat.lt_trans d.2 c.2⟩

def entries? {v : Value} (c : Below v) : Option (List (Scalar × Below v)) :=
  (entriesBelow? c.1).map fun es => es.map fun (k, d) => (k, c.widen d)

def items? {v : Value} (c : Below v) : Option (List (Below v)) :=
  (itemsBelow? c.1).map fun ds => ds.map c.widen

end Below

/-! ## Fields -/

/-- A reader of some fields: their spellings, the preferred one of each first, and how they are
read from the entries of a map. The whole map is at hand for the issue that a field is missing. -/
structure Fields (γ α : Type) where
  spellings : List (List String)
  read : Value → List (Scalar × γ) → Read α

namespace Fields

instance {γ : Type} : Applicative (Fields γ) where
  pure a := ⟨[], fun _ _ => .done a⟩
  seq f x :=
    let x := x ()
    ⟨f.spellings ++ x.spellings, fun v es => f.read v es <*> x.read v es⟩

/-- The first spelling that is a key, with its value. -/
def find? {γ : Type} (spellings : List String) (entries : List (Scalar × γ)) : Option (String × γ) :=
  spellings.findSome? fun s => (lookupText s entries).map (s, ·)

/-- A field that has a default. -/
def optional {γ α : Type} (spellings : List String) (default : α) (read : γ → Read α) : Fields γ α :=
  ⟨[spellings], fun _ es => match find? spellings es with
    | some (s, c) => (read c).under (.key s)
    | none => .done default⟩

/-- A field that must be there. -/
def required {γ α : Type} (spellings : List String) (read : γ → Read α) : Fields γ α :=
  ⟨[spellings], fun v es => match find? spellings es with
    | some (s, c) => (read c).under (.key s)
    | none => .failed [⟨[.key (spellings.headD "")], .missing, v⟩]⟩

/-- The step into the value at a key: a text by itself, a small number as a position, anything
else as it is quoted. -/
def stepOf : Scalar → Step
  | .text s => .key s
  | k => match k.whole? with
    | some n => if n.natAbs < Nat.pow 2 63 then .index n else .key k.literal
    | none => .key k.literal

/-- The issue of a key that is no field, if it is none. -/
def unexpected? {γ : Type} (value : γ → Value) (used : List String) (e : Scalar × γ) : Option Issue :=
  match e.1 with
  | .text s => if used.contains s then none else some ⟨[.key s], .unexpected, value e.2⟩
  | k => some ⟨[stepOf k], .keyText, .scalar k⟩

/-- Reads a map as a record with these fields and no other keys; a field spelled twice counts in
its preferred spelling only. -/
def closed {γ α : Type} (fields : Fields γ α) (name : String) (input : Value)
    (entries : Option (List (Scalar × γ))) (value : γ → Value) : Read α :=
  match entries with
  | none => .fail (.record name) input
  | some es =>
    let used := fields.spellings.filterMap fun ss => (find? ss es).map (·.1)
    match es.filterMap (unexpected? value used) with
    | [] => fields.read input es
    | issues => (Read.both (fields.read input es) (Read.failed issues (α := Unit))).map (·.1)

/-- Reads a map as a record with these fields, whatever other keys it has. -/
def lenient {γ α : Type} (fields : Fields γ α) (name : String) (input : Value)
    (entries : Option (List (Scalar × γ))) : Read α :=
  match entries with
  | none => .fail (.record name) input
  | some es => fields.read input es

end Fields
end ApiProjection.Record
