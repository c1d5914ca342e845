import ApiProjection.Projection.Operation
import ApiProjection.Proofs.Pointer
/-!
# Following places in documents

`Json.resolve?` takes the text of a pointer apart and follows it from the root of a JSON value,
member by member and position by position. `Node.follow?` follows segments in a document that is not
JSON yet.

* `Node.toJson_follow`: what segments lead to before a document becomes JSON they lead to afterwards,
  as JSON. Extensions do not get in the way, as a key that one of them has leads nowhere.
* `Node.child_extended`: the key of a field leads into that field, whatever extensions there are.
-/
namespace ApiProjection

/-- The items of a list from a position on, each with the text of its position. -/
def positioned {α : Type} (i : Nat) (xs : List α) : List (String × α) :=
  (xs.zipIdx i).map fun e => (toString e.2, e.1)

namespace Json

/-- The parts of a value, each with the segment that leads to it. -/
def members : Json → List (String × Json)
  | .list xs => positioned 0 xs
  | .object ms => ms
  | _ => []

/-- What segments lead to. -/
def follow? : Json → List String → Option Json
  | j, [] => some j
  | j, k :: ks => (j.members.lookup k).bind fun i => follow? i ks

/-- What the text of a pointer leads to from the root of a value. -/
def resolve? (j : Json) (text : String) : Option Json := j.follow? (Pointer.parts "#" text)

end Json

namespace Node

/-- The part of a node that a segment leads to. -/
def child? : Node → String → Option Node
  | .object es xs, k => if xs.any fun x => x.1 == k then none else es.lookup k
  | .list ns, k => (positioned 0 ns).lookup k
  | _, _ => none

/-- What segments lead to. -/
def follow? : Node → List String → Option Node
  | n, [] => some n
  | n, k :: ks => (n.child? k).bind fun m => follow? m ks

theorem follow?_append (n : Node) (ks ls : List String) :
    n.follow? (ks ++ ls) = (n.follow? ks).bind fun m => m.follow? ls := by
  induction ks generalizing n with
  | nil => rfl
  | cons k ks ih =>
    rw [List.cons_append, follow?, follow?, Option.bind_assoc]
    exact Option.bind_congr fun m _ => ih m

/-! ## From nodes to JSON -/

/-- A result that is there was computed from one that is there. -/
theorem bind_ok {ε α β : Type} {x : Except ε α} {f : α → Except ε β} {b : β} (h : x >>= f = .ok b) :
    ∃ a, x = .ok a ∧ f a = .ok b := by
  cases x with
  | error e => cases h
  | ok a => exact ⟨a, rfl, h⟩

theorem lookup_upsert_ne {β : Type} {k l : String} (h : k ≠ l) (v : β) (es : List (String × β)) :
    (upsert (· == ·) l v es).lookup k = es.lookup k := by
  induction es with
  | nil => simp [upsert, h]
  | cons e es ih =>
    obtain ⟨l', w⟩ := e
    rw [upsert]
    split
    · rename_i hl
      rw [beq_iff_eq] at hl
      simp [List.lookup_cons, hl, beq_eq_false_iff_ne.2 h]
    · rw [List.lookup_cons, List.lookup_cons, ih]

theorem lookup_inline {k : String} {extra : List (String × Json)} (h : k ∉ extra.map Prod.fst)
    (own : List (String × Json)) : (inline own extra).lookup k = own.lookup k := by
  induction extra generalizing own with
  | nil => rfl
  | cons e extra ih =>
    simp only [List.map_cons, List.mem_cons, not_or] at h
    rw [inline, List.foldl_cons, ← inline, ih h.2, lookup_upsert_ne h.1]

theorem keys_extensionMembers {xs : Extensions} {extra : List (String × Json)}
    (h : extensionMembers xs = .ok extra) : extra.map Prod.fst = xs.map Prod.fst := by
  induction xs generalizing extra with
  | nil =>
    cases h
    rfl
  | cons x xs ih =>
    obtain ⟨j, _, h⟩ := bind_ok h
    obtain ⟨rest, hr, h⟩ := bind_ok h
    cases h
    simp [ih hr]

theorem entriesToJson_cons {e : String × Node} {es : List (String × Node)} {ms : List (String × Json)} :
    entriesToJson (e :: es) = .ok ms ↔
      ∃ j rest, e.2.toJson = .ok j ∧ entriesToJson es = .ok rest ∧ (e.1, j) :: rest = ms := by
  constructor
  · intro h
    obtain ⟨j, hj, h⟩ := bind_ok h
    obtain ⟨rest, hrest, h⟩ := bind_ok h
    cases h
    exact ⟨j, rest, hj, hrest, rfl⟩
  · rintro ⟨j, rest, hj, hrest, rfl⟩
    rw [entriesToJson, hj, hrest]
    rfl

theorem keys_entriesToJson {es : List (String × Node)} {ms : List (String × Json)}
    (h : entriesToJson es = .ok ms) : ms.map Prod.fst = es.map Prod.fst := by
  induction es generalizing ms with
  | nil =>
    cases h
    rfl
  | cons e es ih =>
    obtain ⟨j, rest, _, hrest, rfl⟩ := entriesToJson_cons.1 h
    simp [ih hrest]

theorem lookup_entriesToJson {es : List (String × Node)} {own : List (String × Json)}
    (h : entriesToJson es = .ok own) {k : String} {m : Node} (hk : es.lookup k = some m) :
    ∃ i, m.toJson = .ok i ∧ own.lookup k = some i := by
  induction es generalizing own with
  | nil => cases hk
  | cons e es ih =>
    obtain ⟨l, n⟩ := e
    obtain ⟨j, hj, h⟩ := bind_ok h
    obtain ⟨rest, hr, h⟩ := bind_ok h
    cases h
    rw [List.lookup_cons] at hk ⊢
    cases hkl : k == l with
    | true =>
      rw [hkl] at hk
      cases hk
      exact ⟨j, hj, rfl⟩
    | false =>
      rw [hkl] at hk
      exact ih hr hk

theorem lookup_listToJson {ns : List Node} {js : List Json} (h : listToJson ns = .ok js) {i : Nat}
    {k : String} {m : Node} (hk : (positioned i ns).lookup k = some m) :
    ∃ j, m.toJson = .ok j ∧ (positioned i js).lookup k = some j := by
  induction ns generalizing js i with
  | nil => cases hk
  | cons n ns ih =>
    obtain ⟨j, hj, h⟩ := bind_ok h
    obtain ⟨rest, hr, h⟩ := bind_ok h
    cases h
    rw [positioned, List.zipIdx_cons, List.map_cons, List.lookup_cons, ← positioned] at hk ⊢
    cases hki : k == toString i with
    | true =>
      rw [hki] at hk
      cases hk
      exact ⟨j, hj, rfl⟩
    | false =>
      rw [hki] at hk
      exact ih hr hk

/-- One step in a document is the same step in its JSON. -/
theorem toJson_child {n m : Node} {j : Json} {k : String} (h : n.toJson = .ok j) (hk : n.child? k = some m) :
    ∃ i, m.toJson = .ok i ∧ j.members.lookup k = some i := by
  match n with
  | .free _ | .text _ => cases hk
  | .list ns =>
    obtain ⟨js, hjs, h⟩ := bind_ok h
    cases h
    exact lookup_listToJson hjs hk
  | .object es xs =>
    obtain ⟨own, ho, h⟩ := bind_ok h
    obtain ⟨extra, he, h⟩ := bind_ok h
    cases h
    have hx : k ∉ extra.map Prod.fst := by
      rw [keys_extensionMembers he]
      intro hm
      obtain ⟨x, hx, rfl⟩ := List.mem_map.1 hm
      rw [child?, if_pos (List.any_eq_true.2 ⟨x, hx, by simp⟩)] at hk
      cases hk
    obtain ⟨i, hi, hl⟩ := lookup_entriesToJson ho (m := m) (k := k) (by
      rw [child?] at hk
      split at hk
      · cases hk
      · exact hk)
    exact ⟨i, hi, by rw [Json.members, lookup_inline hx, hl]⟩

/-- Where an object has no entry its JSON has no member, if no extension has the key. -/
theorem toJson_child_none {es : List (String × Node)} {xs : Extensions} {j : Json} {k : String}
    (h : (Node.object es xs).toJson = .ok j) (hx : ∀ x ∈ xs, x.1 ≠ k) (hk : es.lookup k = none) :
    j.members.lookup k = none := by
  obtain ⟨own, ho, h⟩ := bind_ok h
  obtain ⟨extra, he, h⟩ := bind_ok h
  cases h
  have hextra : k ∉ extra.map Prod.fst := by
    rw [keys_extensionMembers he]
    rintro hm
    obtain ⟨x, hx', rfl⟩ := List.mem_map.1 hm
    exact hx x hx' rfl
  rw [Json.members, lookup_inline hextra, List.lookup_eq_none_iff]
  rw [List.lookup_eq_none_iff] at hk
  intro m hm
  have hmem : m.1 ∈ es.map Prod.fst := keys_entriesToJson ho ▸ List.mem_map_of_mem hm
  obtain ⟨e, he', hem⟩ := List.mem_map.1 hmem
  exact hem ▸ hk e he'

theorem toJson_follow {n m : Node} {j : Json} {ks : List String} (h : n.toJson = .ok j)
    (hk : n.follow? ks = some m) : ∃ i, m.toJson = .ok i ∧ j.follow? ks = some i := by
  induction ks generalizing n j with
  | nil =>
    cases hk
    exact ⟨j, h, rfl⟩
  | cons k ks ih =>
    obtain ⟨c, hc, hk⟩ := Option.bind_eq_some_iff.1 hk
    obtain ⟨l, hl, hm⟩ := toJson_child h hc
    obtain ⟨i, hi, hf⟩ := ih hl hk
    exact ⟨i, hi, by rw [Json.follow?, hm, Option.bind_some, hf]⟩

/-! ## Fields -/

section
variable {name k : String} (h : k ≠ name)

include h

@[simp] theorem Field.lookup_text (s : String) : (Field.text name s).lookup k = none := by
  simp [Field.text, h]

@[simp] theorem Field.lookup_text? (o : Option String) : (Field.text? name o).lookup k = none := by
  unfold Field.text?
  repeat' split
  all_goals simp [h]

@[simp] theorem Field.lookup_flag (b : Bool) : (Field.flag name b).lookup k = none := by
  unfold Field.flag
  split <;> simp [h]

@[simp] theorem Field.lookup_int? (o : Option Int) : (Field.int? name o).lookup k = none := by
  cases o <;> simp [Field.int?, h]

@[simp] theorem Field.lookup_number? (o : Option Number) : (Field.number? name o).lookup k = none := by
  cases o <;> simp [Field.number?, h]

@[simp] theorem Field.lookup_free (v : Value) : (Field.free name v).lookup k = none := by
  unfold Field.free
  split <;> simp [h]

@[simp] theorem Field.lookup_frees (vs : List Value) : (Field.frees name vs).lookup k = none := by
  unfold Field.frees
  split <;> simp [h]

@[simp] theorem Field.lookup_texts (ss : List String) : (Field.texts name ss).lookup k = none := by
  unfold Field.texts
  split <;> simp [h]

end

section
variable (name k : String)

@[simp] theorem Field.lookup_single (n : Node) :
    ([(name, n)] : Field).lookup k = if k = name then some n else none := by
  by_cases h : k = name
  · simp [h]
  · simp [List.lookup_cons, h, beq_eq_false_iff_ne.2 h]

theorem Field.free_bool (b : Bool) : Field.free name (.bool b) = [(name, .free (.bool b))] := rfl

@[simp] theorem Field.lookup_node? (o : Option Node) :
    (Field.node? name o).lookup k = if k = name then o else none := by
  cases o with
  | none => simp [Field.node?]
  | some n => rw [Field.node?, Field.lookup_single]

@[simp] theorem Field.lookup_nodes (ns : List Node) :
    (Field.nodes name ns).lookup k = if k = name ∧ ns ≠ [] then some (.list ns) else none := by
  cases ns with
  | nil => simp [Field.nodes]
  | cons n ns => simp [Field.nodes]

@[simp] theorem Field.lookup_named (ns : List (String × Node)) :
    (Field.named name ns).lookup k = if k = name ∧ ns ≠ [] then some (.object ns []) else none := by
  cases ns with
  | nil => simp [Field.named]
  | cons n ns => simp [Field.named]

end

/-! ## Objects with extensions -/

/-- A key that no extension has leads to a field. -/
theorem child_fresh {t : Target} {k : String} {xs : Extensions} (h : ∀ x ∈ Extension.allowed t xs, x.1 ≠ k)
    (fields : List Field) : (Node.extended t fields xs).child? k = fields.flatten.lookup k := by
  have hany : (Extension.allowed t xs).any (fun x => x.1 == k) = false :=
    List.any_eq_false.2 fun x hx => by simpa using h x hx
  rw [Node.extended, Node.ofFields, child?, hany]
  rfl

theorem ne_allowed {t : Target} {k : String} (h : "x-".isPrefixOf k = false) {xs : Extensions} :
    ∀ x ∈ Extension.allowed t xs, x.1 ≠ k := by
  intro x hx hk
  have ha := (List.mem_filter.1 hx).2
  simp [Extension.isAllowed, hk, h] at ha

/-- No extension takes the place of a field. -/
theorem child_extended {t : Target} {k : String} (h : "x-".isPrefixOf k = false) (fields : List Field)
    (xs : Extensions) : (Node.extended t fields xs).child? k = fields.flatten.lookup k :=
  child_fresh (ne_allowed h) fields

/-- Prefixes of texts as prefixes of lists, which are easier to decide. -/
theorem isPrefixOf_eq_false {p s : String} : p.isPrefixOf s = false ↔ ¬p.toList <+: s.toList :=
  String.startsWith_string_eq_false_iff

/-- The names of the fields that parts of a document are written in. -/
def partNames : List String :=
  ["servers", "paths", "components", "webhooks", "pathItems", "schemas", "requestBodies", "parameters",
    "requestBody", "responses", "callbacks", "links", "server", "variables", "headers", "content", "encoding",
    "schema", "items", "properties", "additionalProperties", "patternProperties", "unevaluatedProperties",
    "allOf", "anyOf", "oneOf", "not"]

theorem partNames_plain : ∀ k ∈ partNames, "x-".isPrefixOf k = false := by
  simp only [isPrefixOf_eq_false]
  decide

theorem child_part {t : Target} {k : String} (h : k ∈ partNames) (fields : List Field) (xs : Extensions) :
    (Node.extended t fields xs).child? k = fields.flatten.lookup k :=
  child_extended (partNames_plain k h) fields xs

end Node
end ApiProjection
