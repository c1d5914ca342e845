import ApiProjection.Input.Content
import ApiProjection.Proofs.Validity.Bundled
import ApiProjection.Proofs.Visit.Written
/-!
# Documents that are written and read

The objects of a document have each name once, so nothing is lost when the text of a document is read:
what comes back is the document, if its floating-point numbers are read as what they are.

* `Json.reread_eq`: such a value comes back as it is.
* `Node.Keyed.toJson`: the JSON of a document has each name once in each object, whatever its free-form
  values hold.
* `Content.read_document`: the text of a document is read as the document by the reader of descriptions,
  whatever it is told about the format but that it is YAML, and a validator judges the document itself.
-/
namespace ApiProjection

/-! ## Values that come back -/

namespace Json

mutual
/-- Whether no object of a value has a name twice. -/
def Keyed : Json → Prop
  | .list xs => KeyedItems xs
  | .object ms => DistinctKeys ms ∧ KeyedMembers ms
  | .null | .bool _ | .int _ | .float _ | .text _ => True

def KeyedItems : List Json → Prop
  | [] => True
  | x :: xs => x.Keyed ∧ KeyedItems xs

def KeyedMembers : List (String × Json) → Prop
  | [] => True
  | (_, x) :: ms => x.Keyed ∧ KeyedMembers ms
end

mutual
/-- The floating-point numbers of a value. -/
def floats : Json → List Binary64
  | .float x => [x]
  | .list xs => floatsOfItems xs
  | .object ms => floatsOfMembers ms
  | .null | .bool _ | .int _ | .text _ => []

def floatsOfItems : List Json → List Binary64
  | [] => []
  | x :: xs => x.floats ++ floatsOfItems xs

def floatsOfMembers : List (String × Json) → List Binary64
  | [] => []
  | (_, x) :: ms => x.floats ++ floatsOfMembers ms
end

theorem keyedItems_iff {xs : List Json} : KeyedItems xs ↔ ∀ x ∈ xs, x.Keyed := by
  induction xs with
  | nil => simp [KeyedItems]
  | cons x xs ih => rw [KeyedItems, ih, List.forall_mem_cons]

theorem keyedMembers_iff {ms : List (String × Json)} : KeyedMembers ms ↔ ∀ m ∈ ms, m.2.Keyed := by
  induction ms with
  | nil => simp [KeyedMembers]
  | cons m ms ih => rw [KeyedMembers, ih, List.forall_mem_cons]

end Json

section
variable {β : Type} {k : String} {v : β} {es : List (String × β)}

theorem upsert_of_not_mem (h : k ∉ es.map Prod.fst) : upsert (· == ·) k v es = es ++ [(k, v)] := by
  induction es with
  | nil => rfl
  | cons e es ih =>
    rw [List.map_cons, List.mem_cons, not_or] at h
    have hne : (e.1 == k) = false := beq_eq_false_iff_ne.2 (Ne.symm h.1)
    rw [upsert, hne, ih h.2]
    rfl

theorem distinctKeys_upsert (h : DistinctKeys es) : DistinctKeys (upsert (· == ·) k v es) := by
  induction es with
  | nil => exact List.nodup_singleton k
  | cons e es ih =>
    obtain ⟨hfresh, hes⟩ := List.nodup_cons.1 h
    rw [upsert]
    split
    · exact h
    · rename_i hk
      refine List.nodup_cons.2 ⟨fun hm => ?_, ih hes⟩
      rcases (keys_upsert e.1).1 hm with hm | hm
      · exact hfresh hm
      · exact hk (beq_iff_eq.2 hm)

end

namespace Node

theorem inline_cons (own : List (String × Json)) (e : String × Json) (extra : List (String × Json)) :
    inline own (e :: extra) = inline (upsert (· == ·) e.1 e.2 own) extra := rfl

theorem distinctKeys_inline {own : List (String × Json)} (h : DistinctKeys own) (extra : List (String × Json)) :
    DistinctKeys (inline own extra) := by
  induction extra generalizing own with
  | nil => exact h
  | cons e extra ih =>
    rw [inline_cons]
    exact ih (distinctKeys_upsert h)

/-- Members with new names are put behind the others. -/
theorem inline_of_fresh {own extra : List (String × Json)} (h : DistinctKeys (own ++ extra)) :
    inline own extra = own ++ extra := by
  induction extra generalizing own with
  | nil => rw [List.append_nil]; rfl
  | cons e extra ih =>
    have hfresh : e.1 ∉ own.map Prod.fst := by
      rw [DistinctKeys, List.map_append, List.nodup_append] at h
      exact fun hm => h.2.2 e.1 hm e.1 (List.mem_map_of_mem List.mem_cons_self) rfl
    rw [List.append_cons] at h
    rw [inline_cons, upsert_of_not_mem hfresh, ih h, ← List.append_cons]

end Node

namespace Json

theorem collapse_of_distinct {ms : List (String × Json)} (h : DistinctKeys ms) : collapse (· == ·) ms = ms := by
  rw [Node.collapse_eq, Node.inline_of_fresh (by simpa using h), List.nil_append]

mutual
/-- What comes back of a value is the value, if its floating-point numbers come back. -/
theorem reread_eq : ∀ {j : Json}, j.Keyed → (∀ x ∈ j.floats, x.reread = x) → j.reread = j
  | .null, _, _ | .bool _, _, _ | .int _, _, _ | .text _, _, _ => by rw [reread]
  | .float x, _, hf => by rw [reread, hf x (List.mem_singleton_self x)]
  | .list xs, hk, hf => by
    rw [Keyed] at hk
    rw [floats] at hf
    rw [reread, rereadItems_self hk hf]
  | .object ms, hk, hf => by
    rw [Keyed] at hk
    rw [floats] at hf
    rw [reread, rereadMembers_self hk.2 hf, collapse_of_distinct hk.1]

theorem rereadItems_self : ∀ {xs : List Json}, KeyedItems xs → (∀ x ∈ floatsOfItems xs, x.reread = x) →
    rereadItems xs = xs
  | [], _, _ => by rw [rereadItems]
  | x :: xs, hk, hf => by
    rw [KeyedItems] at hk
    rw [floatsOfItems, List.forall_mem_append] at hf
    rw [rereadItems, reread_eq hk.1 hf.1, rereadItems_self hk.2 hf.2]

theorem rereadMembers_self : ∀ {ms : List (String × Json)}, KeyedMembers ms →
    (∀ x ∈ floatsOfMembers ms, x.reread = x) → rereadMembers ms = ms
  | [], _, _ => by rw [rereadMembers]
  | (k, x) :: ms, hk, hf => by
    rw [KeyedMembers] at hk
    rw [floatsOfMembers, List.forall_mem_append] at hf
    rw [rereadMembers, reread_eq hk.1 hf.1, rereadMembers_self hk.2 hf.2]
end

end Json

/-! ## Documents with each name once -/

theorem Scalar.keyed_toJson {s : Scalar} {j : Json} (h : s.toJson = .ok j) : j.Keyed := by
  cases s with
  | float x =>
    rw [Scalar.toJson] at h
    split at h <;> (cases h; trivial)
  | bytes bs =>
    rw [Scalar.toJson] at h
    cases hd : Utf8.decode bs with
    | error f =>
      rw [hd] at h
      cases h
    | ok s =>
      rw [hd] at h
      cases h
      trivial
  | _ => cases h; trivial

theorem Scalar.keyed_mapM : ∀ {ss : List Scalar} {js : List Json}, ss.mapM Scalar.toJson = .ok js → Json.KeyedItems js
  | [], _, h => by
    cases h
    trivial
  | s :: ss, js, h => by
    rw [List.mapM_cons] at h
    obtain ⟨j, hj, h⟩ := Node.bind_ok h
    obtain ⟨js', hjs, h⟩ := Node.bind_ok h
    cases h
    exact ⟨keyed_toJson hj, keyed_mapM hjs⟩

namespace Value

mutual
/-- A map that is written as JSON has each name once: of entries that get the same name one is kept. -/
theorem keyed_toJson : ∀ {v : Value} {j : Json}, v.toJson = .ok j → j.Keyed
  | .scalar s, _, h => s.keyed_toJson h
  | .list xs, _, h | .tuple xs, _, h => by
    rw [toJson] at h
    obtain ⟨js, hjs, h⟩ := Node.bind_ok h
    cases h
    exact keyed_listToJson hjs
  | .set ms, _, h => by
    rw [toJson] at h
    obtain ⟨js, hjs, h⟩ := Node.bind_ok h
    cases h
    exact Scalar.keyed_mapM hjs
  | .map es, _, h => by
    rw [toJson] at h
    obtain ⟨ms, hms, h⟩ := Node.bind_ok h
    cases h
    have hmembers := Json.keyedMembers_iff.1 (keyed_entriesToMembers hms)
    rw [Json.Keyed, Node.collapse_eq, Json.keyedMembers_iff]
    have hnil : DistinctKeys ([] : List (String × Json)) := List.nodup_nil
    refine ⟨Node.distinctKeys_inline hnil ms, fun m hm => ?_⟩
    rcases Node.mem_of_mem_inline hm with hm | hm
    · cases hm
    · exact hmembers m hm

theorem keyed_listToJson : ∀ {xs : List Value} {js : List Json}, listToJson xs = .ok js → Json.KeyedItems js
  | [], _, h => by
    cases h
    trivial
  | x :: xs, _, h => by
    rw [listToJson] at h
    obtain ⟨j, hj, h⟩ := Node.bind_ok h
    obtain ⟨js, hjs, h⟩ := Node.bind_ok h
    cases h
    exact ⟨keyed_toJson hj, keyed_listToJson hjs⟩

theorem keyed_entriesToMembers : ∀ {es : List (Scalar × Value)} {ms : List (String × Json)},
    entriesToMembers es = .ok ms → Json.KeyedMembers ms
  | [], _, h => by
    cases h
    trivial
  | (k, x) :: es, _, h => by
    rw [entriesToMembers] at h
    obtain ⟨name, _, h⟩ := Node.bind_ok h
    obtain ⟨j, hj, h⟩ := Node.bind_ok h
    obtain ⟨ms, hms, h⟩ := Node.bind_ok h
    cases h
    exact ⟨keyed_toJson hj, keyed_entriesToMembers hms⟩
end

end Value

namespace Node

mutual
/-- Whether no object of a document has an entry twice. -/
def Keyed : Node → Prop
  | .free _ | .text _ => True
  | .list ns => KeyedItems ns
  | .object es _ => DistinctKeys es ∧ KeyedEntries es

def KeyedItems : List Node → Prop
  | [] => True
  | n :: ns => n.Keyed ∧ KeyedItems ns

def KeyedEntries : List (String × Node) → Prop
  | [] => True
  | (_, n) :: es => n.Keyed ∧ KeyedEntries es
end

theorem keyed_extensionMembers {xs : Extensions} {ms : List (String × Json)} (h : extensionMembers xs = .ok ms) :
    Json.KeyedMembers ms := by
  induction xs generalizing ms with
  | nil =>
    cases h
    trivial
  | cons x xs ih =>
    obtain ⟨j, hj, h⟩ := bind_ok h
    obtain ⟨ms', hms, h⟩ := bind_ok h
    cases h
    exact ⟨Value.keyed_toJson hj, ih hms⟩

mutual
/-- The JSON of a document has each name once in each object. -/
theorem Keyed.toJson : ∀ {n : Node} {j : Json}, n.Keyed → n.toJson = .ok j → j.Keyed
  | .free v, _, _, h => Value.keyed_toJson h
  | .text s, _, _, h => by
    cases h
    trivial
  | .list ns, _, hk, h => by
    rw [Node.toJson] at h
    obtain ⟨js, hjs, h⟩ := bind_ok h
    cases h
    exact KeyedItems.toJson hk hjs
  | .object es xs, _, hk, h => by
    rw [Node.toJson] at h
    obtain ⟨own, hown, h⟩ := bind_ok h
    obtain ⟨extra, hextra, h⟩ := bind_ok h
    cases h
    have hkeys : DistinctKeys own := by
      rw [DistinctKeys, keys_entriesToJson hown]
      exact hk.1
    have hmembers := Json.keyedMembers_iff.1 (KeyedEntries.toJson hk.2 hown)
    rw [Json.Keyed, Json.keyedMembers_iff]
    refine ⟨distinctKeys_inline hkeys extra, fun m hm => ?_⟩
    rcases mem_of_mem_inline hm with hm | hm
    · exact hmembers m hm
    · exact Json.keyedMembers_iff.1 (keyed_extensionMembers hextra) m hm

theorem KeyedItems.toJson : ∀ {ns : List Node} {js : List Json}, KeyedItems ns → listToJson ns = .ok js →
    Json.KeyedItems js
  | [], _, _, h => by
    cases h
    trivial
  | n :: ns, _, hk, h => by
    rw [listToJson] at h
    obtain ⟨j, hj, h⟩ := bind_ok h
    obtain ⟨js, hjs, h⟩ := bind_ok h
    cases h
    exact ⟨Keyed.toJson hk.1 hj, KeyedItems.toJson hk.2 hjs⟩

theorem KeyedEntries.toJson : ∀ {es : List (String × Node)} {ms : List (String × Json)}, KeyedEntries es →
    entriesToJson es = .ok ms → Json.KeyedMembers ms
  | [], _, _, h => by
    cases h
    trivial
  | (k, n) :: es, _, hk, h => by
    obtain ⟨j, rest, hj, hrest, rfl⟩ := entriesToJson_cons.1 h
    exact ⟨Keyed.toJson hk.1 hj, KeyedEntries.toJson hk.2 hrest⟩
end

end Node

/-! ## Readers -/

/-- What a validator finds of the value that a document is. -/
def Validator.judge (v : Validator) (cancel : Cancellation) (document : Value) (t : Target) : Except Invalid Unit :=
  if cancel 0 then .error .cancelledBeforeStart
  else
    let found := MetaSchema.check (v.schemaFor t) document
    match reports cancel 1 found.violations, found.defect with
    | none, _ => .error .cancelled
    | some _, some d => .error (.defective d)
    | some [], none => .ok ()
    | some errors, none => .error (.violations t (sortTexts errors))

/-- A validator that reads the text of a value judges what comes back of it. -/
theorem Validator.validate_jsonText (v : Validator) (cancel : Cancellation) {j : Json}
    (hlong : j.hasLongInteger = false) (t : Target) :
    v.validate cancel (Projection.jsonText j) t = v.judge cancel j.reread.toValue t := by
  unfold validate
  simp only [withoutMark_jsonText, Json.read_jsonText hlong]
  rfl

theorem Hint.ofName_ne_yaml {hint : String} (h : hint ≠ "yaml") : Hint.ofName hint ≠ .yaml := by
  unfold ofName
  split
  · exact Hint.noConfusion
  · exact absurd rfl h
  · exact Hint.noConfusion

namespace Content

/-- A reader of descriptions that is not told that a text is YAML reads a text in JSON as what it says. -/
theorem read_of_json {hint : Hint} (hh : hint ≠ .yaml) {text : String} {j : Json} (hread : Json.read text = .ok j) :
    read hint text = requireObject j.toValue := by
  cases hint with
  | yaml => exact absurd rfl hh
  | json | none => simp only [read, hread]

/-- Of the text of a value it reads what comes back of it. -/
theorem read_jsonText {hint : Hint} (hh : hint ≠ .yaml) {j : Json} (hlong : j.hasLongInteger = false) :
    read hint (Projection.jsonText j) = requireObject j.reread.toValue :=
  read_of_json hh (Json.read_jsonText hlong)

/-- **The text of a document is read as the document.** Of a document with each name once in each object,
which can be written down and whose floating-point numbers are read as what they are: its JSON text is read
as its entries under every hint but the one for YAML, and a validator that reads the text judges the
document. -/
theorem read_document {es : List (String × Node)} {xs : Extensions} {j : Json}
    (hj : (Node.object es xs).document = .ok j) (hk : (Node.object es xs).Keyed)
    (hfloats : ∀ x ∈ j.floats, x.reread = x) :
    (∃ entries, j.toValue = .map entries ∧ ∀ hint, hint ≠ "yaml" →
      read (Hint.ofName hint) (Projection.jsonText j) = .ok entries) ∧
    ∀ (v : Validator) (cancel : Cancellation) (t : Target),
      v.validate cancel (Projection.jsonText j) t = v.judge cancel j.toValue t := by
  obtain ⟨hjson, hlong⟩ := Node.of_document hj
  have hreread : j.reread = j := Json.reread_eq (hk.toJson hjson) hfloats
  obtain ⟨entries, hentries⟩ : ∃ entries, j.toValue = .map entries := by
    rw [Node.toJson] at hjson
    obtain ⟨own, _, hjson⟩ := Node.bind_ok hjson
    obtain ⟨extra, _, hjson⟩ := Node.bind_ok hjson
    cases hjson
    exact ⟨_, by rw [Json.toValue]⟩
  refine ⟨⟨entries, hentries, fun hint hh => ?_⟩, fun v cancel t => ?_⟩
  · rw [read_jsonText (Hint.ofName_ne_yaml hh) hlong, hreread, hentries, requireObject]
  · rw [Validator.validate_jsonText v cancel hlong, hreread]

end Content
end ApiProjection
