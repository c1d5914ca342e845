import ApiProjection.Projection.Rendering
import ApiProjection.Proofs.Resolve
/-!
# Documents that can be written down

A document is JSON unless some free-form value in it holds bytes that are no text, and it is written down
unless some integer in it has too many digits.

* `Node.toJson_isOk`: which documents are JSON.
* `Node.isWritable_iff`: which documents are written down.
-/
namespace ApiProjection

open Node (bind_ok entriesToJson_cons)

/-! ## Results that are there -/

/-- Whether a computation gives a result. -/
def IsOk {ε α : Type} (x : Except ε α) : Prop := ∃ a, x = .ok a

section
variable {ε α β : Type}

@[simp] theorem isOk_ok (a : α) : IsOk (.ok a : Except ε α) := ⟨a, rfl⟩

@[simp] theorem isOk_pure (a : α) : IsOk (pure a : Except ε α) := ⟨a, rfl⟩

@[simp] theorem isOk_map {x : Except ε α} {f : α → β} : IsOk (x.map f) ↔ IsOk x := by
  cases x with
  | ok a => exact iff_of_true ⟨f a, rfl⟩ ⟨a, rfl⟩
  | error e => exact iff_of_false (fun ⟨_, h⟩ => by cases h) (fun ⟨_, h⟩ => by cases h)

/-- If what follows always gives a result, the whole does so when its first part does. -/
theorem isOk_bind {x : Except ε α} {f : α → Except ε β} {p : Prop} (hf : ∀ a, IsOk (f a) ↔ p) :
    IsOk (x >>= f) ↔ IsOk x ∧ p := by
  constructor
  · rintro ⟨b, hb⟩
    obtain ⟨a, ha, hfa⟩ := bind_ok hb
    exact ⟨⟨a, ha⟩, (hf a).1 ⟨b, hfa⟩⟩
  · rintro ⟨⟨a, rfl⟩, hp⟩
    exact (hf a).2 hp

end

/-! ## Free-form values -/

/-- Bytes that are the UTF-8 of a text. -/
def Utf8.IsText (bs : List UInt8) : Prop := IsOk (decode bs)

/-- The bytes that a scalar consists of. -/
def Scalar.byteStrings : Scalar → List (List UInt8)
  | .bytes bs => [bs]
  | _ => []

namespace Value

mutual
/-- The bytes among the scalars of a value, keys included. -/
def byteStrings : Value → List (List UInt8)
  | .scalar s => s.byteStrings
  | .list xs => byteStringsOfAll xs
  | .tuple xs => byteStringsOfAll xs
  | .set ms => ms.flatMap Scalar.byteStrings
  | .map es => byteStringsOfEntries es

def byteStringsOfAll : List Value → List (List UInt8)
  | [] => []
  | x :: xs => x.byteStrings ++ byteStringsOfAll xs

def byteStringsOfEntries : List (Scalar × Value) → List (List UInt8)
  | [] => []
  | (k, x) :: es => k.byteStrings ++ (x.byteStrings ++ byteStringsOfEntries es)
end

/-- Whether all bytes in a value are texts. -/
def IsWritable (v : Value) : Prop := ∀ bs ∈ v.byteStrings, Utf8.IsText bs

end Value

theorem Scalar.toKey_isOk (s : Scalar) : IsOk s.toKey ↔ ∀ bs ∈ s.byteStrings, Utf8.IsText bs := by
  cases s <;> simp [toKey, byteStrings, Utf8.IsText]

theorem Scalar.toJson_isOk (s : Scalar) : IsOk s.toJson ↔ ∀ bs ∈ s.byteStrings, Utf8.IsText bs := by
  cases s <;> simp [toJson, byteStrings, Utf8.IsText]

theorem Scalar.mapM_toJson_isOk (ms : List Scalar) :
    IsOk (ms.mapM Scalar.toJson) ↔ ∀ bs ∈ ms.flatMap Scalar.byteStrings, Utf8.IsText bs := by
  induction ms with
  | nil => simp
  | cons s ms ih =>
    rw [List.mapM_cons, isOk_bind fun _ => isOk_bind fun _ => iff_true_intro (isOk_pure _), and_true, ih,
      Scalar.toJson_isOk, List.flatMap_cons, List.forall_mem_append]

namespace Value

mutual
/-- A value can be written as JSON exactly if all bytes in it are texts. -/
theorem toJson_isOk : ∀ v : Value, IsOk v.toJson ↔ v.IsWritable
  | .scalar s => s.toJson_isOk
  | .list xs | .tuple xs => by
    rw [toJson, isOk_bind fun _ => iff_true_intro (isOk_pure _), and_true]
    exact listToJson_isOk xs
  | .set ms => by
    rw [toJson, isOk_bind fun _ => iff_true_intro (isOk_pure _), and_true]
    exact Scalar.mapM_toJson_isOk ms
  | .map es => by
    rw [toJson, isOk_bind fun _ => iff_true_intro (isOk_pure _), and_true]
    exact entriesToMembers_isOk es

theorem listToJson_isOk : ∀ xs : List Value,
    IsOk (listToJson xs) ↔ ∀ bs ∈ byteStringsOfAll xs, Utf8.IsText bs
  | [] => by simp [listToJson, byteStringsOfAll]
  | x :: xs => by
    rw [listToJson, isOk_bind fun _ => isOk_bind fun _ => iff_true_intro (isOk_pure _), and_true,
      toJson_isOk x, listToJson_isOk xs, byteStringsOfAll, List.forall_mem_append, IsWritable]

theorem entriesToMembers_isOk : ∀ es : List (Scalar × Value),
    IsOk (entriesToMembers es) ↔ ∀ bs ∈ byteStringsOfEntries es, Utf8.IsText bs
  | [] => by simp [entriesToMembers, byteStringsOfEntries]
  | (k, x) :: es => by
    rw [entriesToMembers, isOk_bind fun _ => isOk_bind fun _ => isOk_bind fun _ =>
        iff_true_intro (isOk_pure _), and_true, Scalar.toKey_isOk, toJson_isOk x, entriesToMembers_isOk es,
      byteStringsOfEntries, List.forall_mem_append, List.forall_mem_append, IsWritable]
end

end Value

/-! ## Documents -/

namespace Node

mutual
/-- The free-form values of a node, those of its extensions included. -/
def values : Node → List Value
  | .free v => [v]
  | .text _ => []
  | .list ns => valuesOfAll ns
  | .object es xs => valuesOfEntries es ++ xs.map Prod.snd

def valuesOfAll : List Node → List Value
  | [] => []
  | n :: ns => n.values ++ valuesOfAll ns

def valuesOfEntries : List (String × Node) → List Value
  | [] => []
  | (_, n) :: es => n.values ++ valuesOfEntries es
end

theorem extensionMembers_isOk (xs : Extensions) :
    IsOk (extensionMembers xs) ↔ ∀ v ∈ xs.map Prod.snd, v.IsWritable := by
  induction xs with
  | nil => simp [extensionMembers]
  | cons x xs ih =>
    rw [extensionMembers, isOk_bind fun _ => isOk_bind fun _ => iff_true_intro (isOk_pure _), and_true,
      Value.toJson_isOk, ih, List.map_cons, List.forall_mem_cons]

mutual
/-- A document is JSON exactly if all bytes in its free-form values are texts. -/
theorem toJson_isOk : ∀ n : Node, IsOk n.toJson ↔ ∀ v ∈ n.values, v.IsWritable
  | .free v => by simp [toJson, values, Value.toJson_isOk]
  | .text s => by simp [toJson, values]
  | .list ns => by
    rw [toJson, isOk_bind fun _ => iff_true_intro (isOk_pure _), and_true, values]
    exact listToJson_isOk ns
  | .object es xs => by
    rw [toJson, isOk_bind fun _ => isOk_bind fun _ => iff_true_intro (isOk_pure _), and_true, values,
      List.forall_mem_append, entriesToJson_isOk es, extensionMembers_isOk]

theorem listToJson_isOk : ∀ ns : List Node,
    IsOk (listToJson ns) ↔ ∀ v ∈ valuesOfAll ns, v.IsWritable
  | [] => by simp [listToJson, valuesOfAll]
  | n :: ns => by
    rw [listToJson, isOk_bind fun _ => isOk_bind fun _ => iff_true_intro (isOk_pure _), and_true,
      toJson_isOk n, listToJson_isOk ns, valuesOfAll, List.forall_mem_append]

theorem entriesToJson_isOk : ∀ es : List (String × Node),
    IsOk (entriesToJson es) ↔ ∀ v ∈ valuesOfEntries es, v.IsWritable
  | [] => by simp [entriesToJson, valuesOfEntries]
  | (_, n) :: es => by
    rw [entriesToJson, isOk_bind fun _ => isOk_bind fun _ => iff_true_intro (isOk_pure _), and_true,
      toJson_isOk n, entriesToJson_isOk es, valuesOfEntries, List.forall_mem_append]
end

/-! ### Writing a document down -/

/-- A document that is JSON is written down unless it holds too long an integer. -/
theorem document_of_ok {n : Node} {j : Json} (h : n.toJson = .ok j) :
    n.document = if j.hasLongInteger then .error .longInteger else .ok j := by
  cases n with
  | object es xs =>
    obtain ⟨own, ho, h⟩ := bind_ok h
    obtain ⟨extra, he, h⟩ := bind_ok h
    cases h
    simp only [document, ho, he]
    rfl
  | free _ | text _ | list _ =>
    simp only [document, h]
    rfl

theorem document_of_toJson {n : Node} {j : Json} (h : n.toJson = .ok j) (hlong : j.hasLongInteger = false) :
    n.document = .ok j := by
  rw [document_of_ok h, hlong]
  rfl

theorem document_of_error {n : Node} {f : Utf8.Fault} (h : n.toJson = .error f) :
    ∃ atTop, n.document = .error (.bytes f atTop) := by
  cases n with
  | object es xs =>
    rw [toJson] at h
    cases ho : entriesToJson es with
    | error g =>
      rw [ho] at h
      cases h
      exact ⟨false, by simp only [document, ho]; rfl⟩
    | ok own =>
      rw [ho] at h
      cases he : extensionMembers xs with
      | error g =>
        rw [he] at h
        cases h
        exact ⟨true, by simp only [document, ho, he]; rfl⟩
      | ok extra =>
        rw [he] at h
        cases h
  | free _ | text _ | list _ =>
    exact ⟨false, by simp only [document, h]; rfl⟩

/-- Whether a document holds an integer that is too long to be written. -/
def HasLongInteger (n : Node) : Prop := ∃ j, n.toJson = .ok j ∧ j.hasLongInteger = true

/-- Whether a document can be written down: all bytes in it are texts, and no integer is too long. -/
def IsWritable (n : Node) : Prop := (∀ v ∈ n.values, v.IsWritable) ∧ ¬n.HasLongInteger

theorem isWritable_iff {n : Node} : n.IsWritable ↔ IsOk n.document := by
  rw [IsWritable, ← toJson_isOk]
  cases h : n.toJson with
  | error f =>
    obtain ⟨atTop, hd⟩ := document_of_error h
    rw [hd]
    exact iff_of_false (by rintro ⟨⟨_, h⟩, -⟩; cases h) (by rintro ⟨_, h⟩; cases h)
  | ok j =>
    rw [document_of_ok h]
    cases hlong : j.hasLongInteger with
    | true => exact iff_of_false (fun hw => hw.2 ⟨j, h, hlong⟩) (by rintro ⟨_, h⟩; cases h)
    | false =>
      refine iff_of_true ⟨isOk_ok j, ?_⟩ (isOk_ok j)
      rintro ⟨i, hi, hi'⟩
      cases h.symm.trans hi
      cases hlong.symm.trans hi'

end Node
end ApiProjection
