import ApiProjection.Api.Reader.Document
import ApiProjection.Proofs.Reading.Rebuilds
/-!
# Codecs

A reader and a dump of one kind of value form a codec (`Codec`) if they fit together and the reader respects
what such a value is to be; likewise the fields of a record (`Part`). Codecs of records are put together from
those of their fields, one after the other.
-/
namespace ApiProjection.Record

/-- A reader and a dump that fit together, for values that are to be of some shape. -/
structure Codec {α : Type} (n : Nat) (read : Value → Read α) (dump : α → Dumped Json) (Lasts : α → Prop) (s : Shape) :
    Prop where
  rebuilds : Rebuilds n read dump Lasts
  respects : Respects n read s

/-- Whether a name is one of some spellings. -/
class Spelled (name : String) (spellings : List String) : Prop where
  mem : name ∈ spellings

instance Spelled.head (name : String) (spellings : List String) : Spelled name (name :: spellings) :=
  ⟨List.mem_cons_self⟩

instance Spelled.tail (name s : String) (spellings : List String) [Spelled name spellings] :
    Spelled name (s :: spellings) :=
  ⟨List.mem_cons_of_mem s mem⟩

/-- Fields of a record that fit together with what they are dumped as. -/
structure Part {α T : Type} (n : Nat) (F : Fields Value α) (build : T → α) (dump : T → List DumpedField)
    (Lasts : T → Prop) (slots : List Model.Slot) : Prop where
  dumps : Dumps n F build dump Lasts
  obeys : Obeys n F slots

namespace Codec

variable {n : Nat}

theorem mono {α : Type} {k : Nat} {read : Value → Read α} {dump : α → Dumped Json} {Lasts : α → Prop} {s : Shape}
    (h : Codec n read dump Lasts s) (hk : k ≤ n) : Codec k read dump Lasts s where
  rebuilds := fun hn => h.rebuilds (Nat.lt_of_lt_of_le hn hk)
  respects :=
    { same := fun hn => h.respects.same (Nat.lt_of_lt_of_le hn hk)
      faulty := fun hn => h.respects.faulty (Nat.lt_of_lt_of_le hn hk) }

theorem text : Codec n readText (fun s => .ok (.text s)) (fun _ => True) .leaf := ⟨Rebuilds.text, .leaf _⟩

theorem bool : Codec n readBool (fun b => .ok (.bool b)) (fun _ => True) .leaf := ⟨Rebuilds.bool, .leaf _⟩

theorem int : Codec n readInt (fun i => .ok (.int i)) (fun _ => True) .leaf := ⟨Rebuilds.int, .leaf _⟩

theorem kind : Codec n Kind.read (fun k => .ok (.text k.name)) (fun _ => True) .leaf := ⟨Rebuilds.kind, .leaf _⟩

theorem number : Codec n readNumber Number.dump Number.Finite .leaf := ⟨Rebuilds.number, .leaf _⟩

theorem each_ok {α : Type} (g : α → Json) (as : List α) : Dump.each (fun a => .ok (g a)) as = .ok (as.map g) := by
  induction as with
  | nil => rfl
  | cons a as ih =>
    unfold Dump.each at ih ⊢
    rw [List.mapM_cons, ih]
    rfl

theorem eachNamed_ok {α : Type} (g : α → Json) (es : List (String × α)) :
    Dump.eachNamed (fun a => .ok (g a)) es = .ok (es.map fun (k, a) => (k, g a)) := by
  induction es with
  | nil => rfl
  | cons e es ih =>
    unfold Dump.eachNamed at ih ⊢
    rw [List.mapM_cons, ih]
    rfl

theorem texts : Codec n (listOf readText) (fun xs => .ok (.list (xs.map .text))) (fun _ => True) .leaf := by
  have h : Rebuilds n (listOf readText) _ _ := Rebuilds.listOf Rebuilds.text
  simp only [each_ok, implies_true] at h
  exact ⟨h, .leaf _⟩

theorem requirement : Codec n SecurityRequirement.read SecurityRequirement.dump (fun _ => True) .leaf := by
  have h : Rebuilds n (mapOf (listOf readText)) _ _ := Rebuilds.mapOf texts.rebuilds
  simp only [eachNamed_ok, implies_true] at h
  exact ⟨h, .leaf _⟩

theorem value : Codec n .done Value.toJson Value.Finite .leaf := ⟨Rebuilds.value, .leaf _⟩

end Codec

namespace Part

variable {α β T U : Type} {n : Nat} {spellings : List String} {read : Value → Read α} {dump : α → Dumped Json}
  {Lasts : α → Prop} {s : Shape}

/-- The same fields, dumped as the same members. -/
theorem congr {F : Fields Value α} {build : T → α} {dump dump' : T → List DumpedField} {Lasts Lasts' : T → Prop}
    {slots : List Model.Slot} (h : Part n F build dump Lasts slots)
    (hdump : ∀ t p, DumpsAs (dump t) p → DumpsAs (dump' t) p) (hlasts : ∀ t, Lasts t ↔ Lasts' t) :
    Part n F build dump' Lasts' slots := by
  obtain ⟨parts, hget, hback⟩ := h.dumps
  refine ⟨⟨parts, hget, fun hms ht hd => ?_⟩, h.obeys⟩
  obtain ⟨p, hp, hkeyed, hkeys, hread⟩ := hback hms ht hd
  exact ⟨p, hdump _ _ hp, hkeyed, hkeys, fun ns hns => by rw [← hlasts]; exact hread ns hns⟩

theorem start (a : α) : Part n (pure a : Fields Value α) (fun _ : Unit => a) (fun _ => []) (fun _ => True) [] :=
  ⟨.pure a, .pure a⟩

theorem seq {F : Fields Value (α → β)} {x : Fields Value α} {build : T → α → β} {build' : U → α}
    {dump : T → List DumpedField} {dump' : U → List DumpedField} {Lasts : T → Prop} {Lasts' : U → Prop}
    {slots slots' : List Model.Slot} (hF : Part n F build dump Lasts slots) (hx : Part n x build' dump' Lasts' slots') :
    Part n (F <*> x) (fun t : T × U => build t.1 (build' t.2)) (fun t => dump t.1 ++ dump' t.2)
      (fun t => Lasts t.1 ∧ Lasts' t.2) (slots ++ slots') :=
  ⟨hF.dumps.seq hx.dumps, hF.obeys.seq hx.obeys⟩

theorem required (name : String) (h : Codec n read dump Lasts s) [Spelled name spellings] :
    Part n (.required spellings read) id (fun a => [Dump.unset? name dump (some a)]) Lasts [⟨spellings, s⟩] :=
  ⟨.required name Spelled.mem h.rebuilds, .required h.respects⟩

theorem unset? (name : String) (h : Codec n read dump Lasts s) (hnull : (read .null).result? = none)
    [Spelled name spellings] :
    Part n (.unset? spellings read) id (fun o => [Dump.unset? name dump o]) (fun o => ∀ a ∈ o, Lasts a)
      [⟨spellings, s⟩] :=
  ⟨.unset? name Spelled.mem h.rebuilds hnull, .optional h.respects.nullable⟩

theorem text? (name : String) [Spelled name spellings] :
    Part n (.text? spellings) id (fun o => [Dump.text? name o]) (fun _ => True) [⟨spellings, .leaf⟩] :=
  congr (unset? name .text rfl) (fun _ _ h => h) (by simp)

theorem int? (name : String) [Spelled name spellings] :
    Part n (.unset? spellings readInt) id (fun o => [Dump.int? name o]) (fun _ => True) [⟨spellings, .leaf⟩] :=
  congr (unset? name .int rfl) (fun _ _ h => h) (by simp)

theorem flag (name : String) [Spelled name spellings] :
    Part n (.flag spellings) id (fun b => [Dump.flag name b]) (fun _ => True) [⟨spellings, .leaf⟩] :=
  ⟨.flag name Spelled.mem, .optional (.leaf _)⟩

theorem free (name : String) [Spelled name spellings] :
    Part n (.free spellings) id (fun v => [Dump.free name v]) Value.Finite [⟨spellings, .leaf⟩] :=
  ⟨.free name Spelled.mem, .optional (.leaf _)⟩

theorem listed (name : String) (h : Codec n read dump Lasts s) [Spelled name spellings] :
    Part n (.optional spellings [] (listOf read)) id (fun as => [Dump.listed name (Dump.each dump as)])
      (fun as => ∀ a ∈ as, Lasts a) [⟨spellings, .list s⟩] :=
  ⟨.listed name Spelled.mem h.rebuilds, .optional h.respects.listOf⟩

theorem named (name : String) (h : Codec n read dump Lasts s) [Spelled name spellings] :
    Part n (.optional spellings [] (mapOf read)) id (fun es => [Dump.named name (Dump.eachNamed dump es)])
      (fun es => ∀ e ∈ es, Lasts e.2) [⟨spellings, .map s⟩] :=
  ⟨.named name Spelled.mem h.rebuilds, .optional h.respects.mapOf⟩

/-- A list of values without records in them. -/
theorem leaves (name : String) (h : Codec n read dump Lasts .leaf) [Spelled name spellings] :
    Part n (.optional spellings [] (listOf read)) id (fun as => [Dump.listed name (Dump.each dump as)])
      (fun as => ∀ a ∈ as, Lasts a) [⟨spellings, .leaf⟩] :=
  ⟨.listed name Spelled.mem h.rebuilds, .optional (.leaf _)⟩

/-- Named values without records in them. -/
theorem namedLeaves (name : String) (h : Codec n read dump Lasts .leaf) [Spelled name spellings] :
    Part n (.optional spellings [] (mapOf read)) id (fun es => [Dump.named name (Dump.eachNamed dump es)])
      (fun es => ∀ e ∈ es, Lasts e.2) [⟨spellings, .leaf⟩] :=
  ⟨.named name Spelled.mem h.rebuilds, .optional (.leaf _)⟩

/-- A list of texts. -/
theorem texts (name : String) [Spelled name spellings] :
    Part n (.optional spellings [] (listOf readText)) id (fun xs => [Dump.texts name xs]) (fun _ => True)
      [⟨spellings, .leaf⟩] :=
  congr (leaves name .text) (fun xs _ h => by rw [Codec.each_ok] at h; exact h) (by simp)

/-- Named texts. -/
theorem namedTexts (name : String) [Spelled name spellings] :
    Part n (.optional spellings [] (mapOf readText)) id
      (fun es => [Dump.named name (.ok (es.map fun (k, s) => (k, .text s)))]) (fun _ => True)
      [⟨spellings, .leaf⟩] :=
  congr (namedLeaves name .text) (fun xs _ h => by rw [Codec.eachNamed_ok] at h; exact h) (by simp)

theorem extensions : Part n .extensions id (fun es => [Dump.vendor es]) (fun es => ∀ e ∈ es, e.2.Finite)
    [⟨["extensions"], .leaf⟩] :=
  namedLeaves "extensions" .value

end Part

/-- The codec of a record, from those of its fields in their order. -/
theorem Codec.record {α T : Type} {n : Nat} {read : Value → Read α} {name : String} {F : Fields Value α}
    {build : T → α} {dumps : T → List DumpedField} {LastParts : T → Prop} {slots : List Model.Slot} {m : Model}
    {dump : α → Dumped Json} {Lasts : α → Prop} (h : ∀ k < n, Part k F build dumps LastParts slots)
    (hread : read = F.readClosed name) (hslots : slots = m.slots)
    (hdump : ∀ t, dump (build t) = Dump.record (dumps t)) (hbuild : Function.Injective build)
    (hlasts : ∀ t, LastParts t ↔ Lasts (build t)) : Codec n read dump Lasts (.record m) := by
  subst hread hslots
  refine ⟨?_, .record m.spellings_nodup fun k hk => (h k hk).obeys⟩
  intro j a hn hk ha
  have hspellings : F.spellings.flatten.Nodup := by rw [(h _ hn).obeys.spellings]; exact m.spellings_nodup
  exact Rebuilds.record (fun k hk => (h k hk).dumps) hspellings hbuild hdump hlasts hn hk ha

end ApiProjection.Record
