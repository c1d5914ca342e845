import ApiProjection.Proofs.Reading.Codec
import ApiProjection.Proofs.Reading.Plain
/-!
# Schemas as codecs

A schema is a record like others (`Schema.codec`), but for two of its fields. A bound may be a number for short
and is dumped in full (`Bound.codec`). The rule for further properties may be a truth value or a schema for
short; it is dumped in full as well, but its own spelling of the schema does not tell it from a schema for short,
so one that does not say whether they are allowed is not read again (`Schema.further_codec`).
-/
namespace ApiProjection

open Record

variable {n : Nat}

/-- An object is the same record where the same one stands. -/
theorem At.reshape {s s' : Shape} {ms : List (String × Json)} {m m' : Model} {os : List (String × Json)}
    (h : At s (.object ms) m' os) (hs : s.model? ms = some m) (hs' : s'.model? ms = some m) :
    At s' (.object ms) m' os := by
  cases h with
  | here hm => exact .here (by rw [hs', ← hs, hm])
  | field hm hslot hk hj h => exact .field (by rw [hs', ← hs, hm]) hslot hk hj h
  | entry => cases hs

theorem Dump.record_object {fields : List DumpedField} {j : Json} (h : Dump.record fields = .ok j) :
    ∃ ms, j = .object ms := by
  unfold Dump.record at h
  cases hp : fields.mapM id with
  | error e => rw [hp] at h; cases h
  | ok ps => rw [hp] at h; cases h; exact ⟨_, rfl⟩

/-- Named parts that are dumped one by one. -/
theorem Dump.eachNamed_unique {α : Type} (dump : α → Dumped Json)
    (dumpNamed : List (String × α) → Dumped (List (String × Json))) (hnil : dumpNamed [] = .ok [])
    (hcons : ∀ k a es, dumpNamed ((k, a) :: es) = do return (k, ← dump a) :: (← dumpNamed es))
    (es : List (String × α)) : dumpNamed es = eachNamed dump es := by
  induction es with
  | nil => exact hnil
  | cons e es ih =>
    obtain ⟨k, a⟩ := e
    unfold eachNamed at ih ⊢
    rw [hcons, ih, List.mapM_cons]
    simp only [bind_assoc, pure_bind]

/-! ## Bounds -/

namespace Bound

theorem record_codec : Codec n (fields.readClosed "Bound") dump (fun b => b.value.Finite) (.record .bound) :=
  .record (fun _ _ => Part.start _ |>.seq (.required "value" .number) |>.seq (.flag "exclusive"))
    rfl rfl (fun _ => rfl) (fun t u h => by simp_all [Prod.ext_iff])
    (by simp)

/-- A number is read as the bound that it is for short. -/
theorem read_number {j : Json} (h : j.IsNumber) :
    (Bound.read j.toValue).result? = (Bound.read (Json.object [("value", j)]).toValue).result? := by
  cases j with
  | int | float => rfl
  | _ => cases h

theorem read_record {j : Json} (h : ¬ j.IsNumber) : Bound.read j.toValue = fields.readClosed "Bound" j.toValue := by
  cases j with
  | int | float => exact absurd trivial h
  | _ => rfl

theorem codec : Codec n Bound.read dump (fun b => b.value.Finite) .bound := by
  refine ⟨fun {j b} hn hk hb => ?_, fun {j j'} hn hk hk' hr => ?_, fun {j m os} hn hk ha hbad => ?_⟩
  · have hfull : ∃ i : Json, i.Keyed ∧ (fields.readClosed "Bound" i.toValue).result? = some b := by
      by_cases hj : j.IsNumber
      · exact ⟨.object [("value", j)], ⟨List.nodup_singleton _, hk, trivial⟩, by rw [← hb, read_number hj]; rfl⟩
      · exact ⟨j, hk, by rw [← hb, read_record hj]⟩
    obtain ⟨i, hi, hb⟩ := hfull
    obtain ⟨j', hdump, hkeyed, hlasts⟩ := record_codec.rebuilds (Nat.lt_succ_self _) hi hb
    obtain ⟨ms, rfl⟩ := Dump.record_object hdump
    exact ⟨_, hdump, hkeyed, hlasts⟩
  · cases hr with
    | same => rfl
    | object hm hlength hr =>
      cases hm
      exact record_codec.respects.same hn hk hk' (.object rfl hlength hr)
    | bound hj => exact read_number hj
  · cases j with
    | object ms => exact record_codec.respects.faulty hn hk (ha.reshape rfl rfl) hbad
    | _ => cases ha

end Bound

theorem Discriminator.codec : Codec n Discriminator.read Discriminator.dump (fun _ => True) (.record .discriminator) :=
  .record (fun _ _ => Part.start _ |>.seq (.required "property_name" .text) |>.seq (.namedTexts "mapping"))
    rfl rfl (fun _ => rfl) (fun t u h => by simp_all [Prod.ext_iff])
    (by simp)

theorem XmlHints.codec : Codec n XmlHints.read XmlHints.dump (fun _ => True) (.record .xml) :=
  .record
    (fun _ _ => Part.start _ |>.seq (.text? "name") |>.seq (.text? "namespace") |>.seq (.text? "prefix")
      |>.seq (.flag "attribute") |>.seq (.flag "wrapped"))
    rfl rfl (fun _ => rfl) (fun t u h => by simp_all [Prod.ext_iff])
    (by simp)

/-! ## Further properties -/

namespace Schema

/-- The rule for further properties as it is dumped. -/
def dumpFurther (a : Additional Schema) : Dumped Json :=
  Dump.record [Dump.unset? "allow" (fun b => .ok (.bool b)) a.allow, Dump.unset? "schema_" dump a.schema]

theorem read_null : (Schema.read .null).result? = none := by
  rw [read_eq]
  rfl

theorem writtenOut_eq (ms : List (String × Json)) :
    ((lookupText "allow" (Json.membersToEntries ms)).isSome ||
      (lookupText "schema" (Json.membersToEntries ms)).isSome) = writtenOut ms := by
  simp [Json.lookupText_members, writtenOut]

/-- What a rule for further properties is written out with is no spelling of a field of a schema. -/
theorem not_spelling : ∀ k ∈ ["allow", "schema"], ∀ slot ∈ Model.schema.slots, k ∉ slot.spellings := by decide

theorem key_iff {m : Model} {ms : List (String × Json)} (hm : Shape.further.model? ms = some m) {a b : String × Json}
    (h : RespelledMember m a b) {k : String} (hk : k ∈ ["allow", "schema"]) : k = a.1 ↔ k = b.1 := by
  cases h with
  | same => rfl
  | field hslot ha hb hfixed _ =>
    have hcases : m = .further ∨ m = .schema := by
      cases Option.some.inj hm
      split <;> simp
    rcases hcases with rfl | rfl
    · rw [hfixed rfl]
    · constructor
      · rintro rfl
        exact absurd ha (not_spelling _ hk _ hslot)
      · rintro rfl
        exact absurd hb (not_spelling _ hk _ hslot)

/-- In other words, the rule for further properties is written out still. -/
theorem writtenOut_congr {m : Model} {ms ns : List (String × Json)} (hm : Shape.further.model? ms = some m)
    (h : List.Forall₂ (RespelledMember m) ms ns) : writtenOut ms = writtenOut ns := by
  have hkeys : ∀ k ∈ ["allow", "schema"], ((∃ e ∈ ms, k = e.1) ↔ ∃ e ∈ ns, k = e.1) := by
    intro k hk
    constructor
    · rintro ⟨a, ha, hka⟩
      obtain ⟨b, hb, hab⟩ := exists_of_forall₂ h ha
      exact ⟨b, hb, (key_iff hm hab hk).1 hka⟩
    · rintro ⟨b, hb, hkb⟩
      obtain ⟨a, ha, hab⟩ := exists_of_forall₂ h.flip hb
      exact ⟨a, ha, (key_iff hm hab hk).2 hkb⟩
  rw [Bool.eq_iff_iff]
  simp only [writtenOut, Bool.or_eq_true, List.lookup_isSome_iff, beq_iff_eq, hkeys "allow" (by simp),
    hkeys "schema" (by simp)]

theorem readFurther_writtenOut {ms : List (String × Json)} (h : writtenOut ms = true) :
    readFurther (Json.object ms).toValue =
      furtherFields.readClosed "AdditionalProperties" (Json.object ms).toValue := by
  rw [← writtenOut_eq] at h
  unfold readFurther
  simp only [Json.toValue]
  rw [if_pos h]

theorem readFurther_short {ms : List (String × Json)} (h : writtenOut ms = false) :
    (readFurther (Json.object ms).toValue).result? =
      (Schema.read (Json.object ms).toValue).result?.map fun s => { schema := some s } := by
  rw [← writtenOut_eq] at h
  unfold readFurther
  simp only [Json.toValue]
  rw [if_neg (by rw [h]; exact Bool.false_ne_true), Read.result?_under, Read.result?_map]

theorem readFurther_allow (b : Bool) :
    (readFurther (Json.object [("allow", .bool b)]).toValue).result? = some { allow := some b } := by
  rw [readFurther_writtenOut rfl]
  rfl

/-- A schema is that of further properties. -/
theorem readFurther_schema (ms : List (String × Json)) :
    (readFurther (Json.object [("schema", .object ms)]).toValue).result? =
      (Schema.read (Json.object ms).toValue).result?.map fun s => { schema := some s } := by
  have hmember : Json.member? ["schema", "schema_"] [("schema", .object ms)] = some ("schema", .object ms) :=
    Json.member?_singleton (by simp) _
  have huses : Fields.Uses furtherFields.spellings [("schema", .object ms)] := by
    refine List.forall_mem_singleton.2 ⟨["schema", "schema_"], ?_, _, hmember⟩
    decide
  have hget : furtherFields.get? [("schema", .object ms)] =
      (Schema.read (Json.object ms).toValue).result?.map fun s => { schema := some s } := by
    rw [furtherFields, Fields.get?_seq, Fields.get?_map, Fields.unset?, Fields.unset?, Fields.get?_optional,
      Fields.get?_optional, hmember, Option.elim_some, nullable_eq _ Json.noConfusion]
    cases (Schema.read (Json.object ms).toValue).result? <;> rfl
  rw [readFurther_writtenOut rfl]
  refine Option.ext fun a => ?_
  rw [Fields.readClosed_eq_some, hget]
  exact and_iff_right huses

/-- What a rule for further properties is dumped as. -/
theorem dumpFurther_eq_ok {a : Additional Schema} {j : Json} (h : dumpFurther a = .ok j) :
    ∃ ps : List (String × Json), j = .object ((a.allow.map fun b => ("allow", .bool b)).toList ++ ps) ∧
      (a.schema = none ∧ ps = [] ∨ ∃ s x, a.schema = some s ∧ ps = [("schema_", x)]) := by
  obtain ⟨allow, schema⟩ := a
  cases schema with
  | none => cases allow <;> cases h <;> exact ⟨[], rfl, .inl ⟨rfl, rfl⟩⟩
  | some s =>
    cases hs : s.dump with
    | error e =>
      cases allow <;> simp [dumpFurther, Dump.record, Dump.unset?, hs, bind, Except.bind, pure, Except.pure] at h
    | ok x =>
      refine ⟨[("schema_", x)], ?_, .inr ⟨s, x, rfl, rfl⟩⟩
      cases allow <;>
        simpa [dumpFurther, Dump.record, Dump.unset?, hs, bind, Except.bind, pure, Except.pure, eq_comm] using h

/-- A rule that does not say whether further properties are allowed is not read again. -/
theorem readFurther_unsaid {a : Additional Schema} {j : Json} (ha : a.allow = none) (h : dumpFurther a = .ok j) :
    (readFurther j.toValue).result? ≠ some a := by
  obtain ⟨ps, rfl, ⟨hs, rfl⟩ | ⟨s, x, -, rfl⟩⟩ := dumpFurther_eq_ok h
  · rw [ha, readFurther_short rfl, Ne, Option.map_eq_some_iff]
    rintro ⟨s, -, rfl⟩
    cases hs
  · rw [ha, readFurther_short rfl, Ne, Option.map_eq_some_iff]
    rintro ⟨s, hread, -⟩
    rw [read_eq, Fields.readClosed_eq_some] at hread
    obtain ⟨ss, hss, i, hi⟩ := hread.1 ("schema_", x) (List.mem_singleton_self _)
    have hmem : "schema_" ∈ fields.spellings.flatten := List.mem_flatten_of_mem hss (Json.mem_of_member? hi).1
    revert hmem
    decide

/-- A rule that says so is dumped in full. -/
theorem dumpFurther_said {a : Additional Schema} {b : Bool} {j : Json} (ha : a.allow = some b)
    (h : dumpFurther a = .ok j) : ∃ ms, j = .object ms ∧ writtenOut ms = true := by
  obtain ⟨ps, rfl, -⟩ := dumpFurther_eq_ok h
  exact ⟨_, rfl, by rw [ha]; rfl⟩

section
variable (h : Codec n Schema.read dump Lasts (.record .schema))
include h

theorem further_record_codec :
    Codec n (furtherFields.readClosed "AdditionalProperties") dumpFurther (fun a => ∀ s ∈ a.schema, s.Lasts)
      (.record .further) :=
  .record
    (fun _ hk => Part.start _ |>.seq (.unset? "allow" .bool rfl) |>.seq (.unset? "schema_" (h.mono hk.le) read_null))
    rfl rfl (fun _ => rfl) (fun t u h => by simp_all [Prod.ext_iff])
    (by simp)

/-- Everything that is read as the rule for further properties can be dumped. In full, it is read again if its
schema is. -/
theorem further_dumps {j : Json} {a : Additional Schema} (hn : sizeOf j < n) (hk : j.Keyed)
    (ha : (readFurther j.toValue).result? = some a) :
    ∃ j', dumpFurther a = .ok j' ∧ j'.Keyed ∧
      (a.allow ≠ none → ((readFurther j'.toValue).result? = some a ↔ ∀ s ∈ a.schema, s.Lasts)) := by
  cases j with
  | bool b =>
    cases ha
    exact ⟨.object [("allow", .bool b)], rfl, ⟨List.nodup_singleton _, trivial, trivial⟩,
      fun _ => by simp [readFurther_allow]⟩
  | object ms =>
    cases hms : writtenOut ms with
    | true =>
      rw [readFurther_writtenOut hms] at ha
      obtain ⟨j', hdump, hkeyed, hlasts⟩ := (further_record_codec h).rebuilds hn hk ha
      refine ⟨j', hdump, hkeyed, fun hallow => ?_⟩
      obtain ⟨b, hb⟩ := Option.ne_none_iff_exists'.1 hallow
      obtain ⟨ns, rfl, hns⟩ := dumpFurther_said hb hdump
      rw [readFurther_writtenOut hns, hlasts]
    | false =>
      rw [readFurther_short hms, Option.map_eq_some_iff] at ha
      obtain ⟨s, hs, rfl⟩ := ha
      obtain ⟨x, hx, hkx, -⟩ := h.rebuilds hn hk hs
      refine ⟨.object [("schema_", x)], ?_, ⟨List.nodup_singleton _, hkx, trivial⟩, fun hallow => absurd rfl hallow⟩
      simp only [dumpFurther, Dump.unset?, hx]
      rfl
  | _ => cases ha

/-- The rule for further properties is the same in its short forms, and in full. -/
theorem further_same {j j' : Json} (hn : sizeOf j < n) (hk : j.Keyed) (hk' : j'.Keyed) (hr : Respelled .further j j') :
    (readFurther j.toValue).result? = (readFurther j'.toValue).result? := by
  cases hr with
  | same => rfl
  | allow b => exact (readFurther_allow b).symm
  | @object _ m ms ns hm hlength hr =>
    have hout := writtenOut_congr hm (List.forall₂_iff_zip.2 ⟨hlength, hr⟩)
    cases hms : writtenOut ms with
    | true =>
      rw [readFurther_writtenOut hms, readFurther_writtenOut (hout.symm.trans hms)]
      simp only [Shape.model?, hms, if_true, Option.some.injEq] at hm
      subst hm
      exact (further_record_codec h).respects.same hn hk hk' (.object rfl hlength hr)
    | false =>
      rw [readFurther_short hms, readFurther_short (hout.symm.trans hms)]
      simp only [Shape.model?, hms, Option.some.injEq] at hm
      subst hm
      rw [h.respects.same hn hk hk' (.object rfl hlength hr)]
  | @schema ms ns hms hlength hr =>
    have hns : (Json.object ns).Keyed := hk'.members _ (List.mem_singleton_self _)
    have hschema := h.respects.same hn hk hns (.object rfl hlength hr)
    rw [readFurther_short hms, hschema, readFurther_schema]

theorem further_faulty {j : Json} {m : Model} {os : List (String × Json)} (hn : sizeOf j < n) (hk : j.Keyed)
    (ha : At .further j m os) (hbad : m.Misspelled os) : (readFurther j.toValue).result? = none := by
  cases j with
  | object ms =>
    cases hms : writtenOut ms with
    | true =>
      have ha' : At (.record .further) (.object ms) m os := ha.reshape (by simp [Shape.model?, hms]) rfl
      rw [readFurther_writtenOut hms, (further_record_codec h).respects.faulty hn hk ha' hbad]
    | false =>
      have ha' : At (.record .schema) (.object ms) m os := ha.reshape (by simp [Shape.model?, hms]) rfl
      rw [readFurther_short hms, h.respects.faulty hn hk ha' hbad]
      rfl
  | _ => cases ha

theorem further_codec :
    Codec n readFurther dumpFurther (fun a => a.allow ≠ none ∧ ∀ s ∈ a.schema, s.Lasts) .further := by
  refine ⟨fun {j a} hn hk ha => ?_, further_same h, further_faulty h⟩
  obtain ⟨j', hdump, hkeyed, hlasts⟩ := further_dumps h hn hk ha
  refine ⟨j', hdump, hkeyed, ?_⟩
  by_cases hallow : a.allow = none
  · simp [readFurther_unsaid hallow hdump, hallow]
  · simp [hlasts hallow, hallow]

end

/-! ## The whole -/

theorem dumpOption_eq (name : String) (o : Option Schema) : dumpOption name o = Dump.unset? name dump o := by
  cases o <;> rfl

theorem dumpList_eq (ss : List Schema) : dumpList ss = Dump.each dump ss := by
  induction ss with
  | nil => rfl
  | cons s ss ih =>
    unfold Dump.each at ih ⊢
    rw [dumpList, ih, List.mapM_cons]

theorem dumpNamed_eq (ss : List (String × Schema)) : dumpNamed ss = Dump.eachNamed dump ss :=
  Dump.eachNamed_unique dump dumpNamed rfl (fun _ _ _ => rfl) ss

theorem dumpAdditional_eq (o : Option (Additional Schema)) :
    dumpAdditional o = Dump.unset? "additional_properties" dumpFurther o := by
  cases o with
  | none => rfl
  | some a =>
    obtain ⟨allow, schema⟩ := a
    rw [dumpAdditional, dumpOption_eq]
    rfl

theorem text?_kind (o : Option Kind) :
    Dump.text? "kind" (o.map Kind.name) = Dump.unset? "kind" (fun k => .ok (.text k.name)) o := by
  cases o <;> rfl

/-- A schema is a codec if its parts, which are smaller, are. -/
theorem codec_step (ih : ∀ k < n, Codec k Schema.read dump Lasts (.record .schema)) :
    Codec n Schema.read dump Lasts (.record .schema) :=
  .record
    (fun k hk =>
      have schema := ih k hk
      Part.start _ |>.seq (.text? "ref")
        |>.seq (Part.start _ |>.seq (.unset? "kind" .kind rfl) |>.seq (.flag "nullable") |>.seq (.text? "title")
          |>.seq (.text? "description") |>.seq (.text? "format") |>.seq (.text? "content_encoding")
          |>.seq (.text? "content_media_type") |>.seq (.flag "deprecated") |>.seq (.flag "read_only")
          |>.seq (.flag "write_only") |>.seq (.free "example") |>.seq (.leaves "examples" .value)
          |>.seq (.leaves "enum" .value) |>.seq (.free "const") |>.seq (.free "default")
          |>.seq (.unset? "multiple_of" .number rfl) |>.seq (.unset? "minimum" Bound.codec rfl)
          |>.seq (.unset? "maximum" Bound.codec rfl) |>.seq (.text? "pattern")
          |>.seq (.int? "min_length") |>.seq (.int? "max_length"))
        |>.seq (.unset? "items" schema read_null) |>.seq (.int? "min_items")
        |>.seq (.int? "max_items") |>.seq (.flag "unique_items") |>.seq (.named "properties" schema)
        |>.seq (.texts "required") |>.seq (.unset? "additional_properties" (further_codec schema) rfl)
        |>.seq (.named "pattern_properties" schema) |>.seq (.unset? "unevaluated_properties" schema read_null)
        |>.seq (.int? "min_properties") |>.seq (.int? "max_properties")
        |>.seq (.listed "all_of" schema) |>.seq (.listed "any_of" schema) |>.seq (.listed "one_of" schema)
        |>.seq (.unset? "not_" schema read_null) |>.seq (.unset? "discriminator" Discriminator.codec rfl)
        |>.seq (.unset? "xml" XmlHints.codec rfl) |>.seq .extensions)
    read_eq rfl
    (fun t => by
      simp only [dump, dumpOption_eq, dumpList_eq, dumpNamed_eq, dumpAdditional_eq, text?_kind, List.nil_append,
        List.cons_append, id_eq])
    (fun t u h => by simp_all [Prod.ext_iff])
    (fun t => by
      simp only [Lasts, Facets.lasts_iff, optionLasts_iff, listLasts_iff, namedLast_iff, furtherLasts_iff,
        ExtensionsLast]
      tauto)

theorem codec (n : Nat) : Codec n Schema.read dump Lasts (.record .schema) := by
  induction n using Nat.strong_induction_on with
  | h n ih => exact codec_step ih

end Schema
end ApiProjection
