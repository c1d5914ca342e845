import ApiProjection.Proofs.Reading.Documents
/-!
# Parsing of descriptions

What parsing makes of a document does not depend on its words, and it can be written out again.

* `Api.parse_dump_iff`: what was parsed can be dumped, and is parsed again of its dump if it lasts, and only then. A
  rule for further properties that has a schema alone does not: `Api.dump_unread`.
* `Api.parse_respelled`: the same document in other words is the same description, and a document with a key too
  many in a record, be it unknown or a second spelling of a field, is none.
-/
namespace ApiProjection

open Record

namespace Api

theorem parse_eq_ok {source : String} {v : Value} {s : Api} :
    parse source v = .ok s ↔ (read v).result? = some s := by
  unfold parse
  cases read v <;> simp

theorem parse_eq_error {source : String} {v : Value} :
    (∃ r, parse source v = .error r) ↔ (read v).result? = none := by
  unfold parse
  cases read v <;> simp

/-! ## Documents with one schema -/

def pierJson (schema : Json) : Json :=
  .object [("info", .object [("title", .text "Pier"), ("version", .text "1")]),
    ("components", .object [("schemas", .object [("Draught", schema)])])]

def pier (s : Schema) : Api :=
  { info := { title := "Pier", version := "1" }, components := some { schemas := [("Draught", s)] } }

theorem pierJson_keyed {schema : Json} (h : schema.Keyed) : (pierJson schema).Keyed := by
  simp [pierJson, Json.Keyed, Json.KeyedMembers, DistinctKeys, h]

theorem pier_lasts {s : Schema} : (pier s).Lasts ↔ s.Lasts := by
  simp [lasts_iff, Components.lasts_iff, pier, Info.Lasts, ExtensionsLast]

/-- A record is read of its only member. -/
theorem readClosed_single {α : Type} {name : String} {F : Fields Value α} {k : String} {j : Json} {a : α}
    (hk : ∃ ss ∈ F.spellings, k ∈ ss) (h : F.get? [(k, j)] = some a) :
    (F.readClosed name (Json.object [(k, j)]).toValue).result? = some a := by
  obtain ⟨ss, hss, hk⟩ := hk
  rw [Fields.readClosed_eq_some]
  exact ⟨List.forall_mem_singleton.2 ⟨ss, hss, j, Json.member?_singleton hk j⟩, h⟩

theorem read_components {schema : Json} {s : Schema} (h : (Schema.read schema.toValue).result? = some s) :
    (Components.read (Json.object [("schemas", .object [("Draught", schema)])]).toValue).result? =
      some { schemas := [("Draught", s)] } := by
  have hschemas : (Fields.optional ["schemas"] [] (mapOf Schema.read)).get?
      [("schemas", .object [("Draught", schema)])] = some [("Draught", s)] := by
    have hd : DistinctKeys [("Draught", schema)] := List.nodup_singleton _
    rw [Fields.get?_optional, Json.member?_singleton List.mem_cons_self]
    exact (mapOf_eq_some hd).2 (.cons ⟨rfl, h⟩ .nil)
  refine readClosed_single ⟨["schemas"], List.mem_cons_self, List.mem_cons_self⟩ ?_
  simp only [Fields.get?_seq, Fields.get?_map]
  rw [hschemas]
  rfl

theorem parse_pier {source : String} {schema : Json} {s : Schema} (h : (Schema.read schema.toValue).result? = some s) :
    parse source (pierJson schema).toValue = .ok (pier s) := by
  have hcomponents : (Fields.unset? ["components"] Components.read).get?
      [("info", .object [("title", .text "Pier"), ("version", .text "1")]),
        ("components", .object [("schemas", .object [("Draught", schema)])])] =
      some (some { schemas := [("Draught", s)] }) := by
    rw [Fields.unset?, Fields.get?_optional]
    change (nullable Components.read (Json.object [("schemas", .object [("Draught", schema)])]).toValue).result? = _
    rw [nullable_eq _ Json.noConfusion, read_components h]
    rfl
  rw [parse_eq_ok]
  unfold read pierJson
  rw [Fields.readClosed_eq_some]
  constructor
  · refine List.forall_mem_cons.2 ⟨⟨["info"], by decide, _, rfl⟩, ?_⟩
    exact List.forall_mem_singleton.2 ⟨["components"], by decide, _, rfl⟩
  · simp only [Fields.get?_seq, Fields.get?_map]
    rw [hcomponents]
    rfl

/-! ## Dumps -/

/-- Everything that was parsed can be dumped, and it is parsed of its dump just if it lasts. -/
theorem parse_dump_iff {source source' : String} {d : Json} (hd : d.Keyed) {s : Api}
    (h : parse source d.toValue = .ok s) :
    ∃ j, s.dump = .ok j ∧ j.Keyed ∧ (parse source' j.toValue = .ok s ↔ s.Lasts) := by
  obtain ⟨j, hdump, hkeyed, hlasts⟩ := codec.rebuilds (Nat.lt_succ_self _) hd (parse_eq_ok.1 h)
  exact ⟨j, hdump, hkeyed, parse_eq_ok.trans hlasts⟩

def draughtJson : Json :=
  .object [("type", .text "number"), ("readOnly", .bool true), ("minimum", .int 2),
    ("additionalProperties", .bool false)]

def draught : Schema :=
  { facets := { kind := some .number, readOnly := true, minimum := some { value := .int 2 } }
    additional := some { allow := some false } }

theorem draughtJson_keyed : draughtJson.Keyed := by simp [draughtJson, Json.Keyed, Json.KeyedMembers, DistinctKeys]

theorem read_draught : (Schema.read draughtJson.toValue).result? = some draught := by
  rw [Schema.read_eq]
  rfl

theorem parse_dump_draught :
    parse "pier.json" (pierJson draughtJson).toValue = .ok (pier draught) ∧
      ∃ j, (pier draught).dump = .ok j ∧ j.Keyed ∧ parse "dump.json" j.toValue = .ok (pier draught) := by
  have hparse : parse "pier.json" (pierJson draughtJson).toValue = .ok (pier draught) := parse_pier read_draught
  obtain ⟨j, hdump, hkeyed, hlasts⟩ := parse_dump_iff (pierJson_keyed draughtJson_keyed) hparse
  have hlast : draught.Lasts := by
    simp [draught, Schema.Lasts, Schema.FurtherLasts, Schema.OptionLasts, Schema.NamedLast, Schema.ListLasts,
      Facets.lasts_iff, ExtensionsLast, Value.Finite, Scalar.Finite, Number.Finite]
  exact ⟨hparse, j, hdump, hkeyed, hlasts.2 (pier_lasts.2 hlast)⟩

/-- A rule for further properties that has a schema alone. -/
def looseJson : Json := .object [("additionalProperties", .object [("schema", .object [])])]

def loose : Schema := { additional := some { schema := some {} } }

theorem read_loose : (Schema.read looseJson.toValue).result? = some loose := by
  have hempty : (Schema.read (Json.object []).toValue).result? = some {} := by
    rw [Schema.read_eq]
    rfl
  have hfurther : (Fields.unset? ["additionalProperties", "additional_properties"] Schema.readFurther).get?
      [("additionalProperties", .object [("schema", .object [])])] = some (some { schema := some {} }) := by
    rw [Fields.unset?, Fields.get?_optional, Json.member?_singleton List.mem_cons_self]
    change (nullable Schema.readFurther (Json.object [("schema", .object [])]).toValue).result? = _
    rw [nullable_eq _ Json.noConfusion, Schema.readFurther_schema, hempty]
    rfl
  rw [Schema.read_eq]
  refine readClosed_single ⟨["additionalProperties", "additional_properties"], by decide, List.mem_cons_self⟩ ?_
  unfold Schema.fields
  simp only [Fields.get?_seq]
  rw [hfurther]
  rfl

theorem dump_unread :
    parse "pier.json" (pierJson looseJson).toValue = .ok (pier loose) ∧
      ∃ j, (pier loose).dump = .ok j ∧ parse "dump.json" j.toValue ≠ .ok (pier loose) := by
  have hparse : parse "pier.json" (pierJson looseJson).toValue = .ok (pier loose) := parse_pier read_loose
  have hkeyed : (pierJson looseJson).Keyed :=
    pierJson_keyed (by simp [looseJson, Json.Keyed, Json.KeyedMembers, DistinctKeys])
  obtain ⟨j, hdump, -, hlasts⟩ := codec.rebuilds (Nat.lt_succ_self _) hkeyed (parse_eq_ok.1 hparse)
  have hloose : ¬ loose.Lasts := by simp [loose, Schema.Lasts, Schema.FurtherLasts]
  exact ⟨hparse, j, hdump, fun h => hloose (pier_lasts.1 (hlasts.1 (parse_eq_ok.1 h)))⟩

/-! ## Spellings -/

/-- A document in other words is the same description or none as well, and one with a key too many is none. -/
theorem parse_respelled {source : String} {d : Json} (hd : d.Keyed) :
    (∀ d' : Json, d'.Keyed → Respelled (.record .spec) d d' →
      ∀ s, parse source d.toValue = .ok s ↔ parse source d'.toValue = .ok s) ∧
    ∀ m ms, At (.record .spec) d m ms → m.Unknown ms ∨ m.Doubled ms → ∃ r, parse source d.toValue = .error r := by
  refine ⟨fun d' hd' hr s => ?_, fun m ms hat hbad => ?_⟩
  · rw [parse_eq_ok, parse_eq_ok, codec.respects.same (Nat.lt_succ_self _) hd hd' hr]
  · exact parse_eq_error.2 (codec.respects.faulty (Nat.lt_succ_self _) hd hat hbad)

/-- The same schema in other words. -/
def draughtRespelled : Json :=
  .object [("kind", .text "number"), ("read_only", .bool true), ("minimum", .object [("value", .int 2)]),
    ("additional_properties", .object [("allow", .bool false)])]

theorem draught_respelled : Respelled (.record .schema) draughtJson draughtRespelled := by
  have hkind : (⟨["kind", "type"], .leaf⟩ : Model.Slot) ∈ Model.schema.slots := by decide
  have hreadOnly : (⟨["readOnly", "read_only"], .leaf⟩ : Model.Slot) ∈ Model.schema.slots := by decide
  have hminimum : (⟨["minimum"], .bound⟩ : Model.Slot) ∈ Model.schema.slots := by decide
  have hfurther : (⟨["additionalProperties", "additional_properties"], .further⟩ : Model.Slot) ∈
      Model.schema.slots := by decide
  refine .object rfl rfl fun {a b} hab => ?_
  simp only [List.zip_cons_cons, List.zip_nil_right, List.mem_cons, Prod.mk.injEq, List.not_mem_nil, or_false] at hab
  rcases hab with ⟨rfl, rfl⟩ | ⟨rfl, rfl⟩ | ⟨rfl, rfl⟩ | ⟨rfl, rfl⟩
  · exact .field hkind (by simp) (by simp) (by simp) (.same _ _)
  · exact .field hreadOnly (by simp) (by simp) (by simp) (.same _ _)
  · exact .field hminimum (by simp) (by simp) (by simp) (.bound trivial)
  · exact .field hfurther (by simp) (by simp) (by simp) (.allow false)

theorem components_slot : (⟨["components"], .record .components⟩ : Model.Slot) ∈ Model.spec.slots := by decide

theorem schemas_slot : (⟨["schemas"], .map (.record .schema)⟩ : Model.Slot) ∈ Model.components.slots := by decide

/-- Schemas that say the same do so in a document. -/
theorem pier_respelled {schema schema' : Json} (h : Respelled (.record .schema) schema schema') :
    Respelled (.record .spec) (pierJson schema) (pierJson schema') := by
  have hmap : Respelled (.map (.record .schema)) (.object [("Draught", schema)]) (.object [("Draught", schema')]) :=
    .map rfl (by simpa using .mk h)
  have hcomponents : Respelled (.record .components) (.object [("schemas", .object [("Draught", schema)])])
      (.object [("schemas", .object [("Draught", schema')])]) :=
    .object rfl rfl (by simpa using .field schemas_slot (by simp) (by simp) (by simp) hmap)
  refine .object rfl rfl fun {a b} hab => ?_
  simp only [List.zip_cons_cons, List.zip_nil_right, List.mem_cons, Prod.mk.injEq, List.not_mem_nil, or_false] at hab
  rcases hab with ⟨rfl, rfl⟩ | ⟨rfl, rfl⟩
  · exact .same _ _
  · exact .field components_slot (by simp) (by simp) (by simp) hcomponents

theorem at_pier (ms : List (String × Json)) : At (.record .spec) (pierJson (.object ms)) .schema ms := by
  refine .field rfl components_slot List.mem_cons_self (List.mem_cons_of_mem _ List.mem_cons_self) ?_
  refine .field rfl schemas_slot List.mem_cons_self List.mem_cons_self ?_
  exact .entry List.mem_cons_self (.here rfl)

theorem parse_respelled_draught :
    parse "pier.json" (pierJson draughtRespelled).toValue = .ok (pier draught) ∧
      ∃ r, parse "pier.json" (pierJson (.object [("minimun", .int 2)])).toValue = .error r := by
  have hkeyed : (pierJson draughtRespelled).Keyed :=
    pierJson_keyed (by simp [draughtRespelled, Json.Keyed, Json.KeyedMembers, DistinctKeys])
  have htypo : (pierJson (.object [("minimun", .int 2)])).Keyed :=
    pierJson_keyed (by simp [Json.Keyed, Json.KeyedMembers, DistinctKeys])
  have hunknown : Model.schema.Unknown [("minimun", .int 2)] := ⟨("minimun", .int 2), by simp, by decide⟩
  refine ⟨?_, (parse_respelled htypo).2 _ _ (at_pier _) (.inl hunknown)⟩
  have hsame := pier_respelled draught_respelled
  exact ((parse_respelled (pierJson_keyed draughtJson_keyed)).1 _ hkeyed hsame _).1 (parse_pier read_draught)

end Api
end ApiProjection
