import ApiProjection.Proofs.Settings.Overlay
import ApiProjection.Settings.Store
/-!
# What files say of settings

Settings are read from the members of an object. A setting has the value that its own member is read as, or its
default; the meta-schemas are the entries of one member. The settings of a project are read from its members
laid over those of the user, so the value of each setting is the one of the project where that has a member for
it, else the user's.

* `Settings.says_of_read`: the settings that members alone give.
* `Settings.says_of_withProject`: those that the members of a project give over others.
-/
namespace ApiProjection

open Record

/-- A setting that has one value. -/
inductive Setting
  | target
  | strict
  | validate
  | format
  | document
  deriving DecidableEq, Repr

/-- The members of the object that is a member of another, if there is one. -/
def Json.part (name : String) (ms : List (String × Json)) : List (String × Json) :=
  match ms.lookup name with
  | some (.object ns) => ns
  | _ => []

/-- Only an object makes an object of what it is laid over. -/
theorem Json.object_of_overlay {name : String} {base top : List (String × Json)} (htop : DistinctKeys top)
    (ms : List (String × Json)) (hms : ms.lookup name = some (.object base))
    (hobject : ∀ j, (overlay ms top).lookup name = some j → ∃ ns, j = .object ns) (j : Json)
    (hj : top.lookup name = some j) : ∃ ns, j = .object ns := by
  have hlookup := lookup_overlay htop ms name
  rw [hj, hms] at hlookup
  obtain ⟨ns, hns⟩ := hobject _ hlookup
  cases j with
  | object os => exact ⟨os, rfl⟩
  | _ =>
    rw [layer] at hns
    · cases hns
    · simp

/-- The members of a part that both objects have are laid over one another. -/
theorem Json.part_overlay {name : String} {base top : List (String × Json)} (hd : DistinctKeys top)
    (ms : List (String × Json)) (hms : ms.lookup name = some (.object base))
    (hobject : ∀ j, (overlay ms top).lookup name = some j → ∃ ns, j = .object ns) :
    part name (overlay ms top) = overlay base (part name top) := by
  have hlookup := lookup_overlay hd ms name
  unfold part
  cases htop : top.lookup name with
  | none =>
    rw [htop, hms] at hlookup
    simp only [hlookup]
    rfl
  | some j =>
    obtain ⟨os, rfl⟩ := object_of_overlay hd ms hms hobject j htop
    rw [htop, hms] at hlookup
    simp only [hlookup, layer]

namespace Setting

abbrev Content : Setting → Type
  | .strict | .validate => Bool
  | .target | .format | .document => String

def of (s : Settings) : (f : Setting) → f.Content
  | .target => s.target
  | .strict => s.strict
  | .validate => s.validate
  | .format => s.output.format
  | .document => s.output.document

/-- The member that a file has for a setting. -/
def member? (ms : List (String × Json)) : Setting → Option Json
  | .target => ms.lookup "target"
  | .strict => ms.lookup "strict_downlevel"
  | .validate => ms.lookup "validate_spec"
  | .format => (Json.part "output" ms).lookup "format"
  | .document => (Json.part "output" ms).lookup "document"

/-- What a member is taken for. -/
def read : (f : Setting) → Value → Read f.Content
  | .strict | .validate => readBool
  | .target | .format | .document => readText

end Setting

namespace Settings

/-- The settings with the members of a file over others, setting by setting. -/
structure Says (ms : List (String × Json)) (lower upper : Settings) : Prop where
  given : ∀ (f : Setting) (j : Json), f.member? ms = some j → (f.read j.toValue).result? = some (f.of upper)
  kept : ∀ f : Setting, f.member? ms = none → f.of upper = f.of lower
  schemaGiven : ∀ (k : String) (j : Json), (Json.part "meta_schemas" ms).lookup k = some j →
    ∃ path, (readText j.toValue).result? = some path ∧ upper.metaSchemas.lookup k = some path
  schemaKept : ∀ k : String, (Json.part "meta_schemas" ms).lookup k = none →
    upper.metaSchemas.lookup k = lower.metaSchemas.lookup k
  distinct : DistinctKeys upper.metaSchemas
  /-- What should be an object is one. -/
  objects : ∀ name ∈ ["output", "meta_schemas"], ∀ j, ms.lookup name = some j → ∃ ns, j = .object ns

/-- Without members nothing changes. -/
theorem says_nil {s : Settings} (h : DistinctKeys s.metaSchemas) : Says [] s s where
  given f j hj := by cases f <;> cases hj
  kept f _ := rfl
  schemaGiven k j hj := by cases hj
  schemaKept k _ := rfl
  distinct := h
  objects name _ j hj := by cases hj

/-! ## Members read for themselves -/

theorem get?_key {α : Type} (name : String) (default : α) (read : Value → Read α) (ms : List (String × Json)) :
    (Fields.optional [name] default read).get? ms =
      (ms.lookup name).elim (some default) fun j => (read j.toValue).result? := by
  rw [Fields.get?_optional, Json.member?, List.findSome?_singleton]
  cases ms.lookup name <;> rfl

/-- What the entry of a map is read as. -/
theorem lookup_of_forall₂ {α : Type} {read : Value → Read α} {ms : List (String × Json)} {as : List (String × α)}
    (h : List.Forall₂ (fun m e => m.1 = e.1 ∧ (read m.2.toValue).result? = some e.2) ms as) (k : String) :
    (∀ j, ms.lookup k = some j → ∃ a, (read j.toValue).result? = some a ∧ as.lookup k = some a) ∧
      (ms.lookup k = none → as.lookup k = none) := by
  induction h with
  | nil => simp
  | @cons m e ms as he _ ih =>
    obtain ⟨l, j⟩ := m
    obtain ⟨l', a⟩ := e
    obtain ⟨rfl, ha⟩ := he
    rw [List.lookup_cons, List.lookup_cons]
    cases k == l with
    | true => simpa using ha
    | false => exact ih

/-- What a member is read as, or a default without it. -/
def readOr {α : Type} (default : α) (read : Value → Read α) (member : Option Json) : Option α :=
  member.elim (some default) fun j => (read j.toValue).result?

theorem readOr_eq_some {α : Type} {default a : α} {read : Value → Read α} {member : Option Json}
    (h : readOr default read member = some a) :
    (∀ j, member = some j → (read j.toValue).result? = some a) ∧ (member = none → a = default) := by
  cases member with
  | none => exact ⟨by simp, fun _ => (Option.some.inj h).symm⟩
  | some j =>
    refine ⟨fun j' hj => ?_, by simp⟩
    cases hj
    exact h

theorem readOutput_object {j : Json} {o : OutputSettings} (h : (OutputSettings.read j.toValue).result? = some o) :
    ∃ os, j = .object os := by
  cases j with
  | object os => exact ⟨os, rfl⟩
  | _ => cases h

theorem part_of_lookup {name : String} {ms ns : List (String × Json)} (h : ms.lookup name = some (.object ns)) :
    Json.part name ms = ns := by
  rw [Json.part, h]

theorem keyed_part {ms : List (String × Json)} (h : (Json.object ms).Keyed) (name : String) :
    (Json.object (Json.part name ms)).Keyed := by
  unfold Json.part
  split
  · rename_i ns hlookup
    exact Json.keyedMembers_iff.1 h.2 _ (mem_of_lookup hlookup)
  · exact ⟨List.nodup_nil, trivial⟩

theorem part_of_none {name : String} {ms : List (String × Json)} (h : ms.lookup name = none) :
    Json.part name ms = [] := by
  rw [Json.part, h]

/-- The settings for output are read of the members of their own object. -/
theorem readOutput {ms : List (String × Json)} {o : OutputSettings}
    (h : readOr {} OutputSettings.read (ms.lookup "output") = some o) :
    readOr "auto" readText ((Json.part "output" ms).lookup "format") = some o.format ∧
      readOr "json" readText ((Json.part "output" ms).lookup "document") = some o.document := by
  obtain ⟨hgiven, hnone⟩ := readOr_eq_some h
  cases hlookup : ms.lookup "output" with
  | none =>
    rw [part_of_none hlookup, hnone hlookup]
    exact ⟨rfl, rfl⟩
  | some j =>
    have hread := hgiven j hlookup
    obtain ⟨os, rfl⟩ := readOutput_object hread
    have hfields : OutputSettings.fields.get? os = some o := hread
    simp only [OutputSettings.fields, Fields.get?_seq, Fields.get?_map, get?_key, Option.bind_eq_some_iff,
      Option.map_eq_some_iff] at hfields
    obtain ⟨_, ⟨format, hformat, rfl⟩, document, hdocument, rfl⟩ := hfields
    rw [part_of_lookup hlookup]
    exact ⟨hformat, hdocument⟩

theorem readSchemas_object {j : Json} {schemas : List (String × String)}
    (h : (mapOf readText j.toValue).result? = some schemas) : ∃ ns, j = .object ns := by
  cases j with
  | object ns => exact ⟨ns, rfl⟩
  | _ => cases h

/-- The meta-schemas are read of the members of their own object. -/
theorem readSchemas {ms : List (String × Json)} (hms : (Json.object ms).Keyed) {schemas : List (String × String)}
    (h : readOr [] (mapOf readText) (ms.lookup "meta_schemas") = some schemas) :
    List.Forall₂ (fun m e => m.1 = e.1 ∧ (readText m.2.toValue).result? = some e.2) (Json.part "meta_schemas" ms)
      schemas := by
  obtain ⟨hgiven, hnone⟩ := readOr_eq_some h
  cases hlookup : ms.lookup "meta_schemas" with
  | none =>
    rw [part_of_none hlookup, hnone hlookup]
    exact .nil
  | some j =>
    have hread := hgiven j hlookup
    obtain ⟨ns, rfl⟩ := readSchemas_object hread
    rw [← part_of_lookup hlookup] at hread
    exact (mapOf_eq_some (keyed_part hms _).1).1 hread

/-- Settings read of members say of each setting what its member says, or else its default. -/
theorem says_of_read {ms : List (String × Json)} (hms : (Json.object ms).Keyed) {s : Settings}
    (h : (read (Json.object ms).toValue).result? = some s) : Says ms {} s := by
  have hfields : fields.get? ms = some s := h
  simp only [fields, Fields.flag, Fields.get?_seq, Fields.get?_map, get?_key, Option.bind_eq_some_iff,
    Option.map_eq_some_iff] at hfields
  obtain ⟨_, ⟨_, ⟨_, ⟨_, ⟨target, htarget, rfl⟩, strict, hstrict, rfl⟩, validate, hvalidate, rfl⟩, schemas,
    hschemas, rfl⟩, output, houtput, rfl⟩ := hfields
  have hread (f : Setting) : readOr (f.of {}) f.read (f.member? ms) =
      some (f.of { target, strict, validate, metaSchemas := schemas, output }) := by
    cases f with
    | target => exact htarget
    | strict => exact hstrict
    | validate => exact hvalidate
    | format => exact (readOutput houtput).1
    | document => exact (readOutput houtput).2
  exact {
    given f := (readOr_eq_some (hread f)).1
    kept f := (readOr_eq_some (hread f)).2
    schemaGiven k := (lookup_of_forall₂ (readSchemas hms hschemas) k).1
    schemaKept k := (lookup_of_forall₂ (readSchemas hms hschemas) k).2
    distinct := (keyed_part hms _).1.of_forall₂ (readSchemas hms hschemas)
    objects := by
      intro name hname j hj
      simp only [List.mem_cons, List.not_mem_nil, or_false] at hname
      rcases hname with rfl | rfl
      · exact readOutput_object ((readOr_eq_some houtput).1 j hj)
      · exact readSchemas_object ((readOr_eq_some hschemas).1 j hj) }

/-! ## Members laid over settings -/

/-- The members that settings are written as. -/
def members (s : Settings) : List (String × Json) :=
  [("target", .text s.target), ("strict_downlevel", .bool s.strict), ("validate_spec", .bool s.validate),
    ("meta_schemas", .object (s.metaSchemas.map fun (k, v) => (k, .text v))), ("output", s.output.toJson)]

theorem layer_toJson (s : Settings) (project : List (String × Json)) :
    Json.layer (some s.toJson) (.object project) = .object (Json.overlay s.members project) := by
  rw [toJson, Json.layer]
  rfl

theorem keyed_members {s : Settings} (h : DistinctKeys s.metaSchemas) : (Json.object s.members).Keyed := by
  have hkeys : DistinctKeys (s.metaSchemas.map fun (k, v) => (k, Json.text v)) := by
    simpa [DistinctKeys, Function.comp_def] using h
  have hschemas : (Json.object (s.metaSchemas.map fun (k, v) => (k, Json.text v))).Keyed := by
    refine ⟨hkeys, Json.keyedMembers_iff.2 fun m hm => ?_⟩
    obtain ⟨e, -, rfl⟩ := List.mem_map.1 hm
    trivial
  have houtput : s.output.toJson.Keyed := ⟨by simp [DistinctKeys], trivial, trivial, trivial⟩
  exact ⟨by simp [DistinctKeys, members], trivial, trivial, trivial, hschemas, houtput, trivial⟩

/-- Where an object has a member it stands in the place of a lower one that is no object. -/
theorem lookup_over {top base : List (String × Json)} (htop : DistinctKeys top) {k : String} {b : Json}
    (hb : base.lookup k = some b) (hno : ∀ ms, b ≠ .object ms) :
    (Json.overlay base top).lookup k = some ((top.lookup k).getD b) := by
  rw [Json.lookup_overlay htop, hb]
  cases top.lookup k with
  | none => rfl
  | some j =>
    have hlayer := Json.layer_of_not_object (o := some b) (fun ms h => hno ms (Option.some.inj h)) j
    simp only [hlayer, Option.getD_some]

/-- What a setting is written as. -/
def written (s : Settings) : Setting → Json
  | .target => .text s.target
  | .strict => .bool s.strict
  | .validate => .bool s.validate
  | .format => .text s.output.format
  | .document => .text s.output.document

theorem read_written (s : Settings) (f : Setting) : (f.read (s.written f).toValue).result? = some (f.of s) := by
  cases f <;> rfl

/-- Where a project has a member for a setting it stands in the place of what the setting is written as. -/
theorem member?_overlay {s : Settings} {project : List (String × Json)} (hproject : (Json.object project).Keyed)
    (hobject : ∀ j, (Json.overlay s.members project).lookup "output" = some j → ∃ os, j = .object os)
    (f : Setting) :
    f.member? (Json.overlay s.members project) = some ((f.member? project).getD (s.written f)) := by
  have houtput := Json.part_overlay hproject.1 s.members rfl hobject
  have hos := keyed_part hproject "output"
  cases f with
  | target => exact lookup_over hproject.1 rfl (by simp [written])
  | strict => exact lookup_over hproject.1 rfl (by simp [written])
  | validate => exact lookup_over hproject.1 rfl (by simp [written])
  | format =>
    rw [Setting.member?, houtput]
    exact lookup_over hos.1 rfl (by simp [written])
  | document =>
    rw [Setting.member?, houtput]
    exact lookup_over hos.1 rfl (by simp [written])

theorem lookup_schemas (k : String) (schemas : List (String × String)) :
    (schemas.map fun (k, v) => (k, Json.text v)).lookup k = (schemas.lookup k).map .text := by
  induction schemas with
  | nil => rfl
  | cons e schemas ih =>
    obtain ⟨l, v⟩ := e
    rw [List.map_cons, List.lookup_cons, List.lookup_cons, ih]
    cases k == l <;> rfl

/-- A meta-schema of a project stands in the place of the user's. -/
theorem lookup_schemas_overlay (schemas : List (String × String)) {top : List (String × Json)} (htop : DistinctKeys top)
    (k : String) :
    (Json.overlay (schemas.map fun (k, v) => (k, Json.text v)) top).lookup k =
      (top.lookup k).or ((schemas.lookup k).map .text) := by
  rw [Json.lookup_overlay htop, lookup_schemas]
  cases top.lookup k with
  | none => rfl
  | some j =>
    have hlayer := Json.layer_of_not_object (o := (schemas.lookup k).map .text) (by cases schemas.lookup k <;> simp) j
    simp only [hlayer, Option.some_or]

/-- What the settings of a project give over others. -/
theorem says_of_withProject {s s' : Settings} (hs : DistinctKeys s.metaSchemas) {project : List (String × Json)}
    (hproject : (Json.object project).Keyed) (h : s.withProject project = .ok s') : Says project s s' := by
  have hread : (read (Json.object (Json.overlay s.members project)).toValue).result? = some s' := by
    unfold withProject at h
    rw [layer_toJson] at h
    split at h
    · rename_i hdone
      cases h
      rw [hdone]
      rfl
    · cases h
  have hover := says_of_read (Json.keyed_overlay (keyed_members hs) hproject.2) hread
  have hmember := member?_overlay hproject (hover.objects "output" (by simp))
  have hschemas := Json.part_overlay hproject.1 s.members rfl (hover.objects "meta_schemas" (by simp))
  have hns := keyed_part hproject "meta_schemas"
  have hlookup := lookup_schemas_overlay s.metaSchemas (keyed_part hproject "meta_schemas").1
  constructor
  · intro f j hj
    exact hover.given f j (by rw [hmember, hj]; rfl)
  · intro f hf
    have hkept := hover.given f _ (hmember f)
    rw [hf, Option.getD_none, read_written] at hkept
    exact (Option.some.inj hkept).symm
  · intro k j hj
    exact hover.schemaGiven k j (by rw [hschemas, hlookup, hj]; rfl)
  · intro k hk
    cases hs : s.metaSchemas.lookup k with
    | none => exact hover.schemaKept k (by rw [hschemas, hlookup, hk, hs]; rfl)
    | some path =>
      obtain ⟨path', hpath, h⟩ := hover.schemaGiven k (.text path) (by rw [hschemas, hlookup, hk, hs]; rfl)
      cases hpath
      exact h
  · exact hover.distinct
  · intro name hname
    have hobject := hover.objects name hname
    simp only [List.mem_cons, List.not_mem_nil, or_false] at hname
    rcases hname with rfl | rfl
    · exact Json.object_of_overlay hproject.1 s.members rfl hobject
    · exact Json.object_of_overlay hproject.1 s.members rfl hobject

end Settings
end ApiProjection
