import Mathlib
import ApiProjection.Command.Project
import ApiProjection.Proofs.Session
/-!
# The meta-schema that is used

The files of meta-schemas are kept under spellings of versions, the one that is given with a call under the
full version of the settings. Each spelling counts where it was first written down, so a version is checked with
the last file whose spelling names it: the given file if it is new, but an older one if a second spelling of the
version stands behind the full one.

* `Project.validator?_schemas`: the meta-schema of each version.
* `Project.given_outranked`: settings whose second spelling outranks the file that is given.
-/
namespace ApiProjection

open Act

/-! ## The last entry for a version -/

/-- What the last of the entries holds whose key names a version. -/
def Target.last {β : Type} (t : Target) (es : List (String × β)) : Option β :=
  (es.filter fun e => decide (ofWord? e.1 = some t)).getLast?.map Prod.snd

/-- The entries behind the first one with a key. -/
def behind {β : Type} (k : String) : List (String × β) → List (String × β)
  | [] => []
  | (l, _) :: es => if l = k then es else behind k es

namespace Target

variable {β : Type} {t : Target}

theorem last_append (es fs : List (String × β)) : t.last (es ++ fs) = (t.last fs).or (t.last es) := by
  unfold last
  rw [List.filter_append, List.getLast?_append]
  cases (fs.filter fun e => decide (ofWord? e.1 = some t)).getLast? <;>
    cases (es.filter fun e => decide (ofWord? e.1 = some t)).getLast? <;> rfl

theorem last_cons (k : String) (b : β) (es : List (String × β)) :
    t.last ((k, b) :: es) = (t.last es).or (if ofWord? k = some t then some b else none) := by
  have h := last_append (t := t) [(k, b)] es
  rw [List.singleton_append] at h
  rw [h]
  by_cases hk : ofWord? k = some t <;> simp [last, hk]

/-- What is put under a spelling of the version is the last entry unless one stands behind it. -/
theorem last_upsert {k : String} (hk : ofWord? k = some t) (b : β) (es : List (String × β)) :
    t.last (upsert (· == ·) k b es) = some ((t.last (behind k es)).getD b) := by
  induction es with
  | nil => simp [upsert, behind, hk, last]
  | cons e es ih =>
    obtain ⟨l, x⟩ := e
    rw [upsert, behind]
    by_cases hl : l = k
    · subst hl
      cases h : t.last es <;> simp [last_cons, hk, h]
    · simp only [beq_iff_eq, hl, if_false, last_cons, ih, Option.some_or]

/-- What is put under a spelling of another version changes nothing. -/
theorem last_upsert_ne {k : String} {u : Target} (hk : ofWord? k = some u) (hu : u ≠ t) (b : β)
    (es : List (String × β)) : t.last (upsert (· == ·) k b es) = t.last es := by
  have hne : ofWord? k ≠ some t := fun h => hu (Option.some.inj (hk.symm.trans h))
  induction es with
  | nil => simp [upsert, last_cons, hne]
  | cons e es ih =>
    obtain ⟨l, x⟩ := e
    rw [upsert]
    by_cases hl : l = k
    · subst hl
      simp [last_cons, hne]
    · simp only [beq_iff_eq, hl, if_false, last_cons, ih]

/-- Entries that correspond one by one have corresponding last ones. -/
theorem last_forall₂ {γ : Type} {R : β → γ → Prop} {es : List (String × β)} {fs : List (String × γ)}
    (h : List.Forall₂ (fun e f => e.1 = f.1 ∧ R e.2 f.2) es fs) : Option.Rel R (t.last es) (t.last fs) := by
  induction h with
  | nil => exact .none
  | @cons e f es fs he _ ih =>
    obtain ⟨k, b⟩ := e
    obtain ⟨_, c⟩ := f
    obtain ⟨rfl, hbc⟩ := he
    rw [last_cons, last_cons]
    generalize t.last es = x at ih ⊢
    generalize t.last fs = y at ih ⊢
    cases ih with
    | some hlast => exact .some hlast
    | none =>
      by_cases hk : ofWord? k = some t
      · simpa only [hk, if_true, Option.none_or] using Option.Rel.some hbc
      · simpa only [hk, if_false, Option.none_or] using Option.Rel.none

theorem ofWord?_version (t : Target) : ofWord? t.version = some t := by
  cases t <;> cbv

end Target

/-! ## Validators from meta-schemas -/

namespace Validator

variable {t : Target}

theorem schemaFor_withSchema (v : Validator) (schema : Value) (u : Target) :
    (v.withSchema schema u).schemaFor t = if u = t then schema else v.schemaFor t := by
  cases u <;> cases t <;> rfl

/-- Each version has the last of the meta-schemas given for it, or else the one from before. -/
theorem ofSchemas_go {es : List (String × Value)} (h : ∀ k ∈ es.map Prod.fst, (Target.ofWord? k).isSome)
    (v : Validator) :
    ∃ v', ofSchemas.go v (es.map fun e => (.text e.1, e.2)) = .ok v' ∧
      ∀ t, v'.schemaFor t = (t.last es).getD (v.schemaFor t) := by
  induction es generalizing v with
  | nil => exact ⟨v, rfl, fun t => rfl⟩
  | cons e es ih =>
    obtain ⟨k, schema⟩ := e
    obtain ⟨hk, hes⟩ := List.forall_mem_cons.1 h
    obtain ⟨u, hu⟩ := Option.isSome_iff_exists.1 hk
    obtain ⟨v', hv', hfor⟩ := ih hes (v.withSchema schema u)
    have hparse : Target.parse (.text k) = .ok u := by
      have hword : Target.ofWord? (Value.text k).display = some u := hu
      rw [Target.parse, hword]
    refine ⟨v', ?_, fun t => ?_⟩
    · rw [List.map_cons, ofSchemas.go, hparse]
      exact hv'
    · rw [hfor, schemaFor_withSchema, Target.last_cons, hu]
      cases t.last es with
      | some x => rfl
      | none => by_cases ht : u = t <;> simp [ht]

end Validator

/-! ## Files of meta-schemas -/

/-- A file holds a meta-schema: it can be read, and its text is that value. -/
def SchemaFile (d : Disk) (file : String) (schema : Value) : Prop :=
  ∃ bytes text, d.read (PathName.ofText file).text = .ok bytes ∧ textOf bytes = .ok text ∧ Yaml.read text = .ok schema

theorem SchemaFile.unique {d : Disk} {file : String} {x y : Value} (hx : SchemaFile d file x)
    (hy : SchemaFile d file y) : x = y := by
  obtain ⟨bytes, text, hread, htext, hx⟩ := hx
  obtain ⟨bytes', text', hread', htext', hy⟩ := hy
  cases hread.symm.trans hread'
  cases htext.symm.trans htext'
  exact Except.ok.inj (hx.symm.trans hy)

namespace Command.Project

variable {w : Session}

theorem perform_loadSchema {file : String} {schema : Value} (h : SchemaFile w.disk file schema) :
    (loadSchema file).perform w = (.ok schema, w) := by
  obtain ⟨bytes, text, hread, htext, hschema⟩ := h
  have hdecoded : (decoded (textOf bytes)).perform w = (.ok text, w) := by
    rw [htext]
    rfl
  rw [loadSchema, perform_bind_ok (perform_session w), hread]
  dsimp only
  rw [perform_bind_ok hdecoded, hschema]
  rfl

theorem perform_loadSchemas {files : List (String × String)} (h : ∀ f ∈ files, ∃ x, SchemaFile w.disk f.2 x) :
    ∃ es : List (String × Value),
      (loadSchemas files).perform w = (.ok (es.map fun e => (Value.text e.1, e.2)), w) ∧
        List.Forall₂ (fun f e => f.1 = e.1 ∧ SchemaFile w.disk f.2 e.2) files es := by
  induction files with
  | nil => exact ⟨[], rfl, .nil⟩
  | cons f files ih =>
    obtain ⟨name, file⟩ := f
    obtain ⟨⟨schema, hschema⟩, hfiles⟩ := List.forall_mem_cons.1 h
    obtain ⟨es, hes, hrel⟩ := ih hfiles
    refine ⟨(name, schema) :: es, ?_, .cons ⟨rfl, hschema⟩ hrel⟩
    rw [loadSchemas, perform_bind_ok (perform_loadSchema hschema), perform_bind_ok hes]
    rfl

/-- The keys of entries after one is put among them. -/
theorem forall_upsert {β : Type} {P : String × β → Prop} {k : String} {b : β} {es : List (String × β)}
    (hk : P (k, b)) (h : ∀ e ∈ es, P e) : ∀ e ∈ upsert (· == ·) k b es, P e := by
  induction es with
  | nil => simpa [upsert] using hk
  | cons e es ih =>
    obtain ⟨l, x⟩ := e
    obtain ⟨he, hes⟩ := List.forall_mem_cons.1 h
    rw [upsert]
    split
    · rename_i hl
      rw [beq_iff_eq.1 hl]
      exact List.forall_mem_cons.2 ⟨hk, hes⟩
    · exact List.forall_mem_cons.2 ⟨he, ih hes⟩

/-- A version is checked with the meta-schema of a file, or with the bundled one without a file. -/
def ChecksWith (d : Disk) (v : Validator) (t : Target) : Option String → Prop
  | some file => SchemaFile d file (v.schemaFor t)
  | none => v.schemaFor t = Validator.bundled.schemaFor t

/-- Each version is checked with the last file for it among those of the settings and the one that is given. -/
theorem perform_validator? {s : Settings} {given : PathName} (hword : (Target.ofWord? s.target).isSome)
    (hnames : ∀ f ∈ s.metaSchemas, (Target.ofWord? f.1).isSome)
    (hfiles : ∀ f ∈ s.metaSchemas, ∃ x, SchemaFile w.disk f.2 x) (hgiven : ∃ x, SchemaFile w.disk given.text x) :
    ∃ v, (validator? s (some given)).perform w = (.ok (some v), w) ∧
      ∀ t, ChecksWith w.disk v t (t.last (upsert (· == ·) s.target given.text s.metaSchemas)) := by
  obtain ⟨es, hload, hrel⟩ := perform_loadSchemas (w := w)
    (forall_upsert (k := s.target) (b := given.text) (P := fun f => ∃ x, SchemaFile w.disk f.2 x) hgiven hfiles)
  have hkeys : ∀ k ∈ es.map Prod.fst, (Target.ofWord? k).isSome := by
    have hsame : (upsert (· == ·) s.target given.text s.metaSchemas).map Prod.fst = es.map Prod.fst := by
      rw [← List.forall₂_eq_eq_eq, List.forall₂_map_left_iff, List.forall₂_map_right_iff]
      exact hrel.imp fun _ _ h => h.1
    rw [← hsame, List.forall_mem_map]
    exact forall_upsert (P := fun f => (Target.ofWord? f.1).isSome) hword hnames
  obtain ⟨v, hv, hfor⟩ := Validator.ofSchemas_go hkeys Validator.bundled
  refine ⟨v, ?_, fun t => ?_⟩
  · unfold validator?
    simp only [Option.isNone_some, Bool.false_and, Bool.false_eq_true, if_false]
    rw [perform_bind_ok hload]
    unfold Validator.ofSchemas
    rw [hv]
    rfl
  · have hlast := Target.last_forall₂ (t := t) hrel
    unfold ChecksWith
    rw [hfor]
    generalize t.last (upsert (· == ·) s.target given.text s.metaSchemas) = file at hlast ⊢
    generalize t.last es = schema at hlast ⊢
    cases hlast with
    | none => rfl
    | some hfile => exact hfile

/-! ## A cabinet with two meta-schemas -/

/-- A folder with a meta-schema that everything fits and one that nothing fits. -/
def cabinet : Session :=
  { disk := { files := [(["loose.yaml"], [0x7b, 0x7d]), (["none.yaml"], [0x6e, 0x6f, 0x74, 0x3a, 0x20, 0x7b, 0x7d])] } }

theorem loose_cabinet : SchemaFile cabinet.disk "loose.yaml" (.map []) := by
  have htext : (PathName.ofText "loose.yaml").text = "loose.yaml" := by cbv
  have hname : cabinet.disk.locate "loose.yaml" = .ok ["loose.yaml"] :=
    Disk.locate_name (by cbv) (by decide) (by decide) (by simp) (by decide)
  refine ⟨[0x7b, 0x7d], "{}", ?_, by cbv, by cbv⟩
  rw [htext]
  exact Disk.read_name hname (by cbv)

theorem none_cabinet : SchemaFile cabinet.disk "none.yaml" (.map [(.text "not", .map [])]) := by
  have htext : (PathName.ofText "none.yaml").text = "none.yaml" := by cbv
  have hname : cabinet.disk.locate "none.yaml" = .ok ["none.yaml"] :=
    Disk.locate_name (by cbv) (by decide) (by decide) (by simp) (by decide)
  refine ⟨[0x6e, 0x6f, 0x74, 0x3a, 0x20, 0x7b, 0x7d], "not: {}", ?_, by cbv, by cbv⟩
  rw [htext]
  exact Disk.read_name hname (by cbv)

/-! ## The meta-schema of each version -/

/-- **Each version is checked with the last file whose spelling names it.** For the version of the settings that
is the given file just if no file under a spelling of it that stands behind the full one has another meta-schema;
for the other version it is the last configured file, or the bundled meta-schema without one. -/
theorem validator?_schemas {s : Settings} {t : Target} {given : PathName} {schema : Value}
    (ht : s.target = t.version) (hnames : ∀ f ∈ s.metaSchemas, (Target.ofWord? f.1).isSome)
    (hfiles : ∀ f ∈ s.metaSchemas, ∃ x, SchemaFile w.disk f.2 x) (hgiven : SchemaFile w.disk given.text schema) :
    ∃ v, (validator? s (some given)).perform w = (.ok (some v), w) ∧
      ChecksWith w.disk v t (some ((t.last (behind s.target s.metaSchemas)).getD given.text)) ∧
      (v.schemaFor t = schema ↔ ∀ file ∈ t.last (behind s.target s.metaSchemas), SchemaFile w.disk file schema) ∧
      ∀ u ≠ t, ChecksWith w.disk v u (u.last s.metaSchemas) := by
  have hword : Target.ofWord? s.target = some t := by rw [ht, Target.ofWord?_version]
  obtain ⟨v, hv, hchecks⟩ := perform_validator? (by rw [hword]; rfl) hnames hfiles ⟨schema, hgiven⟩
  have hlast : SchemaFile w.disk ((t.last (behind s.target s.metaSchemas)).getD given.text) (v.schemaFor t) := by
    have h := hchecks t
    rwa [Target.last_upsert hword] at h
  refine ⟨v, hv, hlast, ⟨fun h file hfile => ?_, fun h => ?_⟩, fun u hu => ?_⟩
  · rw [Option.mem_def.1 hfile, h] at hlast
    exact hlast
  · cases hbehind : t.last (behind s.target s.metaSchemas) with
    | none =>
      rw [hbehind] at hlast
      exact hlast.unique hgiven
    | some file =>
      rw [hbehind] at hlast
      exact hlast.unique (h file hbehind)
  · have h := hchecks u
    rwa [Target.last_upsert_ne hword (Ne.symm hu)] at h

theorem validator?_schemas_cabinet :
    ∃ v, (validator? { metaSchemas := [("3.0", "loose.yaml"), ("3.1.x", "loose.yaml")] }
        (some (.ofText "none.yaml"))).perform cabinet = (.ok (some v), cabinet) ∧
      v.schemaFor .v30 = .map [(.text "not", .map [])] ∧ v.schemaFor .v31 = .map [] := by
  have hnone : (PathName.ofText "none.yaml").text = "none.yaml" := by cbv
  have hbehind : Target.v30.last (behind "3.0.4" [("3.0", "loose.yaml"), ("3.1.x", "loose.yaml")]) = none := by cbv
  have hother : Target.v31.last [("3.0", "loose.yaml"), ("3.1.x", "loose.yaml")] = some "loose.yaml" := by cbv
  have hshort : Target.ofWord? "3.0" = some .v30 := by cbv
  have hrest : Target.ofWord? "3.1.x" = some .v31 := by cbv
  have htarget : ({ metaSchemas := [("3.0", "loose.yaml"), ("3.1.x", "loose.yaml")] } : Settings).target =
      Target.version .v30 := rfl
  have hgiven : SchemaFile cabinet.disk (PathName.ofText "none.yaml").text (.map [(.text "not", .map [])]) := by
    rw [hnone]
    exact none_cabinet
  obtain ⟨v, hv, -, hschema, hchecks⟩ := validator?_schemas htarget (by simp [hshort, hrest])
    (by simpa using ⟨_, loose_cabinet⟩) hgiven
  have hloose := hchecks .v31 (by decide)
  rw [hother] at hloose
  exact ⟨v, hv, hschema.2 (by simp [hbehind]), SchemaFile.unique hloose loose_cabinet⟩

/-- **A second spelling of the version outranks the file that is given.** The settings name a file under the full
version and another one behind it under the short spelling: the given file takes the place of the first only. -/
theorem given_outranked :
    ¬ ∀ v, (validator? { metaSchemas := [("3.0.4", "loose.yaml"), ("3.0", "loose.yaml")] }
        (some (.ofText "none.yaml"))).perform cabinet = (.ok (some v), cabinet) →
      SchemaFile cabinet.disk "none.yaml" (v.schemaFor .v30) := by
  have hnone : (PathName.ofText "none.yaml").text = "none.yaml" := by cbv
  have hfull : Target.ofWord? "3.0.4" = some .v30 := by cbv
  have hshort : Target.ofWord? "3.0" = some .v30 := by cbv
  have hlast : Target.v30.last (upsert (· == ·) "3.0.4" "none.yaml" [("3.0.4", "loose.yaml"), ("3.0", "loose.yaml")]) =
      some "loose.yaml" := by cbv
  intro hclaim
  have hword : (Target.ofWord?
      ({ metaSchemas := [("3.0.4", "loose.yaml"), ("3.0", "loose.yaml")] } : Settings).target).isSome := by simp [hfull]
  have hgiven : ∃ x, SchemaFile cabinet.disk (PathName.ofText "none.yaml").text x := by
    rw [hnone]
    exact ⟨_, none_cabinet⟩
  obtain ⟨v, hv, hchecks⟩ := perform_validator? hword (by simp [hfull, hshort]) (by simpa using ⟨_, loose_cabinet⟩) hgiven
  have hloose := hchecks .v30
  rw [hnone, hlast] at hloose
  have hsame := (hclaim v hv).unique none_cabinet
  rw [SchemaFile.unique hloose loose_cabinet] at hsame
  cases hsame

end Command.Project
end ApiProjection
