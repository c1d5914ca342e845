import ApiProjection.Proofs.Session
import ApiProjection.Proofs.Settings.Members
/-!
# Layers of settings

What holds for a run is put together from four layers and the defaults: the arguments of the run, the
environment, the file of the project and the file of the user. Each setting has the value of the highest layer
that defines it, so no layer matters for a setting that it leaves alone.

* `Settings.resolve_layers`: a run that finds out its settings finds out these, else it reports a fault of the
  configuration, unless the disk keeps it from looking for its files.
* `Settings.resolve_blocked`: the disk does so where the folder for settings cannot be made.
-/
namespace ApiProjection

open Record

namespace Act

variable (w : Session)

/-- The name of the home folder of a session. -/
def homeName : PathName :=
  let name := (w.env.lookup "HOME").getD w.home
  .ofText (if name = "" then "/" else name)

theorem perform_home : home.perform w = (.ok (homeName w), w) := by
  rw [home, perform_bind_ok (perform_env? w "HOME"), perform_bind_ok (perform_session w)]
  rfl

end Act

namespace Settings

open Act

/-! ## The files -/

section
variable (w : Session)

/-- The name of the folder that a variable names, or else of one in the home folder. -/
def baseName (name : String) (otherwise : List String) : PathName :=
  match w.env.lookup name with
  | some path => if path = "" then otherwise.foldl PathName.child (homeName w) else .ofText path
  | none => otherwise.foldl PathName.child (homeName w)

/-- The name of the folder for settings. -/
def folderName : PathName :=
  if w.standardFolders then (baseName w "XDG_CONFIG_HOME" [".config"]).child appName
  else (homeName w).child ("." ++ appName)

/-- The name of the file that the settings of the user are kept in. -/
def userPath : String := ((folderName w).child "config.json").text

/-- The name of the file that the settings of a project are kept in. -/
def projectPath (d : Disk) : String := (PathName.child ⟨"/", d.here⟩ "specshift.json").text

theorem perform_standardBase (name : String) (otherwise : List String) :
    (standardBase name otherwise).perform w = (.ok (baseName w name otherwise), w) := by
  have hhome : (standardBase.inHome otherwise).perform w =
      (.ok (otherwise.foldl PathName.child (homeName w)), w) := by
    rw [standardBase.inHome, perform_bind_ok (perform_home w)]
    rfl
  rw [standardBase, perform_bind_ok (perform_env? w name), baseName]
  cases w.env.lookup name with
  | none => exact hhome
  | some path =>
    dsimp only
    split
    · exact hhome
    · rfl

theorem perform_folder_ok {d : Disk} (h : w.disk.makeFolders (folderName w) = .ok d) :
    folder.perform w = (.ok (folderName w), { w with disk := d }) := by
  have hmade : (madeFolder (folderName w)).perform w = (.ok (folderName w), { w with disk := d }) := by
    rw [madeFolder, perform_bind_ok (perform_alter_ok w h)]
    rfl
  rw [← hmade, folder, perform_bind_ok (perform_session w), folderName]
  split
  · rw [perform_bind_ok (perform_standardBase w _ _)]
  · rw [perform_bind_ok (perform_home w)]

theorem perform_folder_error {e : FileError} (h : w.disk.makeFolders (folderName w) = .error e) :
    folder.perform w = (.error (.crashed e.crash), w) := by
  have hmade : (madeFolder (folderName w)).perform w = (.error (.crashed e.crash), w) := by
    rw [madeFolder, perform_bind_error (perform_alter_error w h)]
  rw [← hmade, folder, perform_bind_ok (perform_session w), folderName]
  split
  · rw [perform_bind_ok (perform_standardBase w _ _)]
  · rw [perform_bind_ok (perform_home w)]

end

/-- The members of the object that a file holds; none where there is no file. -/
def Holds (d : Disk) (path : String) (ms : List (String × Json)) : Prop :=
  d.isFile path = .ok false ∧ ms = [] ∨
    ∃ bytes text, d.read path = .ok bytes ∧ textOf bytes = .ok text ∧ Json.read text = .ok (.object ms)

theorem Holds.keyed {d : Disk} {path : String} {ms : List (String × Json)} (h : Holds d path ms) :
    (Json.object ms).Keyed := by
  rcases h with ⟨-, rfl⟩ | ⟨bytes, text, -, -, h⟩
  · exact ⟨List.nodup_nil, trivial⟩
  · exact Json.keyed_read h

/-- How an act on a file of settings ends: with a result that fits what the file holds, with a fault of the
configuration, or at a name that is too long to be looked up. -/
inductive FileEnd {α : Type} (w : Session) (path : String) (P : List (String × Json) → α → Prop) :
    Except Stop α × Session → Prop
  | done {ms : List (String × Json)} {a : α} (hms : Holds w.disk path ms) (ha : P ms a) : FileEnd w path P (.ok a, w)
  | refused (message : String) : FileEnd w path P (.error (.failed ⟨.configuration, message, [], none⟩), w)
  | barred {e : FileError} (h : w.disk.isFile path = .error e) : FileEnd w path P (.error (.crashed e.crash), w)

/-- A file is looked up and read as JSON, unless it is not there. -/
theorem fileEnd {α : Type} {w : Session} (path : String) {P : List (String × Json) → α → Prop} {absent : α}
    {use : Except Utf8.Fault String → Act α} (hnone : P [] absent)
    (hfault : ∀ f, ∃ message, (use (.error f)).perform w = (.error (.failed ⟨.configuration, message, [], none⟩), w))
    (huse : ∀ text,
      (∃ message, (use (.ok text)).perform w = (.error (.failed ⟨.configuration, message, [], none⟩), w)) ∨
      ∃ ms a, Json.read text = .ok (.object ms) ∧ P ms a ∧ (use (.ok text)).perform w = (.ok a, w)) :
    FileEnd w path P ((do
      if !(← look fun d => d.isFile path) then return absent
      use (← readText? path)).perform w) := by
  cases hfile : w.disk.isFile path with
  | error e =>
    rw [perform_bind_error (perform_look_error w hfile)]
    exact .barred hfile
  | ok found =>
    rw [perform_bind_ok (perform_look_ok w hfile)]
    cases found with
    | false => exact .done (.inl ⟨hfile, rfl⟩) hnone
    | true =>
      obtain ⟨bytes, hread⟩ := Disk.isFile_eq_true.1 hfile
      simp only [Bool.not_true, Bool.false_eq_true, if_false]
      rw [perform_bind_ok (perform_readText? w hread)]
      cases htext : textOf bytes with
      | error f =>
        obtain ⟨message, h⟩ := hfault f
        rw [h]
        exact .refused message
      | ok text =>
        rcases huse text with ⟨message, h⟩ | ⟨ms, a, hms, ha, h⟩
        · rw [h]
          exact .refused message
        · rw [h]
          exact .done (.inr ⟨bytes, text, hread, htext, hms⟩) ha

theorem read_object {j : Json} {s : Settings} (h : read j.toValue = .done s) : ∃ ms, j = .object ms := by
  cases j with
  | object ms => exact ⟨ms, rfl⟩
  | _ => cases h

theorem perform_load_error {w : Session} {e : FileError} (h : w.disk.makeFolders (folderName w) = .error e) :
    load.perform w = (.error (.crashed e.crash), w) := by
  rw [load, file, perform_bind_error (perform_bind_error (perform_folder_error w h) _)]

theorem load_fileEnd {w : Session} {d : Disk} (hd : w.disk.makeFolders (folderName w) = .ok d) :
    FileEnd { w with disk := d } (userPath w) (fun ms s => Says ms {} s) (load.perform w) := by
  have hfile : file.perform w = (.ok ((folderName w).child "config.json"), { w with disk := d }) := by
    rw [file, perform_bind_ok (perform_folder_ok w hd)]
    rfl
  rw [load, perform_bind_ok hfile]
  refine fileEnd (userPath w) (says_nil List.nodup_nil) (fun f => ⟨_, rfl⟩) fun text => ?_
  dsimp only
  cases hread : ofText text with
  | error message => exact .inl ⟨_, rfl⟩
  | ok s =>
    refine .inr ?_
    unfold ofText at hread
    cases hj : Json.read text with
    | error e =>
      rw [hj] at hread
      cases hread
    | ok j =>
      rw [hj] at hread
      cases hs : read j.toValue with
      | failed issues =>
        simp only [hs] at hread
        cases hread
      | done s' =>
        simp only [hs] at hread
        cases hread
        obtain ⟨ms, rfl⟩ := read_object hs
        exact ⟨ms, s, rfl, says_of_read (Json.keyed_read hj) (Read.result?_eq_some.2 hs), rfl⟩

theorem loadProject_fileEnd (w : Session) :
    FileEnd w (projectPath w.disk) (fun ms o => o = some ms ∨ o = none ∧ ms = []) (loadProject.perform w) := by
  have hhere : here.perform w = (.ok ⟨"/", w.disk.here⟩, w) := rfl
  rw [loadProject, perform_bind_ok hhere]
  refine fileEnd (projectPath w.disk) (.inr ⟨rfl, rfl⟩) (fun f => ⟨_, rfl⟩) fun text => ?_
  dsimp only
  cases hread : Json.read text with
  | error e => exact .inl ⟨_, rfl⟩
  | ok j =>
    cases j with
    | object ms => exact .inr ⟨ms, some ms, rfl, .inl rfl, rfl⟩
    | _ => exact .inl ⟨_, rfl⟩

/-! ## The layers -/

/-- What the arguments of a run say of a setting. -/
def argument? (o : Overrides) : (f : Setting) → Option f.Content
  | .target => o.target
  | .strict => o.strict
  | .validate => o.validate
  | .format => o.format
  | .document => o.document

/-- What the environment says of a setting. An empty version is none, an empty truth value is false. -/
def environment? (w : Session) : (f : Setting) → Option f.Content
  | .target => (w.env.lookup targetVariable).filter (· ≠ "")
  | .strict => (w.env.lookup strictVariable).bind truth?
  | .validate | .format | .document => none

/-- What the members of a file say of a setting. -/
def filed? (ms : List (String × Json)) (f : Setting) : Option f.Content :=
  (f.member? ms).bind fun j => (f.read j.toValue).result?

/-- What the layers say of a setting, the highest first. -/
def layers (o : Overrides) (w : Session) (project user : List (String × Json)) (f : Setting) :
    List (Option f.Content) :=
  [argument? o f, environment? w f, filed? project f, filed? user f]

/-- What the highest layer that says something of a setting says, or else the default. -/
def highest (o : Overrides) (w : Session) (project user : List (String × Json)) (f : Setting) : f.Content :=
  ((layers o w project user f).findSome? id).getD (f.of {})

/-- The meta-schema that the members of a file name for a version. -/
def schema? (ms : List (String × Json)) (k : String) : Option String :=
  ((Json.part "meta_schemas" ms).lookup k).bind fun j => (readText j.toValue).result?

/-- Every member of a file that is there for a setting is what the setting is. -/
def WellFormed (ms : List (String × Json)) : Prop :=
  (∀ (f : Setting) (j : Json), f.member? ms = some j → (f.read j.toValue).result?.isSome) ∧
    ∀ (k : String) (j : Json), (Json.part "meta_schemas" ms).lookup k = some j → (readText j.toValue).result?.isSome

/-- Settings that hold for a run. -/
structure Resolved (o : Overrides) (w : Session) (project user : List (String × Json)) (s : Settings) : Prop where
  target : ∃ t, Target.parse (.text (highest o w project user .target)) = .ok t ∧ s.target = t.version
  others : ∀ f : Setting, f ≠ .target → f.of s = highest o w project user f
  schemas : ∀ k, s.metaSchemas.lookup k = (schema? project k).or (schema? user k)
  truth : ∀ word, w.env.lookup strictVariable = some word → (truth? word).isSome
  project : WellFormed project
  user : WellFormed user

/-- Why a run may be kept from looking for its files. -/
def Barred (w : Session) (e : FileError) : Prop :=
  w.disk.makeFolders (folderName w) = .error e ∨
    ∃ d, w.disk.makeFolders (folderName w) = .ok d ∧ ∃ path ∈ [userPath w, projectPath d], d.isFile path = .error e

/-- How finding out what holds for a run ends. -/
inductive Resolution (o : Overrides) (w : Session) : Except Stop Settings → Prop
  | resolved {d : Disk} {project user : List (String × Json)} {s : Settings}
      (hd : w.disk.makeFolders (folderName w) = .ok d) (hproject : Holds d (projectPath d) project)
      (huser : Holds d (userPath w) user) (hs : Resolved o w project user s) : Resolution o w (.ok s)
  | refused (message : String) : Resolution o w (.error (.failed ⟨.configuration, message, [], none⟩))
  | barred {e : FileError} (he : Barred w e) : Resolution o w (.error (.crashed e.crash))

theorem Says.wellFormed {ms : List (String × Json)} {lower upper : Settings} (h : Says ms lower upper) :
    WellFormed ms := by
  refine ⟨fun f j hj => by rw [h.given f j hj]; rfl, fun k j hj => ?_⟩
  obtain ⟨path, hpath, -⟩ := h.schemaGiven k j hj
  rw [hpath]
  rfl

theorem Says.entry {ms : List (String × Json)} {lower upper : Settings} (h : Says ms lower upper) (f : Setting) :
    f.of upper = (filed? ms f).getD (f.of lower) := by
  unfold filed?
  cases hj : f.member? ms with
  | none => exact h.kept f hj
  | some j =>
    rw [Option.bind_some, h.given f j hj]
    rfl

theorem Says.schema {ms : List (String × Json)} {lower upper : Settings} (h : Says ms lower upper) (k : String) :
    upper.metaSchemas.lookup k = (schema? ms k).or (lower.metaSchemas.lookup k) := by
  unfold schema?
  cases hj : (Json.part "meta_schemas" ms).lookup k with
  | none => exact h.schemaKept k hj
  | some j =>
    obtain ⟨path, hpath, h⟩ := h.schemaGiven k j hj
    rw [Option.bind_some, hpath, h]
    rfl

/-- The settings with the version that a variable names, unless it is empty. -/
def withTarget (s : Settings) (target : Option String) : Settings :=
  { s with target := (target.filter (· ≠ "")).getD s.target }

theorem withEnvironment_none (s : Settings) (target : Option String) :
    s.withEnvironment target none = .ok (s.withTarget target) := by
  cases target with
  | none => rfl
  | some t => by_cases ht : t = "" <;> simp [withEnvironment, withTarget, Option.filter, ht] <;> rfl

theorem withEnvironment_some (s : Settings) (target : Option String) (word : String) :
    s.withEnvironment target (some word) =
      (truth strictVariable word).map fun b => { s.withTarget target with strict := b } := by
  cases target with
  | none => cases h : truth strictVariable word <;> simp [withEnvironment, withTarget, h] <;> rfl
  | some t =>
    by_cases ht : t = "" <;> cases h : truth strictVariable word <;>
      simp [withEnvironment, withTarget, Option.filter, ht, h] <;> rfl

theorem withEnvironment_ok {s s' : Settings} {w : Session}
    (h : s.withEnvironment (w.env.lookup targetVariable) (w.env.lookup strictVariable) = .ok s') :
    (∀ f, f.of s' = (environment? w f).getD (f.of s)) ∧ s'.metaSchemas = s.metaSchemas ∧
      ∀ word, w.env.lookup strictVariable = some word → (truth? word).isSome := by
  cases hword : w.env.lookup strictVariable with
  | none =>
    rw [hword, withEnvironment_none] at h
    cases h
    refine ⟨fun f => ?_, rfl, by simp⟩
    cases f <;> simp [environment?, hword, Setting.of, withTarget]
  | some word =>
    rw [hword, withEnvironment_some, truth] at h
    cases hb : truth? word with
    | none =>
      rw [hb] at h
      cases h
    | some b =>
      rw [hb] at h
      cases h
      refine ⟨fun f => ?_, rfl, fun word' h => ?_⟩
      · cases f <;> simp [environment?, hword, hb, Setting.of, withTarget]
      · cases h
        rw [hb]
        rfl

theorem withOverrides_of (s : Settings) (o : Overrides) (f : Setting) :
    f.of (s.withOverrides o) = (argument? o f).getD (f.of s) := by
  cases f <;> rfl

theorem withVersion_ok {s s' : Settings} (h : s.withVersion = .ok s') :
    ∃ t, Target.parse (.text s.target) = .ok t ∧ s' = { s with target := t.version } := by
  unfold withVersion at h
  split at h
  · rename_i t ht
    cases h
    exact ⟨t, ht, rfl⟩
  · cases h

/-- What is put together from the layers. -/
theorem resolved_of_layers {o : Overrides} {w : Session} {project user : List (String × Json)} {u p e s : Settings}
    (huser : Says user {} u) (hproject : Says project u p)
    (he : p.withEnvironment (w.env.lookup targetVariable) (w.env.lookup strictVariable) = .ok e)
    (hs : (e.withOverrides o).withVersion = .ok s) : Resolved o w project user s := by
  obtain ⟨henv, hschemas, htruth⟩ := withEnvironment_ok he
  obtain ⟨t, ht, rfl⟩ := withVersion_ok hs
  have hof (f : Setting) : f.of (e.withOverrides o) = highest o w project user f := by
    rw [withOverrides_of, henv, hproject.entry, huser.entry, highest, layers]
    cases argument? o f <;> cases environment? w f <;> cases filed? project f <;> cases filed? user f <;> rfl
  exact {
    target := ⟨t, by rw [← hof]; exact ht, rfl⟩
    others f hf := by
      rw [← hof]
      cases f with
      | target => exact absurd rfl hf
      | _ => rfl
    schemas k := by
      have h := hproject.schema k
      rw [huser.schema k] at h
      simpa [withOverrides, hschemas] using h
    truth := htruth
    project := hproject.wellFormed
    user := huser.wellFormed }

section
variable {α : Type} {o : Overrides} {w v : Session} {d : Disk}

/-- What is required is there, or the run is refused. -/
theorem Resolution.require {x : Except String α} {f : α → Act Settings}
    (h : ∀ a, x = .ok a → Resolution o w ((f a).perform v).1) :
    Resolution o w ((Settings.require x >>= f).perform v).1 := by
  cases x with
  | ok a =>
    have hrequire : (Settings.require (.ok a : Except String α)).perform v = (.ok a, v) := rfl
    rw [perform_bind_ok hrequire]
    exact h a rfl
  | error message => exact .refused message

/-- A file of settings is read, or the run ends there. -/
theorem Resolution.file {path : String} {P : List (String × Json) → α → Prop} {x : Act α} {f : α → Act Settings}
    (hd : w.disk.makeFolders (folderName w) = .ok d) (hpath : path ∈ [userPath w, projectPath d])
    (hx : FileEnd { w with disk := d } path P (x.perform v))
    (h : ∀ ms a, Holds d path ms → P ms a → Resolution o w ((f a).perform { w with disk := d }).1) :
    Resolution o w ((x >>= f).perform v).1 := by
  generalize hr : x.perform v = r at hx
  cases hx with
  | done hms ha =>
    rw [perform_bind_ok hr]
    exact h _ _ hms ha
  | refused message =>
    rw [perform_bind_error hr]
    exact .refused message
  | barred he =>
    rw [perform_bind_error hr]
    exact .barred (.inr ⟨d, hd, path, hpath, he⟩)

end

theorem resolve_ends (o : Overrides) (w : Session) : Resolution o w ((resolve o).perform w).1 := by
  unfold resolve
  cases hd : w.disk.makeFolders (folderName w) with
  | error e =>
    rw [perform_bind_error (perform_load_error hd)]
    exact .barred (.inl hd)
  | ok d =>
    refine .file hd (by simp) (load_fileEnd hd) fun user u huser hu => ?_
    refine .file hd (by simp) (loadProject_fileEnd { w with disk := d }) fun project found hms hfound => ?_
    -- the layers above the project
    have hrest (p : Settings) (hp : Says project u p) : Resolution o w ((do
        let s ← require (p.withEnvironment (← env? targetVariable) (← env? strictVariable))
        let s ← require (s.withOverrides o).withVersion
        log "specshift.config"
          s!"resolved config: target={s.target} strict={logged s.strict} validate={logged s.validate}"
        return s : Act Settings).perform { w with disk := d }).1 := by
      rw [perform_bind_ok (perform_env? _ _), perform_bind_ok (perform_env? _ _)]
      refine .require fun e he => .require fun s hs => ?_
      rw [log, perform_bind_ok (perform_change _ _)]
      exact .resolved hd hms huser (resolved_of_layers hu hp he hs)
    rcases hfound with rfl | ⟨rfl, rfl⟩
    · exact .require fun p hp => hrest p (says_of_withProject hu.distinct hms.keyed hp)
    · exact hrest u (says_nil hu.distinct)

/-- A setting that all layers leave as it is has the same value. -/
theorem Resolved.of_congr {o o' : Overrides} {w w' : Session} {project user project' user' : List (String × Json)}
    {s s' : Settings} (h : Resolved o w project user s) (h' : Resolved o' w' project' user' s') (f : Setting)
    (hf : layers o w project user f = layers o' w' project' user' f) : f.of s = f.of s' := by
  have hhighest : highest o w project user f = highest o' w' project' user' f := by rw [highest, highest, hf]
  by_cases htarget : f = .target
  · subst htarget
    obtain ⟨t, ht, hs⟩ := h.target
    obtain ⟨t', ht', hs'⟩ := h'.target
    rw [hhighest, ht'] at ht
    cases ht
    exact hs.trans hs'.symm
  · rw [h.others f htarget, h'.others f htarget, hhighest]

theorem Resolved.target_mem {o : Overrides} {w : Session} {project user : List (String × Json)} {s : Settings}
    (h : Resolved o w project user s) : s.target ∈ Target.all.map Target.version := by
  obtain ⟨t, -, hs⟩ := h.target
  rw [hs]
  cases t <;> simp [Target.all]

theorem Resolved.schema_congr {o o' : Overrides} {w w' : Session}
    {project user project' user' : List (String × Json)} {s s' : Settings} (h : Resolved o w project user s)
    (h' : Resolved o' w' project' user' s') (k : String) (hproject : schema? project k = schema? project' k)
    (huser : schema? user k = schema? user' k) : s.metaSchemas.lookup k = s'.metaSchemas.lookup k := by
  rw [h.schemas, h'.schemas, hproject, huser]

/-- A session whose settings should be kept in a folder that is a file. -/
def blocked : Session :=
  { disk := { files := [(["blocked"], [])] }, env := [("XDG_CONFIG_HOME", "/blocked")] }

theorem locate_blocked : blocked.disk.locate "/blocked/specshift" = .error .notAFolder := by
  have hparts : allParts "/blocked/specshift" = ["blocked", "specshift"] := by rfl
  have hroot : "/blocked/specshift".startsWith "/" = true := by simp
  have hsize : "/blocked/specshift".utf8ByteSize = 18 := rfl
  have hpart : "blocked".utf8ByteSize = 7 := rfl
  simp [Disk.locate, hparts, hroot, hsize, hpart, Disk.walk, Disk.step, Disk.isFolderAt, Disk.fileAt?, blocked,
    Disk.longestName, Disk.longestPart]

theorem makeFolders_blocked : ∃ e, blocked.disk.makeFolders (folderName blocked) = .error e := by
  have hname : folderName blocked = ⟨"/", ["blocked", "specshift"]⟩ := by rfl
  have htext : PathName.text ⟨"/", ["blocked", "specshift"]⟩ = "/blocked/specshift" := by rfl
  refine ⟨⟨.notAFolder, "/blocked/specshift", none⟩, ?_⟩
  simp [hname, Disk.makeFolders, Disk.ensureFolders, Disk.ensureFolder, Disk.makeFolder, Disk.isFolder, Disk.find,
    htext, locate_blocked]

end Settings
end ApiProjection
