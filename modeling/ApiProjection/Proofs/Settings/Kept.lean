import ApiProjection.Proofs.Host.Replace
import ApiProjection.Proofs.RoundTrip.Document
import ApiProjection.Proofs.RoundTrip.File
import ApiProjection.Proofs.Settings.Layers
/-!
# Settings that are kept

Settings that have been written to their file are read from it again.

* `Settings.ofText_fileText`: the text of a file of settings.
-/
namespace ApiProjection.Settings

open Act Record Session

/-! ## Text -/

theorem distinctKeys_schemas {s : Settings} (h : DistinctKeys s.metaSchemas) :
    DistinctKeys (s.metaSchemas.map fun (k, v) => (k, Json.text v)) := by
  simpa [DistinctKeys, Function.comp_def] using h

/-- Settings are read from the members that they are written as. -/
theorem read_toJson {s : Settings} (h : DistinctKeys s.metaSchemas) : read s.toJson.toValue = .done s := by
  have hschemas : (mapOf readText (Json.object (s.metaSchemas.map fun (k, v) => (k, Json.text v))).toValue).result? =
      some s.metaSchemas := by
    rw [mapOf_eq_some (distinctKeys_schemas h), List.forall₂_map_left_iff]
    exact List.forall₂_same.2 fun e _ => ⟨rfl, rfl⟩
  have houtput : (OutputSettings.read s.output.toJson.toValue).result? = some s.output := by
    change OutputSettings.fields.get? [("format", .text s.output.format), ("document", .text s.output.document)] = _
    simp only [OutputSettings.fields, Fields.get?_seq, Fields.get?_map, get?_key]
    rfl
  rw [← Read.result?_eq_some]
  change fields.get? s.members = some s
  simp only [fields, Fields.flag, Fields.get?_seq, Fields.get?_map, get?_key]
  have hmember : s.members.lookup "meta_schemas" =
      some (.object (s.metaSchemas.map fun (k, v) => (k, Json.text v))) := rfl
  have hlast : s.members.lookup "output" = some s.output.toJson := rfl
  rw [hmember, hlast, Option.elim_some, Option.elim_some, hschemas, houtput]
  rfl

/-- The text of a file of settings is read as the settings. -/
theorem ofText_fileText {s : Settings} (h : DistinctKeys s.metaSchemas) : ofText s.fileText = .ok s := by
  have hschemas (es : List (String × String)) :
      Json.floatsOfMembers (es.map fun (k, v) => (k, Json.text v)) = [] ∧
        Json.anyLongMember (es.map fun (k, v) => (k, Json.text v)) = false := by
    induction es with
    | nil => exact ⟨rfl, rfl⟩
    | cons e es ih => simpa [Json.floatsOfMembers, Json.floats, Json.anyLongMember, Json.hasLongInteger] using ih
  have hfloats : s.toJson.floats = [] := by
    simp [toJson, OutputSettings.toJson, Json.floats, Json.floatsOfMembers, hschemas]
  have hlong : s.toJson.hasLongInteger = false := by
    simp [toJson, OutputSettings.toJson, Json.hasLongInteger, Json.anyLongMember, hschemas]
  have hkeyed : s.toJson.Keyed := keyed_members h
  rw [ofText, fileText, Json.read_write .record hlong, Json.reread_eq hkeyed (by simp [hfloats])]
  simp only [read_toJson h]

/-! ## The file -/

theorem plain_config : PlainPart "config.json" := ⟨by decide, by decide, by decide, by decide⟩

theorem folderName_eq (w : Session) : ∃ (f : PathName) (name : String), name ≠ "" ∧ folderName w = f.child name := by
  unfold folderName
  split
  · exact ⟨_, appName, by decide, rfl⟩
  · exact ⟨_, "." ++ appName, by decide, rfl⟩

theorem folderName_parts (w : Session) : (folderName w).parts ≠ [] := by
  obtain ⟨f, name, -, h⟩ := folderName_eq w
  rw [h]
  simp [PathName.child]

theorem folderName_text (w : Session) : (folderName w).text ≠ "" := by
  obtain ⟨f, name, hname, h⟩ := folderName_eq w
  rw [h]
  by_cases hparts : f.parts = []
  · simp [PathName.text, PathName.child, hparts, hname]
  · simp [PathName.text_child hparts]

/-- The place of the settings file. -/
def filePlace (w : Session) : Place := w.disk.placeOf (userPath w)

/-- What the settings file holds, if it is there. -/
def kept (w : Session) : Option (List UInt8) := w.disk.fileAt? (filePlace w)

theorem getLast?_filePlace (w : Session) : (filePlace w).getLast? = some "config.json" :=
  Disk.getLast?_placeOf (folderName_parts w) plain_config

/-! ## Loading -/

/-- The settings that a name stands for on a disk: those in its file, or the defaults if there is none. -/
def Found (d : Disk) (path : String) (s : Settings) : Prop :=
  d.isFile path = .ok false ∧ s = {} ∨
    ∃ bytes text, d.read path = .ok bytes ∧ textOf bytes = .ok text ∧ ofText text = .ok s

theorem Found.distinct {d : Disk} {path : String} {s : Settings} (h : Found d path s) : DistinctKeys s.metaSchemas := by
  rcases h with ⟨-, rfl⟩ | ⟨_, text, -, -, htext⟩
  · exact List.nodup_nil
  · unfold ofText at htext
    cases hj : Json.read text with
    | error e =>
      rw [hj] at htext
      cases htext
    | ok j =>
      rw [hj] at htext
      cases hs : read j.toValue with
      | failed issues =>
        simp only [hs] at htext
        cases htext
      | done s' =>
        simp only [hs] at htext
        cases htext
        obtain ⟨ms, rfl⟩ := read_object hs
        exact (says_of_read (Json.keyed_read hj) (Read.result?_eq_some.2 hs)).distinct

/-- Settings are loaded from the file of the user. -/
def Loads (w : Session) (s : Settings) : Prop := (load.perform w).1 = .ok s

section
variable {w : Session} {d : Disk} {s : Settings}

theorem perform_file (hd : w.disk.makeFolders (folderName w) = .ok d) :
    file.perform w = (.ok ((folderName w).child "config.json"), { w with disk := d }) := by
  rw [file, perform_bind_ok (perform_folder_ok w hd)]
  rfl

/-- Loading makes the folder, and then finds settings or none. -/
theorem load_cases (hd : w.disk.makeFolders (folderName w) = .ok d) :
    (∃ s, Found d (userPath w) s ∧ load.perform w = (.ok s, { w with disk := d })) ∨
      (∀ s, ¬ Found d (userPath w) s) ∧
        ∃ e, ((∃ c, e = .crashed c) ∨ ∃ message, e = .failed ⟨.configuration, message, [], none⟩) ∧
          load.perform w = (.error e, { w with disk := d }) := by
  have hpath : ((folderName w).child "config.json").text = userPath w := rfl
  rw [load, perform_bind_ok (perform_file hd)]
  dsimp only
  rw [hpath]
  cases hfile : d.isFile (userPath w) with
  | error e =>
    have hlook := perform_look_error (f := fun d => d.isFile (userPath w)) { w with disk := d } hfile
    refine .inr ⟨?_, _, .inl ⟨_, rfl⟩, perform_bind_error hlook _⟩
    rintro s (⟨hno, -⟩ | ⟨bytes, -, hread, -⟩)
    · rw [hfile] at hno
      cases hno
    · rw [Disk.isFile_eq_true.2 ⟨bytes, hread⟩] at hfile
      cases hfile
  | ok found =>
    rw [perform_bind_ok (perform_look_ok (f := fun d => d.isFile (userPath w)) { w with disk := d } hfile)]
    cases found with
    | false => exact .inl ⟨{}, .inl ⟨hfile, rfl⟩, rfl⟩
    | true =>
      obtain ⟨bytes, hread⟩ := Disk.isFile_eq_true.1 hfile
      have hfound (s : Settings) (h : Found d (userPath w) s) :
          ∃ text, textOf bytes = .ok text ∧ ofText text = .ok s := by
        rcases h with ⟨hno, -⟩ | ⟨bytes', text, hread', htext, hs⟩
        · rw [hfile] at hno
          cases hno
        · rw [hread] at hread'
          cases hread'
          exact ⟨text, htext, hs⟩
      simp only [Bool.not_true, Bool.false_eq_true, if_false]
      rw [perform_bind_ok (perform_readText? { w with disk := d } hread)]
      cases htext : textOf bytes with
      | error f =>
        refine .inr ⟨fun s h => ?_, _, .inr ⟨_, rfl⟩, rfl⟩
        obtain ⟨text, htext', -⟩ := hfound s h
        rw [htext] at htext'
        cases htext'
      | ok text =>
        dsimp only
        cases hs : ofText text with
        | ok s => exact .inl ⟨s, .inr ⟨bytes, text, hread, htext, hs⟩, rfl⟩
        | error message =>
          refine .inr ⟨fun s h => ?_, _, .inr ⟨_, rfl⟩, rfl⟩
          obtain ⟨text', htext', hs'⟩ := hfound s h
          rw [htext] at htext'
          cases htext'
          rw [hs] at hs'
          cases hs'

theorem Found.unique {path : String} {s' : Settings} (h : Found d path s) (h' : Found d path s') : s = s' := by
  rcases h with ⟨hno, rfl⟩ | ⟨bytes, text, hread, htext, hs⟩
  · rcases h' with ⟨-, rfl⟩ | ⟨bytes, text, hread, -, -⟩
    · rfl
    · rw [Disk.isFile_eq_true.2 ⟨bytes, hread⟩] at hno
      cases hno
  · rcases h' with ⟨hno, -⟩ | ⟨bytes', text', hread', htext', hs'⟩
    · rw [Disk.isFile_eq_true.2 ⟨bytes, hread⟩] at hno
      cases hno
    · rw [hread] at hread'
      cases hread'
      rw [htext] at htext'
      cases htext'
      rw [hs] at hs'
      cases hs'
      rfl

theorem loads_iff : Loads w s ↔ ∃ d, w.disk.makeFolders (folderName w) = .ok d ∧ Found d (userPath w) s := by
  cases hd : w.disk.makeFolders (folderName w) with
  | error e =>
    rw [Loads, perform_load_error hd]
    simp
  | ok d =>
    simp only [Except.ok.injEq, exists_eq_left', Loads]
    rcases load_cases hd with ⟨s', hfound, hload⟩ | ⟨hno, e, -, hload⟩
    · rw [hload, Except.ok.injEq]
      exact ⟨fun h => h ▸ hfound, fun h => hfound.unique h⟩
    · rw [hload]
      exact ⟨fun h => (nomatch h), fun h => absurd h (hno s)⟩

theorem Loads.unique {s' : Settings} (h : Loads w s) (h' : Loads w s') : s' = s := by
  rw [Loads, h, Except.ok.injEq] at h'
  exact h'.symm

theorem Loads.found (h : Loads w s) (hd : w.disk.makeFolders (folderName w) = .ok d) : Found d (userPath w) s := by
  obtain ⟨d', hd', hfound⟩ := loads_iff.1 h
  rw [hd] at hd'
  cases hd'
  exact hfound

theorem Loads.distinct (h : Loads w s) : DistinctKeys s.metaSchemas := by
  obtain ⟨d, -, hfound⟩ := loads_iff.1 h
  exact hfound.distinct

/-- Without a file the defaults are loaded. -/
theorem Loads.absent (h : Loads w s) (hnone : kept w = none) : s = {} := by
  obtain ⟨d, hd, hfound⟩ := loads_iff.1 h
  rcases hfound with ⟨-, rfl⟩ | ⟨bytes, -, hread, -⟩
  · rfl
  · have hgrown := Disk.makeFolders_grown hd
    obtain ⟨p, hp, -, hfile⟩ := Disk.read_eq_ok.1 hread
    have hplace : p = filePlace w := by
      rw [Disk.locate_eq hp, filePlace, Disk.placeOf, Disk.placeOf, hgrown.here]
    rw [hgrown.fileAt?, hplace] at hfile
    rw [kept, hfile] at hnone
    cases hnone

end

/-! ## Leaving the file alone -/

/-- A run goes on from one session to another. -/
def Continues (w v : Session) : Prop :=
  ∃ disk stdin stdout stderr logging, v = { w with disk, stdin, stdout, stderr, logging }

/-- The settings file is absent, or settings are loaded from it. -/
def Sound (w : Session) : Prop := kept w = none ∨ ∃ s, Loads w s

/-- The settings file of a session is as that of another. -/
structure Spares (w v : Session) : Prop where
  kept : kept v = kept w
  loads : ∀ s, Loads w s → Loads v s

theorem Spares.sound {w v : Session} (h : Spares w v) (hw : Sound w) : Sound v :=
  hw.imp h.kept.trans fun ⟨s, hs⟩ => ⟨s, h.loads s hs⟩

theorem Spares.trans {w v u : Session} (h : Spares w v) (h' : Spares v u) : Spares w u :=
  ⟨h'.kept.trans h.kept, fun s hs => h'.loads s (h.loads s hs)⟩

/-- The folder for settings was to be made, and since then nothing happened to the settings file. -/
structure Tried (w v : Session) : Prop where
  continues : Continues w v
  disk : (∃ d, w.disk.makeFolders (folderName w) = .ok d ∧ d.Beside (filePlace w) v.disk) ∨
    (∃ e, w.disk.makeFolders (folderName w) = .error e) ∧ w.disk.Beside (filePlace w) v.disk

section
variable {w v u : Session} {d e : Disk} {s : Settings}

theorem Continues.refl (w : Session) : Continues w w := ⟨_, _, _, _, _, rfl⟩

theorem Continues.trans (h : Continues w v) (h' : Continues v u) : Continues w u := by
  obtain ⟨_, _, _, _, _, rfl⟩ := h
  obtain ⟨_, _, _, _, _, rfl⟩ := h'
  exact ⟨_, _, _, _, _, rfl⟩

theorem Continues.folderName (h : Continues w v) : folderName v = folderName w := by
  obtain ⟨_, _, _, _, _, rfl⟩ := h
  rfl

theorem Continues.userPath (h : Continues w v) : userPath v = userPath w := by
  rw [Settings.userPath, Settings.userPath, h.folderName]

theorem Continues.stamp (h : Continues w v) : v.stamp = w.stamp := by
  obtain ⟨_, _, _, _, _, rfl⟩ := h
  rfl

/-- On the same disk the file is the same. -/
theorem Continues.spares (h : Continues w v) (hdisk : v.disk = w.disk) : Spares w v where
  kept := by rw [kept, kept, filePlace, filePlace, h.userPath, hdisk]
  loads s hs := by
    obtain ⟨d, hd, hfound⟩ := loads_iff.1 hs
    exact loads_iff.2 ⟨d, by rw [hdisk, h.folderName, hd], by rwa [h.userPath]⟩

theorem Tried.beside (h : Tried w v) : w.disk.Beside (filePlace w) v.disk := by
  rcases h.disk with ⟨d, hd, hbeside⟩ | ⟨-, hbeside⟩
  · exact ((Disk.makeFolders_grown hd).beside _).trans hbeside
  · exact hbeside

theorem Tried.trans (h : Tried w v) (hrun : Continues v u) (hdisk : v.disk.Beside (filePlace w) u.disk) : Tried w u where
  continues := h.continues.trans hrun
  disk := h.disk.imp (fun ⟨d, hd, hbeside⟩ => ⟨d, hd, hbeside.trans hdisk⟩) fun ⟨he, hbeside⟩ => ⟨he, hbeside.trans hdisk⟩

theorem Tried.barred {f : FileError} (h : w.disk.makeFolders (folderName w) = .error f) : Tried w w :=
  ⟨.refl w, .inr ⟨⟨f, h⟩, .refl _ _⟩⟩

theorem Tried.made (hd : w.disk.makeFolders (folderName w) = .ok d) : Tried w { w with disk := d } :=
  ⟨⟨_, _, _, _, _, rfl⟩, .inl ⟨d, hd, .refl _ _⟩⟩

/-- The folder is there once it has been made. -/
theorem makeFolders_again (hd : w.disk.makeFolders (folderName w) = .ok d) : d.makeFolders (folderName w) = .ok d :=
  Disk.makeFolders_there (Disk.makeFolders_isFolder hd)

theorem filePlace_made (hd : w.disk.makeFolders (folderName w) = .ok d) : filePlace { w with disk := d } = filePlace w := by
  rw [filePlace, filePlace, Disk.placeOf, Disk.placeOf, (Disk.makeFolders_grown hd).here]
  rfl

theorem Tried.of_made (hd : w.disk.makeFolders (folderName w) = .ok d) (h : Tried { w with disk := d } v) : Tried w v where
  continues := Continues.trans ⟨_, _, _, _, _, rfl⟩ h.continues
  disk := by
    have hbeside := h.beside
    rw [filePlace_made hd] at hbeside
    exact .inl ⟨d, hd, hbeside⟩

theorem Continues.tried (h : Continues w v) (hdisk : v.disk = w.disk) (htried : Tried v u) : Tried w u where
  continues := h.trans htried.continues
  disk := by
    have hplace : filePlace v = filePlace w := by rw [filePlace, filePlace, h.userPath, hdisk]
    simpa only [h.folderName, hdisk, hplace] using htried.disk

/-- In the folder for settings the same settings are found as before. -/
theorem Found.beside (hd : w.disk.makeFolders (folderName w) = .ok d) (h : Found d (userPath w) s)
    (hbeside : d.Beside (filePlace w) e) : Found e (userPath w) s := by
  have hplace : filePlace w = d.placeOf (userPath w) := (filePlace_made hd).symm
  rw [hplace] at hbeside
  rcases h with ⟨hno, rfl⟩ | ⟨bytes, text, hread, htext, hs⟩
  · obtain ⟨q, hq, hfolder⟩ := Disk.isFolder_iff.1 (Disk.makeFolders_isFolder hd)
    have hlocate := Disk.locate_child (folderName_parts w) (folderName_text w) plain_config (by decide) (by decide) hq hfolder
    refine .inl ⟨?_, rfl⟩
    rcases hlocate with hp | hlong
    · have hsame := Disk.locate_eq hp
      rw [userPath, ← hsame] at hbeside
      exact hbeside.isFile hp hno
    · rw [userPath, Disk.isFile_eq_error.2 ⟨hlong, rfl⟩] at hno
      cases hno
  · exact .inr ⟨bytes, text, hbeside.read hread, htext, hs⟩

/-- What was loaded is loaded again. -/
theorem Tried.spares (h : Tried w v) : Spares w v := by
  have hbeside := h.beside
  have hplace : filePlace v = filePlace w := by
    rw [filePlace, filePlace, Disk.placeOf, Disk.placeOf, h.continues.userPath, hbeside.here]
  refine ⟨by rw [kept, hplace, hbeside.file]; rfl, fun s hs => ?_⟩
  obtain ⟨d, hd, hfound⟩ := loads_iff.1 hs
  rcases h.disk with ⟨d', hd', hdisk⟩ | ⟨⟨e, he⟩, -⟩
  · rw [hd] at hd'
    cases hd'
    obtain ⟨q, hq, hfolder⟩ := Disk.isFolder_iff.1 (Disk.makeFolders_isFolder hd)
    have hstill : v.disk.isFolder (folderName v).text = true := by
      rw [h.continues.folderName]
      exact Disk.isFolder_iff.2 ⟨q, Disk.locate_mono hdisk.folders hdisk.here hq, hdisk.folders q hfolder⟩
    refine loads_iff.2 ⟨v.disk, Disk.makeFolders_there hstill, ?_⟩
    rw [h.continues.userPath]
    exact hfound.beside hd hdisk
  · rw [hd] at he
    cases he

end

/-! ## Saving -/

/-- Whether settings can be saved, whatever they are. -/
def Savable (w : Session) : Prop :=
  ∃ d, w.disk.makeFolders (folderName w) = .ok d ∧ d.Replaceable w.tag ((folderName w).child "config.json")

/-- Settings have been saved. -/
structure Saved (s : Settings) (w v : Session) : Prop where
  continues : Continues w v
  loads : Loads v s
  there : v.disk.makeFolders (folderName v) = .ok v.disk

section
variable {w v u : Session} {d : Disk} {s : Settings}

/-- Once settings have been saved, nothing happened to the file yet. -/
theorem Saved.tried (h : Saved s w v) : Tried v v := ⟨.refl v, .inl ⟨_, h.there, .refl _ _⟩⟩

theorem Continues.saved (h : Continues w v) (hsaved : Saved s v u) : Saved s w u :=
  ⟨h.trans hsaved.continues, hsaved.loads, hsaved.there⟩

/-- What is said then makes no difference. -/
theorem Saved.said (h : Saved s w v) (stderr : String) : Saved s w { v with stderr } where
  continues := h.continues.trans ⟨_, _, _, _, _, rfl⟩
  loads := by
    obtain ⟨d, hd, hfound⟩ := loads_iff.1 h.loads
    exact loads_iff.2 ⟨d, hd, hfound⟩
  there := h.there

theorem savable_iff (hd : w.disk.makeFolders (folderName w) = .ok d) :
    Savable w ↔ d.Replaceable w.tag ((folderName w).child "config.json") := by
  simp only [Savable, hd, Except.ok.injEq, exists_eq_left']

theorem Continues.savable (h : Continues w v) (hdisk : v.disk = w.disk) : Savable v ↔ Savable w := by
  have htag : v.tag = w.tag := by
    obtain ⟨_, _, _, _, _, rfl⟩ := h
    rfl
  rw [Savable, Savable, h.folderName, hdisk, htag]

theorem savable_made (hd : w.disk.makeFolders (folderName w) = .ok d) : Savable { w with disk := d } ↔ Savable w := by
  have hagain := makeFolders_again hd
  exact (savable_iff (w := { w with disk := d }) hagain).trans (savable_iff hd).symm

/-- **Settings are saved, and then they are loaded again; or they cannot be saved, and the file is as it was.** -/
theorem save_cases (hs : DistinctKeys s.metaSchemas) (w : Session) :
    (Savable w ∧ ∃ v, (save s).perform w = (.ok (), v) ∧ Saved s w v) ∨
      ¬ Savable w ∧ ∃ e v, (save s).perform w = (.error (.crashed e), v) ∧ Tried w v := by
  cases hd : w.disk.makeFolders (folderName w) with
  | error f =>
    refine .inr ⟨?_, f.crash, w, ?_, .barred hd⟩
    · rintro ⟨d, hd', -⟩
      rw [hd] at hd'
      cases hd'
    · rw [save, file, perform_bind_error (perform_bind_error (perform_folder_error w hd) _)]
  | ok d =>
    rw [savable_iff hd, save, perform_bind_ok (perform_file hd), replace, perform_bind_ok (perform_session _)]
    rcases Disk.replaceWith_cases d w.tag ((folderName w).child "config.json") (Utf8.encode s.fileText) with
      ⟨hcan, e, source, p, he, hp, hreplace⟩ | ⟨hcannot, e, f, hbeside, hreplace⟩
    · refine .inl ⟨hcan, { w with disk := (e.removeFile source).setFile p (Utf8.encode s.fileText) }, ?_, ?_⟩
      · dsimp only
        rw [hreplace]
        rfl
      · rw [PathName.parent_child] at he
        obtain ⟨q, hq, hfolder⟩ := Disk.isFolder_iff.1 (Disk.makeFolders_isFolder he)
        have hfolders : ((e.removeFile source).setFile p (Utf8.encode s.fileText)).folders = e.folders := rfl
        have hthere : ((e.removeFile source).setFile p (Utf8.encode s.fileText)).isFolder (folderName w).text = true :=
          Disk.isFolder_iff.2 ⟨q, (Disk.locate_congr hfolders rfl).2 hq, hfolder⟩
        refine ⟨⟨_, _, _, _, _, rfl⟩, loads_iff.2 ⟨_, Disk.makeFolders_there hthere, ?_⟩, Disk.makeFolders_there hthere⟩
        exact .inr ⟨_, _, Disk.read_replaced hp, Json.textOf_write .record s.toJson, ofText_fileText hs⟩
    · refine .inr ⟨hcannot, f.crash, { w with disk := e }, ?_, ?_⟩
      · dsimp only
        rw [hreplace]
        rfl
      · refine (Tried.made hd).trans ⟨_, _, _, _, _, rfl⟩ (hbeside _ ?_)
        rw [getLast?_filePlace, Ne, Option.some.injEq]
        intro hname
        have hhead := Disk.temporaryName_head ((folderName w).child "config.json") w.tag
        rw [← hname] at hhead
        revert hhead
        decide

end

end ApiProjection.Settings
