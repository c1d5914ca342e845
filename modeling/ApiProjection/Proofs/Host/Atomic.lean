import ApiProjection.Proofs.Host.Replace
/-!
# Replacing a file at once

A file that is replaced holds the whole text afterwards, or what it held before, and nothing else happens but that
folders on the way to it are new; whatever fails, and wherever. There are two exceptions. A draft is left, with as much
of the text as had got into it, if it cannot be closed after a failure, or not be removed: it is to be closed first, and
what fails then is not caught. And a name that leads out of a folder and to the same folder makes the folder that it
stands for, in whose place no file can be put.

* `Disk.replaceWith_atomic`: when a replacement is what it should be.
* `Disk.replaceWith_untidy`: two that are not.
-/
namespace ApiProjection.Disk

open Draft

variable {d e : Disk} {tag : String} {t : Trouble} {path : PathName} {content : List UInt8} {p q source : Place}
  {w : Written}

/-! ## Promises -/

/-- What is promised of a replacement, whether or not it fails. -/
structure Atomic (d : Disk) (path : PathName) (content : List UInt8) (w : Written) : Prop where
  /-- The file holds the text, and every other is as it was. -/
  returned : w.error = none → w.disk.read path.text = .ok content ∧
    ∀ q, q ≠ d.placeOf path.text → w.disk.fileAt? q = d.fileAt? q
  /-- In the place of the file is what was there, and every file is as it was. -/
  raised : w.error ≠ none → w.disk.entryAt? (d.placeOf path.text) = d.entryAt? (d.placeOf path.text) ∧
    ∀ q, w.disk.fileAt? q = d.fileAt? q
  /-- Folders are new only where nothing was, and only those that the file is in. -/
  folders : w.disk.here = d.here ∧ ∃ new, w.disk.folders = new ++ d.folders ∧
    ∀ q ∈ new, d.entryAt? q = none ∧ ∃ k, q = d.placeOf (PathName.parent^[k + 1] path).text

/-- Nothing is yet where the draft is to be: its name is chosen so. -/
def Fresh (d : Disk) (tag : String) (t : Trouble) (path : PathName) : Prop :=
  ∀ source, (d.paved t path).draftPlace tag path = .ok source → (d.paved t path).entryAt? source = none

/-- A step on the draft fails, and then it cannot be closed or not be removed. -/
def LeavesDraft (d : Disk) (tag : String) (t : Trouble) (path : PathName) : Prop :=
  d.Paves t path ∧ ∃ s, Fails t tag path (d.paved t path) s ∧ IsLeft t s

/-- The folders on the way to a file are made, and one of them is in its place. -/
def OwnParent (d : Disk) (t : Trouble) (path : PathName) : Prop :=
  d.entryAt? (d.placeOf path.text) = none ∧ (d.paved t path).isFolderAt (d.placeOf path.text) = true

/-! ## Folders -/

/-- In its own place a folder is what changes, if anything does. -/
theorem entryAt?_paved (h : ¬ d.OwnParent t path) :
    (d.paved t path).entryAt? (d.placeOf path.text) = d.entryAt? (d.placeOf path.text) := by
  have hgrown := paved_grown d t path
  by_cases hfolder : d.isFolderAt (d.placeOf path.text) = true
  · rw [entryAt?, if_pos (hgrown.isFolderAt hfolder), entryAt?, if_pos hfolder]
  · by_cases hnow : (d.paved t path).isFolderAt (d.placeOf path.text) = true
    · have hnew := (putFolders_paved t.folder d path.parent).of_isFolderAt (Bool.not_eq_true _ ▸ hfolder) hnow
      exact absurd ⟨hnew.1, hnow⟩ h
    · rw [entryAt?, if_neg hnow, entryAt?, if_neg hfolder, hgrown.fileAt?]

/-- Folders of a disk that has been written on are those that have been made. -/
theorem folders_of_paved (hfolders : w.disk.folders = (d.paved t path).folders) (hhere : w.disk.here = (d.paved t path).here) :
    w.disk.here = d.here ∧ ∃ new, w.disk.folders = new ++ d.folders ∧
      ∀ q ∈ new, d.entryAt? q = none ∧ ∃ k, q = d.placeOf (PathName.parent^[k + 1] path).text := by
  obtain ⟨new, hdisk, hnew⟩ := putFolders_paved t.folder d path.parent
  change d.paved t path = _ at hdisk
  rw [hdisk] at hfolders hhere
  refine ⟨hhere, new, hfolders, fun q hq => ?_⟩
  obtain ⟨hnone, k, hk⟩ := hnew q hq
  exact ⟨hnone, k, by rwa [Function.iterate_succ_apply]⟩

/-! ## What is kept and what is left -/

theorem fileAt?_removed (d : Disk) (p : Place) : (d.removeFile p).fileAt? p = none := by
  rw [fileAt?, List.lookup_eq_none_iff, removeFile]
  intro f hf
  rw [List.mem_filter] at hf
  rw [bne_comm]
  exact hf.2

/-- On a disk without its draft every file is as it was. -/
theorem fileAt?_cleared (hnone : (d.paved t path).entryAt? source = none) (q : Place) :
    ((d.paved t path).removeFile source).fileAt? q = d.fileAt? q := by
  rw [← (paved_grown d t path).fileAt? q]
  by_cases hq : q = source
  · subst hq
    rw [(entryAt?_eq_none.1 hnone).2, fileAt?_removed]
  · exact fileAt?_removeFile _ _ hq

/-- With the same folders and the same files the same stands in a place. -/
theorem entryAt?_congr {d' : Disk} (hfolders : d'.folders = d.folders) (hfile : d'.fileAt? p = d.fileAt? p) :
    d'.entryAt? p = d.entryAt? p := by
  rw [entryAt?, entryAt?, isFolderAt, isFolderAt, hfolders, hfile]

/-- What has failed and been cleared away is as it should be, unless the folders are in the place of the file. -/
theorem atomic_of_cleared (hown : ¬ d.OwnParent t path) {d' : Disk} {f : FileError}
    (hfolders : d'.folders = (d.paved t path).folders) (hhere : d'.here = (d.paved t path).here)
    (hfiles : ∀ q, d'.fileAt? q = d.fileAt? q) : Atomic d path content ⟨d', some f⟩ where
  returned := nofun
  raised _ := by
    refine ⟨?_, hfiles⟩
    rw [← entryAt?_paved hown]
    exact entryAt?_congr hfolders ((hfiles _).trans ((paved_grown d t path).fileAt? _).symm)
  folders := folders_of_paved hfolders hhere

/-- The place that a file takes is that of its name. -/
theorem Takes.place (h : (d.paved t path).Takes path p) : p = d.placeOf path.text := by
  rw [locate_eq h.locate, placeOf, placeOf, (paved_grown d t path).here]

theorem atomic_of_replaced (hnone : (d.paved t path).entryAt? source = none) (hp : (d.paved t path).Takes path p) :
    Atomic d path content ⟨((d.paved t path).removeFile source).setFile p content, none⟩ where
  returned _ := by
    refine ⟨read_replaced hp, fun q hq => ?_⟩
    rw [← hp.place] at hq
    rw [fileAt?_setFile, if_neg hq, fileAt?_cleared hnone]
  raised h := absurd rfl h
  folders := folders_of_paved rfl rfl

/-! ## Both exceptions -/

/-- A draft that is left is a file that was not there. -/
theorem not_atomic_of_left {f : FileError} {bytes : List UInt8} (hnone : (d.paved t path).entryAt? source = none) :
    ¬ Atomic d path content ⟨(d.paved t path).setFile source bytes, some f⟩ := by
  intro h
  have hsame := (h.raised nofun).2 source
  rw [fileAt?_setFile, if_pos rfl, ← (paved_grown d t path).fileAt?, (entryAt?_eq_none.1 hnone).2] at hsame
  cases hsame

/-- A replacement of what the folders on the way have taken the place of fails, and the folder stays. -/
theorem not_atomic_of_ownParent (h : d.OwnParent t path) (tag : String) (content : List UInt8) :
    ¬ Atomic d path content (d.replaceWith tag t path content) := by
  intro hatomic
  obtain ⟨hnone, hfolder⟩ := h
  have hend := replaceWith_ends d tag t path content
  have hfails : (d.replaceWith tag t path content).error ≠ none := by
    generalize d.replaceWith tag t path content = w at hend
    cases hend with
    | replaced hpaves hfree hsource hp =>
      have hno := hp.noFolder
      rw [hp.place, hfolder] at hno
      cases hno
    | barred => nofun
    | unmade => nofun
    | cleared => nofun
    | left => nofun
  have hstill : (d.replaceWith tag t path content).disk.isFolderAt (d.placeOf path.text) = true := by
    rwa [isFolderAt, hend.folders.1]
  have hsame := (hatomic.raised hfails).1
  rw [hnone, entryAt?, if_pos hstill] at hsame
  cases hsame

/-- What is left is a draft with a beginning of the text. -/
theorem left_of_leavesDraft (h : d.LeavesDraft tag t path) (content : List UInt8) :
    ∃ source bytes f, (d.paved t path).draftPlace tag path = .ok source ∧ bytes <+: content ∧
      d.replaceWith tag t path content = ⟨(d.paved t path).setFile source bytes, some f⟩ := by
  obtain ⟨hpaves, s, hfails, hleft⟩ := h
  have hend := replaceWith_ends d tag t path content
  generalize d.replaceWith tag t path content = w at hend
  cases hend with
  | barred hbarred => exact absurd hpaves hbarred
  | replaced _ hfree =>
    obtain ⟨-, -, -, -, hblocked⟩ := hfails
    exact absurd hblocked (hfree s)
  | unmade _ hfails' => exact absurd (hfails.unique hfails') hleft.1
  | cleared _ hsource hfails' hclear =>
    obtain rfl := hfails.unique hfails'
    exact absurd hleft hclear
  | left _ hsource hfails' hleft' hbytes => exact ⟨_, _, _, hsource, hbytes, rfl⟩

theorem not_atomic_of_leavesDraft (hfresh : d.Fresh tag t path) (h : d.LeavesDraft tag t path) (content : List UInt8) :
    ¬ Atomic d path content (d.replaceWith tag t path content) := by
  obtain ⟨source, bytes, f, hsource, -, hreplace⟩ := left_of_leavesDraft h content
  rw [hreplace]
  exact not_atomic_of_left (hfresh source hsource)

/-- No folder on the way to a file with such a name is in its place. -/
theorem not_ownParent (h : path.Straight) (hparts : path.parts ≠ []) (d : Disk) (t : Trouble) :
    ¬ d.OwnParent t path := by
  rintro ⟨hnone, hfolder⟩
  have hno := (entryAt?_eq_none.1 hnone).1
  obtain ⟨-, k, hk⟩ := (putFolders_paved t.folder d path.parent).of_isFolderAt hno hfolder
  rw [← Function.iterate_succ_apply] at hk
  obtain ⟨hstraight, hanchor, hlength⟩ := h.parents (k + 1)
  rw [placeOf_straight h, placeOf_straight hstraight, hanchor] at hk
  have hsame := congrArg List.length (List.append_cancel_left hk)
  have hpos := List.length_pos_iff.2 hparts
  omega

/-! ## Replacements -/

theorem atomic_of_tidy (hfresh : d.Fresh tag t path) (hleft : ¬ d.LeavesDraft tag t path) (hown : ¬ d.OwnParent t path)
    (content : List UInt8) : Atomic d path content (d.replaceWith tag t path content) := by
  have hend := replaceWith_ends d tag t path content
  have hsame := (paved_grown d t path).fileAt?
  generalize d.replaceWith tag t path content = w at hend
  cases hend with
  | barred => exact atomic_of_cleared hown rfl rfl hsame
  | replaced _ _ hsource hp => exact atomic_of_replaced (hfresh _ hsource) hp
  | unmade => exact atomic_of_cleared hown rfl rfl hsame
  | cleared _ hsource => exact atomic_of_cleared hown rfl rfl (fileAt?_cleared (hfresh _ hsource))
  | left hpaves _ hfails hisLeft => exact absurd ⟨hpaves, _, hfails, hisLeft⟩ hleft

/-- Where a replacement fails, no file changes but the draft. -/
theorem fileAt?_of_failed (hfails : (d.replaceWith tag t path content).error ≠ none)
    (hq : (d.paved t path).draftPlace tag path ≠ .ok q) :
    (d.replaceWith tag t path content).disk.fileAt? q = d.fileAt? q := by
  have hend := replaceWith_ends d tag t path content
  have hsame := (paved_grown d t path).fileAt? q
  generalize d.replaceWith tag t path content = w at hend hfails
  have hne {source : Place} (hsource : (d.paved t path).draftPlace tag path = .ok source) : q ≠ source := by
    rintro rfl
    exact hq hsource
  cases hend with
  | barred => exact hsame
  | replaced => exact absurd rfl hfails
  | unmade => exact hsame
  | cleared _ hsource => exact (fileAt?_removeFile _ _ (hne hsource)).trans hsame
  | left _ hsource => simp only [fileAt?_setFile, if_neg (hne hsource), hsame]

/-- **A replacement is what it should be, whatever fails, unless a draft is left or the folders on the way take the place
of the file.** Even then, if it fails, no file changes but the draft, which holds a beginning of the text; and the folders
do not take the place of the file if there are no double dots in its name. -/
theorem replaceWith_atomic (hfresh : d.Fresh tag t path) (content : List UInt8) :
    (Atomic d path content (d.replaceWith tag t path content) ↔ ¬ d.LeavesDraft tag t path ∧ ¬ d.OwnParent t path) ∧
      (∀ q, (d.replaceWith tag t path content).error ≠ none → (d.paved t path).draftPlace tag path ≠ .ok q →
        (d.replaceWith tag t path content).disk.fileAt? q = d.fileAt? q) ∧
      (d.LeavesDraft tag t path → ∃ source bytes, (d.paved t path).draftPlace tag path = .ok source ∧ bytes <+: content ∧
        (d.replaceWith tag t path content).disk.fileAt? source = some bytes) ∧
      ∀ name, path = .ofText name → path.parts ≠ [] → ".." ∉ path.parts → ¬ d.OwnParent t path := by
  refine ⟨⟨fun h => ⟨fun hleft => ?_, fun hown => ?_⟩, fun h => ?_⟩, fun q hfails hq => fileAt?_of_failed hfails hq,
    fun hleft => ?_, ?_⟩
  · exact not_atomic_of_leavesDraft hfresh hleft content h
  · exact not_atomic_of_ownParent hown tag content h
  · exact atomic_of_tidy hfresh h.1 h.2 content
  · obtain ⟨source, bytes, f, hsource, hbytes, hreplace⟩ := left_of_leavesDraft hleft content
    exact ⟨source, bytes, hsource, hbytes, by rw [hreplace, fileAt?_setFile, if_pos rfl]⟩
  · rintro name rfl hparts hdots
    exact not_ownParent (PathName.ofText_straight hdots) hparts d t

/-! ## Faults on an empty disk -/

/-- The draft is where nothing is if nothing ends with its name. -/
theorem fresh_of_last (hfiles : ∀ f ∈ d.files, f.1.getLast? ≠ some (temporaryName path tag))
    (hfolders : ∀ q ∈ (d.paved t path).folders, q.getLast? ≠ some (temporaryName path tag)) : d.Fresh tag t path := by
  intro source hsource
  obtain ⟨folder, -, rfl, -⟩ := draftPlace_eq_ok.1 hsource
  refine entryAt?_eq_none.2 ⟨?_, ?_⟩
  · rw [isFolderAt, Bool.or_eq_false_iff, ← Bool.not_eq_true (List.contains _ _), List.contains_iff_mem]
    exact ⟨by simp, fun hmem => hfolders _ hmem List.getLast?_concat⟩
  · rw [(paved_grown d t path).fileAt?, Disk.fileAt?, List.lookup_eq_none_iff]
    intro f hf
    rw [bne_iff_ne]
    intro heq
    exact hfiles f hf (heq ▸ List.getLast?_concat)

/-- A device on which a step fails. -/
def failing (s : WriteStep) : Trouble := { step := fun s' => if s' = s then some .device else none }

/-- A file in the current folder. -/
def plainName : PathName := ⟨"", ["a"]⟩

/-- The same by way of a folder in its place. -/
def detour : PathName := ⟨"", ["a", "..", "a"]⟩

/-- What has been written on an empty disk is gone after a failure if closing and removing it go well. -/
theorem replaceWith_atomic_sync :
    Fresh {} "" (failing .sync) plainName ∧
      Atomic {} plainName [116] (({} : Disk).replaceWith "" (failing .sync) plainName [116]) := by
  have hfresh : Fresh {} "" (failing .sync) plainName := fresh_of_last nofun (by decide +kernel)
  obtain ⟨hiff, -, -, hstraight⟩ := replaceWith_atomic hfresh [116]
  refine ⟨hfresh, hiff.2 ⟨?_, hstraight "a" (by decide +kernel) (by simp [plainName]) (by simp [plainName])⟩⟩
  rintro ⟨-, s, -, -, ⟨-, hgiveUp⟩ | hremove⟩
  · cases hgiveUp
  · cases hremove

/-- **Two replacements are not what they should be:** one on a device where what cannot be flushed cannot be flushed when
it is closed either, which leaves the draft; and one whose folders take the place of the file. -/
theorem replaceWith_untidy :
    (Fresh {} "" { failing .flush with giveUp := some .device } plainName ∧
      ¬ Atomic {} plainName [116]
        (({} : Disk).replaceWith "" { failing .flush with giveUp := some .device } plainName [116])) ∧
    Fresh {} "" .none detour ∧ ¬ Atomic {} detour [116] (({} : Disk).replaceWith "" .none detour [116]) := by
  refine ⟨⟨fresh_of_last nofun (by decide +kernel), fun h => ?_⟩, fresh_of_last nofun (by decide +kernel), ?_⟩
  · have hfails : (({} : Disk).replaceWith "" { failing .flush with giveUp := some .device } plainName [116]).error ≠ none := by
      decide +kernel
    have hleft : (({} : Disk).replaceWith "" { failing .flush with giveUp := some .device } plainName [116]).disk.fileAt?
        [".a..tmp"] = some [] := by decide +kernel
    rw [(h.raised hfails).2] at hleft
    cases hleft
  · exact not_atomic_of_ownParent ⟨by decide +kernel, by decide +kernel⟩ "" [116]

end ApiProjection.Disk
