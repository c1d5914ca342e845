import ApiProjection.Host.Disk
import Mathlib.Data.List.Basic
/-!
# Disks

What operations do to a disk: making folders adds folders and touches no file, writing a file sets what is at one
place and touches no other. Where a name leads to depends on the folders alone.

* `Disk.makeFolders_grown`: making folders.
* `Disk.write_spec`: writing a file.
-/
namespace ApiProjection.Disk

variable {d d' e : Disk} {p q : Place} {path : String} {content : List UInt8}

/-! ## Making folders -/

/-- A disk has the folders of another and perhaps more, none of them in the place of a file, and is else like it. -/
def Grown (d d' : Disk) : Prop :=
  ∃ new, (∀ q ∈ new, d.fileAt? q = none) ∧ d' = { d with folders := new ++ d.folders }

theorem Grown.refl (d : Disk) : Grown d d := ⟨[], nofun, rfl⟩

theorem Grown.trans (h : Grown d e) (h' : Grown e d') : Grown d d' := by
  obtain ⟨new, hnew, rfl⟩ := h
  obtain ⟨newer, hnewer, rfl⟩ := h'
  exact ⟨newer ++ new, List.forall_mem_append.2 ⟨hnewer, hnew⟩, by rw [List.append_assoc]⟩

theorem Grown.files (h : Grown d d') : d'.files = d.files := by
  obtain ⟨new, -, rfl⟩ := h
  rfl

theorem Grown.here (h : Grown d d') : d'.here = d.here := by
  obtain ⟨new, -, rfl⟩ := h
  rfl

theorem Grown.fileAt? (h : Grown d d') (q : Place) : d'.fileAt? q = d.fileAt? q := by
  rw [Disk.fileAt?, h.files, Disk.fileAt?]

theorem makeFolder_grown (h : d.makeFolder path = .ok d') : Grown d d' := by
  unfold makeFolder at h
  cases hp : d.locate path with
  | error o =>
    rw [hp] at h
    cases h
  | ok p =>
    simp only [hp] at h
    split at h
    · cases h
    · rename_i hnone
      cases h
      refine ⟨[p], List.forall_mem_singleton.2 ?_, rfl⟩
      unfold entryAt? at hnone
      split at hnone
      · cases hnone
      · exact Option.map_eq_none_iff.1 hnone

theorem ensureFolder_grown {name : PathName} (h : d.ensureFolder name = .ok d') : Grown d d' := by
  unfold ensureFolder at h
  cases hmake : d.makeFolder name.text with
  | ok e =>
    rw [hmake] at h
    cases h
    exact makeFolder_grown hmake
  | error o =>
    simp only [hmake] at h
    split at h
    · cases h
      exact .refl d
    · cases h

theorem ensureFolders_grown : ∀ (n : Nat) {d d' : Disk} {name : PathName}, d.ensureFolders name n = .ok d' → Grown d d'
  | 0, _, _, _, h => ensureFolder_grown h
  | n + 1, d, d', name, h => by
    rw [ensureFolders] at h
    cases hensure : d.ensureFolder name with
    | ok e =>
      rw [hensure] at h
      cases h
      exact ensureFolder_grown hensure
    | error o =>
      simp only [hensure] at h
      split at h
      · cases hparent : d.ensureFolders name.parent n with
        | error o =>
          rw [hparent] at h
          cases h
        | ok e =>
          rw [hparent] at h
          exact (ensureFolders_grown n hparent).trans (ensureFolder_grown h)
      · cases h

/-- Making folders adds folders. -/
theorem makeFolders_grown {name : PathName} (h : d.makeFolders name = .ok d') : Grown d d' :=
  ensureFolders_grown _ h

/-! ## Where a name leads to -/

theorem walk_congr (h : d'.folders = d.folders) (parts : List String) (p : Place) :
    d'.walk p parts = .ok q ↔ d.walk p parts = .ok q := by
  have hfolder (r : Place) : d'.isFolderAt r = d.isFolderAt r := by rw [isFolderAt, isFolderAt, h]
  induction parts generalizing p with
  | nil => rfl
  | cons part parts ih =>
    rw [walk, walk, hfolder]
    split
    · simp
    · split
      · exact ih _
      · simp

/-- Where a name leads to, if it leads to a place, is a matter of the folders. -/
theorem locate_congr (h : d'.folders = d.folders) (hhere : d'.here = d.here) :
    d'.locate path = .ok p ↔ d.locate path = .ok p := by
  unfold locate
  rw [hhere]
  split
  · simp
  · split
    · simp
    · exact walk_congr h _ _

theorem Grown.isFolderAt (h : Grown d d') (hp : d.isFolderAt p = true) : d'.isFolderAt p = true := by
  obtain ⟨new, -, rfl⟩ := h
  unfold Disk.isFolderAt at hp ⊢
  rw [Bool.or_eq_true] at hp ⊢
  exact hp.imp id fun hmem => by simpa using .inr (by simpa using hmem)

section
variable (h : ∀ q, d.isFolderAt q = true → d'.isFolderAt q = true)
include h

theorem walk_mono (parts : List String) (p : Place) (hq : d.walk p parts = .ok q) : d'.walk p parts = .ok q := by
  induction parts generalizing p with
  | nil => exact hq
  | cons part parts ih =>
    rw [walk] at hq ⊢
    split at hq
    · cases hq
    · rename_i hsize
      rw [if_neg hsize]
      split at hq
      · rename_i hnext
        rw [Bool.or_eq_true] at hnext
        rw [if_pos (by rw [Bool.or_eq_true]; exact hnext.imp id (h _))]
        exact ih _ hq
      · cases hq

/-- A name leads to the same place where there are more folders. -/
theorem locate_mono (hhere : d'.here = d.here) (hp : d.locate path = .ok p) : d'.locate path = .ok p := by
  unfold locate at hp ⊢
  rw [hhere]
  split at hp
  · cases hp
  · rename_i hnull
    rw [if_neg hnull]
    split at hp
    · cases hp
    · rename_i hlong
      rw [if_neg hlong]
      exact walk_mono h _ _ hp

end

theorem Grown.locate (h : Grown d d') (hp : d.locate path = .ok p) : d'.locate path = .ok p :=
  locate_mono (fun _ => h.isFolderAt) h.here hp

/-! ## Files -/

theorem fileAt?_removeFile (d : Disk) (p : Place) (h : q ≠ p) : (d.removeFile p).fileAt? q = d.fileAt? q := by
  unfold removeFile fileAt?
  induction d.files with
  | nil => rfl
  | cons f fs ih =>
    obtain ⟨r, bytes⟩ := f
    by_cases hr : r = p
    · subst hr
      rw [List.filter_cons_of_neg (by simp), List.lookup_cons, beq_false_of_ne h]
      exact ih
    · rw [List.filter_cons_of_pos (by simpa using hr), List.lookup_cons, List.lookup_cons, ih]

theorem fileAt?_setFile (d : Disk) (p q : Place) (content : List UInt8) :
    (d.setFile p content).fileAt? q = if q = p then some content else d.fileAt? q := by
  have hset : (d.setFile p content).fileAt? q = if q == p then some content else (d.removeFile p).fileAt? q := by
    unfold setFile removeFile fileAt?
    rw [List.lookup_cons]
    cases q == p <;> rfl
  rw [hset]
  by_cases hq : q = p
  · simp [hq]
  · simp [hq, fileAt?_removeFile d p hq]

theorem write_ok (h : d.write path content = .ok d') :
    ∃ p, d.locate path = .ok p ∧ d.isFolderAt p = false ∧ d' = d.setFile p content := by
  unfold write at h
  split at h
  · cases h
  · cases hp : d.locate path with
    | error o =>
      rw [hp] at h
      cases h
    | ok p =>
      simp only [hp] at h
      split at h
      · cases h
      · rename_i hfolder
        rw [Bool.or_eq_true, not_or, Bool.not_eq_true, Bool.not_eq_true] at hfolder
        cases h
        exact ⟨p, rfl, hfolder.2, rfl⟩

/-- What has been written is read again, and every other file is as it was. -/
theorem write_spec (h : d.write path content = .ok d') :
    d'.read path = .ok content ∧ ∀ q, d'.locate path ≠ .ok q → d'.fileAt? q = d.fileAt? q := by
  obtain ⟨p, hp, hfolder, rfl⟩ := write_ok h
  have hfolders : (d.setFile p content).folders = d.folders := rfl
  have hlocate : (d.setFile p content).locate path = .ok p := (locate_congr hfolders rfl).2 hp
  have hstill : (d.setFile p content).isFolderAt p = false := hfolder
  constructor
  · rw [read, hlocate]
    simp [entryAt?, hstill, fileAt?_setFile]
  · intro q hq
    have hne : q ≠ p := by
      rintro rfl
      exact hq hlocate
    rw [fileAt?_setFile, if_neg hne]

/-- A disk on which something may have been written under a name, in folders that may be new. -/
def Noted (path : String) (d d' : Disk) : Prop := ∃ e, d.Grown e ∧ (d' = e ∨ ∃ bytes, e.write path bytes = .ok d')

theorem Noted.of_grown (h : Grown d d') : Noted path d d' := ⟨d', h, .inl rfl⟩

/-- Every other file is as it was. -/
theorem Noted.fileAt? (h : Noted path d d') (hq : d'.locate path ≠ .ok q) : d'.fileAt? q = d.fileAt? q := by
  obtain ⟨e, he, rfl | ⟨bytes, hwrite⟩⟩ := h
  · exact he.fileAt? q
  · rw [(write_spec hwrite).2 q hq, he.fileAt? q]

end ApiProjection.Disk
