import ApiProjection.Proofs.Host.Draft
/-!
# Replacing a file

Without faults, putting a new file into the place of another either ends with the new file, which can be read, or adds
folders at most and touches no file but its draft.
Which of the two happens depends on the names and the folders, not on what the new file holds. A folder that has been
made is there, and making it again changes nothing.

* `Disk.replaceWith_cases`.
* `Disk.makeFolders_isFolder`, `Disk.makeFolders_there`.
-/
namespace ApiProjection.Disk

variable {d d' : Disk} {path tag : String} {p q : Place} {name : PathName} {content : List UInt8}

/-! ## Folders that are there -/

theorem isFolder_iff : d.isFolder path = true ↔ ∃ p, d.locate path = .ok p ∧ d.isFolderAt p = true := by
  unfold isFolder find
  cases d.locate path with
  | error o => cases o <;> simp
  | ok p =>
    simp only [entryAt?]
    cases hfolder : d.isFolderAt p with
    | true => simp [hfolder]
    | false => cases d.fileAt? p <;> simp [hfolder]

theorem ensureFolder_there (h : d.isFolder name.text = true) : d.ensureFolder name = .ok d := by
  obtain ⟨p, hp, hfolder⟩ := isFolder_iff.1 h
  have hentry : d.entryAt? p = some .folder := by rw [entryAt?, if_pos hfolder]
  have hmake : d.makeFolder name.text = .error ⟨.exists, name.text, none⟩ := by
    unfold makeFolder
    rw [hp]
    simp only [hentry]
  rw [ensureFolder, hmake]
  simp only [h]
  rfl

/-- A folder that is there is not made. -/
theorem makeFolders_there (h : d.isFolder name.text = true) : d.makeFolders name = .ok d := by
  unfold makeFolders
  cases name.parts.length with
  | zero => exact ensureFolder_there h
  | succ n => rw [ensureFolders, ensureFolder_there h]

theorem ensureFolder_isFolder (h : d.ensureFolder name = .ok d') : d'.isFolder name.text = true := by
  unfold ensureFolder at h
  cases hmake : d.makeFolder name.text with
  | ok e =>
    rw [hmake] at h
    cases h
    have hgrown := makeFolder_grown hmake
    unfold makeFolder at hmake
    cases hp : d.locate name.text with
    | error o =>
      rw [hp] at hmake
      cases hmake
    | ok p =>
      simp only [hp] at hmake
      split at hmake
      · cases hmake
      · cases hmake
        exact isFolder_iff.2 ⟨p, hgrown.locate hp, by simp [isFolderAt]⟩
  | error e =>
    simp only [hmake] at h
    split at h
    · rename_i hthere
      cases h
      rw [Bool.and_eq_true] at hthere
      exact hthere.2
    · cases h

/-- A folder that has been made is there. -/
theorem makeFolders_isFolder (h : d.makeFolders name = .ok d') : d'.isFolder name.text = true := by
  unfold makeFolders at h
  cases hparts : name.parts.length with
  | zero =>
    rw [hparts] at h
    exact ensureFolder_isFolder h
  | succ n =>
    rw [hparts, ensureFolders] at h
    cases hensure : d.ensureFolder name with
    | ok e =>
      rw [hensure] at h
      cases h
      exact ensureFolder_isFolder hensure
    | error o =>
      simp only [hensure] at h
      split at h
      · cases hparent : d.ensureFolders name.parent n with
        | error o =>
          rw [hparent] at h
          cases h
        | ok e =>
          rw [hparent] at h
          exact ensureFolder_isFolder h
      · cases h

/-! ## Replacing -/

/-- Whether a new file can be put into the place of another: its folder can be made, the new file can be named beside
it and can take its place. -/
def Replaceable (d : Disk) (tag : String) (path : PathName) : Prop :=
  ∃ e folder, d.makeFolders path.parent = .ok e ∧ e.locate path.parent.text = .ok folder ∧
    (∃ q, e.locate (placeText (folder ++ [temporaryName path tag])) = .ok q) ∧ ∃ p, e.Takes path p

/-- A file that has been put in its place is read again. -/
theorem read_replaced {source : Place} (h : d.Takes name p) :
    ((d.removeFile source).setFile p content).read name.text = .ok content := by
  have hfolders : ((d.removeFile source).setFile p content).folders = d.folders := rfl
  have hlocate : ((d.removeFile source).setFile p content).locate name.text = .ok p :=
    (locate_congr hfolders rfl).2 h.locate
  have hno : ((d.removeFile source).setFile p content).isFolderAt p = false := h.noFolder
  rw [read, hlocate]
  simp [entryAt?, hno, fileAt?_setFile]

/-! ## What is beside a file -/

/-- A disk went on to another without touching the file at a place. Folders stay, and none is put in place of the file. -/
structure Beside (p : Place) (d d' : Disk) : Prop where
  here : d'.here = d.here
  folders : ∀ q, d.isFolderAt q = true → d'.isFolderAt q = true
  file : d'.fileAt? p = d.fileAt? p
  noFolder : d.isFolderAt p = false → (d.fileAt? p).isSome → d'.isFolderAt p = false

theorem Beside.refl (p : Place) (d : Disk) : Beside p d d := ⟨rfl, fun _ => id, rfl, fun h _ => h⟩

theorem Beside.trans {e : Disk} (h : Beside p d e) (h' : Beside p e d') : Beside p d d' where
  here := h'.here.trans h.here
  folders q hq := h'.folders q (h.folders q hq)
  file := h'.file.trans h.file
  noFolder hno hfile := h'.noFolder (h.noFolder hno hfile) (by rwa [h.file])

theorem Grown.beside (h : Grown d d') (p : Place) : Beside p d d' where
  here := h.here
  folders _ := h.isFolderAt
  file := h.fileAt? p
  noFolder hno hfile := by
    obtain ⟨new, hnew, rfl⟩ := h
    have hfresh : p ∉ new := fun hmem => by
      rw [hnew p hmem] at hfile
      cases hfile
    unfold Disk.isFolderAt at hno ⊢
    rw [Bool.or_eq_false_iff] at hno ⊢
    exact ⟨hno.1, by simpa [hfresh] using hno.2⟩

/-- A log is beside every file that it is not. -/
theorem Noted.beside (h : Noted path d d') (hp : d'.locate path ≠ .ok p) : Beside p d d' := by
  have hfile := h.fileAt? hp
  obtain ⟨e, he, rfl | ⟨bytes, hwrite⟩⟩ := h
  · exact he.beside p
  · obtain ⟨q, -, -, rfl⟩ := write_ok hwrite
    have hbeside := he.beside p
    exact ⟨hbeside.here, hbeside.folders, hfile, hbeside.noFolder⟩

theorem isFile_locate (hp : d.locate path = .ok p) : d.isFile path = .ok (!d.isFolderAt p && (d.fileAt? p).isSome) := by
  unfold isFile find
  rw [hp]
  simp only [entryAt?]
  cases d.isFolderAt p with
  | true => rfl
  | false => cases d.fileAt? p <;> rfl

theorem read_eq_ok : d.read path = .ok content ↔
    ∃ p, d.locate path = .ok p ∧ d.isFolderAt p = false ∧ d.fileAt? p = some content := by
  unfold read
  cases hp : d.locate path with
  | error o => simp
  | ok p =>
    simp only [entryAt?]
    cases hfolder : d.isFolderAt p with
    | true => simp [hfolder]
    | false => cases hfile : d.fileAt? p <;> simp [hfolder, hfile]

/-- The file is read as before. -/
theorem Beside.read (h : Beside (d.placeOf path) d d') (hread : d.read path = .ok content) : d'.read path = .ok content := by
  obtain ⟨p, hp, hno, hfile⟩ := read_eq_ok.1 hread
  obtain rfl := locate_eq hp
  exact read_eq_ok.2 ⟨_, locate_mono h.folders h.here hp, h.noFolder hno (by simp [hfile]), h.file.trans hfile⟩

/-- Where there was no file to be read there is none. -/
theorem Beside.isFile (h : Beside p d d') (hp : d.locate path = .ok p) (hno : d.isFile path = .ok false) :
    d'.isFile path = .ok false := by
  rw [isFile_locate hp, Except.ok.injEq, Bool.and_eq_false_iff, Bool.not_eq_false'] at hno
  rw [isFile_locate (locate_mono h.folders h.here hp), Except.ok.injEq, Bool.and_eq_false_iff, Bool.not_eq_false', h.file]
  exact hno.imp (h.folders p) id

/-! ## Replacing without faults -/

/-- The name of a draft begins with a dot. -/
theorem temporaryName_head (path : PathName) (tag : String) : (temporaryName path tag).toList.head? = some '.' := by
  simp [temporaryName, toString]

theorem draftPlace_eq_ok {source : Place} : d.draftPlace tag name = .ok source ↔
    ∃ folder, d.locate name.parent.text = .ok folder ∧ source = folder ++ [temporaryName name tag] ∧
      ∃ q, d.locate (placeText source) = .ok q := by
  unfold draftPlace
  cases d.locate name.parent.text with
  | error o => simp
  | ok folder =>
    simp only
    constructor
    · intro h
      split at h
      · cases h
      · rename_i q hq
        cases h
        exact ⟨folder, rfl, rfl, q, hq⟩
    · rintro ⟨_, ⟨⟩, rfl, q, hq⟩
      rw [hq]

theorem replaceable_iff {d' : Disk} (h : d.makeFolders name.parent = .ok d') :
    d.Replaceable tag name ↔ (∃ source, d'.draftPlace tag name = .ok source) ∧ ∃ p, d'.Takes name p := by
  constructor
  · rintro ⟨e, folder, he, hfolder, hsource, hp⟩
    rw [h] at he
    cases he
    exact ⟨⟨_, draftPlace_eq_ok.2 ⟨folder, hfolder, rfl, hsource⟩⟩, hp⟩
  · rintro ⟨⟨source, hsource⟩, hp⟩
    obtain ⟨folder, hfolder, rfl, hlocate⟩ := draftPlace_eq_ok.1 hsource
    exact ⟨d', folder, h, hfolder, hlocate, hp⟩

theorem beside_removeFile {source : Place} (h : p ≠ source) (d : Disk) : Beside p d (d.removeFile source) :=
  ⟨rfl, fun _ => id, fileAt?_removeFile d source h, fun hno _ => hno⟩

/-- Without faults nothing but the place of the draft and that of the file is in the way of a step. -/
theorem blocked_none {e : Disk} {s : WriteStep} (h : Draft.Blocked Trouble.none tag name e s) :
    ¬ ((∃ source, e.draftPlace tag name = .ok source) ∧ ∃ p, e.Takes name p) := by
  rintro ⟨⟨source, hsource⟩, hp⟩
  rcases h with h | ⟨-, f, hf⟩ | ⟨-, hno⟩
  · cases h
  · rw [hsource] at hf
    cases hf
  · exact hno hp

/-- A file is replaced where it can be; where it cannot, nothing happens to it or to any file but the draft. -/
theorem replaceWith_cases (d : Disk) (tag : String) (path : PathName) (content : List UInt8) :
    (d.Replaceable tag path ∧ ∃ e source p, d.makeFolders path.parent = .ok e ∧ e.Takes path p ∧
      d.replaceWith tag .none path content = ⟨(e.removeFile source).setFile p content, none⟩) ∨
    ¬ d.Replaceable tag path ∧ ∃ e failure, (∀ p, p.getLast? ≠ some (temporaryName path tag) → d.Beside p e) ∧
      d.replaceWith tag .none path content = ⟨e, some failure⟩ := by
  have hbeside (p : Place) : d.Beside p (d.paved .none path) := (paved_grown d .none path).beside p
  have hcannot {s : WriteStep} (hpaves : d.Paves .none path) (hfails : Fails .none tag path (d.paved .none path) s) :
      ¬ d.Replaceable tag path := by
    obtain ⟨-, -, -, -, hblocked⟩ := hfails
    rw [replaceable_iff (makeFolders_eq_ok.2 ⟨hpaves, rfl⟩)]
    exact blocked_none hblocked
  have hend := replaceWith_ends d tag Trouble.none path content
  generalize d.replaceWith tag Trouble.none path content = w at hend
  cases hend with
  | @barred f hbarred =>
    refine .inr ⟨?_, _, f, fun p _ => hbeside p, rfl⟩
    rintro ⟨e, _, he, -⟩
    exact hbarred (makeFolders_eq_ok.1 he).1
  | @replaced source p hpaves hfree hsource hp =>
    have hmake := makeFolders_eq_ok.2 ⟨hpaves, rfl⟩
    exact .inl ⟨(replaceable_iff hmake).2 ⟨⟨source, hsource⟩, p, hp⟩, _, source, p, hmake, hp, rfl⟩
  | @unmade f hpaves hfails => exact .inr ⟨hcannot hpaves hfails, _, f, fun p _ => hbeside p, rfl⟩
  | @cleared source s f hpaves hsource hfails hclear =>
    refine .inr ⟨hcannot hpaves hfails, _, f, fun p hp => ?_, rfl⟩
    obtain ⟨folder, -, rfl, -⟩ := draftPlace_eq_ok.1 hsource
    have hne : p ≠ folder ++ [temporaryName path tag] := by
      rintro rfl
      exact hp List.getLast?_concat
    exact (hbeside p).trans (beside_removeFile hne _)
  | left hpaves hsource hfails hleft hbytes =>
    obtain ⟨-, ⟨-, h⟩ | h⟩ := hleft
    · cases h
    · cases h

end ApiProjection.Disk
