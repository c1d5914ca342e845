import ApiProjection.Host.Draft
import ApiProjection.Proofs.Host.Place
/-!
# Drafts

What the steps of a replacement leave behind, whichever of them fails. Folders are new at most on the way to the file,
where nothing was. Each step finds the disk with the draft and nothing else on it that is not on the disk without it
(`Draft.Before`), and leaves it so for the next (`Draft.Passed`) or for clearing (`Draft.Stopped`); so does a run of
them, up to the first in whose way something is (`Draft.run_spec`).

* `Disk.putFolders_paved`: what making folders leaves.
* `Disk.replaceWith_ends`: the ways in which a replacement ends.
-/
namespace ApiProjection.Disk

variable {d d' e : Disk} {path name : PathName} {t : Trouble} {tag : String} {content bytes : List UInt8}
  {p q source : Place} {f : FileError}

/-! ## Folders that have been made -/

theorem entryAt?_eq_none : d.entryAt? p = none ↔ d.isFolderAt p = false ∧ d.fileAt? p = none := by
  unfold entryAt?
  cases d.isFolderAt p <;> simp

/-- Where nothing was there are folders, each of them on the way to a name. -/
def Paved (name : PathName) (d d' : Disk) : Prop :=
  ∃ new, d' = { d with folders := new ++ d.folders } ∧
    ∀ q ∈ new, d.entryAt? q = none ∧ ∃ k, q = d.placeOf (PathName.parent^[k] name).text

theorem Paved.refl (name : PathName) (d : Disk) : Paved name d d := ⟨[], rfl, nofun⟩

theorem Paved.trans (h : Paved name d e) (h' : Paved name e d') : Paved name d d' := by
  obtain ⟨new, rfl, hnew⟩ := h
  obtain ⟨newer, rfl, hnewer⟩ := h'
  refine ⟨newer ++ new, by rw [List.append_assoc], List.forall_mem_append.2 ⟨fun q hq => ?_, hnew⟩⟩
  obtain ⟨hnone, k, hk⟩ := hnewer q hq
  obtain ⟨hno, hfile⟩ := entryAt?_eq_none.1 hnone
  refine ⟨entryAt?_eq_none.2 ⟨?_, hfile⟩, k, hk⟩
  rw [isFolderAt, Bool.or_eq_false_iff] at hno ⊢
  refine ⟨hno.1, ?_⟩
  have hcontains := hno.2
  rw [List.contains_append, Bool.or_eq_false_iff] at hcontains
  exact hcontains.2

/-- What is on the way to the folder is on the way to what it holds. -/
theorem Paved.of_parent (h : Paved name.parent d e) : Paved name d e := by
  obtain ⟨new, he, hnew⟩ := h
  refine ⟨new, he, fun q hq => ?_⟩
  obtain ⟨hnone, k, hk⟩ := hnew q hq
  exact ⟨hnone, k + 1, by rwa [Function.iterate_succ_apply]⟩

theorem Paved.grown (h : Paved name d e) : Grown d e := by
  obtain ⟨new, rfl, hnew⟩ := h
  exact ⟨new, fun q hq => (entryAt?_eq_none.1 (hnew q hq).1).2, rfl⟩

/-- A folder that was not there is on the way, where nothing was. -/
theorem Paved.of_isFolderAt (h : Paved name d e) (hno : d.isFolderAt q = false) (hnow : e.isFolderAt q = true) :
    d.entryAt? q = none ∧ ∃ k, q = d.placeOf (PathName.parent^[k] name).text := by
  obtain ⟨new, rfl, hnew⟩ := h
  refine hnew q ?_
  rw [isFolderAt, Bool.or_eq_false_iff] at hno
  rw [isFolderAt, hno.1, Bool.false_or, List.contains_append, hno.2, Bool.or_false] at hnow
  exact List.contains_iff_mem.1 hnow

section
variable (fault : PathName → Option Obstacle)

theorem putFolder_paved (d : Disk) (name : PathName) : Paved name d (d.putFolder fault name).1 := by
  unfold putFolder
  cases hmake : d.makeFolder name.text with
  | error f =>
    simp only
    split
    · exact .refl name d
    · exact .refl name d
  | ok e =>
    simp only
    cases fault name with
    | some o => exact .refl name d
    | none =>
      unfold makeFolder at hmake
      cases hp : d.locate name.text with
      | error o =>
        rw [hp] at hmake
        cases hmake
      | ok p =>
        simp only [hp] at hmake
        split at hmake
        · cases hmake
        · rename_i hnone
          cases hmake
          exact ⟨[p], rfl, List.forall_mem_singleton.2 ⟨hnone, 0, locate_eq hp⟩⟩

theorem putFoldersUpTo_paved (n : Nat) (d : Disk) (name : PathName) : Paved name d (d.putFoldersUpTo fault name n).1 := by
  induction n generalizing d name with
  | zero => exact putFolder_paved fault d name
  | succ n ih =>
    rw [putFoldersUpTo]
    have hfirst := putFolder_paved fault d name
    cases hput : d.putFolder fault name with
    | mk e failure =>
      rw [hput] at hfirst
      cases failure with
      | none => exact hfirst
      | some f =>
        simp only
        split
        · have hparents := (ih e name.parent).of_parent
          cases hrest : e.putFoldersUpTo fault name.parent n with
          | mk e' failure =>
            rw [hrest] at hparents
            cases failure with
            | none => exact (hfirst.trans hparents).trans (putFolder_paved fault e' name)
            | some f' => exact hfirst.trans hparents
        · exact hfirst

/-- Whether or not all folders could be made, those that were are on the way. -/
theorem putFolders_paved (d : Disk) (name : PathName) : Paved name d (d.putFolders fault name).1 :=
  putFoldersUpTo_paved fault _ d name

end

/-- The disk when the folders on the way to a file have been made, as far as they could be. -/
def paved (d : Disk) (t : Trouble) (path : PathName) : Disk := (d.putFolders t.folder path.parent).1

/-- All folders on the way to a file can be made. -/
def Paves (d : Disk) (t : Trouble) (path : PathName) : Prop := (d.putFolders t.folder path.parent).2 = none

theorem paved_grown (d : Disk) (t : Trouble) (path : PathName) : d.Grown (d.paved t path) :=
  (putFolders_paved _ _ _).grown

/-! ## Folders without faults -/

/-- A device without faults. -/
def faultless : PathName → Option Obstacle := fun _ => none

theorem putFolder_of_ok (h : d.ensureFolder name = .ok e) : d.putFolder faultless name = (e, none) := by
  unfold ensureFolder at h
  unfold putFolder
  cases hmake : d.makeFolder name.text with
  | ok e' =>
    rw [hmake] at h
    cases h
    rfl
  | error f =>
    simp only [hmake] at h ⊢
    split at h
    · rename_i hthere
      cases h
      rw [if_pos hthere]
    · cases h

theorem putFolder_of_error (h : d.ensureFolder name = .error f) : d.putFolder faultless name = (d, some f) := by
  unfold ensureFolder at h
  unfold putFolder
  cases hmake : d.makeFolder name.text with
  | ok e' =>
    rw [hmake] at h
    cases h
  | error f' =>
    simp only [hmake] at h ⊢
    split at h
    · cases h
    · rename_i hthere
      cases h
      rw [if_neg hthere]

/-- Without faults folders are made as if one failure undid them all, but for what is left then. -/
theorem putFoldersUpTo_faultless (n : Nat) (d : Disk) (name : PathName) :
    (∀ e, d.ensureFolders name n = .ok e → d.putFoldersUpTo faultless name n = (e, none)) ∧
      ∀ f, d.ensureFolders name n = .error f → (d.putFoldersUpTo faultless name n).2 = some f := by
  induction n generalizing d name with
  | zero => exact ⟨fun _ => putFolder_of_ok, fun _ h => congrArg Prod.snd (putFolder_of_error h)⟩
  | succ n ih =>
    rw [ensureFolders, putFoldersUpTo]
    cases hensure : d.ensureFolder name with
    | ok e =>
      rw [putFolder_of_ok hensure]
      refine ⟨fun e' h => ?_, fun f h => ?_⟩
      · cases h
        rfl
      · cases h
    | error f =>
      rw [putFolder_of_error hensure]
      simp only
      split
      · obtain ⟨hok, herror⟩ := ih d name.parent
        cases hparents : d.ensureFolders name.parent n with
        | ok e =>
          rw [hok e hparents]
          exact ⟨fun _ => putFolder_of_ok, fun _ h => congrArg Prod.snd (putFolder_of_error h)⟩
        | error f' =>
          have hfailed := herror f' hparents
          cases hrest : d.putFoldersUpTo faultless name.parent n with
          | mk e failure =>
            rw [hrest] at hfailed
            cases hfailed
            refine ⟨fun e' h => ?_, fun f h => ?_⟩
            · cases h
            · cases h
              rfl
      · refine ⟨fun e h => ?_, fun f' h => ?_⟩
        · cases h
        · cases h
          rfl

theorem makeFolders_eq_ok : d.makeFolders path.parent = .ok e ↔ d.Paves .none path ∧ d.paved .none path = e := by
  obtain ⟨hok, herror⟩ := putFoldersUpTo_faultless path.parent.parts.length d path.parent
  have hput : d.putFolders Trouble.none.folder path.parent =
      d.putFoldersUpTo faultless path.parent path.parent.parts.length := rfl
  rw [Paves, paved, hput, makeFolders]
  cases hmake : d.ensureFolders path.parent path.parent.parts.length with
  | ok e' => simp [hok e' hmake]
  | error f => simp [herror f hmake]

/-! ## Moving -/

/-- The place of a file that can take it over: its name leads there, and it is not that of a folder. -/
structure Takes (d : Disk) (path : PathName) (p : Place) : Prop where
  locate : d.locate path.text = .ok p
  named : path.parts.isEmpty = false ∧ path.name ≠ ".."
  noFolder : d.isFolderAt p = false

theorem rename_cases (d : Disk) (source : Place) (content : List UInt8) (path : PathName) :
    (∃ p, d.Takes path p ∧ d.rename source content path = .ok ((d.removeFile source).setFile p content)) ∨
      (¬ ∃ p, d.Takes path p) ∧ ∃ failure, d.rename source content path = .error failure := by
  unfold rename
  cases hp : d.locate path.text with
  | error o =>
    refine .inr ⟨?_, _, rfl⟩
    rintro ⟨p, hlocate, -, -⟩
    rw [hp] at hlocate
    cases hlocate
  | ok p =>
    simp only
    split
    · rename_i hbusy
      refine .inr ⟨?_, _, rfl⟩
      rintro ⟨_, -, hnamed, -⟩
      simp [hnamed] at hbusy
    · rename_i hbusy
      split
      · rename_i hfolder
        refine .inr ⟨?_, _, rfl⟩
        rintro ⟨_, hlocate, -, hno⟩
        rw [hp] at hlocate
        cases hlocate
        rw [hfolder] at hno
        cases hno
      · rename_i hfolder
        rw [Bool.or_eq_true, not_or, Bool.not_eq_true, decide_eq_true_eq] at hbusy
        exact .inl ⟨p, ⟨hp, hbusy, Bool.not_eq_true _ ▸ hfolder⟩, rfl⟩

/-- What a place can take is a matter of the folders. -/
theorem takes_setFile : (e.setFile source bytes).Takes path p ↔ e.Takes path p := by
  have hlocate : (e.setFile source bytes).locate path.text = .ok p ↔ e.locate path.text = .ok p := locate_congr rfl rfl
  constructor
  · exact fun h => ⟨hlocate.1 h.locate, h.named, h.noFolder⟩
  · exact fun h => ⟨hlocate.2 h.locate, h.named, h.noFolder⟩

theorem removeFile_setFile (d : Disk) (p : Place) (bytes : List UInt8) : (d.setFile p bytes).removeFile p = d.removeFile p := by
  simp [setFile, removeFile, List.filter_filter]

theorem setFile_setFile (d : Disk) (p : Place) (bytes bytes' : List UInt8) :
    (d.setFile p bytes).setFile p bytes' = d.setFile p bytes' := by
  simp [setFile, List.filter_filter]

/-! ## One step -/

namespace Draft

/-- A disk with a draft on it and nothing else that was not there. -/
def upon (e : Disk) (source : Place) (bytes : List UInt8) (handle : Handle) : Draft :=
  ⟨e.setFile source bytes, some source, handle⟩

theorem put_upon (bytes' : List UInt8) (handle : Handle) :
    (upon e source bytes handle).put bytes' = upon e source bytes' handle := by
  simp [put, upon, setFile_setFile]

/-- What a step finds. -/
def Before (e : Disk) (source : Place) (content : List UInt8) : WriteStep → Draft → Prop
  | .create, x => x = ⟨e, none, .none⟩
  | .fill, x | .flush, x => ∃ bytes, x = upon e source bytes .opened
  | .sync, x | .close, x => x = upon e source content .opened
  | .rename, x => x = upon e source content .none

/-- What a step leaves that does not fail. -/
def Passed (e : Disk) (source : Place) (path : PathName) (content : List UInt8) : WriteStep → Draft → Prop
  | .create, x | .fill, x => ∃ bytes, x = upon e source bytes .opened
  | .flush, x | .sync, x => x = upon e source content .opened
  | .close, x => x = upon e source content .none
  | .rename, x => ∃ p, e.Takes path p ∧ x.disk = (e.removeFile source).setFile p content

/-- Whether the draft is still to be closed when a step has failed. -/
def handleAt : WriteStep → Handle
  | .create | .rename => .none
  | .fill | .flush | .sync => .opened
  | .close => .spent

/-- What a step leaves that fails: no draft if it was to be made, and else one with a beginning of the text. -/
def Stopped (e : Disk) (source : Place) (content : List UInt8) (s : WriteStep) (x : Draft) : Prop :=
  s = .create ∧ x = ⟨e, none, .none⟩ ∨
    s ≠ .create ∧ ∃ bytes, bytes <+: content ∧ x = upon e source bytes (handleAt s)

/-- Whether something is in the way of a step: a fault of the device, the place of the draft, or that of the file. -/
def Blocked (t : Trouble) (tag : String) (path : PathName) (e : Disk) (s : WriteStep) : Prop :=
  (t.step s).isSome ∨ s = .create ∧ (∃ f, e.draftPlace tag path = .error f) ∨ s = .rename ∧ ¬ ∃ p, e.Takes path p

/-- What a step comes to. -/
inductive StepEnd (t : Trouble) (tag : String) (path : PathName) (content : List UInt8) (e : Disk) (source : Place)
    (s : WriteStep) : Draft × Option FileError → Prop
  | passed {y : Draft} (hfree : ¬ Blocked t tag path e s) (h : Passed e source path content s y) :
    StepEnd t tag path content e source s (y, none)
  | stopped {y : Draft} {f : FileError} (hblocked : Blocked t tag path e s) (h : Stopped e source content s y) :
    StepEnd t tag path content e source s (y, some f)

theorem blocked_of_fault {s : WriteStep} {o : Obstacle} (h : t.step s = some o) : Blocked t tag path e s :=
  .inl (by rw [h]; rfl)

theorem free_of_no_fault {s : WriteStep} (h : t.step s = none) (hcreate : s ≠ .create) (hrename : s ≠ .rename) :
    ¬ Blocked t tag path e s := by
  simp [Blocked, h, hcreate, hrename]

/-- **A step that finds what it should either passes and leaves what the next should find, or is blocked and leaves at
most a draft.** -/
theorem step_end (hsource : ∀ r, e.draftPlace tag path = .ok r → r = source) {s : WriteStep} {x : Draft}
    (h : Before e source content s x) : StepEnd t tag path content e source s (x.step t tag path content s) := by
  cases s with
  | create =>
    obtain rfl := h
    rw [step, create]
    cases hplace : e.draftPlace tag path with
    | error f => exact .stopped (.inr (.inl ⟨rfl, f, hplace⟩)) (.inl ⟨rfl, rfl⟩)
    | ok r =>
      obtain rfl := hsource r hplace
      cases ho : t.step .create with
      | some o => exact .stopped (blocked_of_fault ho) (.inl ⟨rfl, rfl⟩)
      | none => exact .passed (by simp [Blocked, ho, hplace]) ⟨[], rfl⟩
  | fill =>
    obtain ⟨bytes, rfl⟩ := h
    rw [step, put_upon]
    cases ho : t.step .fill with
    | some o => exact .stopped (blocked_of_fault ho) (.inr ⟨by simp, _, List.take_prefix _ _, rfl⟩)
    | none => exact .passed (free_of_no_fault ho (by simp) (by simp)) ⟨_, rfl⟩
  | flush =>
    obtain ⟨bytes, rfl⟩ := h
    rw [step, put_upon, put_upon]
    cases ho : t.step .flush with
    | some o => exact .stopped (blocked_of_fault ho) (.inr ⟨by simp, _, List.take_prefix _ _, rfl⟩)
    | none => exact .passed (free_of_no_fault ho (by simp) (by simp)) rfl
  | sync =>
    obtain rfl := h
    rw [step]
    cases ho : t.step .sync with
    | some o => exact .stopped (blocked_of_fault ho) (.inr ⟨by simp, _, List.prefix_rfl, rfl⟩)
    | none => exact .passed (free_of_no_fault ho (by simp) (by simp)) rfl
  | close =>
    obtain rfl := h
    rw [step]
    cases ho : t.step .close with
    | some o => exact .stopped (blocked_of_fault ho) (.inr ⟨by simp, _, List.prefix_rfl, rfl⟩)
    | none => exact .passed (free_of_no_fault ho (by simp) (by simp)) rfl
  | rename =>
    obtain rfl := h
    rw [step, move]
    cases ho : t.step .rename with
    | some o => exact .stopped (blocked_of_fault ho) (.inr ⟨by simp, _, List.prefix_rfl, rfl⟩)
    | none =>
      have hdisk : (upon e source content .none).disk = e.setFile source content := rfl
      have hplace : (upon e source content .none).source.getD [] = source := rfl
      simp only [hdisk, hplace]
      rcases rename_cases (e.setFile source content) source content path with ⟨p, hp, hmove⟩ | ⟨hno, f, hmove⟩
      · rw [hmove, removeFile_setFile]
        have hp := takes_setFile.1 hp
        refine .passed ?_ ⟨p, hp, rfl⟩
        simp only [Blocked, ho, reduceCtorEq, false_and, true_and, false_or, Option.isSome_none, Bool.false_eq_true, not_not]
        exact ⟨p, hp⟩
      · rw [hmove]
        simp only [takes_setFile] at hno
        exact .stopped (.inr (.inr ⟨rfl, hno⟩)) (.inr ⟨by simp, _, List.prefix_rfl, rfl⟩)

/-! ## Runs of steps -/

/-- What a step leaves is what another should find. -/
def Leads (s s' : WriteStep) : Prop :=
  ∀ e source path content x, Passed e source path content s x → Before e source content s' x

/-- Each step leads to the next. -/
theorem leads_all : WriteStep.all.IsChain Leads := by
  unfold WriteStep.all
  refine .cons_cons (fun _ _ _ _ _ => id) (.cons_cons (fun _ _ _ _ _ => id) (.cons_cons (fun _ _ _ _ _ => id)
    (.cons_cons (fun _ _ _ _ _ => id) (.cons_cons (fun _ _ _ _ _ => id) (.singleton _)))))

/-- What a run of steps comes to: all of them pass, or the first stops that is blocked. -/
inductive RunEnd (t : Trouble) (tag : String) (path : PathName) (content : List UInt8) (e : Disk) (source : Place)
    (steps : List WriteStep) : Draft × Option (WriteStep × FileError) → Prop
  | done {y : Draft} {last : WriteStep} (hlast : last ∈ steps.getLast?) (hfree : ∀ s ∈ steps, ¬ Blocked t tag path e s)
    (h : Passed e source path content last y) : RunEnd t tag path content e source steps (y, none)
  | stopped {y : Draft} {s : WriteStep} {f : FileError} {before after : List WriteStep} (hsteps : steps = before ++ s :: after)
    (hfree : ∀ b ∈ before, ¬ Blocked t tag path e b) (hblocked : Blocked t tag path e s)
    (h : Stopped e source content s y) : RunEnd t tag path content e source steps (y, some (s, f))

/-- **Steps of which each leads to the next pass one after another, up to the first that is blocked.** -/
theorem run_end (hsource : ∀ r, e.draftPlace tag path = .ok r → r = source) {s : WriteStep} {steps : List WriteStep}
    (hsteps : (s :: steps).IsChain Leads) {x : Draft} (h : Before e source content s x) :
    RunEnd t tag path content e source (s :: steps) (x.run t tag path content (s :: steps)) := by
  induction steps generalizing s x with
  | nil =>
    have hstep : StepEnd t tag path content e source s (x.step t tag path content s) := step_end hsource h
    rw [run]
    generalize x.step t tag path content s = r at hstep
    cases hstep with
    | stopped hblocked hstopped => exact .stopped (List.nil_append _).symm nofun hblocked hstopped
    | passed hfree hpassed => exact .done rfl (List.forall_mem_singleton.2 hfree) hpassed
  | cons s' steps ih =>
    obtain ⟨hleads, hrest⟩ := List.isChain_cons_cons.1 hsteps
    have hstep : StepEnd t tag path content e source s (x.step t tag path content s) := step_end hsource h
    rw [run]
    generalize x.step t tag path content s = r at hstep
    cases hstep with
    | stopped hblocked hstopped => exact .stopped (List.nil_append _).symm nofun hblocked hstopped
    | @passed y hfree hpassed =>
      have hrun := ih hrest (hleads _ _ _ _ _ hpassed)
      simp only
      generalize y.run t tag path content (s' :: steps) = r at hrun
      cases hrun with
      | done hlast hall hpassed =>
        exact .done (by rwa [List.getLast?_cons_cons]) (List.forall_mem_cons.2 ⟨hfree, hall⟩) hpassed
      | @stopped y' s'' f before after heq hfree' hblocked hstopped =>
        have hall : s :: s' :: steps = (s :: before) ++ s'' :: after := by rw [heq, List.cons_append]
        exact .stopped hall (List.forall_mem_cons.2 ⟨hfree, hfree'⟩) hblocked hstopped

/-! ## Clearing -/

/-- Whether a draft is left when a step has failed: it has been made, and it cannot be closed or not be removed. -/
def IsLeft (t : Trouble) (s : WriteStep) : Prop :=
  s ≠ .create ∧ (handleAt s = .opened ∧ t.giveUp.isSome ∨ t.remove.isSome)

/-- What clearing comes to. -/
inductive ClearEnd (t : Trouble) (content : List UInt8) (e : Disk) (source : Place) (s : WriteStep) : Written → Prop
  | unmade {f : FileError} (hs : s = .create) : ClearEnd t content e source s ⟨e, some f⟩
  | cleared {f : FileError} (hs : s ≠ .create) (hclear : ¬ IsLeft t s) :
    ClearEnd t content e source s ⟨e.removeFile source, some f⟩
  | left {f : FileError} {bytes : List UInt8} (hleft : IsLeft t s) (hbytes : bytes <+: content) :
    ClearEnd t content e source s ⟨e.setFile source bytes, some f⟩

theorem clear_end {s : WriteStep} {x : Draft} (h : Stopped e source content s x) (f : FileError) :
    ClearEnd t content e source s (x.clear t content f) := by
  rcases h with ⟨hs, rfl⟩ | ⟨hs, bytes, hbytes, rfl⟩
  · exact .unmade hs
  · unfold clear
    have hremoved : (upon e source bytes (handleAt s)).removed t =
        if t.remove.isSome then e.setFile source bytes else e.removeFile source := by
      unfold removed
      cases t.remove with
      | none => exact removeFile_setFile e source bytes
      | some o => rfl
    split
    · rename_i o hhandle hgiveUp
      rw [put_upon]
      exact .left ⟨hs, .inl ⟨hhandle, by rw [hgiveUp]; rfl⟩⟩ (List.take_prefix _ _)
    · rename_i hno
      rw [hremoved]
      split
      · rename_i hremove
        exact .left ⟨hs, .inr hremove⟩ hbytes
      · rename_i hremove
        refine .cleared hs ?_
        rintro ⟨-, ⟨hopened, hgiveUp⟩ | hsome⟩
        · obtain ⟨o, ho⟩ := Option.isSome_iff_exists.1 hgiveUp
          exact hno o hopened ho
        · exact hremove hsome

end Draft

/-! ## Replacing -/

open Draft

/-- The first step that is blocked. -/
def Fails (t : Trouble) (tag : String) (path : PathName) (e : Disk) (s : WriteStep) : Prop :=
  ∃ before after, WriteStep.all = before ++ s :: after ∧ (∀ b ∈ before, ¬ Blocked t tag path e b) ∧ Blocked t tag path e s

theorem Fails.unique {s s' : WriteStep} (h : Fails t tag path e s) (h' : Fails t tag path e s') : s = s' := by
  obtain ⟨before, after, hall, hfree, hblocked⟩ := h
  obtain ⟨before', after', hall', hfree', hblocked'⟩ := h'
  rw [hall, List.append_eq_append_iff] at hall'
  rcases hall' with ⟨more, rfl, heq⟩ | ⟨more, rfl, heq⟩
  · cases more with
    | nil => exact (List.cons.inj heq).1
    | cons b more =>
      obtain ⟨rfl, -⟩ := List.cons.inj heq
      exact absurd hblocked (hfree' s (by simp))
  · cases more with
    | nil => exact (List.cons.inj heq).1.symm
    | cons b more =>
      obtain ⟨rfl, -⟩ := List.cons.inj heq
      exact absurd hblocked' (hfree s' (by simp))

/-- How a replacement ends. -/
inductive ReplaceEnd (d : Disk) (tag : String) (t : Trouble) (path : PathName) (content : List UInt8) : Written → Prop
  /-- A folder cannot be made. -/
  | barred {f : FileError} (hbarred : ¬ d.Paves t path) : ReplaceEnd d tag t path content ⟨d.paved t path, some f⟩
  | replaced {source p : Place} (hpaves : d.Paves t path) (hfree : ∀ s, ¬ Blocked t tag path (d.paved t path) s)
    (hsource : (d.paved t path).draftPlace tag path = .ok source) (hp : (d.paved t path).Takes path p) :
    ReplaceEnd d tag t path content ⟨((d.paved t path).removeFile source).setFile p content, none⟩
  /-- The draft cannot be made. -/
  | unmade {f : FileError} (hpaves : d.Paves t path) (hfails : Fails t tag path (d.paved t path) .create) :
    ReplaceEnd d tag t path content ⟨d.paved t path, some f⟩
  /-- A step on the draft fails, and the draft is cleared away. -/
  | cleared {source : Place} {s : WriteStep} {f : FileError} (hpaves : d.Paves t path)
    (hsource : (d.paved t path).draftPlace tag path = .ok source) (hfails : Fails t tag path (d.paved t path) s)
    (hclear : ¬ IsLeft t s) : ReplaceEnd d tag t path content ⟨(d.paved t path).removeFile source, some f⟩
  /-- A step on the draft fails, and the draft is left with what it holds. -/
  | left {source : Place} {s : WriteStep} {f : FileError} {bytes : List UInt8} (hpaves : d.Paves t path)
    (hsource : (d.paved t path).draftPlace tag path = .ok source) (hfails : Fails t tag path (d.paved t path) s)
    (hleft : IsLeft t s) (hbytes : bytes <+: content) :
    ReplaceEnd d tag t path content ⟨(d.paved t path).setFile source bytes, some f⟩

/-- Folders are made before the draft only. -/
theorem ReplaceEnd.folders {w : Written} (h : ReplaceEnd d tag t path content w) :
    w.disk.folders = (d.paved t path).folders ∧ w.disk.here = (d.paved t path).here := by
  cases h <;> exact ⟨rfl, rfl⟩

theorem mem_all (s : WriteStep) : s ∈ WriteStep.all := by
  cases s <;> decide

/-- The draft has a place if the first step that fails is a later one. -/
theorem Fails.draftPlace {s : WriteStep} (h : Fails t tag path e s) (hs : s ≠ .create) : ∃ r, e.draftPlace tag path = .ok r := by
  obtain ⟨before, after, hall, hfree, -⟩ := h
  have hcreate : .create ∈ before := by
    cases before with
    | nil =>
      obtain ⟨rfl, -⟩ := List.cons.inj hall
      exact absurd rfl hs
    | cons b before =>
      obtain ⟨rfl, -⟩ := List.cons.inj hall
      exact List.mem_cons_self
  cases hplace : e.draftPlace tag path with
  | ok r => exact ⟨r, rfl⟩
  | error f => exact absurd (.inr (.inl ⟨rfl, f, hplace⟩)) (hfree _ hcreate)

/-- **A replacement ends in one of these ways.** -/
theorem replaceWith_ends (d : Disk) (tag : String) (t : Trouble) (path : PathName) (content : List UInt8) :
    ReplaceEnd d tag t path content (d.replaceWith tag t path content) := by
  unfold replaceWith
  have hpaved : d.paved t path = (d.putFolders t.folder path.parent).1 := rfl
  have hpaves : d.Paves t path ↔ (d.putFolders t.folder path.parent).2 = none := .rfl
  revert hpaved hpaves
  cases d.putFolders t.folder path.parent with
  | mk e failure =>
    rintro rfl hpaves
    cases failure with
    | some f => exact .barred (by simp [hpaves])
    | none =>
      have hpaves := hpaves.2 rfl
      obtain ⟨source, hsource⟩ : ∃ source, ∀ r, (d.paved t path).draftPlace tag path = .ok r → r = source := by
        cases (d.paved t path).draftPlace tag path with
        | ok r => exact ⟨r, fun r' h => (Except.ok.inj h).symm⟩
        | error f => exact ⟨[], nofun⟩
      have hplace {r : Place} (hr : (d.paved t path).draftPlace tag path = .ok r) :
          (d.paved t path).draftPlace tag path = .ok source := by
        rw [hr, hsource r hr]
      have hrun : RunEnd t tag path content (d.paved t path) source WriteStep.all
          (Draft.run t tag path content ⟨d.paved t path, none, .none⟩ WriteStep.all) := run_end hsource leads_all rfl
      simp only
      generalize Draft.run t tag path content ⟨d.paved t path, none, .none⟩ WriteStep.all = r at hrun
      cases hrun with
      | @done y last hlast hfree hpassed =>
        cases hlast
        obtain ⟨p, hp, hdisk⟩ := hpassed
        simp only [hdisk]
        cases hr : (d.paved t path).draftPlace tag path with
        | error f => exact absurd (.inr (.inl ⟨rfl, f, hr⟩)) (hfree .create (mem_all _))
        | ok r => exact .replaced hpaves (fun s => hfree s (mem_all s)) (hplace hr) hp
      | @stopped y s f before after hsteps hfree hblocked hstopped =>
        have hfails : Fails t tag path (d.paved t path) s := ⟨before, after, hsteps, hfree, hblocked⟩
        have hclear := clear_end (t := t) hstopped f
        simp only
        generalize y.clear t content f = w at hclear
        cases hclear with
        | unmade hs =>
          subst hs
          exact .unmade hpaves hfails
        | cleared hs hclear =>
          obtain ⟨r, hr⟩ := hfails.draftPlace hs
          exact .cleared hpaves (hplace hr) hfails hclear
        | left hleft hbytes =>
          obtain ⟨r, hr⟩ := hfails.draftPlace hleft.1
          exact .left hpaves (hplace hr) hfails hleft hbytes

end ApiProjection.Disk
