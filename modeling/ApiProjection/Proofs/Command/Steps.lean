import ApiProjection.Command.Warnings
import ApiProjection.Proofs.Host.Modest
/-!
# The steps of a projection

All that a command does before it writes its document is modest: finding out the settings, loading the description,
making a validator and projecting.

* `Settings.resolve_modest`, `Source.load_modest`, `Command.Project.validator?_modest`,
  `Command.Project.rendered_modest`: the steps.
* `Settings.resolve_alike`: the version does not depend on what else the arguments ask for.
-/
namespace ApiProjection

open Act

/-! ## Settings -/

namespace Settings

theorem standardBase_modest (name : String) (otherwise : List String) : Modest (standardBase name otherwise) := by
  have hhome : Modest (standardBase.inHome otherwise) := Modest.home.bind fun _ => .pure _
  refine (Modest.env? name).bind fun path => ?_
  cases path with
  | none => exact hhome
  | some path =>
    dsimp only
    split
    · exact hhome
    · exact .pure _

theorem madeFolder_modest (p : PathName) : Modest (madeFolder p) :=
  (Modest.alter fun _ _ => Disk.makeFolders_grown).bind fun _ => .pure _

theorem folder_modest : Modest folder := by
  refine .session (fun w => ?_) fun _ _ _ => rfl
  split
  · exact (standardBase_modest _ _).bind fun _ => madeFolder_modest _
  · exact Modest.home.bind fun _ => madeFolder_modest _

theorem dataFolder_modest : Modest dataFolder := by
  refine .session (fun w => ?_) fun _ _ _ => rfl
  split
  · exact (standardBase_modest _ _).bind fun _ => madeFolder_modest _
  · exact Modest.home.bind fun _ => madeFolder_modest _

theorem file_modest : Modest file := folder_modest.bind fun _ => .pure _

theorem load_modest : Modest load := by
  refine file_modest.bind fun path => (Modest.look _).bind fun found => ?_
  cases found with
  | false => exact .pure _
  | true =>
    refine (Modest.readText? _).bind fun text => ?_
    cases text with
    | error f => exact .fail _ _ _
    | ok text =>
      dsimp only
      cases ofText text with
      | ok s => exact .pure _
      | error message => exact .fail _ _ _

theorem loadProject_modest : Modest loadProject := by
  refine Modest.here.bind fun folder => (Modest.look _).bind fun found => ?_
  cases found with
  | false => exact .pure _
  | true =>
    refine (Modest.readText? _).bind fun text => ?_
    cases text with
    | error f => exact .fail _ _ _
    | ok text =>
      dsimp only
      cases Json.read text with
      | error e => exact .fail _ _ _
      | ok j =>
        cases j with
        | object ms => exact .pure _
        | _ => exact .fail _ _ _

theorem require_modest {α : Type} (x : Except String α) : Modest (require x) := by
  cases x with
  | ok a => exact .pure a
  | error message => exact .fail _ _ _

/-- What holds before the arguments of a run are looked at. -/
def underArguments : Act Settings := do
  let user ← load
  let s ← match ← loadProject with
    | some project => require (user.withProject project)
    | none => pure user
  require (s.withEnvironment (← Act.env? targetVariable) (← Act.env? strictVariable))

theorem underArguments_modest : Modest underArguments := by
  refine load_modest.bind fun user => loadProject_modest.bind fun project => ?_
  have henvironment (s : Settings) : Modest (do
      require (s.withEnvironment (← Act.env? targetVariable) (← Act.env? strictVariable))) :=
    (Modest.env? _).bind fun _ => (Modest.env? _).bind fun _ => require_modest _
  cases project with
  | some project => exact (require_modest _).bind henvironment
  | none => exact henvironment user

theorem resolve_eq (o : Overrides) : resolve o = do
    let s ← underArguments
    let s ← require (s.withOverrides o).withVersion
    Act.log "specshift.config"
      s!"resolved config: target={s.target} strict={logged s.strict} validate={logged s.validate}"
    return s := by
  unfold resolve underArguments
  simp only [bind_assoc]
  refine bind_congr fun user => bind_congr fun project => ?_
  cases project <;> simp only [pure_bind, bind_assoc]

theorem resolve_modest (o : Overrides) : Modest (resolve o) := by
  rw [resolve_eq]
  exact underArguments_modest.bind fun _ => (require_modest _).bind fun _ => (Modest.log _ _).bind fun _ => .pure _

/-- Settings are for the same version as others, and say of strictness and validation what the arguments say. -/
structure Obey (o : Overrides) (s s' : Settings) : Prop where
  target : s.target = s'.target
  strict : ∀ b ∈ o.strict, s.strict = b
  validate : ∀ b ∈ o.validate, s.validate = b

/-- Arguments that ask for the same version get the same version, or the same fault. -/
theorem resolve_alike {o o' : Overrides} (htarget : o.target = o'.target) :
    Alike (Obey o) (resolve o) (resolve o') := by
  rw [resolve_eq, resolve_eq]
  refine underArguments_modest.heedless.bind ?_
  rintro s _ rfl
  have hword : (s.withOverrides o).target = (s.withOverrides o').target := by
    simp only [withOverrides, htarget]
  unfold withVersion
  rw [hword]
  cases Target.parse (.text (s.withOverrides o').target) with
  | error e => exact (Alike.throw (R := fun _ _ : Settings => False) _).bind fun _ _ h => h.elim
  | ok t =>
    have hobey : Obey o { s.withOverrides o with target := t.version } { s.withOverrides o' with target := t.version } := by
      refine ⟨rfl, fun b hb => ?_, fun b hb => ?_⟩
      · rw [Option.mem_def] at hb
        simp [withOverrides, hb]
      · rw [Option.mem_def] at hb
        simp [withOverrides, hb]
    exact (Alike.pure hobey).bind fun a b h => (Alike.log _ _ _ _).bind fun _ _ _ => .pure h

end Settings

/-! ## Descriptions -/

namespace Source

theorem accept_modest {α : Type} (x : Except ContentError α) : Modest (accept x) := by
  cases x with
  | ok a => exact .pure a
  | error e =>
    cases e with
    | crash c => exact .crash c
    | _ => exact .fail _ _ _

theorem readAddress_modest (address : String) : Modest (readAddress address) := by
  refine .session (fun w => ?_) fun _ _ _ => rfl
  cases w.web address with
  | failure message => exact .fail _ _ _
  | response status contentType body =>
    dsimp only
    split
    · exact (Modest.fail _ _ _).bind fun _ => accept_modest _
    · exact accept_modest _

theorem readFile_modest (name : String) : Modest (readFile name) := by
  have hrest : Modest (do
      let text ← readText (PathName.ofText name).text
      if isBlankText text then fail .input s!"IR file is empty: {name}"
      accept (Content.read (nameHint (PathName.ofText name)) text)) := by
    refine (Modest.readText _).bind fun text => ?_
    split
    · exact (Modest.fail _ _ _).bind fun _ => accept_modest _
    · exact accept_modest _
  refine (Modest.look _).bind fun found => ?_
  cases found with
  | false => exact (Modest.fail _ _ _).bind fun _ => hrest
  | true => exact hrest

theorem readStdin_modest : Modest readStdin := by
  refine .session (fun w => ?_) fun _ _ _ => rfl
  refine Modest.drink.bind fun _ => ?_
  split
  · exact (Modest.fail _ _ _).bind fun _ => accept_modest _
  · exact accept_modest _

theorem load_modest (source : String) : Modest (load source) := by
  have hread : Modest (read source) := by
    unfold read
    split
    · exact readStdin_modest
    · split
      · exact readAddress_modest source
      · exact readFile_modest source
  refine hread.bind fun entries => ?_
  cases Api.parse source (.map entries) with
  | error r => exact .fail _ _ _
  | ok a => exact (Modest.log _ _).bind fun _ => .pure a

end Source

/-! ## Validators and documents -/

namespace Command.Project

theorem loadSchema_modest (file : String) : Modest (loadSchema file) := by
  refine .session (fun w => ?_) fun _ _ _ => by dsimp only
  dsimp only
  cases w.disk.read (PathName.ofText file).text with
  | error e =>
    dsimp only
    split
    · exact .crash _
    · exact .fail _ _ _
  | ok bytes =>
    refine (Modest.decoded _).bind fun text => ?_
    cases Yaml.read text with
    | ok v => exact .pure v
    | error f =>
      dsimp only
      split
      · exact .fail _ _ _
      · exact .crash _

theorem loadSchemas_modest (files : List (String × String)) : Modest (loadSchemas files) := by
  induction files with
  | nil => exact .pure []
  | cons f files ih => exact (loadSchema_modest f.2).bind fun _ => ih.bind fun _ => .pure _

theorem validator?_modest (s : Settings) (metaSchema : Option PathName) : Modest (validator? s metaSchema) := by
  unfold validator?
  dsimp only
  split
  · exact .pure none
  · refine (loadSchemas_modest _).bind fun schemas => ?_
    cases Validator.ofSchemas schemas with
    | ok v => exact .pure _
    | error e => exact .fail _ _ _

theorem rendered_modest (a : Api) (target : String) (strict : Bool) (v : Option Validator) :
    Modest (rendered a target strict v) := by
  unfold rendered
  cases Target.parse (.text target) with
  | error e => exact .fail _ _ _
  | ok t =>
    refine (Modest.logAll _).bind fun _ => ?_
    cases (a.projectTo t strict (v.map fun v => v.validate .never)).value with
    | rendered texts => exact .pure _
    | failed f => exact .failed _
    | unwritable u => exact .crash _

theorem documentFormat_modest (s : Settings) : Modest (documentFormat s) := by
  unfold documentFormat
  dsimp only
  split
  · exact .pure _
  · exact .fail _ _ _

end Command.Project
end ApiProjection
