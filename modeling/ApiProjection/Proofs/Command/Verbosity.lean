import Mathlib
import ApiProjection.Proofs.Command.Config
import ApiProjection.Proofs.Command.Heedless
import ApiProjection.Proofs.Command.Listing
import ApiProjection.Proofs.Command.Revoiced
import ApiProjection.Proofs.Console.Notice
/-!
# Saying more or less

How much a run says makes no difference to its code, to its standard output and to the disk, whatever the run does and
whatever ran before it. That holds as long as the notices that are due can be said. A notice is marked up and what it
holds is not protected, so one that holds the end of a style that nothing begins stops the runs that say it, and not
those that do not.

* `Command.command_alike`: what a command does on two consoles.
* `Command.Program.run_alike`, `Command.Program.outcomes_revoiced`: a run, and any runs one after another.
* `Command.Program.louder_fails`: a change of a setting that succeeds only if nothing is said of it.
-/
namespace ApiProjection.Command

open Act Session

/-! ## Notices that are due -/

/-- The notices that a call of a command comes to in a session, as far as what they hold is not always the same. -/
inductive Due (c : Console) (w : Session) : String → List String → Notice → Prop
  /-- The source is about to be projected. -/
  | announced {rest : List String} {o : ProjectOptions} {source : String} {x : Settings × String × Api × Option Validator}
      {v : Session} (hform : Project.form.Takes true {} rest o [source])
      (hneeds : (Project.needs o source).perform w = (.ok x, v)) :
      Due c w "project" rest (.debug (Project.announcement source x.1.target))
  /-- The document has been written to a file. -/
  | wrote {rest : List String} {o : ProjectOptions} {source target file : String} {document : Traced String}
      {v u : Session} {d : Disk} (hform : Project.form.Takes true {} rest o [source])
      (hprepare : (Project.prepare c o source).perform w = (.ok (document, target), v))
      (hwarned : (c.warnings document.warnings).perform v = (.ok (), u)) (hfile : c.file? o.outputFile = some file)
      (hwrite : u.disk.write file (Utf8.encode document.value) = .ok d) :
      Due c w "project" rest (.info s!"Wrote {file}")
  /-- Settings are about to be shown. -/
  | shown {args rest : List String} {effective : Bool} {s : Settings} {path : PathName} {v u : Session}
      (hgroup : Config.group.Takes false () args () ("show" :: rest))
      (hform : Config.showForm.Takes true false rest effective [])
      (hsettings : (if effective then Settings.resolve {} else Settings.load).perform w = (.ok s, v))
      (hfolder : Settings.folder.perform v = (.ok path, u)) :
      Due c w "config" args (.info s!"Config directory: {path.text}")
  /-- A setting has been changed. -/
  | set {args rest : List String} {key word : String} {s s' : Settings} {value : Json} {v u : Session}
      (hgroup : Config.group.Takes false () args () ("set" :: rest)) (hform : Config.setForm.Takes true () rest () [key, word])
      (hload : Settings.load.perform w = (.ok s, v)) (hchange : s.change key word = .ok (s', value))
      (hsave : s'.save.perform v = (.ok (), u)) :
      Due c w "config" args (.success (Config.notice key value))

/-! ## Commands -/

section
variable {c : Console} {quiet verbose : Bool} {w w' : Session}

/-- Both consoles can say a notice, or neither. -/
def EquallySaid (c c' : Console) (n : Notice) : Prop := (c.noticeText? n).isSome = (c'.noticeText? n).isSome

namespace Project

theorem target_of_prepare {o : ProjectOptions} {source target : String} {document : Traced String} {v : Session}
    (h : (prepare c o source).perform w = (.ok (document, target), v)) : ∃ t : Target, target = t.version := by
  rw [prepare_eq] at h
  obtain ⟨x, u, hneeds, h⟩ := of_perform_bind_ok h
  obtain ⟨_, _, -, h⟩ := of_perform_bind_ok h
  obtain ⟨_, _, -, h⟩ := of_perform_bind_ok h
  cases h
  exact target_of_needs (congrArg Prod.fst hneeds)

/-- What is said of a source with a plain name is plain. -/
theorem announcement_plain {source : String} (h : ∀ c ∈ source.toList, c ≠ '[' ∧ c ≠ '\\') (t : Target) :
    (Notice.debug (announcement source t.version)).Plain := by
  have htext : (announcement source t.version).toList =
      "Projecting ".toList ++ source.toList ++ " to OpenAPI ".toList ++ t.version.toList := by
    simp [announcement, toString]
  have hversion : ∀ c ∈ t.version.toList, c ≠ '[' ∧ c ≠ '\\' := by cases t <;> simp [Target.version]
  intro c hc
  rw [Notice.message, htext] at hc
  simp only [List.mem_append] at hc
  rcases hc with ((hc | hc) | hc) | hc
  · revert c
    simp
  · exact h c hc
  · revert c
    simp
  · exact hversion c hc

theorem prepare_alike {rest : List String} {o : ProjectOptions} {source : String}
    (hform : form.Takes true {} rest o [source]) (hw : Same w w')
    (hsaid : ∀ n, Due c w "project" rest n → EquallySaid c (c.voiced quiet verbose) n) :
    AlikeFrom w w' Eq (prepare c o source) (prepare (c.voiced quiet verbose) o source) := by
  rw [prepare_eq, prepare_eq]
  refine AlikeFrom.bind ((needs_modest o source).heedless w w' hw) ?_
  rintro x _ v v' hx rfl hv
  rw [Console.debug_eq_tell, Console.debug_eq_tell]
  have htell := Console.tell_alike (hsaid _ (.announced hform hx)) v v' hv
  refine AlikeFrom.bind htell ?_
  rintro _ _ u u' - - hu
  exact (written_modest x).heedless u u' hu

theorem perform_alike {rest : List String} {o : ProjectOptions} {source : String}
    (hform : form.Takes true {} rest o [source]) (hw : Same w w')
    (hsaid : ∀ n, Due c w "project" rest n → EquallySaid c (c.voiced quiet verbose) n) :
    AlikeFrom w w' Eq (perform c o source) (perform (c.voiced quiet verbose) o source) := by
  rw [perform_eq, perform_eq, Console.voiced_reporting]
  refine AlikeFrom.bind (c.reporting_alike (prepare_alike hform hw hsaid)) ?_
  rintro ⟨document, target⟩ _ v v' hx rfl hv
  have hprepare := c.of_perform_reporting_ok hx
  unfold finish
  rw [Console.voiced_warnings]
  refine AlikeFrom.bind (c.warnings_heedless _ v v' hv) ?_
  rintro _ _ u u' hwarned - hu
  have hdocument : AlikeFrom u u' Eq (c.document document.value o.outputFile)
      ((c.voiced quiet verbose).document document.value o.outputFile) := by
    have hvoiced : (c.voiced quiet verbose).file? o.outputFile = c.file? o.outputFile := rfl
    cases hfile : c.file? o.outputFile with
    | none =>
      rw [document_printed hfile, document_printed (hvoiced.trans hfile)]
      exact Heedless.out _ u u' hu
    | some file =>
      rw [document_filed hfile, document_filed (hvoiced.trans hfile)]
      refine AlikeFrom.bind (Heedless.alter _ u u' hu) ?_
      rintro _ _ x x' halter - hx
      cases hwrite : u.disk.write file (Utf8.encode document.value) with
      | error e =>
        rw [perform_alter_error (f := fun d => d.write file (Utf8.encode document.value)) u hwrite] at halter
        cases halter
      | ok d => exact Console.tell_alike (hsaid _ (.wrote hform hprepare hwarned hfile hwrite)) x x' hx
  refine AlikeFrom.bind hdocument ?_
  rintro _ _ z z' - - hz
  obtain ⟨t, rfl⟩ := target_of_prepare hprepare
  exact Speaks.both (count_speaks c _ t) (count_speaks (c.voiced quiet verbose) _ t) z z' hz

theorem run_alike {args : List String} (hw : Same w w')
    (hsaid : ∀ n, Due c w "project" args n → EquallySaid c (c.voiced quiet verbose) n) :
    AlikeFrom w w' Eq (run c args) (run (c.voiced quiet verbose) args) := by
  refine AlikeFrom.bind (form.gathered_heedless true {} args w w' hw) ?_
  rintro ⟨o, operands⟩ _ v v' hread rfl hv
  obtain ⟨hform, rfl⟩ := form.takes_of_perform hread
  rcases operands with _ | ⟨source, _ | ⟨next, more⟩⟩
  · exact form.refuseOperands_heedless _ v v' hv
  · exact perform_alike hform hv hsaid
  · exact form.refuseOperands_heedless _ v v' hv

end Project

namespace Warnings

theorem perform_alike (category : Option Category) (o : WarningsOptions) (source : String) (hw : Same w w') :
    AlikeFrom w w' Eq (perform c category o source) (perform (c.voiced quiet verbose) category o source) := by
  unfold perform
  rw [Console.voiced_reporting]
  refine AlikeFrom.bind (c.reporting_alike ((recorded_modest o.target source).heedless w w' hw)) ?_
  rintro ⟨ws, failure⟩ _ v v' - rfl hv
  have hshown : Alike Eq (showAll c (chosen category o.excluded ws))
      (showAll (c.voiced quiet verbose) (chosen category o.excluded ws)) := by
    unfold showAll
    rw [Console.voiced_table]
    split
    · exact Console.tell_alike_of_plain (n := .info "No warnings.") (by simp [Notice.Plain, Notice.message])
    · exact c.table_heedless _ _
  refine AlikeFrom.bind (hshown v v' hv) ?_
  rintro _ _ u u' - - hu
  cases failure with
  | none => exact Heedless.pure () u u' hu
  | some f =>
    dsimp only
    rw [Console.voiced_report]
    exact c.report_heedless _ u u' hu

theorem run_alike (args : List String) (hw : Same w w') :
    AlikeFrom w w' Eq (run c args) (run (c.voiced quiet verbose) args) := by
  refine AlikeFrom.bind (form.gathered_heedless true {} args w w' hw) ?_
  rintro ⟨o, operands⟩ _ v v' - rfl hv
  dsimp only
  cases category? o with
  | error m => exact form.refuse_heedless m v v' hv
  | ok category =>
    rcases operands with _ | ⟨source, _ | ⟨next, more⟩⟩
    · exact form.refuseOperands_heedless _ v v' hv
    · exact perform_alike category o source hv
    · exact form.refuseOperands_heedless _ v v' hv

end Warnings

namespace Config

theorem perform_show {args rest : List String} {effective : Bool} (hgroup : group.Takes false () args () ("show" :: rest))
    (hform : showForm.Takes true false rest effective []) (force : Bool) :
    (run c force args).perform w = (showSettings c effective).perform w := by
  rw [run, perform_bind_ok (hgroup.perform_readGroup _)]
  exact perform_bind_ok (hform.perform_read _) _

theorem showSettings_alike {args rest : List String} {effective : Bool}
    (hgroup : group.Takes false () args () ("show" :: rest)) (hform : showForm.Takes true false rest effective [])
    (hw : Same w w') (hsaid : ∀ n, Due c w "config" args n → EquallySaid c (c.voiced quiet verbose) n) :
    AlikeFrom w w' Eq (showSettings c effective) (showSettings (c.voiced quiet verbose) effective) := by
  have hmodest : Modest (if effective then Settings.resolve {} else Settings.load) := by
    split
    · exact Settings.resolve_modest {}
    · exact Settings.load_modest
  unfold showSettings
  rw [Console.voiced_reporting]
  refine AlikeFrom.bind (c.reporting_alike (hmodest.heedless w w' hw)) ?_
  rintro s _ v v' hs rfl hv
  have hsettings := c.of_perform_reporting_ok hs
  refine AlikeFrom.bind (Settings.folder_modest.heedless v v' hv) ?_
  rintro path _ u u' hfolder rfl hu
  rw [Console.voiced_value]
  have htell := Console.tell_alike (hsaid _ (.shown hgroup hform hsettings hfolder)) u u' hu
  refine AlikeFrom.bind htell ?_
  rintro _ _ x x' - - hx
  exact c.value_heedless _ x x' hx

theorem setSetting_alike {args rest : List String} {key word : String}
    (hgroup : group.Takes false () args () ("set" :: rest)) (hform : setForm.Takes true () rest () [key, word])
    (hw : Same w w') (hsaid : ∀ n, Due c w "config" args n → EquallySaid c (c.voiced quiet verbose) n) :
    AlikeFrom w w' Eq (setSetting c key word) (setSetting (c.voiced quiet verbose) key word) := by
  refine AlikeFrom.bind (Settings.load_modest.heedless w w' hw) ?_
  rintro s _ v v' hload rfl hv
  cases hchange : s.change key word with
  | error message =>
    exact ((c.error_heedless message).bind fun _ => Heedless.throw _) v v' hv
  | ok changed =>
    obtain ⟨s', value⟩ := changed
    refine AlikeFrom.bind (s'.save_heedless v v' hv) ?_
    rintro _ _ u u' hsave - hu
    exact Console.tell_alike (hsaid _ (.set hgroup hform hload hchange hsave)) u u' hu

theorem resetSettings_alike (force : Bool) (hw : Same w w') :
    AlikeFrom w w' Eq (resetSettings c force) (resetSettings (c.voiced quiet verbose) force) := by
  have hasked : Heedless (if force then pure true else confirmed) := by
    split
    · exact .pure true
    · exact confirmed_heedless
  have hreset : (Notice.success "Configuration reset to defaults.").Plain := by simp [Notice.Plain, Notice.message]
  have hcancelled : (Notice.info "Cancelled.").Plain := by simp [Notice.Plain, Notice.message]
  rw [resetSettings_eq, resetSettings_eq]
  refine AlikeFrom.bind (hasked w w' hw) ?_
  rintro agreed _ v v' - rfl hv
  cases agreed with
  | true =>
    refine AlikeFrom.bind (Settings.save_heedless {} v v' hv) ?_
    rintro _ _ u u' - - hu
    exact Console.tell_alike_of_plain hreset u u' hu
  | false => exact Console.tell_alike_of_plain hcancelled v v' hv

theorem run_alike {args : List String} (force : Bool) (hw : Same w w')
    (hsaid : ∀ n, Due c w "config" args n → EquallySaid c (c.voiced quiet verbose) n) :
    AlikeFrom w w' Eq (run c force args) (run (c.voiced quiet verbose) force args) := by
  refine AlikeFrom.bind (group.readGroup_heedless () args w w' hw) ?_
  rintro ⟨_, name, rest⟩ _ v v' hread rfl hv
  obtain ⟨hgroup, rfl⟩ := group.takes_of_perform_readGroup hread
  dsimp only
  split
  · refine AlikeFrom.bind (showForm.gathered_heedless true false rest v v' hv) ?_
    rintro ⟨effective, operands⟩ _ u u' hoptions rfl hu
    obtain ⟨hform, rfl⟩ := showForm.takes_of_perform hoptions
    cases operands with
    | nil => exact showSettings_alike hgroup hform hu hsaid
    | cons => exact showForm.refuseOperands_heedless _ u u' hu
  · refine AlikeFrom.bind (setForm.gathered_heedless true () rest v v' hv) ?_
    rintro ⟨_, operands⟩ _ u u' hoptions rfl hu
    obtain ⟨hform, rfl⟩ := setForm.takes_of_perform hoptions
    rcases operands with _ | ⟨key, _ | ⟨word, _ | ⟨next, more⟩⟩⟩
    · exact setForm.refuseOperands_heedless _ u u' hu
    · exact setForm.refuseOperands_heedless _ u u' hu
    · exact setSetting_alike hgroup hform hu hsaid
    · exact setForm.refuseOperands_heedless _ u u' hu
  · refine AlikeFrom.bind (resetForm.gathered_heedless true () rest v v' hv) ?_
    rintro ⟨_, operands⟩ _ u u' - rfl hu
    cases operands with
    | nil => exact resetSettings_alike force hu
    | cons => exact resetForm.refuseOperands_heedless _ u u' hu
  · exact group.refuseCommand_heedless () _ rest v v' hv

end Config

namespace Program

/-- A command ends alike on two consoles that differ in how much they say, if both can say each notice that is due, or
neither. -/
theorem command_alike {o : ProgramOptions} {name : String} {args : List String} (hw : Same w w')
    (hsaid : ∀ n, Due c w name args n → EquallySaid c (c.voiced quiet verbose) n) :
    AlikeFrom w w' Eq (command c o name args) (command (c.voiced quiet verbose) { o with quiet, verbose } name args) := by
  unfold command
  split
  · exact Project.run_alike hw hsaid
  · exact Warnings.run_alike args hw
  · exact Config.run_alike o.force hw hsaid
  · exact group.refuseCommand_heedless {} _ args w w' hw

theorem guarded_alike {x y : Act Unit} (h : AlikeFrom w w' Eq x y) :
    AlikeFrom w w' Eq (guarded c x) (guarded (c.voiced quiet verbose) y) := by
  refine AlikeFrom.tryCatch h fun e v v' _ hv => ?_
  cases e with
  | failed f =>
    dsimp only
    rw [Console.voiced_report]
    exact c.report_heedless f v v' hv
  | crashed e =>
    exact ((writeLog_heedless e).bind fun _ => (c.error_heedless _).bind fun _ => Heedless.throw _) v v' hv
  | ended n => exact Heedless.throw _ v v' hv

end Program

end

/-! ## Runs -/

namespace Program

/-- Calls that differ in how much is said call the same command, or end alike before. -/
theorem Revoiced.cases {args args' : List String} (h : Revoiced args args') :
    (∃ o quiet verbose name rest, Calls args o name rest ∧ Calls args' { o with quiet, verbose } name rest) ∨
      ∀ w, run args w = run args' w := by
  obtain ⟨hagree, hbare⟩ := h
  have hequal (hread : group.readGroup {} args = group.readGroup {} args') (w : Session) : run args w = run args' w := by
    rw [run, run, execute, execute, hread]
  by_cases hempty : args = []
  · right
    rw [hempty, hbare.1 hempty]
    exact fun _ => rfl
  · have hargs : args.isEmpty = false := List.isEmpty_eq_false_iff.2 hempty
    have hargs' : args'.isEmpty = false := List.isEmpty_eq_false_iff.2 (mt hbare.2 hempty)
    unfold gathered at hagree
    generalize hr : gather group.allSwitches false none ⟨{}, [], none⟩ args = r at hagree
    generalize hr' : gather group.allSwitches false none ⟨{}, [], none⟩ args' = r' at hagree
    cases hagree with
    | error m =>
      refine .inr (hequal ?_)
      rw [Form.readGroup, Form.readGroup, hargs, hargs', Form.gathered, Form.gathered, hr, hr']
    | @ok g g' hrelated =>
      obtain ⟨o, operands, asked⟩ := g
      obtain ⟨o', operands', asked'⟩ := g'
      obtain ⟨⟨quiet, verbose, rfl⟩, rfl, rfl⟩ := hrelated
      cases asked with
      | some r =>
        refine .inr (hequal ?_)
        rw [Form.readGroup, Form.readGroup, hargs, hargs', Form.gathered, Form.gathered, hr, hr']
      | none =>
        cases operands with
        | nil =>
          refine .inr (hequal ?_)
          rw [Form.readGroup, Form.readGroup, hargs, hargs', Form.gathered, Form.gathered, hr, hr']
          rfl
        | cons name rest => exact .inl ⟨o, quiet, verbose, name, rest, hr, hr'⟩

/-- Each notice that is due in a run can be said however much is said, or cannot be said at all. -/
def HeardAlike (args args' : List String) (w : Session) : Prop :=
  ∀ o quiet verbose name rest n, Calls args o name rest → Calls args' { o with quiet, verbose } name rest →
    Due (consoleFor o w) { w with logging := o.verbose } name rest n →
      EquallySaid (consoleFor o w) ((consoleFor o w).voiced quiet verbose) n

/-- A run ends alike however much it says. -/
theorem run_alike {args args' : List String} {w : Session} (h : Revoiced args args') (hterminal : w.terminal = false)
    (hheard : HeardAlike args args' w) : (run args w).1 = (run args' w).1 ∧ Same (run args w).2 (run args' w).2 := by
  rcases h.cases with ⟨o, quiet, verbose, name, rest, hcall, hcall'⟩ | hequal
  · have hw : Same { w with logging := o.verbose } { w with logging := verbose } := ⟨_, _, rfl⟩
    have hcommand := command_alike (o := o) hw fun n hn => hheard o quiet verbose name rest n hcall hcall' hn
    obtain ⟨hresult, hsame⟩ := guarded_alike hcommand
    rw [run_eq hcall hterminal, run_eq hcall' hterminal]
    exact ⟨congrArg code hresult.eq, hsame⟩
  · rw [hequal]
    exact ⟨rfl, .refl _⟩

/-- A command stops unexpectedly at a notice that is due and cannot be said. -/
theorem command_mute {c : Console} {w : Session} {o : ProgramOptions} {name : String} {args : List String} {n : Notice}
    (h : Due c w name args n) (hmute : c.noticeText? n = none) :
    ∃ e v, (command c o name args).perform w = (.error (.crashed e), v) := by
  have hspeaks := c.tell_speaks n
  rw [hmute] at hspeaks
  obtain ⟨e, said, hcrash⟩ := hspeaks
  cases h with
  | @announced _ po source x v hform hneeds =>
    have hprepare : (Project.prepare c po source).perform w =
        (.error (.crashed e), { v with stderr := v.stderr ++ said }) := by
      rw [Project.prepare_eq, perform_bind_ok hneeds, Console.debug_eq_tell]
      exact perform_bind_error (hcrash v) _
    rw [Project.perform_command c hform]
    exact ⟨e, _, Project.perform_of_prepare_crashed hprepare⟩
  | @wrote _ _ _ _ file document _ u d hform hprepare hwarned hfile hwrite =>
    have halter := perform_alter_ok (f := fun d => d.write file (Utf8.encode document.value)) u hwrite
    rw [Project.perform_command c hform, Project.perform_of_prepare_ok hprepare, Project.finish, perform_bind_ok hwarned,
      Project.document_filed hfile]
    exact ⟨e, _, perform_bind_error ((perform_bind_ok halter _).trans (hcrash _)) _⟩
  | shown hgroup hform hsettings hfolder =>
    have hcommand : command c o "config" args = Config.run c o.force args := rfl
    rw [hcommand, Config.perform_show hgroup hform, Config.showSettings,
      perform_bind_ok (c.perform_reporting_ok hsettings), perform_bind_ok hfolder]
    exact ⟨e, _, perform_bind_error (hcrash _) _⟩
  | set hgroup hform hload hchange hsave =>
    have hcommand : command c o "config" args = Config.run c o.force args := rfl
    rw [hcommand, Config.perform_set c hgroup hform, Config.setSetting, perform_bind_ok hload, hchange]
    dsimp only
    rw [perform_bind_ok hsave]
    exact ⟨e, _, hcrash _⟩

/-- A run that comes to a notice that cannot be said fails. -/
theorem run_mute {args rest : List String} {o : ProgramOptions} {name : String} {w : Session} {n : Notice}
    (hcall : Calls args o name rest) (hterminal : w.terminal = false)
    (h : Due (consoleFor o w) { w with logging := o.verbose } name rest n)
    (hmute : (consoleFor o w).noticeText? n = none) : (run args w).1 = 1 := by
  obtain ⟨e, v, hcrash⟩ := command_mute (o := o) h hmute
  obtain ⟨d, said, -, hend⟩ := ending_crashed (c := consoleFor o w) hcrash
  rw [run_eq hcall hterminal, hend]

/-- Where colours are refused all notices can be said. -/
theorem heardAlike_of_refused {args args' : List String} {w : Session} (h : w.refusesColour = true) :
    HeardAlike args args' w := by
  intro o quiet verbose name rest n _ _ _
  have hplain : (consoleFor o w).plainMessages = true := by
    rw [consoleFor, h, Bool.or_true]
  exact (Console.noticeText?_plain hplain n).trans
    (Console.noticeText?_plain (c := (consoleFor o w).voiced quiet verbose) hplain n).symm

/-- Where all notices that are due are plain they can be said. -/
theorem heardAlike_of_plain {args args' : List String} {w : Session}
    (h : ∀ o name rest n, Calls args o name rest → Due (consoleFor o w) { w with logging := o.verbose } name rest n →
      n.Plain) :
    HeardAlike args args' w := by
  intro o quiet verbose name rest n hcall _ hdue
  have hplain := h o name rest n hcall hdue
  exact ((consoleFor o w).noticeText?_of_plain hplain).trans
    (((consoleFor o w).voiced quiet verbose).noticeText?_of_plain hplain).symm

/-- A projection to the standard output of a source with a plain name has no notices but plain ones. -/
theorem heardAlike_of_source {args args' : List String} {w : Session}
    (h : ∀ o name rest, Calls args o name rest → o.outputFile = none ∧ name = "project" ∧
      ∃ po source, Project.form.Takes true {} rest po [source] ∧ po.outputFile = none ∧
        ∀ c ∈ source.toList, c ≠ '[' ∧ c ≠ '\\') : HeardAlike args args' w := by
  refine heardAlike_of_plain fun o name rest n hcall hdue => ?_
  obtain ⟨hfile, hname, po, source, hform, hfile', hsource⟩ := h o name rest hcall
  cases hdue with
  | announced hform' hneeds =>
    cases hform.symm.trans hform'
    obtain ⟨t, ht⟩ := Project.target_of_needs (congrArg Prod.fst hneeds)
    rw [ht]
    exact Project.announcement_plain hsource t
  | @wrote _ _ _ _ file _ _ _ _ hform' _ _ hwritten _ =>
    cases hform.symm.trans hform'
    have hnone : (consoleFor o w).file? po.outputFile = none := by
      rw [hfile', Console.file?, consoleFor, hfile]
      rfl
    cases hnone.symm.trans hwritten
  | shown => exact absurd hname (by decide)
  | set => exact absurd hname (by decide)

/-! ## Runs one after another -/

/-- A call of the program, and what it finds besides the disk. -/
structure Call where
  args : List String
  around : Session

/-- What others see of a run: its code, its standard output and the disk behind it. -/
structure Outcome where
  code : Int
  stdout : String
  disk : Disk

/-- The session in which a call is made, without a terminal. -/
def Call.start (call : Call) (d : Disk) : Session :=
  { call.around with disk := d, stdout := "", stderr := "", terminal := false, logging := false }

def Call.outcome (call : Call) (d : Disk) : Outcome :=
  let e := run call.args (call.start d)
  ⟨e.1, e.2.stdout, e.2.disk⟩

/-- What comes of calls that are made one after another. -/
def outcomes (d : Disk) : List Call → List Outcome
  | [] => []
  | call :: calls => call.outcome d :: outcomes (call.outcome d).disk calls

/-- A call with more or less to be said. -/
structure Variant where
  args : List String
  args' : List String
  revoiced : Revoiced args args'
  around : Session

namespace Variant

def first (x : Variant) : Call := ⟨x.args, x.around⟩

def second (x : Variant) : Call := ⟨x.args', x.around⟩

end Variant

/-- Each notice can be said however much is said, or cannot be said at all, in one run after another. -/
def AllHeardAlike (d : Disk) : List Variant → Prop
  | [] => True
  | x :: xs => HeardAlike x.args x.args' (x.first.start d) ∧ AllHeardAlike (x.first.outcome d).disk xs

theorem allHeardAlike_of_refused {xs : List Variant} (h : ∀ x ∈ xs, x.around.refusesColour = true) (d : Disk) :
    AllHeardAlike d xs := by
  induction xs generalizing d with
  | nil => trivial
  | cons x xs ih =>
    obtain ⟨hx, hxs⟩ := List.forall_mem_cons.1 h
    exact ⟨heardAlike_of_refused hx, ih hxs _⟩

/-- One run comes to the same however much it says. -/
theorem Variant.outcome_eq (x : Variant) {d : Disk} (h : HeardAlike x.args x.args' (x.first.start d)) :
    x.first.outcome d = x.second.outcome d := by
  obtain ⟨hcode, hsame⟩ := run_alike x.revoiced rfl h
  rw [Call.outcome, Call.outcome, Outcome.mk.injEq]
  exact ⟨hcode, hsame.stdout.symm, hsame.disk.symm⟩

/-- A session in which colours are refused. -/
def colourless : Session := { bare with env := ("NO_COLOR", "1") :: (bare).env }

theorem revoiced_quiet (name : String) (rest : List String) : Revoiced (name :: rest) ("--quiet" :: name :: rest) :=
  revoiced_of_eqvGen (.rel _ _ (.intro .nil (by decide) name rest))

/-- The program is run in the session of its call, whose disk is the one it begins with. -/
theorem code_bare (args : List String) : (Call.outcome ⟨args, bare⟩ (bare).disk).code = (run args bare).1 :=
  rfl

theorem loud_bracket : (run ["config", "set", "output.format", "[/x]"] bare).1 = 1 := by
  have hgroup : Config.group.Takes false () ["set", "output.format", "[/x]"] () ["set", "output.format", "[/x]"] :=
    Config.group.takes_command () (by decide) _
  have hform : Config.setForm.Takes true () ["output.format", "[/x]"] () ["output.format", "[/x]"] :=
    Config.setForm.takes_operands () (by decide)
  have hcall : Calls ["config", "set", "output.format", "[/x]"] {} "config" ["set", "output.format", "[/x]"] :=
    group.takes_command {} (by decide) _
  obtain ⟨u, hsave⟩ : ∃ u, (Settings.save { output := { format := "[/x]" } }).perform bare = (.ok (), u) := by
    rcases Settings.save_cases (s := { output := { format := "[/x]" } }) List.nodup_nil bare with
      ⟨-, u, hsave, -⟩ | ⟨hcannot, -⟩
    · exact ⟨u, hsave⟩
    · exact absurd Config.savable_bare hcannot
  exact run_mute hcall rfl (.set hgroup hform Settings.load_bare Config.change_bracket hsave) (by cbv)

theorem quiet_bracket : (run ["--quiet", "config", "set", "output.format", "[/x]"] bare).1 = 0 := by
  have hcall : Calls ["--quiet", "config", "set", "output.format", "[/x]"] { quiet := true } "config"
      ["set", "output.format", "[/x]"] := by
    unfold Calls Form.Takes
    cbv
  have hset : Config.CallsSet _ { quiet := true } "output.format" "[/x]" :=
    ⟨_, ⟨_, hcall, Config.group.takes_command () (by decide) _⟩, Config.setForm.takes_operands () (by decide)⟩
  obtain ⟨houtcome, -, -⟩ := Config.run_set_outcome (w := bare) (by decide) hset
  exact houtcome.succeeds Config.savable_bare (fun _ _ _ _ _ => rfl) ⟨{}, _, Config.loads_bare, Config.change_bracket⟩

end Program
end ApiProjection.Command
