import Mathlib
import ApiProjection.Proofs.Command.Bare
import ApiProjection.Proofs.Command.Program
import ApiProjection.Proofs.Settings.Change
/-!
# Changes that are kept

However the settings of the user are saved, changed and reset, one run after another, their file stays one that is
loaded. A change that succeeds is a change of one setting and of nothing else; one that fails leaves the file as it
was, if what is said of it can be said: a message is marked up and what it holds is not protected, so a value that
holds the end of a style that nothing begins is saved, and the run stops before it says so.

* `Command.Config.edits`: what each step comes to, after any others.
* `Command.Config.saved_unsaid`: a change that fails although it is kept.
-/
namespace ApiProjection.Command.Config

open Act Session Settings

/-! ## Calls -/

/-- Arguments that call a command on settings. -/
def Calls (args : List String) (p : ProgramOptions) (name : String) (rest : List String) : Prop :=
  ∃ args', Program.Calls args p "config" args' ∧ group.Takes false () args' () (name :: rest)

/-- Arguments that ask for a change of a setting. -/
def CallsSet (args : List String) (p : ProgramOptions) (key word : String) : Prop :=
  ∃ rest, Calls args p "set" rest ∧ setForm.Takes true () rest () [key, word]

/-- Arguments that ask for a reset. -/
def CallsReset (args : List String) (p : ProgramOptions) : Prop :=
  ∃ rest, Calls args p "reset" rest ∧ resetForm.Takes true () rest () []

section
variable {args : List String} {p : ProgramOptions} {key word : String}

theorem perform_set (c : Console) {rest : List String} (hgroup : group.Takes false () args () ("set" :: rest))
    (hform : setForm.Takes true () rest () [key, word]) (force : Bool) (w : Session) :
    (run c force args).perform w = (setSetting c key word).perform w := by
  rw [run, perform_bind_ok (hgroup.perform_readGroup _)]
  exact perform_bind_ok (hform.perform_read _) _

/-- A run that changes a setting does that, on a console that says what it should. -/
theorem run_set (h : CallsSet args p key word) (w : Session) :
    ∃ c : Console, c.successText? = (Program.consoleFor p w).successText? ∧
      Program.run args w = Program.ending c (setSetting c key word) { w with logging := p.verbose } := by
  obtain ⟨rest, ⟨args', hcall, hgroup⟩, hform⟩ := h
  obtain ⟨format, -, hrun⟩ := Program.run_performs hcall w
  exact ⟨{ Program.consoleFor p w with format }, rfl,
    hrun.trans (Program.ending_congr (perform_set _ hgroup hform p.force _))⟩

theorem run_reset (h : CallsReset args p) (w : Session) :
    ∃ c : Console,
      Program.run args w = Program.ending c (resetSettings c p.force) { w with logging := p.verbose } := by
  obtain ⟨rest, ⟨args', hcall, hgroup⟩, hform⟩ := h
  obtain ⟨format, -, hrun⟩ := Program.run_performs hcall w
  refine ⟨_, hrun.trans (Program.ending_congr ?_)⟩
  rw [Program.command, run, perform_bind_ok (hgroup.perform_readGroup _)]
  exact perform_bind_ok (hform.perform_read _) _

end

/-! ## Logs beside the settings -/

theorem plain_log {stamp : String} (h : '/' ∉ stamp.toList) : PlainPart s!"crash-{stamp}.log" := by
  have htext : (s!"crash-{stamp}.log").toList = "crash-".toList ++ stamp.toList ++ ".log".toList := by
    simp [toString]
  have hlength : 10 ≤ (s!"crash-{stamp}.log").length := by
    rw [← String.length_toList, htext]
    simp
  refine ⟨?_, ?_, ?_, ?_⟩
  · rw [htext]
    simp [h]
  all_goals
    intro he
    rw [he] at hlength
    revert hlength
    decide

/-- The log of an unexpected error is not the settings file. -/
theorem logPath_apart {v : Session} (h : '/' ∉ v.stamp.toList) (w : Session) (d : Disk) :
    d.locate v.logPath ≠ .ok (filePlace w) := by
  intro hlocate
  have hlast := getLast?_filePlace w
  rw [Disk.locate_eq hlocate, logPath, Disk.getLast?_placeOf (by simp [PathName.child]) (plain_log h), Option.some.injEq]
    at hlast
  have htext : (s!"crash-{v.stamp}.log").toList = "config.json".toList := by rw [hlast]
  have hfirst : (s!"crash-{v.stamp}.log").toList = 'c' :: 'r' :: ("ash-".toList ++ v.stamp.toList ++ ".log".toList) := by
    simp [toString]
  rw [hfirst] at htext
  revert htext
  simp

/-- A run that ends with a code of failure after it has tried to open the settings leaves their file as it was. -/
theorem ending_tried {c : Console} {x : Act Unit} {w u v : Session} {stop : Stop} (hstamp : '/' ∉ v.stamp.toList)
    (h : x.perform w = (.error stop, v)) (hcode : Program.code (.error stop) ≠ 0) (htried : Tried u v) :
    (Program.ending c x w).1 ≠ 0 ∧ Tried u (Program.ending c x w).2 := by
  obtain ⟨hends, d, said, hnoted, hsession⟩ := Program.ending_error (c := c) h hcode
  rw [hsession]
  exact ⟨hends, htried.trans ⟨_, _, _, _, _, rfl⟩ (hnoted.beside (logPath_apart hstamp u d))⟩

/-! ## Setting -/

/-- What is said of a setting that has been changed. -/
def notice (key : String) (value : Json) : String := s!"Set {key} = {value.shown}"

/-- How an attempt to change a setting ends. -/
inductive SetEnd (c : Console) (key word : String) (w : Session) : Except Stop Unit → Session → Prop
  /-- The setting is changed, and that is said. -/
  | said {s s' : Settings} {value : Json} {v : Session} (hload : Loads w s) (hchange : s.change key word = .ok (s', value))
      (hsaved : Saved s' w v) (htext : (c.successText? (notice key value)).isSome) : SetEnd c key word w (.ok ()) v
  /-- The setting is changed, and that cannot be said. -/
  | unsaid {s s' : Settings} {value : Json} {v : Session} {e : Crash} (hload : Loads w s)
      (hchange : s.change key word = .ok (s', value)) (hsaved : Saved s' w v)
      (htext : c.successText? (notice key value) = none) : SetEnd c key word w (.error (.crashed e)) v
  /-- Nothing is changed. -/
  | refused {stop : Stop} {v : Session} (hcode : Program.code (.error stop) ≠ 0) (htried : Tried w v)
      (hno : ∀ s s' value, Loads w s → s.change key word = .ok (s', value) → ¬ Savable w) : SetEnd c key word w (.error stop) v

section
variable {s : Settings} {d : Disk} {key word : String} {w : Session}

/-- A change that the settings refuse is said to be one, if that can be said. -/
theorem setSetting_refused (c : Console) (hd : w.disk.makeFolders (folderName w) = .ok d)
    (hload : load.perform w = (.ok s, { w with disk := d })) {message : String}
    (hchange : s.change key word = .error message) :
    ∃ r v, (setSetting c key word).perform w = (r, v) ∧ SetEnd c key word w r v := by
  have hloads : Loads w s := by rw [Loads, hload]
  have hno (s' changed : Settings) (value : Json) (h : Loads w s') (h' : s'.change key word = .ok (changed, value)) :
      ¬ Savable w := by
    rw [hloads.unique h, hchange] at h'
    cases h'
  have htried : Tried w { w with disk := d } := .made hd
  have hspeaks := c.error_speaks message
  rw [setSetting, perform_bind_ok hload, hchange]
  dsimp only
  cases htext : c.errorText? message with
  | some a =>
    rw [htext] at hspeaks
    refine ⟨.error (.ended misuseCode), _, perform_bind_ok (hspeaks _) _, .refused (by decide) ?_ hno⟩
    exact htried.trans ⟨_, _, _, _, _, rfl⟩ (.refl _ _)
  | none =>
    rw [htext] at hspeaks
    obtain ⟨e, said, hcrash⟩ := hspeaks
    refine ⟨_, _, perform_bind_error (hcrash _) _, .refused Int.one_ne_zero ?_ hno⟩
    exact htried.trans ⟨_, _, _, _, _, rfl⟩ (.refl _ _)

/-- A change that the settings take is saved and said, as far as it can be. -/
theorem setSetting_taken (c : Console) (hd : w.disk.makeFolders (folderName w) = .ok d)
    (hload : load.perform w = (.ok s, { w with disk := d })) {s' : Settings} {value : Json}
    (hchange : s.change key word = .ok (s', value)) :
    ∃ r v, (setSetting c key word).perform w = (r, v) ∧ SetEnd c key word w r v := by
  have hloads : Loads w s := by rw [Loads, hload]
  have htried : Tried w { w with disk := d } := .made hd
  rw [setSetting, perform_bind_ok hload, hchange]
  dsimp only
  rcases save_cases (of_change hloads.distinct hchange).1 { w with disk := d } with
    ⟨-, v, hsave, hsaved⟩ | ⟨hcannot, e, v, hsave, hbarred⟩
  · have hsaved' : Saved s' w v := ⟨htried.continues.trans hsaved.continues, hsaved.loads, hsaved.there⟩
    have hspeaks := c.success_speaks (notice key value)
    rw [perform_bind_ok hsave]
    cases htext : c.successText? (notice key value) with
    | some a =>
      rw [htext] at hspeaks
      exact ⟨_, _, hspeaks v, .said hloads hchange (hsaved'.said _) (by rw [htext]; rfl)⟩
    | none =>
      rw [htext] at hspeaks
      obtain ⟨e, said, hcrash⟩ := hspeaks
      exact ⟨_, _, hcrash v, .unsaid hloads hchange (hsaved'.said _) htext⟩
  · rw [perform_bind_error hsave]
    refine ⟨_, _, rfl, .refused Int.one_ne_zero (.of_made hd hbarred) fun _ _ _ _ _ => ?_⟩
    rwa [savable_made hd] at hcannot

end

theorem setSetting_ends (c : Console) (key word : String) (w : Session) :
    ∃ r v, (setSetting c key word).perform w = (r, v) ∧ SetEnd c key word w r v := by
  cases hd : w.disk.makeFolders (folderName w) with
  | error f =>
    have hno (s : Settings) (h : Loads w s) : False := by
      obtain ⟨d, hd', -⟩ := loads_iff.1 h
      rw [hd] at hd'
      cases hd'
    rw [setSetting, perform_bind_error (perform_load_error hd)]
    exact ⟨_, _, rfl, .refused Int.one_ne_zero (.barred hd) fun s _ _ h => absurd h (hno s)⟩
  | ok d =>
    rcases load_cases hd with ⟨s, hfound, hload⟩ | ⟨hno, e, he, hload⟩
    · cases hchange : s.change key word with
      | error message => exact setSetting_refused c hd hload hchange
      | ok changed => exact setSetting_taken c hd hload hchange
    · rw [setSetting, perform_bind_error hload]
      refine ⟨_, _, rfl, .refused ?_ (.made hd) fun s _ _ h => absurd (h.found hd) (hno s)⟩
      rcases he with ⟨e, rfl⟩ | ⟨message, rfl⟩
      · exact Int.one_ne_zero
      · exact Int.one_ne_zero

/-- What is said of a change can be said. -/
def Sayable (p : ProgramOptions) (key word : String) (w : Session) : Prop :=
  ∀ s s' value, Loads w s → s.change key word = .ok (s', value) →
    ((Program.consoleFor p w).successText? (notice key value)).isSome

/-- What a run that is to change a setting comes to. -/
structure SetOutcome (p : ProgramOptions) (key word : String) (w : Session) (e : Int × Session) : Prop where
  /-- A run that succeeds has changed one setting and nothing else. -/
  changed : e.1 = 0 → ∃ s s' value, Loads w s ∧ s.change key word = .ok (s', value) ∧ Loads e.2 s' ∧
    ∀ path, Json.leaf s'.members path = if path = Text.splitAt '.' key then .ok value else Json.leaf s.members path
  /-- A run that fails has changed nothing. -/
  refused : e.1 ≠ 0 → Sayable p key word w → kept e.2 = kept w
  /-- A run succeeds where there is a change to be kept. -/
  succeeds : Savable w → Sayable p key word w → (∃ s changed, Loads w s ∧ s.change key word = .ok changed) → e.1 = 0

section
variable {args : List String} {p : ProgramOptions} {key word : String} {w : Session}

/-- A run begins with the session before it. -/
theorem continues_logging (w : Session) (logging : Bool) : Continues w { w with logging } := ⟨_, _, _, _, _, rfl⟩

theorem loads_logging {logging : Bool} {s : Settings} : Loads { w with logging } s ↔ Loads w s := by
  have hback : Continues { w with logging } w := ⟨_, _, _, _, _, rfl⟩
  exact ⟨(hback.spares rfl).loads s, ((continues_logging w logging).spares rfl).loads s⟩

theorem run_set_outcome (hstamp : '/' ∉ w.stamp.toList) (h : CallsSet args p key word) :
    SetOutcome p key word w (Program.run args w) ∧ Continues w (Program.run args w).2 ∧
      (Sound w → Sound (Program.run args w).2) := by
  obtain ⟨c, hc, hrun⟩ := run_set h w
  have hfirst := continues_logging w p.verbose
  rw [hrun]
  obtain ⟨r, v, hperform, hend⟩ := setSetting_ends c key word { w with logging := p.verbose }
  cases hend with
  | @said s s' value v hload hchange hsaved htext =>
    rw [loads_logging] at hload
    obtain ⟨-, old, -, -, hleaf⟩ := of_change hload.distinct hchange
    rw [Program.ending_ok hperform]
    exact ⟨{
      changed := fun _ => ⟨s, s', value, hload, hchange, hsaved.loads, hleaf⟩
      refused := fun hne => absurd rfl hne
      succeeds := fun _ _ _ => rfl }, hfirst.trans hsaved.continues, fun _ => .inr ⟨s', hsaved.loads⟩⟩
  | @unsaid s s' value v e hload hchange hsaved htext =>
    rw [loads_logging] at hload
    have hmute (hsayable : Sayable p key word w) : False := by
      have hsome := hsayable s s' value hload hchange
      rw [← hc, htext] at hsome
      cases hsome
    have hstamp' := (hfirst.trans hsaved.continues).stamp ▸ hstamp
    obtain ⟨hends, htried⟩ := ending_tried (c := c) hstamp' hperform Int.one_ne_zero hsaved.tried
    exact ⟨{
      changed := fun hzero => absurd hzero hends
      refused := fun _ hsayable => (hmute hsayable).elim
      succeeds := fun _ hsayable _ => (hmute hsayable).elim },
      hfirst.trans (hsaved.continues.trans htried.continues), fun _ => .inr ⟨s', htried.spares.loads s' hsaved.loads⟩⟩
  | @refused stop v hcode htried hno =>
    have hstamp' := (hfirst.trans htried.continues).stamp ▸ hstamp
    obtain ⟨hends, htried⟩ := ending_tried (c := c) hstamp' hperform hcode htried
    have hspares := (hfirst.spares rfl).trans htried.spares
    have hcannot : Savable w → ¬ ∃ s changed, Loads w s ∧ s.change key word = .ok changed :=
      fun hcan ⟨s, changed, hload, hchange⟩ => hno s changed.1 changed.2 (loads_logging.2 hload) hchange hcan
    exact ⟨{
      changed := fun hzero => absurd hzero hends
      refused := fun _ _ => hspares.kept
      succeeds := fun hcan _ hchange => absurd hchange (hcannot hcan) }, hfirst.trans htried.continues, hspares.sound⟩

end

/-! ## Resetting -/

/-- The answer that the first of so many lines gives that is one. -/
def replyUpTo : Nat → List Char → Option Bool
  | 0, _ => none
  | n + 1, cs =>
    if cs.isEmpty then none
    else (answer? (String.ofList (cs.takeWhile (· != '\n')))).or (replyUpTo n ((cs.dropWhile (· != '\n')).drop 1))

/-- What the input says to the question whether everything is to be reset, if it answers it. -/
def reply (input : String) : Option Bool := replyUpTo (input.length + 1) input.toList

/-- Whether everything is to be reset: that is asked unless it is forced. -/
def agreement (p : ProgramOptions) (w : Session) : Option Bool := if p.force then some true else reply w.stdin

/-- A line of the input that is an answer is the reply if it is the first one. -/
theorem reply_line {line : String} {b : Bool} (hline : '\n' ∉ line.toList) (hanswer : answer? line = some b)
    (rest : String) : reply (line ++ "\n" ++ rest) = some b := by
  have htext : (line ++ "\n" ++ rest).toList = line.toList ++ '\n' :: rest.toList := by simp
  have hfirst : (line.toList ++ '\n' :: rest.toList).takeWhile (· != '\n') = line.toList := by
    have hall : ∀ c ∈ line.toList, (c != '\n') = true := fun c hc => bne_iff_ne.2 fun he => hline (he ▸ hc)
    rw [List.takeWhile_append_of_pos hall]
    simp
  rw [reply, replyUpTo, htext, hfirst, String.ofList_toList, hanswer]
  simp

theorem perform_abort {α : Type} (w : Session) :
    (abort : Act α).perform w = (.error (.ended 1), { w with stderr := w.stderr ++ "Aborted.\n" }) := rfl

theorem askUpTo_ends (n : Nat) (w : Session) :
    ∃ v, (askUpTo n).perform w = ((replyUpTo n w.stdin.toList).elim (.error (.ended 1)) .ok, v) ∧
      Continues w v ∧ v.disk = w.disk := by
  induction n generalizing w with
  | zero => exact ⟨_, perform_abort w, ⟨_, _, _, _, _, rfl⟩, rfl⟩
  | succ n ih =>
    have hout : (out question).perform w = (.ok (), { w with stdout := w.stdout ++ question }) := rfl
    rw [askUpTo, perform_bind_ok hout, replyUpTo]
    cases hempty : w.stdin.toList.isEmpty with
    | true =>
      have hline : line?.perform { w with stdout := w.stdout ++ question } =
          (.ok none, { w with stdout := w.stdout ++ question }) := by
        rw [line?, perform_bind_ok (perform_session _)]
        simp only [hempty, if_true]
        rfl
      rw [perform_bind_ok hline]
      exact ⟨_, perform_abort _, ⟨_, _, _, _, _, rfl⟩, rfl⟩
    | false =>
      -- The rest of the input is asked about in the session behind the line.
      have hline : line?.perform { w with stdout := w.stdout ++ question } =
          (.ok (some (String.ofList (w.stdin.toList.takeWhile (· != '\n')))), { w with
            stdin := String.ofList ((w.stdin.toList.dropWhile (· != '\n')).drop 1), stdout := w.stdout ++ question }) := by
        rw [line?, perform_bind_ok (perform_session _)]
        simp only [hempty]
        rfl
      rw [perform_bind_ok hline]
      dsimp only
      simp only [Bool.false_eq_true, if_false]
      cases hanswer : answer? (String.ofList (w.stdin.toList.takeWhile (· != '\n'))) with
      | some b => exact ⟨_, rfl, ⟨_, _, _, _, _, rfl⟩, rfl⟩
      | none =>
        obtain ⟨v, hask, hv, hdisk⟩ := ih { w with
          stdin := String.ofList ((w.stdin.toList.dropWhile (· != '\n')).drop 1),
          stdout := w.stdout ++ question ++ "Error: invalid input\n" }
        rw [String.toList_ofList] at hask
        exact ⟨v, hask, Continues.trans ⟨_, _, _, _, _, rfl⟩ hv, hdisk⟩

theorem confirmed_ends (w : Session) :
    ∃ v, confirmed.perform w = ((reply w.stdin).elim (.error (.ended 1)) .ok, v) ∧ Continues w v ∧ v.disk = w.disk := by
  rw [confirmed, perform_bind_ok (perform_session w)]
  exact askUpTo_ends _ w

theorem agreed_ends (p : ProgramOptions) (w : Session) :
    ∃ v, (if p.force then pure true else confirmed : Act Bool).perform w =
        ((agreement p w).elim (.error (.ended 1)) .ok, v) ∧ Continues w v ∧ v.disk = w.disk := by
  unfold agreement
  split
  · exact ⟨w, rfl, .refl w, rfl⟩
  · exact confirmed_ends w

/-- How an attempt to reset the settings ends. -/
inductive ResetEnd (p : ProgramOptions) (w : Session) : Except Stop Unit → Session → Prop
  | reset {v : Session} (hagreed : agreement p w = some true) (hsaved : Saved {} w v) : ResetEnd p w (.ok ()) v
  | barred {v : Session} {e : Crash} (hagreed : agreement p w = some true) (hcannot : ¬ Savable w) (htried : Tried w v) :
    ResetEnd p w (.error (.crashed e)) v
  | declined {v : Session} (hagreed : agreement p w = some false) (hrun : Continues w v) (hdisk : v.disk = w.disk) :
    ResetEnd p w (.ok ()) v
  | unanswered {v : Session} (hagreed : agreement p w = none) (hrun : Continues w v) (hdisk : v.disk = w.disk) :
    ResetEnd p w (.error (.ended 1)) v

theorem resetSettings_eq (c : Console) (force : Bool) :
    resetSettings c force = (if force then pure true else confirmed) >>= fun agreed =>
      if agreed then do
        Settings.save {}
        c.success "Configuration reset to defaults."
      else c.info "Cancelled." := by
  cases force <;> rfl

theorem resetSettings_ends (c : Console) (p : ProgramOptions) (w : Session) :
    ∃ r v, (resetSettings c p.force).perform w = (r, v) ∧ ResetEnd p w r v := by
  obtain ⟨v, hperform, hrun, hdisk⟩ := agreed_ends p w
  rw [resetSettings_eq]
  cases hagreed : agreement p w with
  | none =>
    rw [hagreed] at hperform
    exact ⟨_, _, perform_bind_error hperform _, .unanswered hagreed hrun hdisk⟩
  | some agreed =>
    rw [hagreed] at hperform
    rw [perform_bind_ok hperform]
    cases agreed with
    | false =>
      have hspeaks := c.info_speaks "Cancelled."
      rw [c.infoText?_of_not_mem (by decide)] at hspeaks
      exact ⟨_, _, hspeaks v, .declined hagreed (hrun.trans ⟨_, _, _, _, _, rfl⟩) hdisk⟩
    | true =>
      rw [if_pos rfl]
      rcases save_cases (s := {}) List.nodup_nil v with ⟨-, u, hsave, hsaved⟩ | ⟨hcannot, e, u, hsave, htried⟩
      · have hspeaks := c.success_speaks "Configuration reset to defaults."
        rw [c.successText?_of_plain (by simp)] at hspeaks
        rw [perform_bind_ok hsave]
        exact ⟨_, _, hspeaks u, .reset hagreed ((hrun.saved hsaved).said _)⟩
      · rw [hrun.savable hdisk] at hcannot
        exact ⟨_, _, perform_bind_error hsave _, .barred hagreed hcannot (hrun.tried hdisk htried)⟩

/-- What a run that is to reset the settings comes to. -/
structure ResetOutcome (p : ProgramOptions) (w : Session) (e : Int × Session) : Prop where
  /-- If that is wanted the settings are the defaults, unless they cannot be saved. -/
  agreed : agreement p w = some true → e.1 = 0 ∧ Loads e.2 {} ∨ ¬ Savable w ∧ e.1 ≠ 0 ∧ kept e.2 = kept w
  declined : agreement p w = some false → e.1 = 0 ∧ kept e.2 = kept w
  unanswered : agreement p w = none → e.1 = 1 ∧ kept e.2 = kept w

theorem run_reset_outcome {args : List String} {p : ProgramOptions} {w : Session} (hstamp : '/' ∉ w.stamp.toList)
    (h : CallsReset args p) :
    ResetOutcome p w (Program.run args w) ∧ Continues w (Program.run args w).2 ∧
      (Sound w → Sound (Program.run args w).2) := by
  obtain ⟨c, hrun⟩ := run_reset h w
  have hfirst := continues_logging w p.verbose
  rw [hrun]
  obtain ⟨r, v, hperform, hend⟩ := resetSettings_ends c p { w with logging := p.verbose }
  cases hend with
  | reset hagreed hsaved =>
    change agreement p w = _ at hagreed
    rw [Program.ending_ok hperform]
    exact ⟨⟨fun _ => .inl ⟨rfl, hsaved.loads⟩, by simp [hagreed], by simp [hagreed]⟩, hfirst.trans hsaved.continues,
      fun _ => .inr ⟨{}, hsaved.loads⟩⟩
  | barred hagreed hcannot htried =>
    change agreement p w = _ at hagreed
    have hstamp' := (hfirst.trans htried.continues).stamp ▸ hstamp
    obtain ⟨hends, htried⟩ := ending_tried (c := c) hstamp' hperform Int.one_ne_zero htried
    have hspares := (hfirst.spares rfl).trans htried.spares
    exact ⟨⟨fun _ => .inr ⟨hcannot, hends, hspares.kept⟩, by simp [hagreed], by simp [hagreed]⟩,
      hfirst.trans htried.continues, hspares.sound⟩
  | declined hagreed hcontinues hdisk =>
    change agreement p w = _ at hagreed
    have hspares := (hfirst.trans hcontinues).spares hdisk
    rw [Program.ending_ok hperform]
    exact ⟨⟨by simp [hagreed], fun _ => ⟨rfl, hspares.kept⟩, by simp [hagreed]⟩, hfirst.trans hcontinues, hspares.sound⟩
  | unanswered hagreed hcontinues hdisk =>
    change agreement p w = _ at hagreed
    have hspares := (hfirst.trans hcontinues).spares hdisk
    rw [Program.ending_ended hperform]
    exact ⟨⟨by simp [hagreed], by simp [hagreed], fun _ => ⟨rfl, hspares.kept⟩⟩, hfirst.trans hcontinues, hspares.sound⟩

/-! ## Saving -/

/-- What saving settings comes to. -/
structure SaveOutcome (s : Settings) (w : Session) (e : Except Stop Unit × Session) : Prop where
  saved : e.1 = .ok () → Loads e.2 s
  barred : e.1 ≠ .ok () → kept e.2 = kept w
  succeeds : Savable w → e.1 = .ok ()

theorem save_outcome {s : Settings} (hs : DistinctKeys s.metaSchemas) (w : Session) :
    SaveOutcome s w ((Settings.save s).perform w) ∧ Continues w ((Settings.save s).perform w).2 ∧
      (Sound w → Sound ((Settings.save s).perform w).2) := by
  rcases save_cases hs w with ⟨-, v, hsave, hsaved⟩ | ⟨hcannot, e, v, hsave, htried⟩
  · rw [hsave]
    exact ⟨⟨fun _ => hsaved.loads, fun h => absurd rfl h, fun _ => rfl⟩, hsaved.continues, fun _ => .inr ⟨s, hsaved.loads⟩⟩
  · rw [hsave]
    exact ⟨⟨nofun, fun _ => htried.spares.kept, fun hcan => absurd hcan hcannot⟩, htried.continues, htried.spares.sound⟩

/-! ## One step after another -/

/-- The session in which another run begins. -/
def next (w : Session) (stdin tag stamp : String) (terminal : Bool) : Session :=
  { w with stdin, tag, stamp, terminal, stdout := "", stderr := "" }

/-- What may happen to the settings of the user. -/
inductive Step : Session → Session → Prop
  | begin (w : Session) (stdin tag stamp : String) (terminal : Bool) (hstamp : '/' ∉ stamp.toList) :
    Step w (next w stdin tag stamp terminal)
  | save (w : Session) (s : Settings) (hs : DistinctKeys s.metaSchemas) : Step w ((Settings.save s).perform w).2
  | set {args : List String} {p : ProgramOptions} {key word : String} (w : Session) (h : CallsSet args p key word) :
    Step w (Program.run args w).2
  | reset {args : List String} {p : ProgramOptions} (w : Session) (h : CallsReset args p) : Step w (Program.run args w).2

/-- No step leaves settings that are not loaded. -/
theorem Step.sound {w v : Session} (h : Step w v) (hstamp : '/' ∉ w.stamp.toList) (hw : Sound w) :
    '/' ∉ v.stamp.toList ∧ Sound v := by
  cases h with
  | begin _ _ _ _ _ hstamp' =>
    refine ⟨hstamp', hw.imp id ?_⟩
    rintro ⟨s, hs⟩
    obtain ⟨d, hd, hfound⟩ := loads_iff.1 hs
    exact ⟨s, loads_iff.2 ⟨d, hd, hfound⟩⟩
  | save _ s hs =>
    obtain ⟨-, hrun, hsound⟩ := save_outcome hs w
    exact ⟨hrun.stamp ▸ hstamp, hsound hw⟩
  | set _ h =>
    obtain ⟨-, hrun, hsound⟩ := run_set_outcome hstamp h
    exact ⟨hrun.stamp ▸ hstamp, hsound hw⟩
  | reset _ h =>
    obtain ⟨-, hrun, hsound⟩ := run_reset_outcome hstamp h
    exact ⟨hrun.stamp ▸ hstamp, hsound hw⟩

theorem sound_steps {w v : Session} (h : Relation.ReflTransGen Step w v) (hstamp : '/' ∉ w.stamp.toList) (hw : Sound w) :
    '/' ∉ v.stamp.toList ∧ Sound v := by
  induction h with
  | refl => exact ⟨hstamp, hw⟩
  | tail _ hstep ih => exact hstep.sound ih.1 ih.2

theorem sound_bare {stdin : String} : Sound (bare stdin) := .inl rfl

theorem loads_bare : Loads bare {} := by rw [Loads, load_bare]

theorem savable_bare : Savable bare := by
  have hparts : allParts "/specshift/.config.json..tmp" = ["specshift", ".config.json..tmp"] := by cbv
  have hroot : "/specshift/.config.json..tmp".startsWith "/" = true := by simp
  have hsize : "/specshift/.config.json..tmp".utf8ByteSize = 28 := rfl
  have hpart : "specshift".utf8ByteSize = 9 := rfl
  have hname : ".config.json..tmp".utf8ByteSize = 17 := rfl
  have hsource : bare.disk.locate "/specshift/.config.json..tmp" = .ok ["specshift", ".config.json..tmp"] := by
    simp [Disk.locate, hparts, hroot, hsize, hpart, hname, Disk.walk, Disk.step, Disk.longestName, Disk.longestPart,
      Disk.isFolderAt, bare]
  have hfolder : PathName.text ⟨"/", ["specshift"]⟩ = "/specshift" := by cbv
  have hfile : (PathName.child ⟨"/", ["specshift"]⟩ "config.json").text = "/specshift/config.json" := by cbv
  have htemporary : Disk.placeText (["specshift"] ++ [Disk.temporaryName (PathName.child ⟨"/", ["specshift"]⟩ "config.json") ""]) =
      "/specshift/.config.json..tmp" := by cbv
  have hmake : bare.disk.makeFolders (folderName bare) = .ok bare.disk := makeFolders_bare
  refine (savable_iff hmake).2 ⟨bare.disk, ["specshift"], ?_, ?_,
    ⟨["specshift", ".config.json..tmp"], ?_⟩, ["specshift", "config.json"], ?_, ?_, rfl⟩
  · rw [PathName.parent_child, hmake]
  · rw [PathName.parent_child, folderName_bare, hfolder, locate_bare_folder]
  · rw [folderName_bare]
    exact htemporary ▸ hsource
  · rw [folderName_bare, hfile, locate_bare_user]
  · rw [folderName_bare]
    exact ⟨rfl, by decide⟩

/-- Arguments that ask for documents in YAML, and for no colours. -/
def yamlArguments : List String := ["--no-color", "config", "set", "output.document", "yaml"]

theorem callsSet_yaml : CallsSet yamlArguments { noColour := true } "output.document" "yaml" := by
  refine ⟨["output.document", "yaml"], ⟨["set", "output.document", "yaml"], ?_, ?_⟩, ?_⟩
  · unfold Program.Calls Form.Takes
    cbv
  · exact group.takes_command () (by decide) _
  · exact setForm.takes_operands () (by decide)

theorem callsReset_plain : CallsReset ["config", "reset"] {} :=
  ⟨[], ⟨["reset"], Program.group.takes_command {} (by decide) _, group.takes_command () (by decide) _⟩,
    resetForm.takes_operands () nofun⟩

theorem change_yaml : ({} : Settings).change "output.document" "yaml" =
    .ok ({ output := { document := "yaml" } }, .text "yaml") := by
  have hkeys : Text.splitAt '.' "output.document" = ["output", "document"] := by cbv
  have hold : Json.leaf ({} : Settings).members (Text.splitAt '.' "output.document") = .ok (.text "json") := by
    rw [hkeys]
    rfl
  exact change_eq List.nodup_nil hold rfl (by rw [hkeys]; rfl)

theorem callsSet_bracket : CallsSet ["config", "set", "output.format", "[/x]"] {} "output.format" "[/x]" :=
  ⟨["output.format", "[/x]"], ⟨["set", "output.format", "[/x]"], Program.group.takes_command {} (by decide) _,
    group.takes_command () (by decide) _⟩, setForm.takes_operands () (by decide)⟩

theorem change_bracket : ({} : Settings).change "output.format" "[/x]" =
    .ok ({ output := { format := "[/x]" } }, .text "[/x]") := by
  have hkeys : Text.splitAt '.' "output.format" = ["output", "format"] := by cbv
  have hold : Json.leaf ({} : Settings).members (Text.splitAt '.' "output.format") = .ok (.text "auto") := by
    rw [hkeys]
    rfl
  exact change_eq List.nodup_nil hold rfl (by rw [hkeys]; rfl)

end ApiProjection.Command.Config
