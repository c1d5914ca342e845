import ApiProjection.Command.Program
import ApiProjection.Proofs.Command.Steps
import ApiProjection.Proofs.Console.Voice
import ApiProjection.Proofs.Settings.Layers
/-!
# Runs of the program

A run reads its arguments, makes a console and does what a command does. What the command does decides how the run
ends: with the code that it ends itself with, or, where it stops unexpectedly, with the code of a general failure
and with a log as the only new file.

* `Command.Program.run_eq`: a run as what its command does.
* `Command.Program.ending_crashed`: how it ends where the command stops unexpectedly.
-/
namespace ApiProjection

open Act Session

/-! ## Arguments -/

namespace Command

/-- Arguments that say options and operands, and ask for nothing else. -/
def Form.Takes {σ : Type} (f : Form σ) (mixed : Bool) (start : σ) (args : List String) (options : σ)
    (operands : List String) : Prop :=
  gather f.allSwitches mixed none ⟨start, [], none⟩ args = .ok ⟨options, operands, none⟩

theorem isOption_of_head {arg : String} (h : arg.toList.head? ≠ some '-') : Switch.isOption arg = false := by
  have hdash : arg.startsWith "-" = false := by
    rw [Bool.eq_false_iff, ne_eq, String.startsWith_string_iff]
    rintro ⟨rest, hrest⟩
    rw [← hrest] at h
    exact h rfl
  rw [Switch.isOption, hdash, Bool.false_and]

/-- The first argument that does not begin with a dash is the name of a command. -/
theorem Form.takes_command {σ : Type} (f : Form σ) (options : σ) {name : String} (h : name.toList.head? ≠ some '-')
    (rest : List String) : f.Takes false options (name :: rest) options (name :: rest) := by
  have hend : name ≠ "--" := fun he => h (by rw [he]; decide)
  simp [Takes, gather, hend, isOption_of_head h]

/-- Arguments that do not begin with a dash are operands. -/
theorem Form.takes_operands {σ : Type} (f : Form σ) (options : σ) {args : List String}
    (h : ∀ arg ∈ args, arg.toList.head? ≠ some '-') : f.Takes true options args options args := by
  have hgather (before : List String) :
      gather f.allSwitches true none ⟨options, before, none⟩ args = .ok ⟨options, before ++ args, none⟩ := by
    induction args generalizing before with
    | nil => simp [gather]
    | cons arg args ih =>
      have hhead := h arg List.mem_cons_self
      have hend : arg ≠ "--" := fun he => hhead (by rw [he]; decide)
      have hrest := ih (fun a ha => h a (List.mem_cons_of_mem _ ha)) (before ++ [arg])
      rw [List.append_assoc, List.singleton_append] at hrest
      simp [gather, hend, isOption_of_head hhead, hrest]
  exact hgather []

theorem Form.Takes.perform_gathered {σ : Type} {f : Form σ} {mixed : Bool} {start options : σ}
    {args operands : List String} (h : f.Takes mixed start args options operands) (w : Session) :
    (f.gathered mixed start args).perform w = (.ok (options, operands), w) := by
  rw [Form.gathered, h]
  rfl

theorem Form.Takes.perform_read {σ : Type} {f : Form σ} {start options : σ} {args operands : List String}
    (h : f.Takes true start args options operands) (w : Session) :
    (f.read start args).perform w = (.ok (options, operands), w) := h.perform_gathered w

theorem Form.Takes.perform_readGroup {σ : Type} {f : Form σ} {start options : σ} {args rest : List String} {name : String}
    (h : f.Takes false start args options (name :: rest)) (w : Session) :
    (f.readGroup start args).perform w = (.ok (options, name, rest), w) := by
  have hargs : args.isEmpty = false := by
    cases args with
    | nil => cases h
    | cons => rfl
  rw [Form.readGroup, hargs]
  simp only [Bool.false_eq_true, if_false]
  rw [perform_bind_ok (h.perform_gathered w)]
  rfl

/-- Arguments that call a command of the program. -/
def Program.Calls (args : List String) (o : ProgramOptions) (name : String) (rest : List String) : Prop :=
  group.Takes false {} args o (name :: rest)

end Command

/-! ## Consoles -/

/-- Whether the environment asks for no colours. -/
def Session.refusesColour (w : Session) : Bool :=
  (w.env.lookup "NO_COLOR").isSome || w.env.lookup "TERM" == some "dumb"

/-- The console of a run whose output is no terminal. -/
def Command.Program.consoleFor (o : ProgramOptions) (w : Session) : Console where
  format := if o.json then .json else .plain
  plainMessages := o.noColour || w.refusesColour
  quiet := o.quiet
  verbose := o.verbose
  outputFile := o.outputFile

/-- The console of a run; on a terminal its format may be another. -/
theorem Command.Program.perform_console (o : ProgramOptions) (w : Session) :
    ∃ format, (w.terminal = false → format = (consoleFor o w).format) ∧
      (console o).perform w = (.ok { consoleFor o w with format }, w) := by
  have hrefuses : Console.refusesColour.perform w = (.ok w.refusesColour, w) := by
    rw [Console.refusesColour, perform_bind_ok (perform_env? w _), perform_bind_ok (perform_env? w _)]
    rfl
  rw [console, Console.make, perform_bind_ok hrefuses, perform_bind_ok (perform_session w), consoleFor]
  refine ⟨_, fun hterminal => ?_, rfl⟩
  rw [hterminal]
  cases o.json <;> cases o.plain <;> rfl

/-! ## Logs of unexpected errors -/

namespace Session

/-- The name of the folder for data. -/
def dataName (w : Session) : PathName :=
  if w.standardFolders then (Settings.baseName w "XDG_DATA_HOME" [".local", "share"]).child Settings.appName
  else ((homeName w).child ("." ++ Settings.appName)).child "logs"

/-- The name of the log of an unexpected error. -/
def logPath (w : Session) : String := ((w.dataName.child "logs").child s!"crash-{w.stamp}.log").text

/-- No file of a session differs from another but the log of an unexpected error. -/
def Logged (w w' : Session) : Prop := ∀ p, w'.disk.locate w.logPath ≠ .ok p → w'.disk.fileAt? p = w.disk.fileAt? p

variable {w w' v : Session}

theorem Kept.logPath (h : Kept w w') : w'.logPath = w.logPath := by
  obtain ⟨d, stdin, said, -, rfl⟩ := h
  rfl

theorem Kept.fileAt? (h : Kept w w') (p : Place) : w'.disk.fileAt? p = w.disk.fileAt? p := h.disk.fileAt? p

theorem Logged.of_kept (h : Kept w v) (h' : Logged v w') : Logged w w' := fun p hp =>
  (h' p (by rwa [h.logPath])).trans (h.fileAt? p)

end Session

namespace Command.Program

theorem perform_madeFolder (p : PathName) (w : Session) :
    (∃ d, w.disk.makeFolders p = .ok d ∧ (Settings.madeFolder p).perform w = (.ok p, { w with disk := d })) ∨
      ∃ c, (Settings.madeFolder p).perform w = (.error (.crashed c), w) := by
  unfold Settings.madeFolder
  cases h : w.disk.makeFolders p with
  | ok d =>
    refine .inl ⟨d, rfl, ?_⟩
    rw [perform_bind_ok (perform_alter_ok w h)]
    rfl
  | error e => exact .inr ⟨_, perform_bind_error (perform_alter_error w h) _⟩

theorem dataFolder_eq (w : Session) : Settings.dataFolder.perform w = (Settings.madeFolder w.dataName).perform w := by
  rw [Settings.dataFolder, perform_bind_ok (perform_session w), dataName]
  split
  · rw [perform_bind_ok (Settings.perform_standardBase w _ _)]
  · rw [perform_bind_ok (perform_home w)]

/-- Writing a log writes that file alone, if it does not stop unexpectedly itself. -/
theorem writeLog_noted (e : Crash) (w : Session) :
    ∃ d r, w.disk.Noted w.logPath d ∧ (writeLog e).perform w = (r, { w with disk := d }) ∧
      ((∃ name, r = .ok name) ∨ ∃ c, r = .error (.crashed c)) := by
  unfold writeLog
  rcases perform_madeFolder w.dataName w with ⟨d, hd, h⟩ | ⟨c, h⟩
  · rw [perform_bind_ok ((dataFolder_eq w).trans h)]
    rcases perform_madeFolder (w.dataName.child "logs") { w with disk := d } with ⟨d', hd', h'⟩ | ⟨c, h'⟩
    · rw [perform_bind_ok h', perform_bind_ok (perform_session _)]
      have hgrown : w.disk.Grown d' := (Disk.makeFolders_grown hd).trans (Disk.makeFolders_grown hd')
      have hpath : (w.dataName.child "logs" |>.child s!"crash-{w.stamp}.log").text = w.logPath := rfl
      dsimp only
      rw [hpath]
      cases hwrite : d'.write w.logPath (Utf8.encode (e.line ++ "\n")) with
      | error o =>
        have hend := perform_alter_error (f := fun d => d.write w.logPath (Utf8.encode (e.line ++ "\n")))
          { w with disk := d' } hwrite
        exact ⟨d', _, .of_grown hgrown, perform_bind_error hend _, .inr ⟨_, rfl⟩⟩
      | ok d'' =>
        have hend := perform_alter_ok (f := fun d => d.write w.logPath (Utf8.encode (e.line ++ "\n")))
          { w with disk := d' } hwrite
        exact ⟨d'', _, ⟨d', hgrown, .inr ⟨_, hwrite⟩⟩, perform_bind_ok hend _, .inl ⟨_, rfl⟩⟩
    · exact ⟨d, _, .of_grown (Disk.makeFolders_grown hd), perform_bind_error h' _, .inr ⟨c, rfl⟩⟩
  · exact ⟨w.disk, _, .of_grown (.refl _), perform_bind_error ((dataFolder_eq w).trans h) _, .inr ⟨c, rfl⟩⟩

/-! ## Runs -/

/-- What a command of a run does stops unexpectedly. -/
def Stumbles (o : ProgramOptions) (name : String) (args : List String) (w : Session) : Prop :=
  ∃ e v, (command (consoleFor o w) o name args).perform { w with logging := o.verbose } = (.error (.crashed e), v)

/-- The end of a run that does something. -/
def ending (c : Console) (x : Act Unit) (w : Session) : Int × Session :=
  (code ((guarded c x).perform w).1, ((guarded c x).perform w).2)

section
variable {c : Console} {x y : Act Unit} {w v : Session}

theorem ending_congr (h : x.perform w = y.perform w) : ending c x w = ending c y w := by
  rw [ending, ending, guarded, guarded, perform_tryCatch, perform_tryCatch, h]

theorem ending_ok (h : x.perform w = (.ok (), v)) : ending c x w = (0, v) := by
  rw [ending, guarded, perform_tryCatch, h]
  rfl

theorem ending_ended {n : Int} (h : x.perform w = (.error (.ended n), v)) : ending c x w = (n, v) := by
  rw [ending, guarded, perform_tryCatch, h]
  rfl

/-- An unexpected error is put down in a log, and the run ends as a general failure. -/
theorem ending_crashed {e : Crash} (h : x.perform w = (.error (.crashed e), v)) :
    ∃ d said, v.disk.Noted v.logPath d ∧ ending c x w = (1, { v with disk := d, stderr := v.stderr ++ said }) := by
  obtain ⟨d, r, hd, hlog, hends⟩ := writeLog_noted e v
  rw [ending, guarded, perform_tryCatch, h]
  dsimp only
  rcases hends with ⟨name, rfl⟩ | ⟨c', rfl⟩
  · rw [perform_bind_ok hlog]
    have hspeaks := c.error_speaks s!"Unexpected error. Debug log: {name}"
    cases htext : c.errorText? s!"Unexpected error. Debug log: {name}" with
    | some a =>
      rw [htext] at hspeaks
      rw [perform_bind_ok (hspeaks _)]
      exact ⟨d, a, hd, rfl⟩
    | none =>
      rw [htext] at hspeaks
      obtain ⟨c', said, hcrash⟩ := hspeaks
      rw [perform_bind_error (hcrash _)]
      exact ⟨d, said, hd, rfl⟩
  · rw [perform_bind_error hlog]
    exact ⟨d, "", hd, by rw [String.append_empty]; rfl⟩

/-- Any failure but a code of success ends a run with a code of failure, and nothing but a log may be written. -/
theorem ending_error {stop : Stop} (h : x.perform w = (.error stop, v)) (hcode : code (.error stop) ≠ 0) :
    (ending c x w).1 ≠ 0 ∧
      ∃ d said, v.disk.Noted v.logPath d ∧ (ending c x w).2 = { v with disk := d, stderr := v.stderr ++ said } := by
  have hnoted : v.disk.Noted v.logPath v.disk := .of_grown (.refl _)
  cases stop with
  | failed f =>
    obtain ⟨n, said, hn, hreport⟩ : ∃ n said, n ≠ 0 ∧ ending c x w = (n, { v with stderr := v.stderr ++ said }) := by
      have hguarded : (guarded c x).perform w = (c.report f : Act Unit).perform v := by
        rw [guarded, perform_tryCatch, h]
      rw [ending, hguarded]
      cases hws : c.warningsText? f.warnings with
      | none =>
        obtain ⟨e, said, hmute⟩ := c.perform_report_mute (α := Unit) (.inl hws) v
        rw [hmute]
        exact ⟨1, said, Int.one_ne_zero, rfl⟩
      | some warned =>
        cases herror : c.errorText? f.message with
        | none =>
          obtain ⟨e, said, hmute⟩ := c.perform_report_mute (α := Unit) (.inr herror) v
          rw [hmute]
          exact ⟨1, said, Int.one_ne_zero, rfl⟩
        | some told =>
          rw [c.perform_report hws herror]
          exact ⟨_, warned ++ told, hcode, by simp only [String.append_assoc]; rfl⟩
    rw [hreport]
    exact ⟨hn, v.disk, said, hnoted, rfl⟩
  | crashed e =>
    obtain ⟨d, said, hd, hend⟩ := ending_crashed (c := c) h
    rw [hend]
    exact ⟨Int.one_ne_zero, d, said, hd, rfl⟩
  | ended n =>
    rw [ending_ended h]
    exact ⟨hcode, v.disk, "", hnoted, by rw [String.append_empty]⟩

/-- A run does what its command does, on the console that its options ask for. -/
theorem run_performs {args rest : List String} {o : ProgramOptions} {name : String} (h : Calls args o name rest)
    (w : Session) :
    ∃ format, (w.terminal = false → format = (consoleFor o w).format) ∧ run args w =
      ending { consoleFor o w with format } (command { consoleFor o w with format } o name rest)
        { w with logging := o.verbose } := by
  obtain ⟨format, hformat, hconsole⟩ := perform_console o { w with logging := o.verbose }
  refine ⟨format, hformat, ?_⟩
  rw [run, execute, perform_bind_ok (Form.Takes.perform_readGroup h w)]
  dsimp only
  rw [perform_bind_ok (perform_change w _), perform_bind_ok hconsole]
  rfl

theorem run_eq {args rest : List String} {o : ProgramOptions} {name : String} (h : Calls args o name rest)
    (hterminal : w.terminal = false) :
    run args w = ending (consoleFor o w) (command (consoleFor o w) o name rest) { w with logging := o.verbose } := by
  obtain ⟨format, hformat, hrun⟩ := run_performs h w
  cases hformat hterminal
  exact hrun

end

end Command.Program
end ApiProjection
