import Mathlib
import ApiProjection.Proofs.Command.Bare
import ApiProjection.Proofs.Command.Program
import ApiProjection.Proofs.RoundTrip.LastLine
/-!
# The whole document or nothing

A run of the command that projects puts down the whole document or nothing: on the standard output, byte for byte, or
in the file that is named; what fails is reported after its warnings and puts down no file, and what ends unexpectedly
puts down a log alone. All of it is so where every message can be said. A message is marked up and what it holds is
not protected, so one that holds the end of a style that nothing begins stops the run, whatever had come of it.

* `Command.Project.run_outcome`: how every run ends.
* `Command.Project.missing_unreported`: a failure that is not reported since its message cannot be said.
-/
namespace ApiProjection.Command.Project

open Act Session

/-! ## What is to be written -/

/-- What a projection needs: the settings, the format of the document, the description and the validator. -/
def needs (o : ProjectOptions) (source : String) : Act (Settings × String × Api × Option Validator) := do
  let settings ← Settings.resolve o.overrides
  let format ← documentFormat settings
  let a ← Source.load source
  let v ← validator? settings o.metaSchema
  return (settings, format, a, v)

/-- What is to be written, and the version that it is in. -/
def written (x : Settings × String × Api × Option Validator) : Act (Traced String × String) := do
  let (settings, format, a, v) := x
  let r ← rendered a settings.target settings.strict v
  return (⟨if format = "yaml" then r.value.yaml else r.value.json, r.warnings⟩, settings.target)

/-- What is said before a source is projected. -/
def announcement (source target : String) : String := s!"Projecting {source} to OpenAPI {target}"

theorem prepare_eq (c : Console) (o : ProjectOptions) (source : String) :
    prepare c o source =
      needs o source >>= fun x => c.debug (announcement source x.1.target) >>= fun _ => written x := by
  unfold prepare needs written announcement
  simp only [bind_assoc, pure_bind]

/-- Without a word, what is to be written comes right from what is needed. -/
theorem prepare_silent (o : ProjectOptions) (source : String) : prepare {} o source = needs o source >>= written := by
  rw [prepare_eq]
  exact bind_congr fun x => pure_bind () fun _ => written x

theorem needs_modest (o : ProjectOptions) (source : String) : Modest (needs o source) :=
  (Settings.resolve_modest _).bind fun _ => (documentFormat_modest _).bind fun _ => (Source.load_modest _).bind fun _ =>
    (validator?_modest _ _).bind fun _ => .pure _

theorem written_modest (x : Settings × String × Api × Option Validator) : Modest (written x) :=
  (rendered_modest _ _ _ _).bind fun _ => .pure _

theorem prepare_modest (c : Console) (o : ProjectOptions) (source : String) : Modest (prepare c o source) := by
  rw [prepare_eq]
  exact (needs_modest o source).bind fun _ => (c.debug_speaks _).modest.bind fun _ => written_modest _

theorem target_of_resolve {o : Settings.Overrides} {w v : Session} {s : Settings}
    (h : (Settings.resolve o).perform w = (.ok s, v)) : ∃ t : Target, s.target = t.version := by
  have hends := Settings.resolve_ends o w
  rw [h] at hends
  cases hends with
  | resolved _ _ _ hs => exact hs.target.imp fun _ ht => ht.2

theorem target_of_needs {o : ProjectOptions} {source : String} {w : Session}
    {x : Settings × String × Api × Option Validator} (h : ((needs o source).perform w).1 = .ok x) :
    ∃ t : Target, x.1.target = t.version := by
  rcases hneeds : (needs o source).perform w with ⟨r, v⟩
  rw [hneeds] at h
  dsimp only at h
  subst h
  obtain ⟨s, _, hs, hrest⟩ := of_perform_bind_ok hneeds
  obtain ⟨_, _, -, hrest⟩ := of_perform_bind_ok hrest
  obtain ⟨_, _, -, hrest⟩ := of_perform_bind_ok hrest
  obtain ⟨_, _, -, hrest⟩ := of_perform_bind_ok hrest
  cases hrest
  exact target_of_resolve hs

/-- With messages on what happens, what is to be written is found out as without, unless they cannot be said. -/
theorem prepare_cases (c : Console) (o : ProjectOptions) (source : String) (w : Session) :
    (∃ v, (prepare c o source).perform w = (((prepare {} o source).perform w).1, v) ∧
      Same ((prepare {} o source).perform w).2 v) ∨
    (∃ t : Target, c.debugText? (announcement source t.version) = none) ∧
      ∃ e v, (prepare c o source).perform w = (.error (.crashed e), v) := by
  rw [prepare_silent, prepare_eq]
  rcases hneeds : (needs o source).perform w with ⟨e | x, u⟩
  · refine .inl ⟨u, ?_⟩
    rw [perform_bind_error hneeds, perform_bind_error hneeds]
    exact ⟨rfl, .refl u⟩
  · obtain ⟨t, ht⟩ := target_of_needs (congrArg Prod.fst hneeds)
    have hspeaks := c.debug_speaks (announcement source x.1.target)
    rw [perform_bind_ok hneeds, perform_bind_ok hneeds]
    cases htext : c.debugText? (announcement source x.1.target) with
    | some said =>
      rw [htext] at hspeaks
      rw [perform_bind_ok (hspeaks u)]
      have hsame : Same u { u with stderr := u.stderr ++ said } := ⟨_, u.logging, rfl⟩
      obtain ⟨hresult, hsame⟩ := (written_modest x).heedless _ _ hsame
      refine .inl ⟨_, Prod.ext ?_ rfl, hsame⟩
      generalize ((written x).perform u).1 = r at hresult
      generalize ((written x).perform { u with stderr := u.stderr ++ said }).1 = r' at hresult
      cases hresult with
      | ok h => rw [h]
      | error e => rfl
    | none =>
      rw [htext] at hspeaks
      obtain ⟨e, said, hcrash⟩ := hspeaks
      exact .inr ⟨⟨t, ht ▸ htext⟩, e, _, perform_bind_error (hcrash u) _⟩

/-- A console can say which source is projected. -/
def Announces (c : Console) (source : String) : Prop :=
  ∀ t : Target, (c.debugText? (announcement source t.version)).isSome

theorem Announces.prepare {c : Console} {o : ProjectOptions} {source : String} (h : Announces c source) (w : Session) :
    ∃ v, (Project.prepare c o source).perform w = (((Project.prepare {} o source).perform w).1, v) ∧
      Same ((Project.prepare {} o source).perform w).2 v := by
  rcases prepare_cases c o source w with hsame | ⟨⟨t, ht⟩, -⟩
  · exact hsame
  · have hsome := h t
    rw [ht] at hsome
    cases hsome

theorem prepare_mute {c : Console} {o : ProjectOptions} {source : String} {w v : Session} {x : Traced String × String}
    (h : ∀ t : Target, c.debugText? (announcement source t.version) = none)
    (hx : (prepare {} o source).perform w = (.ok x, v)) :
    ∃ e v, (prepare c o source).perform w = (.error (.crashed e), v) := by
  rw [prepare_silent] at hx
  obtain ⟨y, u, hneeds, -⟩ := of_perform_bind_ok hx
  obtain ⟨t, ht⟩ := target_of_needs (congrArg Prod.fst hneeds)
  have hspeaks := c.debug_speaks (announcement source y.1.target)
  rw [ht, h t] at hspeaks
  obtain ⟨e, said, hcrash⟩ := hspeaks
  rw [prepare_eq, perform_bind_ok hneeds, ht, perform_bind_error (hcrash u)]
  exact ⟨e, _, rfl⟩

/-- What is to be written is a rendering of the description in the version of the settings: that in YAML if they ask
for it, else that in JSON. -/
def Chosen (o : ProjectOptions) (source : String) (w : Session) (document : Traced String) (target : String) : Prop :=
  ∃ s u a u' v t r, (Settings.resolve o.overrides).perform w = (.ok s, u) ∧
    (Source.load source).perform u = (.ok a, u') ∧ ((validator? s o.metaSchema).perform u').1 = .ok v ∧
    s.target = Target.version t ∧ target = t.version ∧
    Api.projectTo t s.strict (v.map fun v => v.validate .never) a = ⟨.rendered r, document.warnings⟩ ∧
    (Text.lower s.output.document = "json" ∧ document.value = r.json ∨
      Text.lower s.output.document = "yaml" ∧ document.value = r.yaml)

theorem of_documentFormat_ok {s : Settings} {format : String} {w v : Session}
    (h : (documentFormat s).perform w = (.ok format, v)) :
    v = w ∧ Text.lower s.output.document = format ∧ (format = "json" ∨ format = "yaml") := by
  unfold documentFormat at h
  dsimp only at h
  split at h
  · rename_i hmem
    cases h
    exact ⟨rfl, rfl, by simpa [documentFormats] using hmem⟩
  · cases h

theorem of_rendered_ok {a : Api} {target : String} {strict : Bool} {v : Option Validator} {w w' : Session}
    {r : Traced Projection.Rendering} (h : (rendered a target strict v).perform w = (.ok r, w')) :
    ∃ t, Target.parse (.text target) = .ok t ∧
      Api.projectTo t strict (v.map fun v => v.validate .never) a = ⟨.rendered r.value, r.warnings⟩ := by
  unfold rendered at h
  cases ht : Target.parse (.text target) with
  | error e =>
    rw [ht] at h
    cases h
  | ok t =>
    rw [ht] at h
    obtain ⟨_, u, -, h⟩ := of_perform_bind_ok h
    generalize hwhole : Api.projectTo t strict (v.map fun v => v.validate .never) a = whole at h
    obtain ⟨value, warnings⟩ := whole
    cases value with
    | rendered texts =>
      cases h
      exact ⟨t, rfl, hwhole⟩
    | failed f => cases h
    | unwritable e => cases h

theorem chosen_of_prepare {o : ProjectOptions} {source : String} {w v : Session} {document : Traced String}
    {target : String} (h : (prepare {} o source).perform w = (.ok (document, target), v)) :
    Chosen o source w document target := by
  rw [prepare_silent] at h
  obtain ⟨x, w₁, hneeds, hwritten⟩ := of_perform_bind_ok h
  obtain ⟨s, u, hs, hneeds⟩ := of_perform_bind_ok hneeds
  obtain ⟨format, u₁, hformat, hneeds⟩ := of_perform_bind_ok hneeds
  obtain ⟨a, u', ha, hneeds⟩ := of_perform_bind_ok hneeds
  obtain ⟨v, u₂, hv, hneeds⟩ := of_perform_bind_ok hneeds
  cases hneeds
  obtain ⟨rfl, hlower, hformats⟩ := of_documentFormat_ok hformat
  obtain ⟨r, w₂, hr, hwritten⟩ := of_perform_bind_ok hwritten
  cases hwritten
  obtain ⟨t, ht⟩ := target_of_resolve hs
  obtain ⟨t', ht', hproject⟩ := of_rendered_ok hr
  rw [ht, Target.parse_version] at ht'
  cases ht'
  refine ⟨s, _, a, u', v, t, r.value, hs, ha, by rw [hv], ht, ht, hproject, ?_⟩
  rcases hformats with rfl | rfl
  · exact .inl ⟨hlower, rfl⟩
  · exact .inr ⟨hlower, rfl⟩

theorem Chosen.target {o : ProjectOptions} {source : String} {w : Session} {document : Traced String} {target : String}
    (h : Chosen o source w document target) : ∃ t : Target, target = t.version := by
  obtain ⟨s, u, a, u', v, t, r, -, -, -, -, ht, -⟩ := h
  exact ⟨t, ht⟩

/-- What a console does to the end of a rendering gives it back. -/
theorem Chosen.withoutLastBreaks {o : ProjectOptions} {source : String} {w : Session} {document : Traced String}
    {target : String} (h : Chosen o source w document target) :
    Console.withoutLastBreaks document.value ++ "\n" = document.value := by
  obtain ⟨s, u, a, u', v, t, r, -, -, -, -, -, hproject, hchosen⟩ := h
  have hends := Projection.withoutLastBreaks_rendering (a := a) (t := t) (r := r) (congrArg Traced.value hproject)
  rcases hchosen with ⟨-, h⟩ | ⟨-, h⟩
  · rw [h]
    exact hends.1
  · rw [h]
    exact hends.2

/-! ## Writing -/

/-- Says what a projection warned of, writes the document and says how many warnings there were. -/
def finish (c : Console) (o : ProjectOptions) (document : Traced String) (target : String) : Act Unit := do
  c.warnings document.warnings
  c.document document.value o.outputFile
  if !document.warnings.isEmpty then
    c.info s!"{document.warnings.length} warning(s) for OpenAPI {target}"

theorem perform_eq (c : Console) (o : ProjectOptions) (source : String) :
    perform c o source = c.reporting (prepare c o source) >>= fun x => finish c o x.1 x.2 := rfl

section
variable {c : Console} {o : ProjectOptions} {document : Traced String} {w : Session}

theorem document_printed {text : String} {path : Option String} (h : c.file? path = none) :
    c.document text path = c.data (Console.withoutLastBreaks text) := by
  unfold Console.file? at h
  unfold Console.document
  simp only [h]

theorem document_filed {text file : String} {path : Option String} (h : c.file? path = some file) :
    c.document text path =
      Act.alter (fun d => d.write file (Utf8.encode text)) >>= fun _ => c.info s!"Wrote {file}" := by
  unfold Console.file? at h
  unfold Console.document
  simp only [h]

/-- What is said at the end of the number of warnings. -/
def countText (c : Console) (ws : Warnings) (t : Target) : String :=
  if ws.isEmpty || c.quiet then "" else s!"{ws.length} warning(s) for OpenAPI {t.version}" ++ "\n"

theorem count_speaks (c : Console) (ws : Warnings) (t : Target) :
    Speaks (if !ws.isEmpty then c.info s!"{ws.length} warning(s) for OpenAPI {t.version}" else pure ())
      (some (countText c ws t)) := by
  unfold countText
  cases ws.isEmpty with
  | true => exact .silent
  | false =>
    have hversion : '[' ∉ t.version.toList := by cases t <;> decide
    have hdigits : '[' ∉ ws.length.repr.toList := by
      rw [Nat.repr, String.toList_ofList]
      exact fun hmem => absurd (Nat.isDigit_of_mem_toDigits (by decide) (by decide) hmem) (by decide)
    have htext : s!"{ws.length} warning(s) for OpenAPI {t.version}" =
        ws.length.repr ++ " warning(s) for OpenAPI " ++ t.version := rfl
    have hbracket : '[' ∉ (s!"{ws.length} warning(s) for OpenAPI {t.version}").toList := by
      rw [htext]
      simp only [String.toList_append, List.mem_append, hversion, hdigits, or_false, false_or]
      decide
    have hspeaks := c.info_speaks s!"{ws.length} warning(s) for OpenAPI {t.version}"
    rwa [c.infoText?_of_not_mem hbracket] at hspeaks

/-- Nothing is written where the warnings cannot be said. -/
theorem finish_mute (target : String) (hws : c.warningsText? document.warnings = none) :
    ∃ e v, (finish c o document target).perform w = (.error (.crashed e), v) ∧ Kept w v := by
  have hspeaks := c.warnings_speaks document.warnings
  rw [hws] at hspeaks
  obtain ⟨e, said, hcrash⟩ := hspeaks
  exact ⟨e, _, perform_bind_error (hcrash w) _, .said w said⟩

variable {warned : String} (hws : c.warningsText? document.warnings = some warned)
include hws

theorem finish_printed (t : Target) (hfile : c.file? o.outputFile = none) :
    (finish c o document t.version).perform w =
      (.ok (), { w with
        stdout := w.stdout ++ (Console.withoutLastBreaks document.value ++ "\n")
        stderr := w.stderr ++ warned ++ countText c document.warnings t }) := by
  have hspeaks := c.warnings_speaks document.warnings
  rw [hws] at hspeaks
  rw [finish, perform_bind_ok (hspeaks w), document_printed hfile, Console.data, Act.out,
    perform_bind_ok (perform_change _ _), count_speaks c document.warnings t]

theorem finish_barred (target : String) {file : String} {e : FileError} (hfile : c.file? o.outputFile = some file)
    (hwrite : w.disk.write file (Utf8.encode document.value) = .error e) :
    ∃ v, (finish c o document target).perform w = (.error (.crashed e.crash), v) ∧ Kept w v := by
  have hspeaks := c.warnings_speaks document.warnings
  rw [hws] at hspeaks
  have halter := perform_alter_error (f := fun d => d.write file (Utf8.encode document.value))
    { w with stderr := w.stderr ++ warned } hwrite
  refine ⟨_, ?_, .said w warned⟩
  rw [finish, perform_bind_ok (hspeaks w), document_filed hfile, perform_bind_error (perform_bind_error halter _)]

theorem finish_filed (t : Target) {file announced : String} {d : Disk} (hfile : c.file? o.outputFile = some file)
    (hwrite : w.disk.write file (Utf8.encode document.value) = .ok d)
    (hwrote : c.infoText? s!"Wrote {file}" = some announced) :
    (finish c o document t.version).perform w =
      (.ok (), { w with disk := d, stderr := w.stderr ++ warned ++ (announced ++ countText c document.warnings t) }) := by
  have hspeaks := c.warnings_speaks document.warnings
  rw [hws] at hspeaks
  have hinfo := c.info_speaks s!"Wrote {file}"
  rw [hwrote] at hinfo
  have halter := perform_alter_ok (f := fun d => d.write file (Utf8.encode document.value))
    { w with stderr := w.stderr ++ warned } hwrite
  have hdocument : (c.document document.value o.outputFile).perform { w with stderr := w.stderr ++ warned } =
      (.ok (), { w with disk := d, stderr := w.stderr ++ warned ++ announced }) := by
    rw [document_filed hfile, perform_bind_ok halter, hinfo]
  rw [finish, perform_bind_ok (hspeaks w), perform_bind_ok hdocument, count_speaks c document.warnings t]
  simp only [String.append_assoc]

/-- The document is written even if that cannot be said. -/
theorem finish_unannounced (target : String) {file : String} {d : Disk} (hfile : c.file? o.outputFile = some file)
    (hwrite : w.disk.write file (Utf8.encode document.value) = .ok d)
    (hwrote : c.infoText? s!"Wrote {file}" = none) :
    ∃ e said, (finish c o document target).perform w =
      (.error (.crashed e), { w with disk := d, stderr := w.stderr ++ said }) := by
  have hspeaks := c.warnings_speaks document.warnings
  rw [hws] at hspeaks
  have hinfo := c.info_speaks s!"Wrote {file}"
  rw [hwrote] at hinfo
  obtain ⟨e, said, hcrash⟩ := hinfo
  have halter := perform_alter_ok (f := fun d => d.write file (Utf8.encode document.value))
    { w with stderr := w.stderr ++ warned } hwrite
  have hdocument : (c.document document.value o.outputFile).perform { w with stderr := w.stderr ++ warned } =
      (.error (.crashed e), { w with disk := d, stderr := w.stderr ++ warned ++ said }) := by
    rw [document_filed hfile, perform_bind_ok halter, hcrash]
  refine ⟨e, warned ++ said, ?_⟩
  rw [finish, perform_bind_ok (hspeaks w), perform_bind_error hdocument, String.append_assoc]

end

/-! ## Runs -/

/-- A run breaks off: with the code of a general failure, with nothing on the standard output and with no file but a
log. -/
def BreaksOff (w : Session) (run : Int × Session) : Prop := run.1 = 1 ∧ run.2.stdout = w.stdout ∧ Logged w run.2

/-- How a run of the command ends, given how the steps before the writing end. -/
structure Outcome (c : Console) (o : ProjectOptions) (source : String) (w : Session)
    (steps : Except Stop (Traced String × String) × Session) (run : Int × Session) : Prop where
  /-- What is to be written is one of the two renderings. -/
  chosen {document target v} : steps = (.ok (document, target), v) → Chosen o source w document target
  /-- Without a named file the standard output gets it, byte for byte. -/
  printed {document target v} : steps = (.ok (document, target), v) → c.file? o.outputFile = none →
    Announces c source → (c.warningsText? document.warnings).isSome →
      run.1 = 0 ∧ run.2.stdout = w.stdout ++ document.value ∧ run.2.disk.files = w.disk.files
  /-- A named file that can be written gets it. -/
  filed {document target v file d} : steps = (.ok (document, target), v) → c.file? o.outputFile = some file →
    v.disk.write file (Utf8.encode document.value) = .ok d →
    Announces c source → (c.warningsText? document.warnings).isSome → (c.infoText? s!"Wrote {file}").isSome →
      run.1 = 0 ∧ run.2.stdout = w.stdout ∧ run.2.disk.read file = .ok (Utf8.encode document.value) ∧
        ∀ p, run.2.disk.locate file ≠ .ok p → run.2.disk.fileAt? p = w.disk.fileAt? p
  /-- A named file that cannot be written breaks the run off. -/
  barred {document target v file e} : steps = (.ok (document, target), v) → c.file? o.outputFile = some file →
    v.disk.write file (Utf8.encode document.value) = .error e → BreaksOff w run
  /-- A failure is reported after its warnings, and nothing is written. -/
  reported {f v warned told} : steps = (.error (.failed f), v) → Announces c source →
    c.warningsText? f.warnings = some warned → c.errorText? f.message = some told →
      run.1 = f.exitCode ∧ run.2.stdout = w.stdout ∧ run.2.disk.files = w.disk.files ∧
        ∃ before, run.2.stderr = w.stderr ++ before ++ warned ++ told
  /-- What ends unexpectedly breaks the run off. -/
  crashed {e v} : steps = (.error (.crashed e), v) → BreaksOff w run
  /-- A message that cannot be said breaks the run off before anything is written, -/
  mute {document target v} : steps = (.ok (document, target), v) →
    (∀ t : Target, c.debugText? (announcement source t.version) = none) ∨ c.warningsText? document.warnings = none →
      BreaksOff w run
  /-- in place of the report on a failure, -/
  unreported {f v} : steps = (.error (.failed f), v) → Announces c source →
    c.warningsText? f.warnings = none ∨ c.errorText? f.message = none → BreaksOff w run
  /-- or behind the file that has been written. -/
  unannounced {document target v file d} : steps = (.ok (document, target), v) → c.file? o.outputFile = some file →
    v.disk.write file (Utf8.encode document.value) = .ok d →
    Announces c source → (c.warningsText? document.warnings).isSome → c.infoText? s!"Wrote {file}" = none →
      run.1 = 1 ∧ run.2.stdout = w.stdout ∧
        ∀ p, run.2.disk.locate w.logPath ≠ .ok p → run.2.disk.fileAt? p = d.fileAt? p
  /-- The steps do not end the run themselves. -/
  goesOn {code v} : steps ≠ (.error (.ended code), v)

section
variable {c : Console} {o : ProjectOptions} {source : String} {w v : Session}

theorem breaksOff_of_crashed {e : Crash} (h : (perform c o source).perform w = (.error (.crashed e), v))
    (hkept : Kept w v) :
    BreaksOff w (Program.ending c (perform c o source) w) := by
  obtain ⟨d, said, hd, hend⟩ := Program.ending_crashed (c := c) h
  rw [hend]
  exact ⟨rfl, hkept.stdout, .of_kept hkept fun p hp => hd.fileAt? hp⟩

theorem perform_of_prepare_ok {x : Traced String × String} (h : (prepare c o source).perform w = (.ok x, v)) :
    (perform c o source).perform w = (finish c o x.1 x.2).perform v := by
  rw [perform_eq, perform_bind_ok (c.perform_reporting_ok h)]

theorem prepare_kept {r : Except Stop (Traced String × String)} (h : (prepare c o source).perform w = (r, v)) :
    Kept w v := by
  have hkept := (prepare_modest c o source).kept w
  rwa [h] at hkept

theorem perform_of_prepare_crashed {e : Crash} (h : (prepare c o source).perform w = (.error (.crashed e), v)) :
    (perform c o source).perform w = (.error (.crashed e), v) := by
  rw [perform_eq, perform_bind_error (c.perform_reporting_crashed h)]

/-- A run breaks off where the document is not even found out, -/
theorem breaksOff_of_prepare {e : Crash} (h : (prepare c o source).perform w = (.error (.crashed e), v)) :
    BreaksOff w (Program.ending c (perform c o source) w) :=
  breaksOff_of_crashed (perform_of_prepare_crashed h) (prepare_kept h)

/-- and where it cannot be written. -/
theorem breaksOff_of_finish {x : Traced String × String} {e : Crash} {u : Session}
    (h : (prepare c o source).perform w = (.ok x, v))
    (hfinish : (finish c o x.1 x.2).perform v = (.error (.crashed e), u)) (hkept : Kept v u) :
    BreaksOff w (Program.ending c (perform c o source) w) :=
  breaksOff_of_crashed ((perform_of_prepare_ok h).trans hfinish) ((prepare_kept h).trans hkept)

/-- A run on a console of a known kind. -/
theorem outcome (c : Console) (o : ProjectOptions) (source : String) (w : Session) :
    Outcome c o source w ((prepare {} o source).perform w) (Program.ending c (perform c o source) w) where
  chosen := chosen_of_prepare
  printed := by
    intro document target v hsteps hfile hannounces hwarned
    obtain ⟨v', hprepare, -⟩ := hannounces.prepare (o := o) w
    rw [hsteps] at hprepare
    obtain ⟨warned, hwarned⟩ := Option.isSome_iff_exists.1 hwarned
    obtain ⟨t, rfl⟩ := (chosen_of_prepare hsteps).target
    have hfinish := finish_printed (w := v') hwarned t hfile
    rw [(chosen_of_prepare hsteps).withoutLastBreaks] at hfinish
    rw [Program.ending_ok ((perform_of_prepare_ok hprepare).trans hfinish)]
    have hkept := prepare_kept hprepare
    exact ⟨rfl, by rw [← hkept.stdout], hkept.files⟩
  filed := by
    intro document target v file d hsteps hfile hwrite hannounces hwarned hwrote
    obtain ⟨v', hprepare, hsame⟩ := hannounces.prepare (o := o) w
    rw [hsteps] at hprepare hsame
    rw [← hsame.disk] at hwrite
    obtain ⟨warned, hwarned⟩ := Option.isSome_iff_exists.1 hwarned
    obtain ⟨announced, hwrote⟩ := Option.isSome_iff_exists.1 hwrote
    obtain ⟨t, rfl⟩ := (chosen_of_prepare hsteps).target
    have hfinish := finish_filed hwarned t hfile hwrite hwrote
    rw [Program.ending_ok ((perform_of_prepare_ok hprepare).trans hfinish)]
    have hkept := prepare_kept hprepare
    obtain ⟨hread, hothers⟩ := Disk.write_spec hwrite
    exact ⟨rfl, hkept.stdout, hread, fun q hq => (hothers q hq).trans (hkept.fileAt? q)⟩
  barred := by
    intro document target v file e hsteps hfile hwrite
    rcases prepare_cases c o source w with ⟨v', hprepare, hsame⟩ | ⟨-, e', v', hprepare⟩
    · rw [hsteps] at hprepare hsame
      rw [← hsame.disk] at hwrite
      cases hwarned : c.warningsText? document.warnings with
      | none =>
        obtain ⟨e', u, hfinish, hkept⟩ := finish_mute (w := v') target hwarned
        exact breaksOff_of_finish hprepare hfinish hkept
      | some warned =>
        obtain ⟨u, hfinish, hkept⟩ := finish_barred hwarned target hfile hwrite
        exact breaksOff_of_finish hprepare hfinish hkept
    · exact breaksOff_of_prepare hprepare
  reported := by
    intro f v warned told hsteps hannounces hwarned htold
    obtain ⟨v', hprepare, -⟩ := hannounces.prepare (o := o) w
    rw [hsteps] at hprepare
    have hreport := c.perform_report (α := Traced String × String) hwarned htold v'
    have hperform : (perform c o source).perform w =
        (.error (.ended f.exitCode), { v' with stderr := v'.stderr ++ warned ++ told }) := by
      rw [perform_eq, perform_bind_error ((c.perform_reporting_failed hprepare).trans hreport)]
    rw [Program.ending_ended hperform]
    have hkept := prepare_kept hprepare
    refine ⟨rfl, hkept.stdout, hkept.files, ?_⟩
    obtain ⟨d, stdin, before, -, rfl⟩ := hkept
    exact ⟨before, rfl⟩
  crashed := by
    intro e v hsteps
    rcases prepare_cases c o source w with ⟨v', hprepare, -⟩ | ⟨-, e', v', hprepare⟩
    · rw [hsteps] at hprepare
      exact breaksOff_of_prepare hprepare
    · exact breaksOff_of_prepare hprepare
  mute := by
    intro document target v hsteps hmute
    rcases prepare_cases c o source w with ⟨v', hprepare, -⟩ | ⟨-, e', v', hprepare⟩
    · rcases hmute with hmute | hmute
      · obtain ⟨e', u, hcrash⟩ := prepare_mute hmute hsteps
        exact breaksOff_of_prepare hcrash
      · rw [hsteps] at hprepare
        obtain ⟨e', u, hfinish, hkept⟩ := finish_mute (w := v') target hmute
        exact breaksOff_of_finish hprepare hfinish hkept
    · exact breaksOff_of_prepare hprepare
  unreported := by
    intro f v hsteps hannounces hmute
    obtain ⟨v', hprepare, -⟩ := hannounces.prepare (o := o) w
    rw [hsteps] at hprepare
    obtain ⟨e, said, hreport⟩ := c.perform_report_mute (α := Traced String × String) hmute v'
    have hperform : (perform c o source).perform w = (.error (.crashed e), { v' with stderr := v'.stderr ++ said }) := by
      rw [perform_eq, perform_bind_error ((c.perform_reporting_failed hprepare).trans hreport)]
    exact breaksOff_of_crashed hperform ((prepare_kept hprepare).trans (.said v' said))
  unannounced := by
    intro document target v file d hsteps hfile hwrite hannounces hwarned hwrote
    obtain ⟨v', hprepare, hsame⟩ := hannounces.prepare (o := o) w
    rw [hsteps] at hprepare hsame
    rw [← hsame.disk] at hwrite
    obtain ⟨warned, hwarned⟩ := Option.isSome_iff_exists.1 hwarned
    obtain ⟨e, said, hfinish⟩ := finish_unannounced hwarned target hfile hwrite hwrote
    have hkept := prepare_kept hprepare
    obtain ⟨d', said', hd', hend⟩ := Program.ending_crashed (c := c) ((perform_of_prepare_ok hprepare).trans hfinish)
    rw [hend]
    refine ⟨rfl, hkept.stdout, fun p hp => hd'.fileAt? ?_⟩
    obtain ⟨_, _, _, -, rfl⟩ := hkept
    exact hp
  goesOn := by
    intro code v hsteps
    have hgoesOn := (prepare_modest {} o source).goesOn w code
    rw [hsteps] at hgoesOn
    exact hgoesOn rfl

end

/-- The command does with its arguments what they ask for. -/
theorem perform_command (c : Console) {p : ProgramOptions} {rest : List String} {o : ProjectOptions} {source : String}
    (hform : form.Takes true {} rest o [source]) (v : Session) :
    (Program.command c p "project" rest).perform v = (perform c o source).perform v := by
  have hcommand : Program.command c p "project" rest = run c rest := rfl
  rw [hcommand, run, perform_bind_ok (hform.perform_read v)]

/-- A run that calls the command performs it. -/
theorem run_eq_perform {args rest : List String} {p : ProgramOptions} {o : ProjectOptions} {source : String} {w : Session}
    (hcall : Program.Calls args p "project" rest) (hform : form.Takes true {} rest o [source])
    (hterminal : w.terminal = false) :
    Program.run args w =
      Program.ending (Program.consoleFor p w) (perform (Program.consoleFor p w) o source) { w with logging := p.verbose } := by
  rw [Program.run_eq hcall hterminal, Program.ending_congr (perform_command _ hform _)]

/-! ## A source whose name ends a style -/

theorem takes_bracket : form.Takes true {} ["[/x]"] {} ["[/x]"] := by
  unfold Form.Takes
  cbv

theorem prepare_bracket : (prepare {} {} "[/x]").perform bare =
    (.error (.failed ⟨.input, "IR file not found: [/x]", [], none⟩), bare) := by
  have htext : (PathName.ofText "[/x]").text = "[/x]" := by cbv
  have hparts : allParts "[/x]" = ["[", "x]"] := by cbv
  have hroot : "[/x]".startsWith "/" = false := by simp
  have hsize : "[/x]".utf8ByteSize = 4 := rfl
  have hpart : "[".utf8ByteSize = 1 := rfl
  have hlocate : bare.disk.locate "[/x]" = .error .notFound := by
    simp [Disk.locate, hparts, hroot, hsize, hpart, Disk.walk, Disk.step, Disk.longestName, Disk.longestPart,
      Disk.isFolderAt, Disk.fileAt?, bare]
  have habsent : bare.disk.isFile "[/x]" = .ok false := by
    rw [Disk.isFile, Disk.find, hlocate]
    rfl
  have hload : (Source.load "[/x]").perform bare = (.error (.failed ⟨.input, "IR file not found: [/x]", [], none⟩), bare) :=
    Source.load_absent (by decide) (by cbv) (by rw [htext, habsent])
  have hversion : (Settings.withOverrides {} {}).withVersion = .ok {} := by cbv
  have hformat : (documentFormat {}).perform bare = (.ok "json", bare) := by cbv
  have hneeds : (needs {} "[/x]").perform bare = (.error (.failed ⟨.input, "IR file not found: [/x]", [], none⟩), bare) := by
    rw [needs, perform_bind_ok (Settings.resolve_bare hversion), perform_bind_ok hformat, perform_bind_error hload]
  rw [prepare_silent, perform_bind_error hneeds]

/-! ## Every run -/

end ApiProjection.Command.Project
