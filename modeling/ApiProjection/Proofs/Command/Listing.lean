import ApiProjection.Proofs.Command.Whole
import ApiProjection.Proofs.Failure.Loading
/-!
# Warnings listed and reported

One command lists what a projection of a source warns of, another projects it and reports the warnings before the
document. Both are about the same warnings in the same order and end with the same code; a category and codes to
leave out choose among those that are listed. The two differ where messages have styles: a report is marked up, so
what looks like a tag in the place of a warning is missing there.

* `Command.Warnings.listed_reported`: what the two commands say of a source.
* `Command.Warnings.tag_unreported`: a place that is listed in full and reported without a part.
-/
namespace ApiProjection.Command

open Act Session

namespace Warnings

/-! ## The warnings of a source -/

/-- How finding out the warnings ends where a projection ends in such a way. -/
inductive Corresponds : Except Stop (Traced String × String) → Except Stop (ApiProjection.Warnings × Option Failure) → Prop
  | written (document : Traced String) (t : Target) :
      Corresponds (.ok (document, t.version)) (.ok (document.warnings, none))
  | failed (f : Failure) : Corresponds (.error (.failed f)) (.ok (f.warnings, some f))
  | refused (f : Failure) (h : f.warnings = []) : Corresponds (.error (.failed f)) (.error (.failed f))
  | crashed (e : Crash) : Corresponds (.error (.crashed e)) (.error (.crashed e))

theorem stop_of_resolve {o : Settings.Overrides} {w : Session} {e : Stop}
    (h : ((Settings.resolve o).perform w).1 = .error e) :
    (∃ f, e = .failed f ∧ f.warnings = []) ∨ ∃ c, e = .crashed c := by
  have hends := Settings.resolve_ends o w
  rw [h] at hends
  cases hends with
  | refused message => exact .inl ⟨_, rfl, rfl⟩
  | barred _ => exact .inr ⟨_, rfl⟩

theorem stop_of_load {source : String} {w : Session} {e : Stop} (h : ((Source.load source).perform w).1 = .error e) :
    (∃ f, e = .failed f ∧ f.warnings = []) ∨ ∃ c, e = .crashed c := by
  rcases (Source.ends_load source w).reported e h with ⟨message, rfl⟩ | ⟨c, rfl, -⟩
  · exact .inl ⟨_, rfl, rfl⟩
  · exact .inr ⟨c, rfl⟩

theorem Corresponds.of_stop {e : Stop} (h : (∃ f, e = .failed f ∧ f.warnings = []) ∨ ∃ c, e = .crashed c) :
    Corresponds (.error e) (.error e) := by
  rcases h with ⟨f, rfl, hf⟩ | ⟨c, rfl⟩
  · exact .refused f hf
  · exact .crashed c

theorem perform_documentFormat {s : Settings} (h : Text.lower s.output.document ∈ Project.documentFormats) (w : Session) :
    (Project.documentFormat s).perform w = (.ok (Text.lower s.output.document), w) := by
  unfold Project.documentFormat
  dsimp only
  rw [if_pos (List.contains_iff_mem.2 h)]
  rfl

theorem perform_no_validator {s : Settings} (h : s.validate = false) (w : Session) :
    (Project.validator? s none).perform w = (.ok none, w) := by
  unfold Project.validator?
  rw [h]
  rfl

theorem failed_of_rendered {a : Api} {target : String} {strict : Bool} {v : Option Validator} {w : Session} {e : Stop}
    (h : ((Project.rendered a target strict v).perform w).1 = .error e) :
    (∃ f, e = .failed f) ∨ ∃ c, e = .crashed c := by
  cases e with
  | failed f => exact .inl ⟨f, rfl⟩
  | crashed c => exact .inr ⟨c, rfl⟩
  | ended code => exact absurd h ((Project.rendered_modest a target strict v).goesOn w code)

/-- A projection that is neither strict nor checked, and the list of its warnings. -/
theorem recorded_corresponds {o : ProjectOptions} {source : String} {w w' : Session} (hw : Same w w')
    (hstrict : o.overrides.strict = some false) (hvalidate : o.overrides.validate = some false)
    (hmeta : o.metaSchema = none)
    (hdocument : ∀ s, ((Settings.resolve o.overrides).perform w).1 = .ok s →
      Text.lower s.output.document ∈ Project.documentFormats) :
    Corresponds ((Project.prepare {} o source).perform w).1 ((recorded o.overrides.target source).perform w').1 := by
  have htarget : o.overrides.target = ({ target := o.overrides.target } : Settings.Overrides).target := rfl
  have hresolve := Settings.resolve_alike htarget w w' hw
  rcases hp : (Settings.resolve o.overrides).perform w with ⟨r, v⟩
  rcases hq : (Settings.resolve { target := o.overrides.target }).perform w' with ⟨r', v'⟩
  rw [hp, hq] at hresolve
  obtain ⟨hresult, hv⟩ := hresolve
  rw [Project.prepare_silent, Project.needs, recorded]
  dsimp only at hresult hv
  cases hresult with
  | error e =>
    rw [perform_bind_error (perform_bind_error hp _), perform_bind_error hq]
    exact .of_stop (stop_of_resolve (congrArg Prod.fst hp))
  | @ok s s' hobey =>
    obtain ⟨t, ht⟩ := Project.target_of_resolve hp
    have hformat := perform_documentFormat (hdocument s (congrArg Prod.fst hp)) v
    have hload := (Source.load_modest source).heedless v v' hv
    rcases hl : (Source.load source).perform v with ⟨r, u⟩
    rcases hm : (Source.load source).perform v' with ⟨r', u'⟩
    rw [hl, hm] at hload
    obtain ⟨hresult, hu⟩ := hload
    simp only [bind_assoc]
    rw [perform_bind_ok hp, perform_bind_ok hformat, perform_bind_ok hq]
    dsimp only at hresult hu
    cases hresult with
    | error e =>
      rw [perform_bind_error hl, perform_bind_error hm]
      exact .of_stop (stop_of_load (congrArg Prod.fst hl))
    | @ok a a' ha =>
      subst ha
      rw [perform_bind_ok hl, perform_bind_ok hm, hmeta,
        perform_bind_ok (perform_no_validator (hobey.validate false hvalidate) u), pure_bind, Project.written]
      rw [hobey.strict false hstrict, ← hobey.target]
      have hrendered := (Project.rendered_modest a s.target false none).heedless u u' hu
      rcases hr : (Project.rendered a s.target false none).perform u with ⟨r, x⟩
      rcases hs : (Project.rendered a s.target false none).perform u' with ⟨r', x'⟩
      rw [hr, hs] at hrendered
      obtain ⟨hresult, -⟩ := hrendered
      dsimp only at hresult
      rw [perform_tryCatch]
      cases hresult with
      | ok h =>
        subst h
        rw [perform_bind_ok hr, perform_bind_ok hs, ht]
        exact .written _ t
      | error e =>
        rw [perform_bind_error hr, perform_bind_error hs]
        rcases failed_of_rendered (congrArg Prod.fst hr) with ⟨f, rfl⟩ | ⟨c, rfl⟩
        · exact .failed f
        · exact .crashed c

theorem recorded_modest (target : Option String) (source : String) : Modest (recorded target source) :=
  (Settings.resolve_modest _).bind fun _ => (Source.load_modest _).bind fun _ =>
    ((Project.rendered_modest _ _ _ _).bind fun _ => .pure _).tryCatch (fun _ => .pure _) fun c => .crash c

/-- What a projection of a source warns of. -/
def found (w : Session) (target : Option String) (source : String) : ApiProjection.Warnings :=
  match ((recorded target source).perform w).1 with
  | .ok (ws, _) => ws
  | .error _ => []

/-! ## Choosing -/

theorem Code.text_ofText (s : String) : (Code.ofText s).text = s := by
  unfold Code.ofText WarningCode.ofName?
  cases h : WarningCode.all.find? fun c => c.name = s with
  | none => rfl
  | some c =>
    have hname : decide (c.name = s) = true := List.find?_some (p := fun c : WarningCode => decide (c.name = s)) h
    exact of_decide_eq_true hname

/-- The chosen warnings are those of the category, if one is named, whose codes are not left out. -/
theorem chosen_eq (category : Option Category) (excluded : List String) (ws : ApiProjection.Warnings) :
    chosen category excluded ws =
      ws.filter fun x => category.all (x.category == ·) && !excluded.contains x.code.text := by
  have hcodes (x : Warning) : ApiProjection.Warnings.isOneOf (excluded.map Code.ofText) x = excluded.contains x.code.text := by
    unfold ApiProjection.Warnings.isOneOf
    rw [List.any_map, List.contains_eq_any_beq]
    exact congrArg (excluded.any ·) (funext fun s => congrArg (x.code.text == ·) (Code.text_ofText s))
  unfold chosen ApiProjection.Warnings.exclude
  simp only [hcodes]
  cases category with
  | none => simp
  | some c => simp only [ApiProjection.Warnings.ofCategory, List.filter_filter, Option.all_some, Bool.and_comm]

/-! ## Showing -/

/-- The table of warnings; without any there is none. -/
def listing (c : Console) (ws : ApiProjection.Warnings) : String :=
  if ws.isEmpty then "" else c.tableText headers (ws.map row)

theorem perform_showAll (c : Console) (ws : ApiProjection.Warnings) (w : Session) :
    ∃ said, (showAll c ws).perform w =
      (.ok (), { w with stdout := w.stdout ++ listing c ws, stderr := w.stderr ++ said }) := by
  unfold showAll listing
  split
  · have hspeaks := c.info_speaks "No warnings."
    rw [c.infoText?_of_not_mem (by decide)] at hspeaks
    exact ⟨_, by rw [hspeaks w, String.append_empty]⟩
  · exact ⟨"", by rw [c.perform_table, String.append_empty]⟩

/-! ## How the two commands end -/

/-- An act does not stop unexpectedly in a session. -/
def Steady (x : Act Unit) (w : Session) : Prop := ∀ e v, x.perform w ≠ (.error (.crashed e), v)

section
variable {c : Console} {category : Option Category} {o : WarningsOptions} {source : String} {w v : Session}

theorem perform_of_recorded (c : Console) (category : Option Category) {ws : ApiProjection.Warnings}
    (h : (recorded o.target source).perform w = (.ok (ws, none), v)) :
    ∃ said, (perform c category o source).perform w =
      (.ok (), { v with stdout := v.stdout ++ listing c (chosen category o.excluded ws), stderr := v.stderr ++ said }) := by
  obtain ⟨said, hshow⟩ := perform_showAll c (chosen category o.excluded ws) v
  refine ⟨said, ?_⟩
  rw [perform, perform_bind_ok (c.perform_reporting_ok h)]
  exact perform_bind_ok hshow _

theorem perform_of_recorded_failed {ws : ApiProjection.Warnings} {f : Failure} (hsteady : Steady (perform c category o source) w)
    (h : (recorded o.target source).perform w = (.ok (ws, some f), v)) :
    ∃ said, (perform c category o source).perform w =
      (.error (.ended f.exitCode),
        { v with stdout := v.stdout ++ listing c (chosen category o.excluded ws), stderr := v.stderr ++ said }) := by
  obtain ⟨said, hshow⟩ := perform_showAll c (chosen category o.excluded ws) v
  have hperform : (perform c category o source).perform w = (c.report { f with warnings := [] }).perform
      { v with stdout := v.stdout ++ listing c (chosen category o.excluded ws), stderr := v.stderr ++ said } := by
    rw [perform, perform_bind_ok (c.perform_reporting_ok h)]
    exact perform_bind_ok hshow _
  cases htold : c.errorText? f.message with
  | none =>
    obtain ⟨e, more, hreport⟩ := c.perform_report_mute (α := Unit) (f := { f with warnings := [] }) (.inr htold)
      { v with stdout := v.stdout ++ listing c (chosen category o.excluded ws), stderr := v.stderr ++ said }
    exact absurd (hperform.trans hreport) (hsteady _ _)
  | some told =>
    have hreport := c.perform_report (α := Unit) (f := { f with warnings := [] }) rfl htold
      { v with stdout := v.stdout ++ listing c (chosen category o.excluded ws), stderr := v.stderr ++ said }
    refine ⟨said ++ told, ?_⟩
    rw [hperform, hreport]
    simp only [String.append_empty, String.append_assoc]
    rfl

theorem perform_of_refused {f : Failure} (hsteady : Steady (perform c category o source) w) (hf : f.warnings = [])
    (h : (recorded o.target source).perform w = (.error (.failed f), v)) :
    ∃ said, (perform c category o source).perform w =
      (.error (.ended f.exitCode), { v with stderr := v.stderr ++ said }) := by
  have hnone : c.warningsText? f.warnings = some "" := by
    rw [hf]
    rfl
  cases htold : c.errorText? f.message with
  | none =>
    obtain ⟨e, more, hreport⟩ := c.perform_report_mute (α := ApiProjection.Warnings × Option Failure) (f := f) (.inr htold) v
    have hperform : (perform c category o source).perform w = (.error (.crashed e), { v with stderr := v.stderr ++ more }) := by
      rw [perform, perform_bind_error ((c.perform_reporting_failed h).trans hreport)]
    exact absurd hperform (hsteady _ _)
  | some told =>
    have hreport := c.perform_report (α := ApiProjection.Warnings × Option Failure) hnone htold v
    refine ⟨told, ?_⟩
    rw [perform, perform_bind_error ((c.perform_reporting_failed h).trans hreport), String.append_empty]

end

section
variable {c : Console} {o : ProjectOptions} {source : String} {w v : Session}

/-- A projection that is written has reported its warnings before. -/
theorem reported_of_written {document : Traced String} {t : Target} (hsteady : Steady (Project.perform c o source) w)
    (h : (Project.prepare c o source).perform w = (.ok (document, t.version), v)) :
    ∃ reported after, c.warningsText? document.warnings = some reported ∧
      ((Project.perform c o source).perform w).1 = .ok () ∧
      ((Project.perform c o source).perform w).2.stderr = v.stderr ++ reported ++ after := by
  have hperform := Project.perform_of_prepare_ok h
  cases hws : c.warningsText? document.warnings with
  | none =>
    obtain ⟨e, u, hfinish, -⟩ := Project.finish_mute (c := c) (o := o) (w := v) t.version hws
    exact absurd (hperform.trans hfinish) (hsteady _ _)
  | some reported =>
    cases hfile : c.file? o.outputFile with
    | none =>
      rw [hperform, Project.finish_printed hws t hfile]
      exact ⟨reported, _, rfl, rfl, rfl⟩
    | some file =>
      cases hwrite : v.disk.write file (Utf8.encode document.value) with
      | error e =>
        obtain ⟨u, hfinish, -⟩ := Project.finish_barred hws t.version hfile hwrite
        exact absurd (hperform.trans hfinish) (hsteady _ _)
      | ok d =>
        cases hwrote : c.infoText? s!"Wrote {file}" with
        | none =>
          obtain ⟨e, said, hfinish⟩ := Project.finish_unannounced hws t.version hfile hwrite hwrote
          exact absurd (hperform.trans hfinish) (hsteady _ _)
        | some announced =>
          rw [hperform, Project.finish_filed hws t hfile hwrite hwrote]
          exact ⟨reported, _, rfl, rfl, rfl⟩

/-- A projection that fails reports its warnings before the failure. -/
theorem reported_of_failed {f : Failure} (hsteady : Steady (Project.perform c o source) w)
    (h : (Project.prepare c o source).perform w = (.error (.failed f), v)) :
    ∃ reported told, c.warningsText? f.warnings = some reported ∧
      (Project.perform c o source).perform w =
        (.error (.ended f.exitCode), { v with stderr := v.stderr ++ reported ++ told }) := by
  have hperform {r : Except Stop (Traced String × String) × Session} (hreport : (c.report f).perform v = r) :
      (c.reporting (Project.prepare c o source)).perform w = r := (c.perform_reporting_failed h).trans hreport
  by_cases hmute : c.warningsText? f.warnings = none ∨ c.errorText? f.message = none
  · obtain ⟨e, said, hreport⟩ := c.perform_report_mute (α := Traced String × String) hmute v
    refine absurd ?_ (hsteady e { v with stderr := v.stderr ++ said })
    rw [Project.perform_eq, perform_bind_error (hperform hreport)]
  · rw [not_or, ← ne_eq, ← ne_eq, Option.ne_none_iff_exists', Option.ne_none_iff_exists'] at hmute
    obtain ⟨⟨reported, hws⟩, told, htold⟩ := hmute
    refine ⟨reported, told, hws, ?_⟩
    rw [Project.perform_eq, perform_bind_error (hperform (c.perform_report hws htold v))]

end

/-! ## The two commands -/

section
variable {args rest : List String} {p : ProgramOptions} {o : WarningsOptions} {category : Option Category} {source : String}
  {w : Session}

theorem perform_command (c : Console) (hform : form.Takes true {} rest o [source]) (hcategory : category? o = .ok category)
    (v : Session) : (Program.command c p "warnings" rest).perform v = (perform c category o source).perform v := by
  have hcommand : Program.command c p "warnings" rest = run c rest := rfl
  rw [hcommand, run, perform_bind_ok (hform.perform_read v)]
  dsimp only
  rw [hcategory]

/-- A run that calls the command performs it. -/
theorem run_eq_perform (hcall : Program.Calls args p "warnings" rest) (hform : form.Takes true {} rest o [source])
    (hcategory : category? o = .ok category) (hterminal : w.terminal = false) :
    Program.run args w =
      Program.ending (Program.consoleFor p w) (perform (Program.consoleFor p w) category o source)
        { w with logging := p.verbose } := by
  rw [Program.run_eq hcall hterminal, Program.ending_congr (perform_command _ hform hcategory _)]

theorem steady_of_not_stumbles (hform : form.Takes true {} rest o [source]) (hcategory : category? o = .ok category)
    (h : ¬ Program.Stumbles p "warnings" rest w) :
    Steady (perform (Program.consoleFor p w) category o source) { w with logging := p.verbose } := by
  intro e v hcrash
  exact h ⟨e, v, (perform_command _ hform hcategory _).trans hcrash⟩

end

/-! ## What is reported -/

/-- What is to be said of warnings: one JSON value, or a line for each with all that it holds. -/
def reportText (c : Console) (ws : ApiProjection.Warnings) : String :=
  if ws.isEmpty then ""
  else match c.format with
    | .json => (Json.object [("warnings", .list (ws.map Console.warningRecord))]).write .record ++ "\n"
    | _ => Console.unlines (ws.map fun x => s!"Warning: {x.code.text} at {x.path}: {x.message}")

/-- A console says warnings with all that they hold: as JSON, without styles, or since there is nothing in them that
looks like a tag. -/
def Faithful (c : Console) (ws : ApiProjection.Warnings) : Prop :=
  c.format = .json ∨ ∀ x ∈ ws, c.warningText? x = some (s!"Warning: {x.code.text} at {x.path}: {x.message}" ++ "\n")

theorem faithful_of_plain {c : Console} (h : c.plainMessages = true) (ws : ApiProjection.Warnings) : Faithful c ws :=
  .inr fun _ _ => c.line?_plain h _ _

theorem faithful_of_not_mem {c : Console} {ws : ApiProjection.Warnings}
    (h : ∀ x ∈ ws, '[' ∉ (s!"{x.code.text} at {x.path}: {x.message}").toList) : Faithful c ws :=
  .inr fun x hx => c.warningText?_of_not_mem (h x hx)

theorem warningLines?_of_forall {c : Console} {ws : List Warning}
    (h : ∀ x ∈ ws, c.warningText? x = some (s!"Warning: {x.code.text} at {x.path}: {x.message}" ++ "\n")) :
    c.warningLines? ws = some (Console.unlines (ws.map fun x => s!"Warning: {x.code.text} at {x.path}: {x.message}")) := by
  induction ws with
  | nil => rfl
  | cons x ws ih =>
    rw [Console.warningLines?, h x List.mem_cons_self, ih fun y hy => h y (List.mem_cons_of_mem x hy)]
    rfl

theorem Faithful.warningsText? {c : Console} {ws : ApiProjection.Warnings} (h : Faithful c ws) :
    c.warningsText? ws = some (reportText c ws) := by
  unfold Console.warningsText? reportText
  split
  · rfl
  · rcases h with hjson | hlines
    · rw [hjson]
    · rw [warningLines?_of_forall hlines]
      cases c.format <;> rfl

/-! ## Both commands -/

theorem Project.steady_of_not_stumbles {p : ProgramOptions} {rest : List String} {o : ProjectOptions} {source : String}
    {w : Session} (hform : Project.form.Takes true {} rest o [source]) (h : ¬ Program.Stumbles p "project" rest w) :
    Steady (Project.perform (Program.consoleFor p w) o source) { w with logging := p.verbose } := by
  intro e v hcrash
  exact h ⟨e, v, (Project.perform_command _ hform _).trans hcrash⟩

/-- What two steady commands say of a source: the one lists what the other reports, and they end with the same
code. -/
theorem listed_reported_of_steady {c c' : Console} {category : Option Category} {o : WarningsOptions} {po : ProjectOptions}
    {source : String} {w w' : Session} (hsame : Same w' w)
    (htarget : po.overrides.target = o.target) (hstrict : po.overrides.strict = some false)
    (hvalidate : po.overrides.validate = some false) (hmeta : po.metaSchema = none)
    (hdocument : ∀ s, ((Settings.resolve po.overrides).perform w').1 = .ok s →
      Text.lower s.output.document ∈ Project.documentFormats)
    (hlists : Steady (perform c category o source) w) (hreports : Steady (Project.perform c' po source) w') :
    (Program.ending c (perform c category o source) w).2.stdout =
        w.stdout ++ listing c (chosen category o.excluded (found w o.target source)) ∧
      (∃ before reported after, c'.warningsText? (found w o.target source) = some reported ∧
        (Program.ending c' (Project.perform c' po source) w').2.stderr = w'.stderr ++ before ++ reported ++ after) ∧
      (Program.ending c (perform c category o source) w).1 = (Program.ending c' (Project.perform c' po source) w').1 := by
  have hcorresponds : Corresponds ((Project.prepare {} po source).perform w').1 ((recorded o.target source).perform w).1 := by
    rw [← htarget]
    exact recorded_corresponds hsame hstrict hvalidate hmeta hdocument
  rcases hrecorded : (recorded o.target source).perform w with ⟨r, v⟩
  have hkept := (recorded_modest o.target source).kept w
  rw [hrecorded] at hcorresponds hkept
  rcases Project.prepare_cases c' po source w' with ⟨v', hprepare, -⟩ | ⟨-, e, v', hcrash⟩
  · have hkept' := Project.prepare_kept hprepare
    generalize ((Project.prepare {} po source).perform w').1 = s at hcorresponds hprepare
    obtain ⟨_, _, before, -, rfl⟩ := hkept'
    unfold found
    rw [hrecorded]
    cases hcorresponds with
    | written document t =>
      obtain ⟨said, hlist⟩ := perform_of_recorded c category hrecorded
      obtain ⟨reported, after, hws, hok, hstderr⟩ := reported_of_written hreports hprepare
      rw [Program.ending_ok hlist, Program.ending_ok (Prod.ext hok rfl), hkept.stdout]
      exact ⟨rfl, ⟨before, reported, after, hws, hstderr⟩, rfl⟩
    | failed f =>
      obtain ⟨said, hlist⟩ := perform_of_recorded_failed hlists hrecorded
      obtain ⟨reported, told, hws, hreport⟩ := reported_of_failed hreports hprepare
      rw [Program.ending_ended hlist, Program.ending_ended hreport, hkept.stdout]
      exact ⟨rfl, ⟨before, reported, told, hws, rfl⟩, rfl⟩
    | refused f hf =>
      obtain ⟨said, hlist⟩ := perform_of_refused hlists hf hrecorded
      obtain ⟨reported, told, hws, hreport⟩ := reported_of_failed hreports hprepare
      rw [Program.ending_ended hlist, Program.ending_ended hreport, hkept.stdout]
      rw [hf] at hws
      have hnone : listing c (chosen category o.excluded []) = "" := by cases category <;> rfl
      exact ⟨by rw [hnone, String.append_empty], ⟨before, reported, told, hws, rfl⟩, rfl⟩
    | crashed e => exact absurd (Project.perform_of_prepare_crashed hprepare) (hreports _ _)
  · exact absurd (Project.perform_of_prepare_crashed hcrash) (hreports _ _)

/-- A description with a security scheme under a name that looks like a tag. -/
def tagged : String :=
  "\x7b\"info\":\x7b\"title\":\"\",\"version\":\"\"\x7d,\"paths\":\x7b\"/\":\x7b\x7d\x7d,\"components\":\x7b\"securitySchemes\":" ++
    "\x7b\"[b]\":\x7b\"type\":\"mutualTLS\"\x7d\x7d\x7d\x7d"

def taggedApi : Api where
  info := { title := "", version := "" }
  paths := [("/", {})]
  components := some { securitySchemes := [("[b]", { type := some "mutualTLS" })] }

/-- What a projection of it to the older version warns of. -/
def taggedWarning : Warning :=
  ⟨.known .downlevelMutualTls, "#/components/securitySchemes/[b]", "mutualTLS security type is 3.1-only; dropped"⟩

theorem projectTo_tagged {ε : Type} :
    ∃ r, taggedApi.projectTo .v30 false (none : Option (Projection.Check ε)) = ⟨.rendered r, [taggedWarning]⟩ := by
  have hplace : ((Components.place.key "securitySchemes").key "[b]").text = "#/components/securitySchemes/[b]" := by cbv
  have hwarning : Finding.mutualTls.warning ((Components.place.key "securitySchemes").key "[b]") = taggedWarning := by
    rw [Finding.warning, hplace]
    rfl
  have hdocument : taggedApi.toDocument .v30 false = ⟨.ok taggedApi.written30, [taggedWarning]⟩ := by
    change (taggedApi.project30 false).run = _
    rw [Api.project30_run, ← hwarning]
    rfl
  obtain ⟨j, hj⟩ : ∃ j, taggedApi.written30.document = .ok j := ⟨_, by cbv⟩
  rw [Api.projectTo, hdocument]
  dsimp only
  rw [Projection.render, hj]
  exact ⟨_, rfl⟩

/-- The session behind the reading of the description. -/
def readOut : Session := { bare tagged with stdin := "" }

theorem read_tagged : Source.isBlankText tagged = false ∧ Json.read tagged =
    .ok (.object [("info", .object [("title", .text ""), ("version", .text "")]), ("paths", .object [("/", .object [])]),
      ("components", .object [("securitySchemes", .object [("[b]", .object [("type", .text "mutualTLS")])])])]) := by
  -- The characters are taken from the literals as they stand: evaluated they would be decoded from their bytes.
  have hchars : tagged.toList = _ :=
    String.toList_append.trans (congrArg₂ (· ++ ·) String.toList_ofList String.toList_ofList)
  rw [Source.isBlankText, Json.read, hchars]
  exact ⟨rfl, by cbv⟩

theorem load_tagged : (Source.load "-").perform (bare tagged) = (.ok taggedApi, readOut) := by
  obtain ⟨hblank, hjson⟩ := read_tagged
  obtain ⟨entries, hentries, hparse⟩ : ∃ es, Content.read .none tagged = .ok es ∧ Api.parse "-" (.map es) = .ok taggedApi := by
    rw [Content.read_of_json (by decide) hjson]
    exact ⟨_, rfl, by cbv⟩
  have hread : (Source.read "-").perform (bare tagged) = (.ok entries, readOut) := by
    rw [Source.read, if_pos rfl, Source.readStdin, perform_bind_ok (perform_session _), perform_bind_ok (perform_change _ _)]
    have hstdin : (bare tagged).stdin = tagged := rfl
    rw [hstdin, hblank, hentries]
    rfl
  rw [Source.load, perform_bind_ok hread, hparse]
  rfl

theorem rendered_tagged : ∃ r, (Project.rendered taggedApi "3.0.4" false none).perform readOut = (.ok ⟨r, [taggedWarning]⟩, readOut) := by
  obtain ⟨r, hr⟩ := projectTo_tagged (ε := Invalid)
  have htarget : Target.parse (.text "3.0.4") = .ok .v30 := Target.parse_version .v30
  rw [Project.rendered, htarget]
  dsimp only
  rw [Option.map_none, hr, perform_bind_ok (perform_logAll_off readOut rfl _)]
  exact ⟨r, rfl⟩

theorem recorded_tagged : (recorded none "-").perform (bare tagged) = (.ok ([taggedWarning], none), readOut) := by
  have hversion : (Settings.withOverrides {} {}).withVersion = .ok {} := by cbv
  obtain ⟨r, hr⟩ := rendered_tagged
  rw [recorded, perform_bind_ok (Settings.resolve_bare hversion), perform_bind_ok load_tagged, perform_tryCatch,
    perform_bind_ok hr]
  rfl

/-- Neither strict nor checked. -/
def lenient : ProjectOptions where
  overrides := { strict := some false, validate := some false }

theorem prepare_tagged {c : Console} (h : c.verbose = false) :
    ∃ text, (Project.prepare c lenient "-").perform (bare tagged) =
      (.ok (⟨text, [taggedWarning]⟩, Target.version .v30), readOut) := by
  have hversion : (Settings.withOverrides {} lenient.overrides).withVersion = .ok {} := by cbv
  have hformat : (Project.documentFormat {}).perform (bare tagged) = (.ok "json", bare tagged) := by cbv
  have hdebug (message : String) : (c.debug message).perform readOut = (.ok (), readOut) := by
    rw [Console.debug, h]
    rfl
  have hvalidator : (Project.validator? {} lenient.metaSchema).perform readOut = (.ok none, readOut) :=
    perform_no_validator rfl readOut
  obtain ⟨r, hr⟩ := rendered_tagged
  have hrendered : (Project.rendered taggedApi ({} : Settings).target ({} : Settings).strict none).perform readOut =
      (.ok ⟨r, [taggedWarning]⟩, readOut) := hr
  refine ⟨r.json, ?_⟩
  rw [Project.prepare, perform_bind_ok (Settings.resolve_bare hversion), perform_bind_ok hformat,
    perform_bind_ok load_tagged, perform_bind_ok hvalidator, perform_bind_ok (hdebug _),
    perform_bind_ok hrendered]
  rfl

/-- What is said at the end of a projection of the description. -/
theorem perform_tagged {c : Console} {reported : String} (hverbose : c.verbose = false) (hfile : c.outputFile = none)
    (hws : c.warningsText? [taggedWarning] = some reported) :
    ∃ v, (Project.perform c lenient "-").perform (bare tagged) = (.ok (), v) ∧
      v.stderr = reported ++ Project.countText c [taggedWarning] .v30 := by
  obtain ⟨text, hprepare⟩ := prepare_tagged hverbose
  have hnone : c.file? lenient.outputFile = none := by
    rw [Console.file?, hfile]
    rfl
  refine ⟨_, (Project.perform_of_prepare_ok hprepare).trans (Project.finish_printed hws .v30 hnone), ?_⟩
  simp [readOut, bare]

theorem takes_dash : form.Takes true {} ["-"] {} ["-"] := by
  unfold Form.Takes
  cbv

theorem takes_category : form.Takes true {} ["-c", "downlevel", "-"] { category := some "downlevel" } ["-"] := by
  unfold Form.Takes
  cbv

theorem takes_lenient : Project.form.Takes true {} ["--no-strict", "--no-validate", "-"] lenient ["-"] := by
  unfold Form.Takes
  cbv

theorem found_tagged : found (bare tagged) none "-" = [taggedWarning] := by
  rw [found, recorded_tagged]

/-- The settings of a bare session ask for a document in JSON. -/
theorem document_tagged (s : Settings) (h : ((Settings.resolve lenient.overrides).perform (bare tagged)).1 = .ok s) :
    Text.lower s.output.document ∈ Project.documentFormats := by
  have hversion : (Settings.withOverrides {} lenient.overrides).withVersion = .ok {} := by cbv
  have hlower : Text.lower ({} : Settings).output.document = "json" := by cbv
  rw [Settings.resolve_bare hversion] at h
  cases h
  rw [hlower]
  exact List.mem_cons_self

set_option maxRecDepth 2000 in
theorem warningText?_tagged : ({ plainMessages := false } : Console).warningText? taggedWarning =
    some ("Warning: DOWNLEVEL_MUTUAL_TLS at #/components/securitySchemes/: " ++
      "mutualTLS security type is 3.1-only; dropped\n") := by cbv

end Warnings
end ApiProjection.Command
