import ApiProjection.Console.Basic
import ApiProjection.Proofs.Host.Modest
/-!
# What a console says

What a console says of something is a text, or nothing at all where the tags in it do not fit: the act that should
say it stops unexpectedly then. Messages without styles, and those without brackets, can always be said.

* `Act.Speaks`: an act that says such a text.
* `Console.warnings_speaks`, `Console.error_speaks` and the like: what a console says of warnings and failures.
-/
namespace ApiProjection

open Session

/-! ## Speaking -/

namespace Act

/-- An act that says a text and is over or, if there is no text, stops unexpectedly while it speaks. -/
def Speaks (x : Act Unit) : Option String → Prop
  | some s => ∀ w, x.perform w = (.ok (), { w with stderr := w.stderr ++ s })
  | none => ∃ c said, ∀ w, x.perform w = (.error (.crashed c), { w with stderr := w.stderr ++ said })

/-- One text behind the other. -/
def andThen (s t : Option String) : Option String := s.bind fun a => t.map fun b => a ++ b

variable {x y : Act Unit} {s t : Option String} {a : String}

theorem Speaks.silent : Speaks (pure ()) (some "") := fun w => by simp

theorem Speaks.bind (hx : Speaks x s) (hy : Speaks y t) : Speaks (x >>= fun _ => y) (andThen s t) := by
  cases s with
  | none =>
    obtain ⟨c, said, h⟩ := hx
    exact ⟨c, said, fun w => perform_bind_error (h w) _⟩
  | some a =>
    cases t with
    | none =>
      obtain ⟨c, said, h⟩ := hy
      refine ⟨c, a ++ said, fun w => ?_⟩
      rw [perform_bind_ok (hx w), h, String.append_assoc]
    | some b =>
      intro w
      rw [perform_bind_ok (hx w), hy]
      simp only [String.append_assoc]

theorem Speaks.modest (hx : Speaks x s) : Modest x := by
  cases s with
  | some a =>
    refine ⟨fun w => ?_, fun w code => ?_, fun w w' hw => ?_⟩
    · rw [hx w]
      exact .said w a
    · rw [hx w]
      nofun
    · rw [hx w, hx w']
      obtain ⟨said, logging, rfl⟩ := hw
      exact ⟨.ok rfl, said ++ a, logging, rfl⟩
  | none =>
    obtain ⟨c, said, h⟩ := hx
    refine ⟨fun w => ?_, fun w code => ?_, fun w w' hw => ?_⟩
    · rw [h w]
      exact .said w said
    · rw [h w]
      exact fun he => nomatch he
    · rw [h w, h w']
      obtain ⟨before, logging, rfl⟩ := hw
      exact ⟨.error _, before ++ said, logging, rfl⟩

end Act

/-! ## Marked-up texts -/

namespace Markup

/-- The backslashes at the beginning of a text, and the rest. -/
theorem slashes_append (cs : List Char) :
    ∃ n, (cs.takeWhile (· == '\\')).length = n ∧ cs = List.replicate n '\\' ++ cs.drop n := by
  refine ⟨_, rfl, ?_⟩
  have hslashes : cs.takeWhile (· == '\\') = List.replicate (cs.takeWhile (· == '\\')).length '\\' := by
    have hall : (cs.takeWhile (· == '\\')).all (· == '\\') = true := List.all_takeWhile
    exact List.eq_replicate_length.2 fun c hc => by simpa using List.all_eq_true.1 hall c hc
  have hdrop : (cs.takeWhile (· == '\\') ++ cs.dropWhile (· == '\\')).drop (cs.takeWhile (· == '\\')).length =
      cs.dropWhile (· == '\\') := List.drop_left' rfl
  rw [List.takeWhile_append_dropWhile] at hdrop
  rw [← hslashes, hdrop, List.takeWhile_append_dropWhile]

/-- A text without brackets is shown as it is. -/
theorem plainFrom_of_not_mem : ∀ (fuel position : Nat) (styles : List String) {cs : List Char}, '[' ∉ cs →
    plainFrom fuel position styles cs = .ok cs
  | 0, _, _, _, _ => rfl
  | fuel + 1, position, styles, cs, h => by
    obtain ⟨n, hn, hsplit⟩ := slashes_append cs
    rw [plainFrom, hn]
    have hrest : '[' ∉ cs.drop n := fun hmem => h (List.mem_of_mem_drop hmem)
    split
    · rename_i inner heq
      exact absurd (heq ▸ List.mem_cons_self) hrest
    · rfl
    · rename_i c rest _ heq
      rw [heq] at hrest hsplit
      rw [plainFrom_of_not_mem fuel _ styles (List.not_mem_of_not_mem_cons hrest)]
      exact congrArg Except.ok hsplit.symm

theorem plain_of_not_mem {s : String} (h : '[' ∉ s.toList) : plain s = .ok s := by
  rw [plain, plainFrom_of_not_mem _ _ _ h, Except.map, String.ofList_toList]

theorem styleName_eq {inside : List Char} {name : String}
    (h : (Text.trimBy Text.isBlank (inside.takeWhile (· != '='))).map Char.toLower = name.toList) : styleName inside = name := by
  rw [styleName, Text.lowerAscii, ← String.toList_inj, String.toList_map, String.toList_ofList, h]

/-- The style at the beginning of a warning is over before what it says. -/
theorem plainFrom_warning (fuel : Nat) (cs : List Char) :
    plainFrom (fuel + 11) 0 [] ("[yellow]Warning:[/yellow] ".toList ++ cs) =
      (plainFrom fuel 26 [] cs).map ("Warning: ".toList ++ ·) := by
  have hstyle : styleName ['y', 'e', 'l', 'l', 'o', 'w'] = "yellow" := styleName_eq (by decide)
  cases h : plainFrom fuel 26 [] cs <;>
    simp [plainFrom, tag?, beginsTag, takeOff?, h, hstyle, bind, Except.bind, pure, Except.pure, Except.map]

theorem plain_warning {s : String} (h : '[' ∉ s.toList) :
    plain ("[yellow]Warning:[/yellow] " ++ s) = .ok ("Warning: " ++ s) := by
  have hlength : ("[yellow]Warning:[/yellow] " ++ s).length + 1 = s.length + 16 + 11 := by
    have hprefix : "[yellow]Warning:[/yellow] ".length = 26 := by decide
    rw [String.length_append, hprefix]
    omega
  rw [plain, hlength, String.toList_append, plainFrom_warning, plainFrom_of_not_mem _ _ _ h]
  simp only [Except.map, String.ofList_append, String.ofList_toList]

/-- What neither begins a tag nor keeps one from beginning is shown as it is, and then the rest is. -/
theorem plainFrom_append (fuel : Nat) (styles : List String) {cs : List Char} (h : ∀ c ∈ cs, c ≠ '[' ∧ c ≠ '\\')
    (position : Nat) (ds : List Char) :
    plainFrom (cs.length + fuel) position styles (cs ++ ds) =
      (plainFrom fuel (position + cs.length) styles ds).map (cs ++ ·) := by
  induction cs generalizing position with
  | nil =>
    rw [List.length_nil, Nat.zero_add, Nat.add_zero, List.nil_append]
    cases plainFrom fuel position styles ds <;> rfl
  | cons c cs ih =>
    obtain ⟨hbracket, hslash⟩ := h c List.mem_cons_self
    have hfuel : (c :: cs).length + fuel = cs.length + fuel + 1 := by
      rw [List.length_cons]
      omega
    have hposition : position + (c :: cs).length = position + 1 + cs.length := by
      rw [List.length_cons]
      omega
    rw [hfuel, hposition, List.cons_append, plainFrom]
    simp only [List.takeWhile_cons, beq_eq_false_iff_ne.2 hslash, Bool.false_eq_true, if_false, List.length_nil,
      List.drop_zero, Nat.add_zero]
    rw [ih fun c hc => h c (List.mem_cons_of_mem _ hc)]
    cases plainFrom fuel (position + 1 + cs.length) styles ds <;> rfl

/-- The style of a message of success is on for all of it. -/
theorem plain_success {s : String} (h : ∀ c ∈ s.toList, c ≠ '[' ∧ c ≠ '\\') :
    plain ("[green]" ++ s ++ "[/green]") = .ok s := by
  have hstyle : styleName ['g', 'r', 'e', 'e', 'n'] = "green" := styleName_eq (by decide)
  have hlength : ("[green]" ++ s ++ "[/green]").length + 1 = s.toList.length + 15 + 1 := by
    have hfirst : "[green]".length = 7 := by decide
    have hlast : "[/green]".length = 8 := by decide
    rw [String.length_append, String.length_append, hfirst, hlast, String.length_toList]
    omega
  have htext : ("[green]" ++ s ++ "[/green]").toList = "[green]".toList ++ (s.toList ++ "[/green]".toList) := by
    simp only [String.toList_append, List.append_assoc]
  have hfirst (fuel : Nat) (cs : List Char) :
      plainFrom (fuel + 1) 0 [] ("[green]".toList ++ cs) = plainFrom fuel 7 ["green"] cs := by
    cases h : plainFrom fuel 7 ["green"] cs <;>
      simp [plainFrom, tag?, beginsTag, h, hstyle, bind, Except.bind, pure, Except.pure]
  have hlast (fuel position : Nat) : plainFrom (fuel + 2) position ["green"] "[/green]".toList = .ok [] := by
    simp [plainFrom, tag?, beginsTag, takeOff?, hstyle, bind, Except.bind, pure, Except.pure]
  rw [plain, hlength, htext, hfirst, plainFrom_append 15 _ h, hlast]
  simp [Except.map]

/-- The styles of a message for a verbose console are on for all of it; the second is taken for a style as well. -/
theorem plain_debug {s : String} (h : ∀ c ∈ s.toList, c ≠ '[' ∧ c ≠ '\\') :
    plain ("[dim][debug] " ++ s ++ "[/dim]") = .ok (" " ++ s) := by
  have hdim : styleName ['d', 'i', 'm'] = "dim" := styleName_eq (by decide)
  have hdebug : styleName ['d', 'e', 'b', 'u', 'g'] = "debug" := styleName_eq (by decide)
  have hlength : ("[dim][debug] " ++ s ++ "[/dim]").length + 1 = (' ' :: s.toList).length + 17 + 2 := by
    have hfirst : "[dim][debug] ".length = 13 := by decide
    have hlast : "[/dim]".length = 6 := by decide
    rw [String.length_append, String.length_append, hfirst, hlast, List.length_cons, String.length_toList]
    omega
  have htext : ("[dim][debug] " ++ s ++ "[/dim]").toList = "[dim][debug]".toList ++ ((' ' :: s.toList) ++ "[/dim]".toList) := by
    simp only [String.toList_append, List.append_assoc]
    rfl
  have hfirst (fuel : Nat) (cs : List Char) :
      plainFrom (fuel + 2) 0 [] ("[dim][debug]".toList ++ cs) = plainFrom fuel 12 ["debug", "dim"] cs := by
    cases h : plainFrom fuel 12 ["debug", "dim"] cs <;>
      simp [plainFrom, tag?, beginsTag, h, hdim, hdebug, bind, Except.bind, pure, Except.pure]
  have hlast (fuel position : Nat) : plainFrom (fuel + 2) position ["debug", "dim"] "[/dim]".toList = .ok [] := by
    simp [plainFrom, tag?, beginsTag, takeOff?, hdim, bind, Except.bind, pure, Except.pure]
  have hplain : ∀ c ∈ ' ' :: s.toList, c ≠ '[' ∧ c ≠ '\\' := List.forall_mem_cons.2 ⟨by decide, h⟩
  rw [plain, hlength, htext, hfirst, plainFrom_append 17 _ hplain, hlast]
  simp [Except.map]

end Markup

/-! ## Messages -/

namespace Console

open Act

variable (c : Console)

/-- A message as it is said, with the end of its line. -/
def line? (marked plain : String) : Option String :=
  if c.plainMessages then some (plain ++ "\n") else (Markup.plain marked).toOption.map (· ++ "\n")

def infoText? (message : String) : Option String := if c.quiet then some "" else c.line? message message

def successText? (message : String) : Option String :=
  if c.quiet then some "" else c.line? s!"[green]{message}[/green]" message

def debugText? (message : String) : Option String :=
  if c.verbose then c.line? s!"[dim][debug] {message}[/dim]" s!"[debug] {message}" else some ""

def errorText? (message : String) : Option String := c.line? s!"[bold red]Error:[/bold red] {message}" s!"Error: {message}"

def warningText? (w : Warning) : Option String :=
  let message := s!"{w.code.text} at {w.path}: {w.message}"
  c.line? s!"[yellow]Warning:[/yellow] {message}" s!"Warning: {message}"

def warningLines? : List Warning → Option String
  | [] => some ""
  | w :: ws => andThen (c.warningText? w) (warningLines? ws)

/-- What is said of warnings: one JSON value, or a line for each. -/
def warningsText? (ws : Warnings) : Option String :=
  if ws.isEmpty then some ""
  else match c.format with
    | .json => some ((Json.object [("warnings", .list (ws.map warningRecord))]).write .record ++ "\n")
    | _ => c.warningLines? ws

theorem warningsText?_lines (h : c.format ≠ .json) (ws : Warnings) : c.warningsText? ws = c.warningLines? ws := by
  unfold warningsText?
  cases ws with
  | nil => rfl
  | cons x ws =>
    cases hformat : c.format with
    | json => exact absurd hformat h
    | _ => rfl

theorem say_speaks (marked plain : String) : Speaks (c.say marked plain) (c.line? marked plain) := by
  unfold say line?
  split
  · exact fun _ => rfl
  · cases Markup.plain marked with
    | ok text => exact fun _ => rfl
    | error message => exact ⟨_, "", fun _ => by rw [String.append_empty]; rfl⟩

theorem info_speaks (message : String) : Speaks (c.info message) (c.infoText? message) := by
  unfold info infoText?
  split
  · exact .silent
  · exact c.say_speaks _ _

theorem success_speaks (message : String) : Speaks (c.success message) (c.successText? message) := by
  unfold success successText?
  split
  · exact .silent
  · exact c.say_speaks _ _

theorem debug_speaks (message : String) : Speaks (c.debug message) (c.debugText? message) := by
  unfold debug debugText?
  split
  · exact c.say_speaks _ _
  · exact .silent

theorem error_speaks (message : String) : Speaks (c.error message) (c.errorText? message) := c.say_speaks _ _

theorem warningLines_speaks : ∀ ws : List Warning, Speaks (c.warningLines ws) (c.warningLines? ws)
  | [] => .silent
  | _ :: ws => (c.say_speaks _ _).bind (warningLines_speaks ws)

theorem warnings_speaks (ws : Warnings) : Speaks (c.warnings ws) (c.warningsText? ws) := by
  unfold warnings warningsText?
  split
  · exact .silent
  · cases c.format with
    | json => exact fun _ => rfl
    | _ => exact c.warningLines_speaks ws

/-- A failure is reported by its warnings and its message. -/
theorem perform_report {α : Type} {f : Failure} {warned told : String} (hws : c.warningsText? f.warnings = some warned)
    (herror : c.errorText? f.message = some told) (w : Session) :
    (c.report f : Act α).perform w = (.error (.ended f.exitCode), { w with stderr := w.stderr ++ warned ++ told }) := by
  have hwarnings := c.warnings_speaks f.warnings
  have hmessage := c.error_speaks f.message
  rw [hws] at hwarnings
  rw [herror] at hmessage
  rw [report, perform_bind_ok (hwarnings w), perform_bind_ok (hmessage _)]
  rfl

/-- A failure is not reported if its warnings or its message cannot be said. -/
theorem perform_report_mute {α : Type} {f : Failure}
    (h : c.warningsText? f.warnings = none ∨ c.errorText? f.message = none) (w : Session) :
    ∃ e said, (c.report f : Act α).perform w = (.error (.crashed e), { w with stderr := w.stderr ++ said }) := by
  have hspeaks := (c.warnings_speaks f.warnings).bind (c.error_speaks f.message)
  have hnone : andThen (c.warningsText? f.warnings) (c.errorText? f.message) = none := by
    rcases h with h | h
    · rw [h]
      rfl
    · rw [h]
      cases c.warningsText? f.warnings <;> rfl
  rw [hnone] at hspeaks
  obtain ⟨e, said, hcrash⟩ := hspeaks
  refine ⟨e, said, ?_⟩
  have hreport : (c.report f : Act α) =
      (c.warnings f.warnings >>= fun _ => c.error f.message) >>= fun _ => throw (.ended f.exitCode) := by
    rw [report, bind_assoc]
  rw [hreport, perform_bind_error (hcrash w)]

theorem perform_reporting_ok {α : Type} {x : Act α} {a : α} {w v : Session} (h : x.perform w = (.ok a, v)) :
    (c.reporting x).perform w = (.ok a, v) := by
  rw [reporting, perform_tryCatch, h]

theorem perform_reporting_failed {α : Type} {x : Act α} {f : Failure} {w v : Session}
    (h : x.perform w = (.error (.failed f), v)) : (c.reporting x).perform w = (c.report f).perform v := by
  rw [reporting, perform_tryCatch, h]

theorem perform_reporting_crashed {α : Type} {x : Act α} {e : Crash} {w v : Session}
    (h : x.perform w = (.error (.crashed e), v)) : (c.reporting x).perform w = (.error (.crashed e), v) := by
  rw [reporting, perform_tryCatch, h]
  rfl

/-- A message without brackets can always be said. -/
theorem infoText?_of_not_mem {message : String} (h : '[' ∉ message.toList) :
    c.infoText? message = some (if c.quiet then "" else message ++ "\n") := by
  unfold infoText? line?
  rw [Markup.plain_of_not_mem h]
  split
  · rfl
  · split <;> rfl

/-- A message of success can be said that neither begins a tag nor keeps one from beginning. -/
theorem successText?_of_plain {message : String} (h : ∀ c ∈ message.toList, c ≠ '[' ∧ c ≠ '\\') :
    c.successText? message = some (if c.quiet then "" else message ++ "\n") := by
  unfold successText? line?
  split
  · rfl
  · split
    · rfl
    · exact congrArg (fun r => (Except.toOption r).map (· ++ "\n")) (Markup.plain_success h)

/-- Without styles everything can be said. -/
theorem line?_plain (h : c.plainMessages = true) (marked plain : String) : c.line? marked plain = some (plain ++ "\n") := by
  rw [line?, if_pos h]

/-- A warning without brackets is said as it is. -/
theorem warningText?_of_not_mem {x : Warning} (h : '[' ∉ (s!"{x.code.text} at {x.path}: {x.message}").toList) :
    c.warningText? x = some (s!"Warning: {x.code.text} at {x.path}: {x.message}" ++ "\n") := by
  have hassoc : "Warning: " ++ s!"{x.code.text} at {x.path}: {x.message}" =
      s!"Warning: {x.code.text} at {x.path}: {x.message}" := by
    simp only [toString, String.append_assoc]
  rw [← hassoc]
  unfold warningText? line?
  dsimp only
  split
  · rfl
  · exact congrArg (fun r => (Except.toOption r).map (· ++ "\n")) (Markup.plain_warning h)

/-! ## Tables -/

/-- The text of lines, each with its end. -/
def unlines : List String → String
  | [] => ""
  | l :: ls => l ++ "\n" ++ unlines ls

/-- The text of a table. -/
def tableText (headers : List String) (rows : List (List String)) : String :=
  match c.format with
  | .json => (Json.list (rows.map (record headers))).write .document ++ "\n"
  | _ => unlines ((headers :: rows).map fun row => "\t".intercalate row)

theorem perform_lines (ls : List String) (w : Session) :
    (c.lines ls).perform w = (.ok (), { w with stdout := w.stdout ++ unlines ls }) := by
  induction ls generalizing w with
  | nil => rw [lines, perform_pure, unlines, String.append_empty]
  | cons l ls ih =>
    rw [lines, data, out, perform_bind_ok (perform_change _ _), ih, unlines]
    simp only [String.append_assoc]

theorem perform_table (headers : List String) (rows : List (List String)) (w : Session) :
    (c.table headers rows).perform w = (.ok (), { w with stdout := w.stdout ++ c.tableText headers rows }) := by
  unfold table tableText
  cases c.format with
  | json => rfl
  | _ => exact c.perform_lines _ w

/-- The file that a document is written to, if one is named: by itself, or else for the whole console. -/
def file? (path : Option String) : Option String := (path.filter (· ≠ "")).or (c.outputFile.filter (· ≠ ""))

end Console
end ApiProjection
