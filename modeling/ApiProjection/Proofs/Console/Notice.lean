import ApiProjection.Proofs.Console.Voice
/-!
# Messages that can be turned off

Data, warnings and errors do not depend on how much a console says. What does is called a *notice*: it is said unless the
console is quiet or, if it is for a verbose console only, unless it is not. Two consoles that differ in nothing else come
to the same by a notice, unless only one of them stops at it since it cannot be said.

* `Console.tell_alike`: notices.
* `Console.voiced_warnings`, `Console.voiced_report` and the like: all else.
-/
namespace ApiProjection

open Act Session

/-- Two acts that say something are alike, whatever they say. -/
theorem Act.Speaks.both {x y : Act Unit} {a b : String} (hx : Speaks x (some a)) (hy : Speaks y (some b)) : Alike Eq x y := by
  rintro w _ ⟨before, logging, rfl⟩
  rw [hx w, hy _]
  exact ⟨.ok rfl, _, logging, rfl⟩

/-- A message that can be turned off. -/
inductive Notice
  | debug (message : String)
  | info (message : String)
  | success (message : String)

namespace Notice

def message : Notice → String
  | .debug message | .info message | .success message => message

/-- Whether a notice neither begins a tag nor keeps one from beginning. -/
def Plain (n : Notice) : Prop := ∀ c ∈ n.message.toList, c ≠ '[' ∧ c ≠ '\\'

/-- A notice as it is marked up. -/
def marked : Notice → String
  | .debug message => s!"[dim][debug] {message}[/dim]"
  | .info message => message
  | .success message => s!"[green]{message}[/green]"

def plain : Notice → String
  | .debug message => s!"[debug] {message}"
  | .info message | .success message => message

end Notice

namespace Console

/-- A console that says more or less than another. -/
def voiced (c : Console) (quiet verbose : Bool) : Console := { c with quiet, verbose }

/-! ## Notices -/

/-- Whether a notice is turned off. -/
def hushes (c : Console) : Notice → Bool
  | .debug _ => !c.verbose
  | .info _ | .success _ => c.quiet

/-- What `info` and `success` do by definition, and `debug` too. -/
def tell (c : Console) (n : Notice) : Act Unit := if c.hushes n then pure () else c.say n.marked n.plain

/-- What is said of a notice, if it can be said. -/
def noticeText? (c : Console) (n : Notice) : Option String := if c.hushes n then some "" else c.line? n.marked n.plain

section
variable (c : Console)

theorem debug_eq_tell (message : String) : c.debug message = c.tell (.debug message) := by
  rw [debug, tell, hushes]
  cases c.verbose <;> rfl

theorem tell_speaks (n : Notice) : Speaks (c.tell n) (c.noticeText? n) := by
  unfold tell noticeText?
  split
  · exact .silent
  · exact c.say_speaks _ _

end

variable {c : Console} {quiet verbose : Bool} {n : Notice}

theorem hushes_of_mute (h : c.noticeText? n = none) : c.hushes n = false := by
  unfold noticeText? at h
  split at h
  · cases h
  · rename_i hno
    exact Bool.eq_false_iff.2 hno

/-- A notice that both consoles can say, or neither, makes no difference. -/
theorem tell_alike (h : (c.noticeText? n).isSome = ((c.voiced quiet verbose).noticeText? n).isSome) :
    Alike Eq (c.tell n) ((c.voiced quiet verbose).tell n) := by
  have hspeaks := c.tell_speaks n
  have hspeaks' := (c.voiced quiet verbose).tell_speaks n
  cases htext : c.noticeText? n with
  | some said =>
    rw [htext, Option.isSome_some] at h
    obtain ⟨said', htext'⟩ := Option.isSome_iff_exists.1 h.symm
    rw [htext] at hspeaks
    rw [htext'] at hspeaks'
    exact Speaks.both hspeaks hspeaks'
  | none =>
    rw [htext, Option.isSome_none] at h
    have hmute' := Option.isNone_iff_eq_none.1 (Option.isSome_eq_false_iff.1 h.symm)
    have hsame : (c.voiced quiet verbose).tell n = c.tell n := by
      rw [tell, tell, hushes_of_mute htext, hushes_of_mute hmute']
      rfl
    rw [hsame]
    exact hspeaks.modest.heedless

/-- Where messages have no styles every notice can be said. -/
theorem noticeText?_plain (h : c.plainMessages = true) (n : Notice) : (c.noticeText? n).isSome := by
  rw [noticeText?, c.line?_plain h]
  split <;> rfl

/-- A plain notice can always be said. -/
theorem noticeText?_of_plain (c : Console) (h : n.Plain) : (c.noticeText? n).isSome := by
  have hline : (c.line? n.marked n.plain).isSome := by
    have hmarkup : ∃ text, Markup.plain n.marked = .ok text := by
      cases n with
      | debug message => exact ⟨_, Markup.plain_debug h⟩
      | info message => exact ⟨_, Markup.plain_of_not_mem fun hmem => (h _ hmem).1 rfl⟩
      | success message => exact ⟨_, Markup.plain_success h⟩
    obtain ⟨text, htext⟩ := hmarkup
    rw [line?, htext]
    split <;> rfl
  unfold noticeText?
  split
  · rfl
  · exact hline

theorem tell_alike_of_plain (h : n.Plain) : Alike Eq (c.tell n) ((c.voiced quiet verbose).tell n) :=
  tell_alike ((c.noticeText?_of_plain h).trans ((c.voiced quiet verbose).noticeText?_of_plain h).symm)

/-! ## All else -/

variable (c quiet verbose)

theorem voiced_warningLines (ws : List Warning) : (c.voiced quiet verbose).warningLines ws = c.warningLines ws := by
  induction ws with
  | nil => rfl
  | cons w ws ih =>
    rw [warningLines, warningLines, ih]
    rfl

theorem voiced_warnings (ws : Warnings) : (c.voiced quiet verbose).warnings ws = c.warnings ws := by
  rw [warnings, warnings, voiced_warningLines]
  rfl

theorem voiced_report {α : Type} (f : Failure) : ((c.voiced quiet verbose).report f : Act α) = c.report f := by
  rw [report, report, voiced_warnings]
  rfl

theorem voiced_reporting {α : Type} (x : Act α) : (c.voiced quiet verbose).reporting x = c.reporting x := by
  unfold reporting
  refine congrArg _ (funext fun stop => ?_)
  cases stop with
  | failed f => exact c.voiced_report quiet verbose f
  | _ => rfl

theorem voiced_lines (ls : List String) : (c.voiced quiet verbose).lines ls = c.lines ls := by
  induction ls with
  | nil => rfl
  | cons l ls ih =>
    rw [lines, lines, ih]
    rfl

theorem voiced_value (j : Json) : (c.voiced quiet verbose).value j = c.value j := by
  rw [value, value, voiced_lines]
  rfl

theorem voiced_table (headers : List String) (rows : List (List String)) :
    (c.voiced quiet verbose).table headers rows = c.table headers rows := by
  rw [table, table, voiced_lines]
  rfl

end Console
end ApiProjection
