import ApiProjection.Proofs.Command.Program
import ApiProjection.Proofs.Host.Heedless
/-!
# The steps of commands are heedless

What a command writes, asks and logs does not depend on the messages before it: neither what a console reports, nor
how arguments are read or refused, nor the answers to a question, nor the log of an unexpected error.

* `Console.reporting_alike`: two acts that end alike are reported alike.
* `Command.Form.readGroup_heedless`, `Command.Program.writeLog_heedless` and the like: the steps.
-/
namespace ApiProjection

open Act Session

/-! ## Consoles -/

namespace Console

variable (c : Console)

theorem error_heedless (message : String) : Heedless (c.error message) := (c.error_speaks message).modest.heedless

theorem warnings_heedless (ws : Warnings) : Heedless (c.warnings ws) := (c.warnings_speaks ws).modest.heedless

theorem report_heedless {α : Type} (f : Failure) : Heedless (c.report f : Act α) :=
  (c.warnings_heedless _).bind fun _ => (c.error_heedless _).bind fun _ => .throw _

theorem lines_heedless (ls : List String) : Heedless (c.lines ls) := by
  induction ls with
  | nil => exact .pure ()
  | cons l ls ih => exact (Heedless.out _).bind fun _ => ih

theorem value_heedless (j : Json) : Heedless (c.value j) := by
  unfold value
  split
  · exact c.lines_heedless _
  · exact .out _

theorem table_heedless (headers : List String) (rows : List (List String)) : Heedless (c.table headers rows) := by
  unfold table
  split
  · exact .out _
  · exact c.lines_heedless _

/-- What is reported of two acts that end alike is the same. -/
theorem reporting_alike {α : Type} {w w' : Session} {x y : Act α} (h : AlikeFrom w w' Eq x y) :
    AlikeFrom w w' Eq (c.reporting x) (c.reporting y) := by
  refine AlikeFrom.tryCatch h fun e v v' _ hv => ?_
  cases e with
  | failed f => exact c.report_heedless f v v' hv
  | crashed e => exact Heedless.throw _ v v' hv
  | ended n => exact Heedless.throw _ v v' hv

theorem of_perform_reporting_ok {α : Type} {w v : Session} {x : Act α} {a : α}
    (h : (c.reporting x).perform w = (.ok a, v)) : x.perform w = (.ok a, v) := by
  rw [reporting, perform_tryCatch] at h
  rcases hx : x.perform w with ⟨e | b, u⟩
  · rw [hx] at h
    cases e with
    | failed f =>
      obtain ⟨_, _, -, h⟩ := of_perform_bind_ok h
      obtain ⟨_, _, -, h⟩ := of_perform_bind_ok h
      cases h
    | crashed e => cases h
    | ended n => cases h
  · rw [hx] at h
    exact h

end Console

/-! ## Forms -/

namespace Settings

theorem save_heedless (s : Settings) : Heedless s.save :=
  Heedless.bind file_modest.heedless fun _ => .replace _ _

end Settings

namespace Command

namespace Form

variable {σ : Type} (f : Form σ) {mixed : Bool} {start options : σ} {args operands : List String} {w v : Session}

theorem refuse_heedless {α : Type} (m : Misuse) : Heedless (f.refuse m : Act α) := (Heedless.err _).bind fun _ => .throw _

theorem refuseOperands_heedless {α : Type} (operands : List String) : Heedless (f.refuseOperands operands : Act α) := by
  unfold refuseOperands
  split
  · exact f.refuse_heedless _
  · exact f.refuse_heedless _
  · exact f.refuse_heedless _

theorem gathered_heedless (mixed : Bool) (start : σ) (args : List String) : Heedless (f.gathered mixed start args) := by
  unfold gathered
  cases gather f.allSwitches mixed none ⟨start, [], none⟩ args with
  | error m => exact f.refuse_heedless m
  | ok g =>
    dsimp only
    cases g.asked with
    | none => exact .pure _
    | some r =>
      cases r with
      | help => exact (Heedless.out _).bind fun _ => .throw _
      | version => exact (Heedless.out _).bind fun _ => .throw _

theorem refuseCommand_heedless {α : Type} (start : σ) (name : String) (args : List String) :
    Heedless (f.refuseCommand start name args : Act α) :=
  ((f.gathered_heedless _ _ _).bind fun _ => .pure _).bind fun _ => f.refuse_heedless _

/-- Arguments that are read are what the call takes. -/
theorem takes_of_perform (h : (f.gathered mixed start args).perform w = (.ok (options, operands), v)) :
    f.Takes mixed start args options operands ∧ v = w := by
  rw [gathered] at h
  rw [Takes]
  generalize gather f.allSwitches mixed none ⟨start, [], none⟩ args = r at h ⊢
  cases r with
  | error m => cases h
  | ok g =>
    obtain ⟨o, os, asked⟩ := g
    cases asked with
    | none =>
      cases h
      exact ⟨rfl, rfl⟩
    | some r => cases r <;> cases h

theorem readGroup_heedless (start : σ) (args : List String) : Heedless (f.readGroup start args) := by
  unfold readGroup
  split
  · exact (Heedless.out _).bind fun _ => Alike.bind (R := fun _ _ => False) (Alike.throw _) fun _ _ h => h.elim
  · refine (f.gathered_heedless _ _ _).bind fun x => ?_
    obtain ⟨options, operands⟩ := x
    cases operands with
    | nil => exact f.refuse_heedless _
    | cons name rest => exact .pure _

/-- Arguments with which a group goes on are those of a call of one of its commands. -/
theorem takes_of_perform_readGroup {name : String} {rest : List String}
    (h : (f.readGroup start args).perform w = (.ok (options, name, rest), v)) :
    f.Takes false start args options (name :: rest) ∧ v = w := by
  unfold readGroup at h
  split at h
  · obtain ⟨_, _, -, h⟩ := of_perform_bind_ok h
    cases h
  · obtain ⟨⟨o, operands⟩, u, hgathered, h⟩ := of_perform_bind_ok h
    cases operands with
    | nil => cases h
    | cons name rest =>
      cases h
      exact f.takes_of_perform hgathered

end Form

/-! ## Questions and logs -/

theorem Config.askUpTo_heedless (n : Nat) : Heedless (Config.askUpTo n) := by
  have habort : Heedless (Config.abort : Act Bool) := (Heedless.err _).bind fun _ => .throw _
  induction n with
  | zero => exact habort
  | succ n ih =>
    refine (Heedless.out _).bind fun _ => Heedless.line?.bind fun line => ?_
    cases line with
    | none => exact habort
    | some line =>
      dsimp only
      cases Config.answer? line with
      | some b => exact .pure b
      | none => exact (Heedless.out _).bind fun _ => ih

theorem Config.confirmed_heedless : Heedless Config.confirmed :=
  .session (fun _ => askUpTo_heedless _) fun _ _ _ => rfl

theorem Program.writeLog_heedless (e : Crash) : Heedless (Program.writeLog e) :=
  Heedless.bind Settings.dataFolder_modest.heedless fun _ =>
    Heedless.bind (Settings.madeFolder_modest _).heedless fun _ =>
      .session (fun _ => (Heedless.alter _).bind fun _ => .pure _) fun _ _ _ => rfl

end Command
end ApiProjection
