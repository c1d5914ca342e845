import Mathlib
import ApiProjection.Command.Program
/-!
# Options that decide how much is said

The options `--quiet` and `--verbose` of the program may be put in or left out among its other options without a change
of what the program takes the arguments for, but for how much it says.

* `Command.gather_agree`: what is gathered respects whatever the options respect.
* `Command.Program.revoiced_of_added`: such an option put in or left out.
-/
namespace ApiProjection.Command

/-! ## What options respect -/

section
variable {σ : Type} {α β : Type}

/-- Results that are related, or the same misuse. -/
inductive Agree (P : α → β → Prop) : Except Misuse α → Except Misuse β → Prop
  | ok {a : α} {b : β} (h : P a b) : Agree P (.ok a) (.ok b)
  | error (m : Misuse) : Agree P (.error m) (.error m)

theorem Agree.symm {P : α → β → Prop} {Q : β → α → Prop} {x : Except Misuse α} {y : Except Misuse β}
    (h : Agree P x y) (hQ : ∀ a b, P a b → Q b a) : Agree Q y x := by
  cases h with
  | ok h => exact .ok (hQ _ _ h)
  | error m => exact .error m

theorem Agree.trans {γ : Type} {P : α → β → Prop} {Q : β → γ → Prop} {S : α → γ → Prop} {x : Except Misuse α}
    {y : Except Misuse β} {z : Except Misuse γ} (h : Agree P x y) (h' : Agree Q y z)
    (hS : ∀ a b c, P a b → Q b c → S a c) : Agree S x z := by
  cases h with
  | ok h =>
    cases h' with
    | ok h' => exact .ok (hS _ _ _ h h')
  | error m =>
    cases h' with
    | error => exact .error m

/-- Options are related, and all else that has been gathered is the same. -/
structure Gathered.Related (R : σ → σ → Prop) (g g' : Gathered σ) : Prop where
  options : R g.options g'.options
  operands : g.operands = g'.operands
  asked : g.asked = g'.asked

/-- Whether an effect takes related options to related options. -/
def Effect.Respects (R : σ → σ → Prop) : Effect σ → Prop
  | .mark f => ∀ o o', R o o' → R (f o) (f o')
  | .take f => ∀ v o o', R o o' → R (f v o) (f v o')
  | .ask _ => True

/-- What has been read up to a value that may be waited for: the same option waits for it. -/
def Paused (R : σ → σ → Prop) (r r' : Gathered σ × Option (Waiting σ)) : Prop :=
  r.1.Related R r'.1 ∧ r.2 = r'.2 ∧ ∀ x ∈ r.2, ∀ v o o', R o o' → R (x.take v o) (x.take v o')

variable {R : σ → σ → Prop} {g g' : Gathered σ} {switches : List (Switch σ)}

theorem Gathered.Related.put {o o' : σ} (h : g.Related R g') (ho : R o o') :
    Gathered.Related R { g with options := o } { g' with options := o' } := ⟨ho, h.operands, h.asked⟩

theorem Gathered.Related.ask (h : g.Related R g') (r : Request) :
    Gathered.Related R { g with asked := g.asked.or r } { g' with asked := g'.asked.or r } :=
  ⟨h.options, h.operands, by rw [h.asked]⟩

theorem Paused.done (h : g.Related R g') : Paused R (g, none) (g', none) := ⟨h, rfl, by simp⟩

theorem Paused.wait {name : String} {f : String → σ → σ} (h : g.Related R g') (hf : (Effect.take f).Respects R) :
    Paused R (g, some ⟨name, f⟩) (g', some ⟨name, f⟩) := by
  refine ⟨h, rfl, fun x hx => ?_⟩
  cases hx
  exact hf

theorem readLong_agree {e : Effect σ} (he : e.Respects R) (h : g.Related R g') (name : String) (value : Option String) :
    Agree (Paused R) (Switch.readLong name value g e) (Switch.readLong name value g' e) := by
  cases e with
  | mark f =>
    rw [Switch.readLong, Switch.readLong]
    split
    · exact .error _
    · exact .ok (.done (h.put (he _ _ h.options)))
  | take f =>
    cases value with
    | none => exact .ok (.wait h he)
    | some v => exact .ok (.done (h.put (he v _ _ h.options)))
  | ask r =>
    rw [Switch.readLong, Switch.readLong]
    split
    · exact .error _
    · exact .ok (.done (h.ask r))

theorem respects_of_named? (hs : ∀ s ∈ switches, s.effect.Respects R) {name : String} {s : Switch σ}
    (h : Switch.named? switches name = some s) : s.effect.Respects R := hs s (List.mem_of_find?_eq_some h)

theorem readShort_agree (hs : ∀ s ∈ switches, s.effect.Respects R) (h : g.Related R g') (cs : List Char) :
    Agree (Paused R) (Switch.readShort switches g cs) (Switch.readShort switches g' cs) := by
  induction cs generalizing g g' with
  | nil => exact .ok (.done h)
  | cons c cs ih =>
    rw [Switch.readShort, Switch.readShort]
    cases hs' : Switch.named? switches (String.ofList ['-', c]) with
    | none => exact .error _
    | some s =>
      have he := respects_of_named? hs hs'
      rw [Option.map_some]
      generalize s.effect = e at he
      cases e with
      | mark f => exact ih (h.put (he _ _ h.options))
      | ask r => exact ih (h.ask r)
      | take f =>
        dsimp only
        split
        · exact .ok (.wait h he)
        · exact .ok (.done (h.put (he _ _ _ h.options)))

theorem read_agree (hs : ∀ s ∈ switches, s.effect.Respects R) (h : g.Related R g') (arg : String) :
    Agree (Paused R) (Switch.read switches g arg) (Switch.read switches g' arg) := by
  rw [Switch.read, Switch.read]
  split
  · dsimp only
    cases hs' : Switch.named? switches (Switch.splitValue arg).1 with
    | none => exact .error _
    | some s => exact readLong_agree (respects_of_named? hs hs') h _ _
  · exact readShort_agree hs h _

/-- What is gathered from arguments is related if it was before and all options respect that. -/
theorem gather_agree (hs : ∀ s ∈ switches, s.effect.Respects R) (mixed : Bool) {waiting : Option (Waiting σ)}
    (hwaiting : ∀ x ∈ waiting, ∀ v o o', R o o' → R (x.take v o) (x.take v o')) (h : g.Related R g')
    (args : List String) :
    Agree (Gathered.Related R) (gather switches mixed waiting g args) (gather switches mixed waiting g' args) := by
  induction args generalizing waiting g g' with
  | nil =>
    cases waiting with
    | none => exact .ok h
    | some x => exact .error _
  | cons arg args ih =>
    cases waiting with
    | some x => exact ih (by simp) (h.put (hwaiting x rfl _ _ _ h.options))
    | none =>
      rw [gather, gather]
      split
      · exact .ok ⟨h.options, by rw [h.operands], h.asked⟩
      · split
        · have hread := read_agree hs h arg
          generalize Switch.read switches g arg = r at hread
          generalize Switch.read switches g' arg = r' at hread
          cases hread with
          | error m => exact .error m
          | ok hpaused =>
            rename_i r r'
            obtain ⟨g₁, waiting⟩ := r
            obtain ⟨g₁', waiting'⟩ := r'
            obtain ⟨hrelated, rfl, hwaits⟩ := hpaused
            exact ih hwaits hrelated
        · split
          · exact ih (by simp) ⟨h.options, by rw [h.operands], h.asked⟩
          · exact .ok ⟨h.options, by rw [h.operands], h.asked⟩

end

/-! ## Quiet and verbose -/

namespace Program

/-- Options that differ at most in how much is said. -/
def Differ (o o' : ProgramOptions) : Prop := ∃ quiet verbose, o' = { o with quiet, verbose }

theorem Differ.refl (o : ProgramOptions) : Differ o o := ⟨o.quiet, o.verbose, rfl⟩

theorem Differ.symm {o o' : ProgramOptions} (h : Differ o o') : Differ o' o := by
  obtain ⟨quiet, verbose, rfl⟩ := h
  exact ⟨o.quiet, o.verbose, rfl⟩

theorem Differ.trans {o o' o'' : ProgramOptions} (h : Differ o o') (h' : Differ o' o'') : Differ o o'' := by
  obtain ⟨quiet, verbose, rfl⟩ := h
  obtain ⟨quiet', verbose', rfl⟩ := h'
  exact ⟨quiet', verbose', rfl⟩

theorem switches_respect : ∀ s ∈ group.allSwitches, s.effect.Respects Differ := by
  have hall : ∀ s ∈ switches, s.effect.Respects Differ := by
    simp only [switches, List.forall_mem_cons, Effect.Respects, true_and]
    refine ⟨?_, ?_, ?_, ?_, ?_, ?_, ?_, by simp⟩
    all_goals
      first
      | rintro o _ ⟨quiet, verbose, rfl⟩
        exact ⟨_, _, rfl⟩
      | rintro v o _ ⟨quiet, verbose, rfl⟩
        exact ⟨_, _, rfl⟩
  intro s hs
  rcases List.mem_append.1 hs with hs | hs
  · exact hall s hs
  · rw [List.mem_singleton.1 hs]
    trivial

/-! ## Options put in and left out -/

/-- The options that decide how much is said. -/
def voices : List String := ["--quiet", "-q", "--verbose", "-v"]

/-- Arguments that are options of the program, each with its value if it takes one. -/
inductive Opening : List String → Prop
  | nil : Opening []
  | lone {arg : String} {rest : List String} (hdash : arg ≠ "--") (hoption : Switch.isOption arg = true)
      (hread : ∀ g, ∃ g₁, Switch.read group.allSwitches g arg = .ok (g₁, none)) (hrest : Opening rest) :
      Opening (arg :: rest)
  | valued {arg : String} {rest : List String} (hdash : arg ≠ "--") (hoption : Switch.isOption arg = true)
      (hread : ∀ g, ∃ g₁ x, Switch.read group.allSwitches g arg = .ok (g₁, some x)) (value : String)
      (hrest : Opening rest) : Opening (arg :: value :: rest)

/-- One more option on how much is said. -/
inductive Added : List String → List String → Prop
  | intro {front : List String} (hfront : Opening front) {voice : String} (hvoice : voice ∈ voices) (name : String)
      (rest : List String) : Added (front ++ name :: rest) (front ++ voice :: name :: rest)

/-- What is gathered from the arguments of the program. -/
def gathered (waiting : Option (Waiting ProgramOptions)) (g : Gathered ProgramOptions) (args : List String) :
    Except Misuse (Gathered ProgramOptions) :=
  gather group.allSwitches false waiting g args

/-- Calls of which the program makes the same but for how much is said. -/
structure Revoiced (args args' : List String) : Prop where
  agree : Agree (Gathered.Related Differ) (gathered none ⟨{}, [], none⟩ args) (gathered none ⟨{}, [], none⟩ args')
  bare : args = [] ↔ args' = []

theorem read_voice {voice : String} (h : voice ∈ voices) (g : Gathered ProgramOptions) :
    voice ≠ "--" ∧ Switch.isOption voice = true ∧ ∃ o, Differ g.options o ∧
      Switch.read group.allSwitches g voice = .ok ({ g with options := o }, none) := by
  simp only [voices, List.mem_cons, List.not_mem_nil, or_false] at h
  rcases h with rfl | rfl | rfl | rfl
  · exact ⟨by decide, by cbv, _, ⟨_, _, rfl⟩, by cbv⟩
  · exact ⟨by decide, by cbv, _, ⟨_, _, rfl⟩, by cbv⟩
  · exact ⟨by decide, by cbv, _, ⟨_, _, rfl⟩, by cbv⟩
  · exact ⟨by decide, by cbv, _, ⟨_, _, rfl⟩, by cbv⟩

theorem gathered_option {arg : String} {g g₁ : Gathered ProgramOptions} {waiting : Option (Waiting ProgramOptions)}
    (hdash : arg ≠ "--") (hoption : Switch.isOption arg = true)
    (hread : Switch.read group.allSwitches g arg = .ok (g₁, waiting)) (args : List String) :
    gathered none g (arg :: args) = gathered waiting g₁ args := by
  rw [gathered, gather, if_neg hdash, if_pos hoption, hread]
  rfl

theorem gathered_agree {g g' : Gathered ProgramOptions} (h : g.Related Differ g') (args : List String) :
    Agree (Gathered.Related Differ) (gathered none g args) (gathered none g' args) :=
  gather_agree switches_respect false (by simp) h args

/-- What agrees behind options agrees with them. -/
theorem Opening.agree {front rest rest' : List String} (hfront : Opening front)
    (hrest : ∀ g g' : Gathered ProgramOptions, g.Related Differ g' →
      Agree (Gathered.Related Differ) (gathered none g rest) (gathered none g' rest'))
    {g g' : Gathered ProgramOptions} (h : g.Related Differ g') :
    Agree (Gathered.Related Differ) (gathered none g (front ++ rest)) (gathered none g' (front ++ rest')) := by
  induction hfront generalizing g g' with
  | nil => exact hrest g g' h
  | @lone arg front hdash hoption hread _ ih =>
    obtain ⟨g₁, hg₁⟩ := hread g
    obtain ⟨g₁', hg₁'⟩ := hread g'
    have hagree := read_agree switches_respect h arg
    rw [hg₁, hg₁'] at hagree
    cases hagree with
    | ok hpaused =>
      rw [List.cons_append, List.cons_append, gathered_option hdash hoption hg₁, gathered_option hdash hoption hg₁']
      exact ih hpaused.1
  | @valued arg front hdash hoption hread value _ ih =>
    obtain ⟨g₁, x, hg₁⟩ := hread g
    obtain ⟨g₁', x', hg₁'⟩ := hread g'
    have hagree := read_agree switches_respect h arg
    rw [hg₁, hg₁'] at hagree
    cases hagree with
    | ok hpaused =>
      obtain ⟨hrelated, hx, hrespects⟩ := hpaused
      cases hx
      simp only [List.cons_append]
      rw [gathered_option hdash hoption hg₁, gathered_option hdash hoption hg₁']
      exact ih (hrelated.put (hrespects x rfl value _ _ hrelated.options))

theorem revoiced_of_added {args args' : List String} (h : Added args args') : Revoiced args args' := by
  obtain ⟨hfront, hvoice, name, rest⟩ := h
  refine ⟨hfront.agree (fun g g' hrelated => ?_) ⟨.refl _, rfl, rfl⟩, by simp⟩
  obtain ⟨hdash, hoption, o, ho, hread⟩ := read_voice hvoice g'
  have hadded : g.Related Differ { g' with options := o } :=
    ⟨hrelated.options.trans ho, hrelated.operands, hrelated.asked⟩
  rw [gathered_option hdash hoption hread]
  exact gathered_agree hadded _

theorem Revoiced.refl (args : List String) : Revoiced args args :=
  ⟨gathered_agree ⟨.refl _, rfl, rfl⟩ args, .rfl⟩

theorem Revoiced.symm {args args' : List String} (h : Revoiced args args') : Revoiced args' args :=
  ⟨h.agree.symm fun _ _ h => ⟨h.options.symm, h.operands.symm, h.asked.symm⟩, h.bare.symm⟩

theorem Revoiced.trans {args args' args'' : List String} (h : Revoiced args args') (h' : Revoiced args' args'') :
    Revoiced args args'' :=
  ⟨h.agree.trans h'.agree fun _ _ _ h h' =>
    ⟨h.options.trans h'.options, h.operands.trans h'.operands, h.asked.trans h'.asked⟩, h.bare.trans h'.bare⟩

/-- **Options on how much is said may be put in and left out** wherever options of the program may stand. -/
theorem revoiced_of_eqvGen {args args' : List String} (h : Relation.EqvGen Added args args') : Revoiced args args' := by
  induction h with
  | rel _ _ h => exact revoiced_of_added h
  | refl args => exact .refl args
  | symm _ _ _ ih => exact ih.symm
  | trans _ _ _ _ _ ih ih' => exact ih.trans ih'

end Program
end ApiProjection.Command
