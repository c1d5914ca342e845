import ApiProjection.Proofs.Session
/-!
# Heedless acts

Two acts *end alike* if nothing but what has been said tells their ends apart, and an act is *heedless* if it does the
same whatever has been said before and whether or not what happens is logged. It may write files, ask questions and end
the run, as long as what it does with them comes from the rest of the session. All that a run is made of is heedless:
two runs differ only by what they are told.

* `Act.AlikeFrom.bind`, `Act.Heedless.bind`: acts one after another.
-/
namespace ApiProjection

/-! ## Sessions -/

namespace Session

/-- Two sessions differ only in what has been said and whether what happens is logged. -/
def Same (w w' : Session) : Prop := ∃ said logging, w' = { w with stderr := said, logging := logging }

variable {w w' v : Session}

theorem Same.disk (h : Same w w') : w'.disk = w.disk := by
  obtain ⟨said, logging, rfl⟩ := h
  rfl

theorem Same.stdout (h : Same w w') : w'.stdout = w.stdout := by
  obtain ⟨said, logging, rfl⟩ := h
  rfl

theorem Same.refl (w : Session) : Same w w := ⟨w.stderr, w.logging, rfl⟩

theorem Same.symm (h : Same w w') : Same w' w := by
  obtain ⟨said, logging, rfl⟩ := h
  exact ⟨w.stderr, w.logging, rfl⟩

theorem Same.trans (h : Same w w') (h' : Same w' v) : Same w v := by
  obtain ⟨said, logging, rfl⟩ := h
  obtain ⟨said', logging', rfl⟩ := h'
  exact ⟨said', logging', rfl⟩

end Session

namespace Act

open Session

variable {α β γ δ : Type}

/-! ## Acts that end alike -/

/-- Results that are related, or the same stop. -/
inductive Matches (R : α → β → Prop) : Except Stop α → Except Stop β → Prop
  | ok {a : α} {b : β} (h : R a b) : Matches R (.ok a) (.ok b)
  | error (e : Stop) : Matches R (.error e) (.error e)

theorem Matches.eq {r s : Except Stop α} (h : Matches Eq r s) : r = s := by
  cases h with
  | ok h => rw [h]
  | error e => rfl

/-- Two acts end alike in two sessions: with related results, or the same stop, and with sessions that differ only in
what has been said. -/
def AlikeFrom (w w' : Session) (R : α → β → Prop) (x : Act α) (y : Act β) : Prop :=
  Matches R (x.perform w).1 (y.perform w').1 ∧ Same (x.perform w).2 (y.perform w').2

/-- Two acts end alike wherever the messages before them are the only difference. -/
def Alike (R : α → β → Prop) (x : Act α) (y : Act β) : Prop :=
  ∀ w w', Same w w' → Matches R (x.perform w).1 (y.perform w').1 ∧ Same (x.perform w).2 (y.perform w').2

namespace AlikeFrom

variable {w w' : Session} {R : α → β → Prop} {S : γ → δ → Prop}

/-- What follows two acts has to end alike only where they lead. -/
theorem bind {x : Act α} {y : Act β} {f : α → Act γ} {g : β → Act δ} (hx : AlikeFrom w w' R x y)
    (hf : ∀ a b v v', x.perform w = (.ok a, v) → R a b → Same v v' → AlikeFrom v v' S (f a) (g b)) :
    AlikeFrom w w' S (x >>= f) (y >>= g) := by
  obtain ⟨hresult, hsame⟩ := hx
  rcases hp : x.perform w with ⟨r, v⟩
  rcases hq : y.perform w' with ⟨s, v'⟩
  rw [hp, hq] at hresult hsame
  dsimp only at hresult hsame
  cases hresult with
  | ok h =>
    rw [AlikeFrom, perform_bind_ok hp, perform_bind_ok hq]
    exact hf _ _ v v' hp h hsame
  | error e =>
    rw [AlikeFrom, perform_bind_error hp, perform_bind_error hq]
    exact ⟨.error e, hsame⟩

/-- Acts that end alike may be caught by what ends alike for each of their stops. -/
theorem tryCatch {x y : Act α} {h h' : Stop → Act α} (hx : AlikeFrom w w' Eq x y)
    (hh : ∀ e v v', x.perform w = (.error e, v) → Same v v' → AlikeFrom v v' Eq (h e) (h' e)) :
    AlikeFrom w w' Eq (MonadExcept.tryCatch x h) (MonadExcept.tryCatch y h') := by
  obtain ⟨hresult, hsame⟩ := hx
  rw [AlikeFrom, perform_tryCatch, perform_tryCatch]
  rcases hp : x.perform w with ⟨r, v⟩
  rcases hq : y.perform w' with ⟨s, v'⟩
  rw [hp, hq] at hresult hsame
  dsimp only at hresult hsame
  cases hresult with
  | ok h => exact ⟨.ok h, hsame⟩
  | error e => exact hh e v v' hp hsame

end AlikeFrom

namespace Alike

variable {R : α → β → Prop} {S : γ → δ → Prop} {x : Act α} {y : Act β} {f : α → Act γ} {g : β → Act δ}

theorem pure {a : α} {b : β} (h : R a b) : Alike R (Pure.pure a) (Pure.pure b) := fun _ _ hw => ⟨.ok h, hw⟩

theorem throw (e : Stop) : Alike R (MonadExcept.throw e) (MonadExcept.throw e) := fun _ _ hw => ⟨.error e, hw⟩

theorem bind (hx : Alike R x y) (hf : ∀ a b, R a b → Alike S (f a) (g b)) : Alike S (x >>= f) (y >>= g) :=
  fun w w' hw => AlikeFrom.bind (hx w w' hw) fun a b v v' _ h hv => hf a b h v v' hv

/-- What is logged makes no difference. -/
theorem log (part message part' message' : String) : Alike Eq (Act.log part message) (Act.log part' message') := by
  intro w w' hw
  have hlog (part message : String) (v : Session) : Same v ((Act.log part message).perform v).2 := by
    rw [Act.log, perform_change]
    split
    · exact ⟨_, _, rfl⟩
    · exact .refl v
  exact ⟨.ok rfl, (hlog _ _ w).symm.trans (hw.trans (hlog _ _ w'))⟩

end Alike

/-! ## Heedless acts -/

/-- An act that does not depend on the messages before it. -/
def Heedless (x : Act α) : Prop := Alike Eq x x

namespace Heedless

theorem pure (a : α) : Heedless (Pure.pure a : Act α) := Alike.pure rfl

theorem throw (e : Stop) : Heedless (MonadExcept.throw e : Act α) := Alike.throw e

theorem bind {x : Act α} {f : α → Act β} (hx : Heedless x) (hf : ∀ a, Heedless (f a)) : Heedless (x >>= f) :=
  Alike.bind hx fun a _ h => h ▸ hf a

/-- The result of a heedless act does not depend on the messages before it. -/
theorem result_eq {x : Act α} {w w' : Session} (hx : Heedless x) (h : Same w w') : (x.perform w).1 = (x.perform w').1 :=
  (hx w w' h).1.eq

/-- A change of the session in which messages do not count. -/
theorem change {f : Session → Session} (h : ∀ w w', Same w w' → Same (f w) (f w')) : Heedless (Act.change f) :=
  fun w w' hw => ⟨.ok rfl, h w w' hw⟩

/-- An act that looks at the session, apart from the messages. -/
theorem session {f : Session → Act α} (hf : ∀ w, Heedless (f w))
    (hsame : ∀ w said logging, f { w with stderr := said, logging := logging } = f w) : Heedless (Act.session >>= f) := by
  intro w w' hw
  rw [perform_bind_ok (perform_session w), perform_bind_ok (perform_session w')]
  have hwhole := hf w w w' hw
  obtain ⟨said, logging, rfl⟩ := hw
  rwa [hsame w said logging]

theorem out (s : String) : Heedless (Act.out s) := by
  refine change ?_
  rintro w _ ⟨said, logging, rfl⟩
  exact ⟨said, logging, rfl⟩

theorem err (s : String) : Heedless (Act.err s) := by
  refine change ?_
  rintro w _ ⟨said, logging, rfl⟩
  exact ⟨said ++ s, logging, rfl⟩

theorem look (f : Disk → Except FileError α) : Heedless (Act.look f) := by
  refine session (fun w => ?_) fun _ _ _ => rfl
  cases f w.disk with
  | ok a => exact pure a
  | error e => exact throw _

theorem setDisk (d : Disk) : Heedless (Act.change fun w => { w with disk := d }) := by
  refine change ?_
  rintro w _ ⟨said, logging, rfl⟩
  exact ⟨said, logging, rfl⟩

theorem alter (f : Disk → Except FileError Disk) : Heedless (Act.alter f) :=
  (look f).bind setDisk

theorem replace (path : PathName) (text : String) : Heedless (Act.replace path text) := by
  refine session (fun w => (setDisk _).bind fun _ => ?_) fun _ _ _ => rfl
  cases (w.disk.replaceWith w.tag .none path (Utf8.encode text)).error with
  | some e => exact throw _
  | none => exact pure ()

theorem line? : Heedless Act.line? := by
  refine session (fun w => ?_) fun _ _ _ => rfl
  dsimp only
  split
  · exact pure none
  · refine (change ?_).bind fun _ => pure _
    rintro v _ ⟨said, logging, rfl⟩
    exact ⟨said, logging, rfl⟩

end Heedless
end Act
end ApiProjection
