import ApiProjection.Proofs.Host.Disk
import ApiProjection.Proofs.Host.Heedless
/-!
# Modest acts

Most of what a command does before it writes its document is *modest*: it writes messages and makes folders but no
files, it does not end the run, and its result does not depend on the messages before it. What commands have in
common is shown of modest acts, and two commands are compared step by step (`Act.Alike`).

* `Act.Modest.bind`, `Act.Alike.bind`: acts one after another.
-/
namespace ApiProjection

/-! ## Sessions -/

namespace Session

/-- A session went on to another by messages, reading the standard input and making folders. -/
def Kept (w w' : Session) : Prop :=
  ∃ d stdin said, w.disk.Grown d ∧ w' = { w with disk := d, stdin := stdin, stderr := w.stderr ++ said }

variable {w w' v : Session}

theorem Kept.refl (w : Session) : Kept w w := ⟨w.disk, w.stdin, "", .refl _, by simp⟩

theorem Kept.trans (h : Kept w w') (h' : Kept w' v) : Kept w v := by
  obtain ⟨d, stdin, said, hd, rfl⟩ := h
  obtain ⟨e, left, more, he, rfl⟩ := h'
  exact ⟨e, left, said ++ more, hd.trans he, by simp [String.append_assoc]⟩

theorem Kept.said (w : Session) (said : String) : Kept w { w with stderr := w.stderr ++ said } :=
  ⟨w.disk, w.stdin, said, .refl _, by simp⟩

theorem Kept.grown {d : Disk} (h : w.disk.Grown d) : Kept w { w with disk := d } := ⟨d, w.stdin, "", h, by simp⟩

theorem Kept.disk (h : Kept w w') : w.disk.Grown w'.disk := by
  obtain ⟨d, stdin, said, hd, rfl⟩ := h
  exact hd

theorem Kept.files (h : Kept w w') : w'.disk.files = w.disk.files := h.disk.files

theorem Kept.stdout (h : Kept w w') : w'.stdout = w.stdout := by
  obtain ⟨d, stdin, said, -, rfl⟩ := h
  rfl

end Session

namespace Act

open Session

variable {α β γ δ : Type}

/-! ## Modest acts -/

/-- An act that writes messages and makes folders, does not end the run, and does not depend on the messages
before it. -/
structure Modest (x : Act α) : Prop where
  kept : ∀ w, Kept w (x.perform w).2
  goesOn : ∀ w code, (x.perform w).1 ≠ .error (.ended code)
  heedless : Alike Eq x x

namespace Modest

variable {x : Act α} {f : α → Act β}

theorem pure (a : α) : Modest (Pure.pure a : Act α) where
  kept := Kept.refl
  goesOn _ _ := nofun
  heedless := .pure rfl

theorem fail (kind : FailureKind) (message : String) (warnings : Warnings) :
    Modest (fail kind message warnings : Act α) where
  kept := Kept.refl
  goesOn _ _ := nofun
  heedless := .throw _

theorem failed (e : Failure) : Modest (throw (.failed e) : Act α) where
  kept := Kept.refl
  goesOn _ _ := nofun
  heedless := .throw _

theorem crash (c : Crash) : Modest (crash c : Act α) where
  kept := Kept.refl
  goesOn _ _ := nofun
  heedless := .throw _

theorem bind (hx : Modest x) (hf : ∀ a, Modest (f a)) : Modest (x >>= f) where
  kept w := by
    have hkept := hx.kept w
    rcases hp : x.perform w with ⟨r, w'⟩
    rw [hp] at hkept
    cases r with
    | ok a =>
      rw [perform_bind_ok hp]
      exact hkept.trans ((hf a).kept w')
    | error e =>
      rw [perform_bind_error hp]
      exact hkept
  goesOn w code := by
    have hgoesOn := hx.goesOn w code
    rcases hp : x.perform w with ⟨r, w'⟩
    rw [hp] at hgoesOn
    cases r with
    | ok a =>
      rw [perform_bind_ok hp]
      exact (hf a).goesOn w' code
    | error e =>
      rw [perform_bind_error hp]
      exact fun h => hgoesOn (by cases h; rfl)
  heedless := hx.heedless.bind fun a b h => h ▸ (hf a).heedless

/-- The result of a modest act does not depend on the messages before it. -/
theorem result_eq {w w' : Session} (hx : Modest x) (h : Same w w') : (x.perform w).1 = (x.perform w').1 :=
  Heedless.result_eq hx.heedless h

/-- A modest act of which failures and unexpected errors are caught. -/
theorem tryCatch {h : Stop → Act α} (hx : Modest x) (hfailed : ∀ f, Modest (h (.failed f)))
    (hcrashed : ∀ c, Modest (h (.crashed c))) : Modest (MonadExcept.tryCatch x h) := by
  have hrest (w : Session) : (∃ a, (x.perform w).1 = .ok a) ∨ ∃ e, (x.perform w).1 = .error e ∧ Modest (h e) := by
    rcases hr : (x.perform w).1 with e | a
    · cases e with
      | failed f => exact .inr ⟨_, rfl, hfailed f⟩
      | crashed c => exact .inr ⟨_, rfl, hcrashed c⟩
      | ended code => exact absurd hr (hx.goesOn w code)
    · exact .inl ⟨a, rfl⟩
  refine ⟨fun w => ?_, fun w code => ?_, fun w w' hw => ?_⟩
  · have hkept := hx.kept w
    rw [perform_tryCatch]
    rcases hrest w with ⟨a, ha⟩ | ⟨e, he, hmodest⟩
    · rcases hp : x.perform w with ⟨r, v⟩
      rw [hp] at ha hkept
      dsimp only at ha
      subst ha
      exact hkept
    · rcases hp : x.perform w with ⟨r, v⟩
      rw [hp] at he hkept
      dsimp only at he
      subst he
      exact hkept.trans (hmodest.kept v)
  · rw [perform_tryCatch]
    rcases hrest w with ⟨a, ha⟩ | ⟨e, he, hmodest⟩
    · rcases hp : x.perform w with ⟨r, v⟩
      rw [hp] at ha
      dsimp only at ha
      subst ha
      nofun
    · rcases hp : x.perform w with ⟨r, v⟩
      rw [hp] at he
      dsimp only at he
      subst he
      exact hmodest.goesOn v code
  · refine AlikeFrom.tryCatch (hx.heedless w w' hw) fun e v v' he hv => ?_
    rcases hrest w with ⟨a, ha⟩ | ⟨e', he', hmodest⟩
    · rw [he] at ha
      cases ha
    · rw [he] at he'
      cases he'
      exact hmodest.heedless v v' hv

/-- An act that looks at the session, apart from the messages. -/
theorem session {f : Session → Act α} (hf : ∀ w, Modest (f w))
    (hsame : ∀ w said logging, f { w with stderr := said, logging := logging } = f w) :
    Modest (Act.session >>= f) where
  kept w := by
    rw [perform_bind_ok (perform_session w)]
    exact (hf w).kept w
  goesOn w code := by
    rw [perform_bind_ok (perform_session w)]
    exact (hf w).goesOn w code
  heedless := Heedless.session (fun w => (hf w).heedless) hsame

theorem env? (name : String) : Modest (Act.env? name) := session (fun _ => .pure _) fun _ _ _ => rfl

theorem look (f : Disk → Except FileError α) : Modest (Act.look f) := by
  refine session (fun w => ?_) fun _ _ _ => rfl
  cases f w.disk with
  | ok a => exact .pure a
  | error e => exact .crash e.crash

theorem log (part message : String) : Modest (Act.log part message) where
  kept w := by
    rw [Act.log, perform_change]
    split
    · exact .said w _
    · exact .refl w
  goesOn _ _ := nofun
  heedless := .log _ _ _ _

theorem logAll (lines : List (String × String)) : Modest (Act.logAll lines) := by
  induction lines with
  | nil => exact .pure ()
  | cons l lines ih => exact (log l.1 l.2).bind fun _ => ih

/-- Changing the disk so that only folders are added. -/
theorem alter {f : Disk → Except FileError Disk} (hf : ∀ d d', f d = .ok d' → d.Grown d') : Modest (Act.alter f) where
  kept w := by
    cases h : f w.disk with
    | ok d =>
      rw [perform_alter_ok w h]
      exact .grown (hf _ _ h)
    | error e =>
      rw [perform_alter_error w h]
      exact .refl w
  goesOn w code := by
    cases h : f w.disk with
    | ok d =>
      rw [perform_alter_ok w h]
      nofun
    | error e =>
      rw [perform_alter_error w h]
      nofun
  heedless := Heedless.alter f

theorem readText? (path : String) : Modest (Act.readText? path) := (look _).bind fun _ => .pure _

theorem decoded (r : Except Utf8.Fault String) : Modest (Act.decoded r) := by
  cases r with
  | ok s => exact .pure s
  | error f => exact .crash _

theorem readText (path : String) : Modest (Act.readText path) := (readText? path).bind fun _ => decoded _

/-- Reading all of the standard input. -/
theorem drink : Modest (Act.change fun w => { w with stdin := "" }) where
  kept w := ⟨w.disk, "", "", .refl _, by simp⟩
  goesOn _ _ := nofun
  heedless := by
    rintro w _ ⟨said, logging, rfl⟩
    exact ⟨.ok rfl, said, logging, rfl⟩

theorem home : Modest Act.home := (env? "HOME").bind fun _ => session (fun _ => .pure _) fun _ _ _ => rfl

theorem here : Modest Act.here := session (fun _ => .pure _) fun _ _ _ => rfl

end Modest

end Act
end ApiProjection
