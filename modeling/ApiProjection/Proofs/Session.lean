import ApiProjection.Host.Session
/-!
# Runs of acts

What an act does in a session, step by step: `Act.perform` of each of the small acts, and of one act
after another (`Act.perform_bind`). The larger acts are followed with these equations alone.
-/
namespace ApiProjection.Act

section
variable {α β : Type} (w : Session)

@[simp] theorem perform_pure (a : α) : (pure a : Act α).perform w = (.ok a, w) := rfl

/-- The second of two acts goes on where the first has left off, unless that stops early. -/
theorem perform_bind (x : Act α) (f : α → Act β) :
    (x >>= f).perform w = match x.perform w with
      | (.ok a, w') => (f a).perform w'
      | (.error e, w') => (.error e, w') := by
  unfold perform
  rw [ExceptT.run_bind, StateT.run_bind]
  change (match x.run.run w with | (r, w') => _) = _
  rcases x.run.run w with ⟨r, w'⟩
  cases r <;> rfl

theorem perform_bind_ok {x : Act α} {a : α} {w w' : Session} (h : x.perform w = (.ok a, w')) (f : α → Act β) :
    (x >>= f).perform w = (f a).perform w' := by
  rw [perform_bind, h]

theorem perform_bind_error {x : Act α} {e : Stop} {w w' : Session} (h : x.perform w = (.error e, w'))
    (f : α → Act β) : (x >>= f).perform w = (.error e, w') := by
  rw [perform_bind, h]

/-- An act that is done has done both its parts. -/
theorem of_perform_bind_ok {x : Act α} {f : α → Act β} {b : β} {w w' : Session}
    (h : (x >>= f).perform w = (.ok b, w')) : ∃ a v, x.perform w = (.ok a, v) ∧ (f a).perform v = (.ok b, w') := by
  rw [perform_bind] at h
  rcases hx : x.perform w with ⟨_ | a, v⟩
  · rw [hx] at h
    cases h
  · rw [hx] at h
    exact ⟨a, v, rfl, h⟩

@[simp] theorem perform_throw (e : Stop) : (throw e : Act α).perform w = (.error e, w) := rfl

theorem perform_tryCatch (x : Act α) (h : Stop → Act α) :
    (tryCatch x h).perform w = match x.perform w with
      | (.ok a, w') => (.ok a, w')
      | (.error e, w') => (h e).perform w' := by
  unfold perform
  rw [ExceptT.run_tryCatch, StateT.run_bind]
  change (match x.run.run w with | (r, w') => _) = _
  rcases x.run.run w with ⟨r, w'⟩
  cases r <;> rfl

@[simp] theorem perform_session : session.perform w = (.ok w, w) := rfl

@[simp] theorem perform_change (f : Session → Session) : (change f).perform w = (.ok (), f w) := rfl

@[simp] theorem perform_fail (kind : FailureKind) (message : String) (warnings : Warnings) :
    (fail kind message warnings : Act α).perform w = (.error (.failed ⟨kind, message, warnings, none⟩), w) := rfl

@[simp] theorem perform_crash (c : Crash) : (crash c : Act α).perform w = (.error (.crashed c), w) := rfl

@[simp] theorem perform_env? (name : String) : (env? name).perform w = (.ok (w.env.lookup name), w) := rfl

theorem perform_look_ok {f : Disk → Except FileError α} {a : α} (h : f w.disk = .ok a) :
    (look f).perform w = (.ok a, w) := by
  rw [look, perform_bind_ok (perform_session w), h]
  rfl

theorem perform_look_error {f : Disk → Except FileError α} {e : FileError} (h : f w.disk = .error e) :
    (look f).perform w = (.error (.crashed e.crash), w) := by
  rw [look, perform_bind_ok (perform_session w), h]
  rfl

theorem perform_alter_ok {f : Disk → Except FileError Disk} {d : Disk} (h : f w.disk = .ok d) :
    (alter f).perform w = (.ok (), { w with disk := d }) := by
  rw [alter, perform_bind_ok (perform_look_ok w h)]
  rfl

theorem perform_alter_error {f : Disk → Except FileError Disk} {e : FileError} (h : f w.disk = .error e) :
    (alter f).perform w = (.error (.crashed e.crash), w) := by
  rw [alter, perform_bind_error (perform_look_error w h)]

/-- A session without a log stays as it is. -/
theorem perform_logAll_off (h : w.logging = false) (lines : List (String × String)) :
    (logAll lines).perform w = (.ok (), w) := by
  induction lines with
  | nil => rfl
  | cons l lines ih =>
    have hlog : (log l.1 l.2).perform w = (.ok (), w) := by
      rw [log, perform_change, h]
      rfl
    rw [logAll, perform_bind_ok hlog, ih]

theorem perform_readText? {path : String} {bytes : List UInt8} (h : w.disk.read path = .ok bytes) :
    (readText? path).perform w = (.ok (textOf bytes), w) := by
  rw [readText?, perform_bind_ok (perform_look_ok w h)]
  rfl

end

end ApiProjection.Act

namespace ApiProjection.Disk

variable {d : Disk} {path : String}

theorem isFile_eq_true : d.isFile path = .ok true ↔ ∃ bytes, d.read path = .ok bytes := by
  unfold isFile find read
  cases d.locate path with
  | error o => cases o <;> simp [Except.map]
  | ok p =>
    simp only [Except.map]
    rcases d.entryAt? p with _ | _ | _ <;> simp

theorem isFile_eq_error {e : FileError} :
    d.isFile path = .error e ↔ d.locate path = .error .longName ∧ e = ⟨.longName, path, none⟩ := by
  unfold isFile find
  cases d.locate path with
  | error o => cases o <;> simp [Except.map, eq_comm]
  | ok p => simp [Except.map]

/-- A plain name stands for what is in the current folder under it. -/
theorem locate_name {name : String} (hparts : allParts name = [name]) (hsize : name.utf8ByteSize ≤ longestPart)
    (hnull : '\x00' ∉ name.toList) (hroot : name.startsWith "/" = false)
    (hdots : name ≠ "." ∧ name ≠ "..") : d.locate name = .ok (d.here ++ [name]) := by
  have hlong : ¬ longestName < name.utf8ByteSize := by
    have : longestPart < longestName := by decide
    omega
  simp [locate, hnull, hlong, hroot, hparts, walk, step, hdots, Nat.not_lt.2 hsize]

theorem read_name {name : String} {bytes : List UInt8} (hname : d.locate name = .ok (d.here ++ [name]))
    (hfile : d.entryAt? (d.here ++ [name]) = some (.file bytes)) : d.read name = .ok bytes := by
  rw [read, hname]
  simp only [hfile]

end ApiProjection.Disk
