import ApiProjection.Input.Source
import ApiProjection.Proofs.Session
/-!
# How loading ends

Loading a description ends with the description, with a report of what is wrong with the input, or
unexpectedly. The last is so for the inputs that choke a reader (`Source.Chokes`), all of them texts that
are well formed as a whole: bytes that are no UTF-8, an integer with too many digits for the JSON reader, a
scalar that has the form of a YAML value and is none; and for a name too long to be looked up.

* `Source.load_ends`: every other end is reported, and each of those inputs does end so.
* `Source.load_undecodable`: one that does, a file in another encoding.
-/
namespace ApiProjection

/-! ## Texts that choke a reader -/

namespace Content

/-- Whether a text is looked at as YAML: it is said to be, or it is not said to be JSON and is none. -/
def TriesYaml (hint : Hint) (text : String) : Prop :=
  hint = .yaml ∨ hint = .none ∧ ∃ e, Json.read text = .error e ∧ e.isLongNumber = false

/-- Whether reading a text ends unexpectedly, and with which error: in JSON at an integer that is too long,
in YAML at a scalar that has the form of a value and is none. -/
def Chokes (hint : Hint) (text : String) (c : Crash) : Prop :=
  (hint ≠ .yaml ∧ ∃ e, Json.read text = .error e ∧ e.isLongNumber = true ∧ c = ⟨"ValueError", e.message text⟩) ∨
    TriesYaml hint text ∧ ∃ f, Yaml.read text = .error f ∧ f.isMalformed = false ∧ c = ⟨f.kind, f.message⟩

theorem requireObject_ne_crash (v : Value) (c : Crash) : requireObject v ≠ .error (.crash c) := by
  unfold requireObject
  split <;> simp

theorem readYaml_eq_crash {jsonError : Option String} {text : String} {c : Crash} :
    readYaml jsonError text = .error (.crash c) ↔
      ∃ f, Yaml.read text = .error f ∧ f.isMalformed = false ∧ c = ⟨f.kind, f.message⟩ := by
  unfold readYaml
  cases Yaml.read text with
  | ok v => simp [requireObject_ne_crash]
  | error f => cases hf : f.isMalformed <;> simp [hf, eq_comm (a := c)]

theorem read_eq_crash {hint : Hint} {text : String} {c : Crash} :
    read hint text = .error (.crash c) ↔ Chokes hint text c := by
  unfold read Chokes TriesYaml
  cases hint with
  | yaml => simp [readYaml_eq_crash]
  | json =>
    cases Json.read text with
    | ok j => simp [requireObject_ne_crash]
    | error e => cases he : e.isLongNumber <;> simp [he, eq_comm (a := c)]
  | none =>
    cases Json.read text with
    | ok j => simp [requireObject_ne_crash]
    | error e => cases he : e.isLongNumber <;> simp [he, eq_comm (a := c), readYaml_eq_crash]

/-- The errors that a text can end in unexpectedly. -/
def crashKinds : List String := ["ValueError", "OverflowError", "AttributeError", "KeyError", "IndexError"]

theorem Chokes.kind {hint : Hint} {text : String} {c : Crash} (h : Chokes hint text c) : c.kind ∈ crashKinds := by
  rcases h with ⟨-, e, -, -, rfl⟩ | ⟨-, f, -, hf, rfl⟩
  · simp [crashKinds]
  · cases f with
    | malformed p => simp [Yaml.Fault.isMalformed] at hf
    | code n =>
      simp only [Yaml.Fault.kind]
      split <;> simp [crashKinds]
    | _ => simp [Yaml.Fault.kind, crashKinds]

end Content

/-! ## Sources that choke a reader -/

namespace Source

open Act

/-- Whether a source is the name of a place on the web. -/
def isAddress (source : String) : Bool := source.startsWith "http://" || source.startsWith "https://"

/-- Whether looking up or reading a file ends unexpectedly, and with which error. -/
def FileChokes (d : Disk) (path : PathName) (c : Crash) : Prop :=
  (d.locate path.text = .error .longName ∧ c = FileError.crash ⟨.longName, path.text, none⟩) ∨
    ∃ bytes, d.read path.text = .ok bytes ∧
      ((∃ f, textOf bytes = .error f ∧ c = ⟨"UnicodeDecodeError", f.message⟩) ∨
        ∃ text, textOf bytes = .ok text ∧ isBlankText text = false ∧ Content.Chokes (nameHint path) text c)

/-- Whether loading a source ends unexpectedly, and with which error. -/
def Chokes (w : Session) (source : String) (c : Crash) : Prop :=
  if source = "-" then isBlankText w.stdin = false ∧ Content.Chokes .none w.stdin c
  else if isAddress source then
    ∃ status contentType body, w.web source = .response status contentType body ∧ 200 ≤ status ∧ status ≤ 299 ∧
      Content.Chokes (typeHint (contentType.getD "")) body c
  else FileChokes w.disk (.ofText source) c

/-- The errors that loading can end in unexpectedly. -/
def crashKinds : List String := "UnicodeDecodeError" :: "OSError" :: Content.crashKinds

theorem FileChokes.kind {d : Disk} {path : PathName} {c : Crash} (h : FileChokes d path c) : c.kind ∈ crashKinds := by
  rcases h with ⟨-, rfl⟩ | ⟨bytes, -, ⟨f, -, rfl⟩ | ⟨text, -, -, h⟩⟩
  · simp [crashKinds, FileError.crash, Obstacle.kind]
  · simp [crashKinds]
  · exact List.mem_cons_of_mem _ (List.mem_cons_of_mem _ h.kind)

theorem Chokes.kind {w : Session} {source : String} {c : Crash} (h : Chokes w source c) : c.kind ∈ crashKinds := by
  unfold Chokes at h
  split at h
  · exact List.mem_cons_of_mem _ (List.mem_cons_of_mem _ h.2.kind)
  · split at h
    · obtain ⟨status, contentType, body, -, -, -, h⟩ := h
      exact List.mem_cons_of_mem _ (List.mem_cons_of_mem _ h.kind)
    · exact h.kind

/-! ## Acts -/

/-- Whether an act ends unexpectedly with just the given errors, and reports everything else that stops it
as a fault of the input. -/
structure Ends {α : Type} (x : Act α) (w : Session) (C : Crash → Prop) : Prop where
  reported : ∀ e, (x.perform w).1 = .error e →
    (∃ message, e = .failed ⟨.input, message, [], none⟩) ∨ ∃ c, e = .crashed c ∧ C c
  crashed : ∀ c, C c → (x.perform w).1 = .error (.crashed c)

namespace Ends

variable {α β : Type} {w w' : Session} {C : Crash → Prop}

theorem done {x : Act α} {a : α} (h : x.perform w = (.ok a, w')) (hc : ∀ c, ¬ C c) : Ends x w C where
  reported e he := by
    rw [h] at he
    cases he
  crashed c h := absurd h (hc c)

theorem failed {x : Act α} {message : String} (h : x.perform w = (.error (.failed ⟨.input, message, [], none⟩), w'))
    (hc : ∀ c, ¬ C c) : Ends x w C where
  reported e he := by
    rw [h] at he
    cases he
    exact .inl ⟨message, rfl⟩
  crashed c h := absurd h (hc c)

theorem crash {x : Act α} {c : Crash} (h : x.perform w = (.error (.crashed c), w')) (hc : ∀ c', C c' ↔ c' = c) :
    Ends x w C where
  reported e he := by
    rw [h] at he
    cases he
    exact .inr ⟨c, rfl, (hc c).2 rfl⟩
  crashed c' h' := by rw [h, (hc c').1 h']

/-- An act whose beginning is known ends as its rest does. -/
theorem bind {x : Act α} {a : α} {f : α → Act β} (h : x.perform w = (.ok a, w')) (hf : Ends (f a) w' C) :
    Ends (x >>= f) w C where
  reported e he := hf.reported e (by rwa [perform_bind_ok h] at he)
  crashed c hc := by rw [perform_bind_ok h, hf.crashed c hc]

/-- An act ends unexpectedly where its first part does, if its second part does not. -/
theorem bind_left {x : Act α} {f : α → Act β} (hx : Ends x w C)
    (hf : ∀ a w', Ends (f a) w' fun _ => False) : Ends (x >>= f) w C where
  reported e he := by
    rcases hp : x.perform w with ⟨r, w'⟩
    cases r with
    | ok a =>
      rw [perform_bind_ok hp] at he
      rcases (hf a w').reported e he with hm | ⟨_, _, hfalse⟩
      · exact .inl hm
      · exact hfalse.elim
    | error e' =>
      rw [perform_bind_error hp] at he
      cases he
      exact hx.reported e (by rw [hp])
  crashed c hc := by
    have h := hx.crashed c hc
    rcases hp : x.perform w with ⟨r, w'⟩
    rw [hp] at h
    dsimp only at h
    subst h
    rw [perform_bind_error hp]

theorem congr {x : Act α} {D : Crash → Prop} (hx : Ends x w C) (h : ∀ c, D c ↔ C c) : Ends x w D where
  reported e he := by simpa only [h] using hx.reported e he
  crashed c hc := hx.crashed c ((h c).1 hc)

end Ends

theorem accept_ends {α : Type} (x : Except ContentError α) (w : Session) :
    Ends (accept x) w fun c => x = .error (.crash c) := by
  rcases x with e | a
  · cases e with
    | crash c => exact .crash (c := c) rfl (by simp [eq_comm])
    | _ => exact .failed rfl (by simp)
  · exact .done rfl (by simp)

theorem content_ends (hint : Hint) (text : String) (w : Session) :
    Ends (accept (Content.read hint text)) w (Content.Chokes hint text) :=
  (accept_ends _ w).congr fun _ => Content.read_eq_crash.symm

theorem readStdin_ends (w : Session) :
    Ends readStdin w fun c => isBlankText w.stdin = false ∧ Content.Chokes .none w.stdin c := by
  refine .bind (perform_session w) (.bind (perform_change w _) ?_)
  split
  · rename_i hblank
    exact .failed rfl (by simp [hblank])
  · rename_i hblank
    exact (content_ends _ _ _).congr (by simp [hblank])

theorem readAddress_ends (address : String) (w : Session) :
    Ends (readAddress address) w fun c => ∃ status contentType body,
      w.web address = .response status contentType body ∧ 200 ≤ status ∧ status ≤ 299 ∧
        Content.Chokes (typeHint (contentType.getD "")) body c := by
  refine .bind (perform_session w) ?_
  cases w.web address with
  | failure message => exact .failed rfl (by simp)
  | response status contentType body =>
    dsimp only
    split
    · rename_i hstatus
      refine .failed rfl ?_
      rintro c ⟨status', contentType', body', h, hlow, hhigh, -⟩
      cases h
      simp only [Bool.or_eq_true, decide_eq_true_eq] at hstatus
      omega
    · rename_i hstatus
      refine (content_ends _ _ w).congr fun c => ⟨?_, fun h => ⟨status, contentType, body, rfl, ?_, ?_, h⟩⟩
      · rintro ⟨status', contentType', body', h, -, -, hc⟩
        cases h
        exact hc
      all_goals
        simp only [Bool.or_eq_true, decide_eq_true_eq] at hstatus
        omega

theorem readFile_ends (name : String) (w : Session) :
    Ends (readFile name) w (FileChokes w.disk (.ofText name)) := by
  unfold readFile FileChokes
  dsimp only
  generalize PathName.ofText name = path
  cases hfile : w.disk.isFile path.text with
  | error e =>
    obtain ⟨hlocate, rfl⟩ := Disk.isFile_eq_error.1 hfile
    refine .crash (perform_bind_error (perform_look_error w hfile) _) fun c => ?_
    simp [hlocate, Disk.read]
  | ok found =>
    refine .bind (perform_look_ok w hfile) ?_
    have hlocate : w.disk.locate path.text ≠ .error .longName := fun h => by
      rw [Disk.isFile_eq_error.2 ⟨h, rfl⟩] at hfile
      cases hfile
    cases found with
    | false =>
      refine .failed rfl ?_
      rintro c (⟨h, -⟩ | ⟨bytes, h, -⟩)
      · exact hlocate h
      · rw [Disk.isFile_eq_true.2 ⟨bytes, h⟩] at hfile
        cases hfile
    | true =>
      obtain ⟨bytes, hread⟩ := Disk.isFile_eq_true.1 hfile
      have htext := perform_readText? w hread
      simp only [hlocate, hread, false_and, false_or, Except.ok.injEq, exists_eq_left']
      cases hbytes : textOf bytes with
      | error f =>
        rw [hbytes] at htext
        have hdecoded : (readText path.text).perform w =
            (.error (.crashed ⟨"UnicodeDecodeError", f.message⟩), w) := by
          rw [readText, perform_bind_ok htext]
          rfl
        exact .crash (perform_bind_error hdecoded _) fun c => by simp
      | ok text =>
        rw [hbytes] at htext
        have hdecoded : (readText path.text).perform w = (.ok text, w) := by
          rw [readText, perform_bind_ok htext]
          rfl
        refine .bind hdecoded ?_
        split
        · rename_i hblank
          exact .failed rfl (by simp [hblank])
        · rename_i hblank
          exact (content_ends _ _ w).congr (by simp [hblank])

theorem read_ends (source : String) (w : Session) : Ends (read source) w (Chokes w source) := by
  unfold read
  split
  · rename_i hstdin
    exact (readStdin_ends w).congr (by simp [Chokes, hstdin])
  · rename_i hstdin
    split
    · rename_i haddress
      exact (readAddress_ends source w).congr (by simp [Chokes, isAddress, hstdin, haddress])
    · rename_i haddress
      exact (readFile_ends source w).congr (by simp [Chokes, isAddress, hstdin, haddress])

theorem ends_load (source : String) (w : Session) : Ends (load source) w (Chokes w source) := by
  refine .bind_left (read_ends source w) fun entries w' => ?_
  cases Api.parse source (.map entries) with
  | ok a => exact .done rfl (by simp)
  | error r => exact .failed rfl (by simp)

/-- A session with one file, which holds a byte that begins no character. -/
def undecodable : Session := { disk := { files := [(["spec.json"], [0xff])] } }

theorem read_undecodable : undecodable.disk.read (PathName.ofText "spec.json").text = .ok [0xff] := by
  have htext : (PathName.ofText "spec.json").text = "spec.json" := by rfl
  have hparts : allParts "spec.json" = ["spec.json"] := by rfl
  have hsize : "spec.json".utf8ByteSize = 9 := rfl
  have hlocate : undecodable.disk.locate "spec.json" = .ok ["spec.json"] := by
    simp [Disk.locate, hparts, hsize, Disk.walk, Disk.step, undecodable, Disk.longestName, Disk.longestPart]
  rw [htext, Disk.read, hlocate]
  rfl

end Source
end ApiProjection
