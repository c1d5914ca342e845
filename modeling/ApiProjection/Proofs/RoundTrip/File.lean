import ApiProjection.Host.Session
import ApiProjection.Proofs.RoundTrip.Json
import ApiProjection.Proofs.RoundTrip.Utf8
/-!
# JSON in files

A file that the text of a JSON value has been written to is read as that text: its bytes are those of the text, and no
line end of it is another than a line feed, since every other one is escaped.

* `Json.textOf_write`.
-/
namespace ApiProjection

/-- A text without carriage returns keeps its line ends. -/
theorem Act.plainLines_of_not_mem : ∀ {cs : List Char}, '\r' ∉ cs → Act.plainLines cs = cs
  | [], _ => rfl
  | c :: cs, h => by
    have hc : c ≠ '\r' := fun he => h (he ▸ List.mem_cons_self)
    rw [Act.plainLines]
    · rw [plainLines_of_not_mem (List.not_mem_of_not_mem_cons h)]
    · simp [hc]
    · simp [hc]

/-- What is read of a file that a text without carriage returns has been written to. -/
theorem Act.textOf_encode {s : String} (h : '\r' ∉ s.toList) : Act.textOf (Utf8.encode s) = .ok s := by
  rw [textOf, Utf8.decode_encode]
  simp only [Except.map, plainLines_of_not_mem h, String.ofList_toList]

namespace Json

/-! ## Line ends in JSON -/

theorem not_mem_of_digits {cs : List Char} (h : ∀ c ∈ cs, isDigit c = true) : '\r' ∉ cs :=
  fun hmem => absurd (h _ hmem) (by decide)

theorem return_not_mem_toDigits (n : Nat) : '\r' ∉ Nat.toDigits 16 n := by
  have hdigit : ∀ m < 16, m.digitChar ≠ '\r' := by decide
  induction n using Nat.strongRecOn with
  | ind n ih =>
    rcases Nat.lt_or_ge n 16 with hlt | hge
    · rw [Nat.toDigits_of_lt_base hlt, List.mem_singleton]
      exact (hdigit n hlt).symm
    · rw [Nat.toDigits_of_base_le (by decide) hge, List.mem_append, List.mem_singleton, not_or]
      exact ⟨ih (n / 16) (by omega), (hdigit _ (Nat.mod_lt n (by decide))).symm⟩

theorem return_not_mem_unitEscape (n : Nat) : '\r' ∉ unitEscape n := by
  simp [unitEscape, Text.hexDigits, return_not_mem_toDigits]

theorem return_not_mem_charEscape (c : Char) : '\r' ∉ charEscape c := by
  unfold charEscape
  dsimp only
  split
  · exact return_not_mem_unitEscape _
  · exact List.not_mem_append (return_not_mem_unitEscape _) (return_not_mem_unitEscape _)

theorem return_not_mem_writeChar (ascii : Bool) (c : Char) : '\r' ∉ writeChar ascii c := by
  have hspelled := spelled_writeChar ascii c
  generalize writeChar ascii c = written at hspelled ⊢
  cases hspelled with
  | @letter l h hl =>
    have hl : '\r' ≠ l := by
      rintro rfl
      cases h
    simp [hl]
  | unit => exact return_not_mem_unitEscape _
  | code => exact return_not_mem_charEscape c
  | plain h =>
    rw [List.mem_singleton]
    rintro rfl
    exact absurd h (by decide)

theorem return_not_mem_writeText (ascii : Bool) (s : String) : '\r' ∉ writeText ascii s := by
  simp [writeText, return_not_mem_writeChar]

theorem return_not_mem_writeInt (n : Int) : '\r' ∉ writeInt n := by
  have hnat (n : Nat) : '\r' ∉ writeNat n := not_mem_of_digits fun c hc => isDigit_toDigits hc
  cases n with
  | ofNat n => exact hnat n
  | negSucc n => simp [writeInt, hnat]

theorem return_not_mem_writeFloat (x : Binary64) : '\r' ∉ writeFloat x := by
  cases x with
  | nan => decide
  | infinite s => cases s <;> decide
  | finite s m e =>
    obtain ⟨d, hd, hwf⟩ := Binary64.chars_finite s m e
    have hwrite : writeFloat (.finite s m e) = d.chars := hd
    have hwhole := not_mem_of_digits hwf.whole.isDigit
    have hfraction := not_mem_of_digits hwf.fraction
    have hexponent := not_mem_of_digits hwf.exponent
    rw [hwrite]
    unfold Decimal.chars Decimal.body Decimal.point Decimal.power
    repeat' split
    all_goals simp [*]

section
variable (l : Layout)

theorem return_not_mem_newline (level : Nat) : '\r' ∉ l.newline level := by
  unfold Layout.newline
  cases l.indent <;> simp

theorem return_not_mem_comma (level : Nat) : '\r' ∉ l.comma level := by
  unfold Layout.comma
  cases l.indent <;> simp [return_not_mem_newline]

mutual
/-- Nothing of what is written is a carriage return. -/
theorem return_not_mem_writeAt : ∀ (j : Json) (level : Nat), '\r' ∉ writeAt l level j
  | .null, _ => by rw [writeAt]; decide
  | .bool b, _ => by cases b <;> (rw [writeAt]; decide)
  | .int n, _ => by rw [writeAt]; exact return_not_mem_writeInt n
  | .float x, _ => by rw [writeAt]; exact return_not_mem_writeFloat x
  | .text s, _ => by rw [writeAt]; exact return_not_mem_writeText _ s
  | .list [], _ => by rw [writeAt]; decide
  | .list (x :: xs), level => by
    simp [writeAt, return_not_mem_newline, return_not_mem_writeAt x, return_not_mem_writeItems xs]
  | .object [], _ => by rw [writeAt]; decide
  | .object ((k, x) :: ms), level => by
    simp [writeAt, return_not_mem_newline, return_not_mem_writeText, return_not_mem_writeAt x,
      return_not_mem_writeMembers ms]

theorem return_not_mem_writeItems : ∀ (xs : List Json) (level : Nat), '\r' ∉ writeItems l level xs
  | [], level => by simp [writeItems, return_not_mem_newline]
  | x :: xs, level => by
    simp [writeItems, return_not_mem_comma, return_not_mem_writeAt x, return_not_mem_writeItems xs]

theorem return_not_mem_writeMembers : ∀ (ms : List (String × Json)) (level : Nat), '\r' ∉ writeMembers l level ms
  | [], level => by simp [writeMembers, return_not_mem_newline]
  | (k, x) :: ms, level => by
    simp [writeMembers, return_not_mem_comma, return_not_mem_writeText, return_not_mem_writeAt x,
      return_not_mem_writeMembers ms]
end

end

/-- A file that the text of a value has been written to is read as that text. -/
theorem textOf_write (l : Layout) (j : Json) :
    Act.textOf (Utf8.encode (j.write l ++ "\n")) = .ok (j.write l ++ "\n") := by
  refine Act.textOf_encode ?_
  simp [write, return_not_mem_writeAt]

end Json
end ApiProjection
