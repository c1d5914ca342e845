import ApiProjection.Text.Utf8
import Mathlib.Tactic.Common
/-!
# Text as bytes

The bytes of a text are read as that text, character by character.

* `Utf8.decode_encode`.
-/
namespace ApiProjection.Utf8

theorem toList_loop (bs : ByteArray) (i : Nat) (r : List UInt8) :
    ByteArray.toList.loop bs i r = r.reverse ++ bs.data.toList.drop i := by
  rw [ByteArray.toList.loop]
  split
  · rename_i h
    rw [toList_loop]
    have hi : i < bs.data.toList.length := h
    rw [List.drop_eq_getElem_cons hi]
    simp [ByteArray.get!, getElem!_def, Array.getElem?_eq_getElem h]
  · rename_i h
    rw [List.drop_eq_nil_of_le (Nat.not_lt.1 h), List.append_nil]
termination_by bs.size - i

theorem encode_eq (s : String) : encode s = s.toList.flatMap String.utf8EncodeChar := by
  rw [encode, String.toUTF8, ← String.utf8Encode_toList, ByteArray.toList, toList_loop, List.utf8Encode,
    List.toList_data_toByteArray]
  rfl

section
variable {position : Nat} {bs : List UInt8}

theorem toNat_ofNat {n : Nat} (h : n < 256) : (UInt8.ofNat n).toNat = n := by
  rw [UInt8.toNat_ofNat']
  omega

/-- A character of one byte. -/
theorem decodeFrom_one {n : Nat} (h : n < 0x80) :
    decodeFrom position none (UInt8.ofNat n :: bs) = (decodeFrom (position + 1) none bs).map (Char.ofNat n :: ·) := by
  have hlead : lead n = some (1, 0x80, 0xbf, n) := by rw [lead, if_pos h]
  rw [decodeFrom, toNat_ofNat (by omega), hlead]
  rfl

/-- The first byte of a character of several. -/
theorem decodeFrom_first {n count lo hi code : Nat} (hn : n < 256) (hlead : lead n = some (count, lo, hi, code))
    (hcount : count ≠ 1) :
    decodeFrom position none (UInt8.ofNat n :: bs) =
      decodeFrom (position + 1) (some ⟨UInt8.ofNat n, 1, count - 1, lo, hi, code⟩) bs := by
  rw [decodeFrom, toNat_ofNat hn, hlead]
  split
  · cases ‹_›
  · rename_i h
    cases h
    exact absurd rfl hcount
  · rename_i h
    cases h
    rfl

/-- A further byte of a character. -/
theorem decodeFrom_next {first : UInt8} {seen need lo hi code x : Nat} (hx : x < 64) (hlo : lo ≤ x + 128)
    (hhi : x + 128 ≤ hi) :
    decodeFrom position (some ⟨first, seen, need, lo, hi, code⟩) (UInt8.ofNat (x + 128) :: bs) =
      if need = 1 then (decodeFrom (position + 1) none bs).map (Char.ofNat (code * 0x40 + x) :: ·)
      else decodeFrom (position + 1) (some ⟨first, seen + 1, need - 1, 0x80, 0xbf, code * 0x40 + x⟩) bs := by
  have hrange : ¬ (x + 128 < lo || hi < x + 128) = true := by
    simp only [Bool.or_eq_true, decide_eq_true_eq]
    omega
  rw [decodeFrom, toNat_ofNat (by omega)]
  simp only [hrange, Nat.add_sub_cancel]
  rfl

theorem lead_two {n : Nat} (h : 0xc2 ≤ n) (h' : n < 0xe0) : lead n = some (2, 0x80, 0xbf, n - 0xc0) := by
  rw [lead, if_neg (by omega), if_neg (by omega), if_pos h']

theorem lead_three {n : Nat} (h : 0xe0 ≤ n) (h' : n < 0xf0) :
    lead n = some (3, if n = 0xe0 then 0xa0 else 0x80, if n = 0xed then 0x9f else 0xbf, n - 0xe0) := by
  rw [lead, if_neg (by omega), if_neg (by omega), if_neg (by omega)]
  by_cases hfirst : n = 0xe0
  · subst hfirst
    rfl
  · by_cases hlast : n = 0xed
    · subst hlast
      rfl
    · simp [hfirst, hlast, h']

theorem lead_four {n : Nat} (h : 0xf0 ≤ n) (h' : n < 0xf5) :
    lead n = some (4, if n = 0xf0 then 0x90 else 0x80, if n = 0xf4 then 0x8f else 0xbf, n - 0xf0) := by
  obtain rfl | rfl | rfl | rfl | rfl : n = 0xf0 ∨ n = 0xf1 ∨ n = 0xf2 ∨ n = 0xf3 ∨ n = 0xf4 := by omega
  all_goals rfl

/-- The bytes of a character are read as that character. -/
theorem decodeFrom_encodeChar (position : Nat) (bs : List UInt8) (c : Char) :
    ∃ p, decodeFrom position none (String.utf8EncodeChar c ++ bs) = (decodeFrom p none bs).map (c :: ·) := by
  have hvalid : c.toNat < 0xd800 ∨ 0xdfff < c.toNat ∧ c.toNat < 0x110000 := c.valid
  have hc : Char.ofNat c.toNat = c := c.ofNat_toNat
  have hn : c.val.toNat = c.toNat := rfl
  unfold String.utf8EncodeChar
  rw [hn]
  generalize c.toNat = n at *
  dsimp only
  split
  · exact ⟨position + 1, by rw [List.singleton_append, decodeFrom_one (by omega), hc]⟩
  · split
    · refine ⟨position + 1 + 1, ?_⟩
      simp only [List.cons_append, List.nil_append]
      rw [decodeFrom_first (by omega) (lead_two (by omega) (by omega)) (by decide),
        decodeFrom_next (by omega) (by omega) (by omega), if_pos rfl]
      have hcode : (n / 64 % 32 + 192 - 0xc0) * 0x40 + n % 64 = n := by omega
      rw [hcode, hc]
    · split
      · refine ⟨position + 1 + 1 + 1, ?_⟩
        simp only [List.cons_append, List.nil_append]
        rw [decodeFrom_first (by omega) (lead_three (by omega) (by omega)) (by decide),
          decodeFrom_next (by omega) (by split <;> omega) (by split <;> omega), if_neg (by decide),
          decodeFrom_next (by omega) (by omega) (by omega), if_pos rfl]
        have hcode : ((n / 4096 % 16 + 224 - 0xe0) * 0x40 + n / 64 % 64) * 0x40 + n % 64 = n := by omega
        rw [hcode, hc]
      · refine ⟨position + 1 + 1 + 1 + 1, ?_⟩
        simp only [List.cons_append, List.nil_append]
        rw [decodeFrom_first (by omega) (lead_four (by omega) (by omega)) (by decide),
          decodeFrom_next (by omega) (by split <;> omega) (by split <;> omega), if_neg (by decide),
          decodeFrom_next (by omega) (by omega) (by omega), if_neg (by decide),
          decodeFrom_next (by omega) (by omega) (by omega), if_pos rfl]
        have hcode : (((n / 262144 % 8 + 240 - 0xf0) * 0x40 + n / 4096 % 64) * 0x40 + n / 64 % 64) * 0x40 + n % 64 = n := by
          omega
        rw [hcode, hc]

theorem decodeFrom_encodeChars (cs : List Char) (position : Nat) :
    decodeFrom position none (cs.flatMap String.utf8EncodeChar) = .ok cs := by
  induction cs generalizing position with
  | nil => rfl
  | cons c cs ih =>
    obtain ⟨p, hp⟩ := decodeFrom_encodeChar position (cs.flatMap String.utf8EncodeChar) c
    rw [List.flatMap_cons, hp, ih]
    rfl

end

/-- The bytes of a text are read as the text. -/
theorem decode_encode (s : String) : decode (encode s) = .ok s := by
  rw [decode, encode_eq, decodeFrom_encodeChars]
  simp only [Except.map, String.ofList_toList]

end ApiProjection.Utf8
