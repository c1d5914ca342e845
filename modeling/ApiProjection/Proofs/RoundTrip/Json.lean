import ApiProjection.Proofs.RoundTrip.JsonScalar
/-!
# JSON that is written and read

What is written for a JSON value is read as that value, but that its floating-point numbers come back as what
their digits are read as, and that of several members with one name the last is kept in the place of the first.

* `Json.reread`: the value that comes back.
* `Json.read_jsonText`: the text of a document is read as the document that comes back, whatever it holds.
-/
namespace ApiProjection.Json

/-! ## What comes back -/

mutual
/-- The value that the text of a value is read as. -/
def reread : Json → Json
  | .float x => .float x.reread
  | .list xs => .list (rereadItems xs)
  | .object ms => .object (collapse (· == ·) (rereadMembers ms))
  | .null => .null
  | .bool b => .bool b
  | .int n => .int n
  | .text s => .text s

def rereadItems : List Json → List Json
  | [] => []
  | x :: xs => x.reread :: rereadItems xs

def rereadMembers : List (String × Json) → List (String × Json)
  | [] => []
  | (k, x) :: ms => (k, x.reread) :: rereadMembers ms
end

/-! ## Blanks -/

theorem skipBlanks_append {bs : List Char} (h : ∀ c ∈ bs, isJsonBlank c = true) (cs : List Char) :
    skipBlanks (bs ++ cs) = skipBlanks cs := List.dropWhile_append_of_pos h

theorem skipBlanks_cons {c : Char} (h : isJsonBlank c = false) (cs : List Char) : skipBlanks (c :: cs) = c :: cs := by
  rw [skipBlanks, List.dropWhile_cons, h]
  rfl

theorem newline_blank (l : Layout) (level : Nat) : ∀ c ∈ l.newline level, isJsonBlank c = true := by
  intro c hc
  unfold Layout.newline at hc
  split at hc
  · rcases List.mem_cons.1 hc with rfl | hc
    · rfl
    · rw [List.eq_of_mem_replicate hc]
      rfl
  · cases hc

/-- What stands between two members is a comma with blanks behind it. -/
theorem comma_eq (l : Layout) (level : Nat) :
    ∃ bs, l.comma level = ',' :: bs ∧ ∀ c ∈ bs, isJsonBlank c = true := by
  unfold Layout.comma
  split
  · exact ⟨_, rfl, newline_blank l level⟩
  · exact ⟨[' '], rfl, List.forall_mem_singleton.2 rfl⟩

/-! ## First characters -/

/-- Whether a text begins as a number does: with a digit, or with a minus and a digit. -/
def OpensNumber (cs : List Char) : Prop :=
  ∃ c rest, isDigit c = true ∧ (cs = c :: rest ∨ cs = '-' :: c :: rest)

theorem Whole.opensNumber {ds : List Char} (h : Whole ds) (negative : Bool) (rest : List Char) :
    OpensNumber ((if negative then '-' :: ds else ds) ++ rest) := by
  obtain ⟨c, cs, hcs⟩ := List.exists_cons_of_ne_nil h.ne_nil
  refine ⟨c, cs ++ rest, h.isDigit c (hcs ▸ List.mem_cons_self), ?_⟩
  cases negative <;> simp [hcs]

theorem opensNumber_writeInt (n : Int) (rest : List Char) : OpensNumber (writeInt n ++ rest) := by
  cases n with
  | ofNat n => exact (whole_toDigits n).opensNumber false rest
  | negSucc n => exact (whole_toDigits (n + 1)).opensNumber true rest

theorem opensNumber_writeFloat (s : Bool) (m : Nat) (e : Int) (rest : List Char) :
    OpensNumber (writeFloat (.finite s m e) ++ rest) := by
  obtain ⟨d, hd, hwf⟩ := Binary64.chars_finite s m e
  have hwrite : writeFloat (.finite s m e) = d.chars := hd
  have h := hwf.whole.opensNumber d.isNegative ((d.point ++ d.power) ++ rest)
  rw [hwrite, Decimal.chars, Decimal.body]
  cases hs : d.isNegative <;> simpa [hs] using h

/-- The characters that a value does not begin with. -/
def isEdge (c : Char) : Bool := isJsonBlank c || c == ']' || c == '\x7d' || c == '\ufeff'

theorem isEdge_iff {c : Char} : isEdge c = false ↔ isJsonBlank c = false ∧ c ≠ ']' ∧ c ≠ '\x7d' ∧ c ≠ '\ufeff' := by
  simp only [isEdge, Bool.or_eq_false_iff, beq_eq_false_iff_ne, and_assoc]

theorem OpensNumber.exists_cons {cs : List Char} (h : OpensNumber cs) : ∃ c cs', cs = c :: cs' ∧ isEdge c = false := by
  obtain ⟨d, rest, hd, rfl | rfl⟩ := h
  · refine ⟨d, rest, rfl, ?_⟩
    by_contra he
    simp only [isEdge, isJsonBlank, Bool.not_eq_false, Bool.or_eq_true, beq_iff_eq] at he
    rcases he with ((((((rfl | rfl) | rfl) | rfl) | rfl) | rfl) | rfl) <;> exact absurd hd (by decide)
  · exact ⟨'-', d :: rest, rfl, rfl⟩

theorem writeText_eq (ascii : Bool) (s : String) : writeText ascii s = '"' :: (writeText ascii s).tail := rfl

/-- A value does not begin with a blank or with an end. -/
theorem writeAt_cons (l : Layout) (level : Nat) (j : Json) :
    ∃ c cs, writeAt l level j = c :: cs ∧ isEdge c = false := by
  have hnumber {cs : List Char} (h : OpensNumber (cs ++ [])) : ∃ c cs', cs = c :: cs' ∧ isEdge c = false := by
    rw [List.append_nil] at h
    exact h.exists_cons
  cases j with
  | null => exact ⟨'n', "ull".toList, rfl, rfl⟩
  | bool b => cases b with
    | false => exact ⟨'f', "alse".toList, rfl, rfl⟩
    | true => exact ⟨'t', "rue".toList, rfl, rfl⟩
  | int n => exact hnumber (opensNumber_writeInt n [])
  | float x => cases x with
    | nan => exact ⟨'N', "aN".toList, rfl, rfl⟩
    | infinite s => cases s with
      | false => exact ⟨'I', "nfinity".toList, rfl, rfl⟩
      | true => exact ⟨'-', "Infinity".toList, rfl, rfl⟩
    | finite s m e => exact hnumber (opensNumber_writeFloat s m e [])
  | text s => exact ⟨'"', _, rfl, rfl⟩
  | list xs => cases xs with
    | nil => exact ⟨'[', _, by rw [writeAt], rfl⟩
    | cons x xs => exact ⟨'[', _, by rw [writeAt]; rfl, rfl⟩
  | object ms => cases ms with
    | nil => exact ⟨'\x7b', _, by rw [writeAt], rfl⟩
    | cons m ms => exact ⟨'\x7b', _, by rw [writeAt]; rfl, rfl⟩

/-! ## Reading a value -/

theorem isDigit_ne {c d : Char} (hc : isDigit c = true) (hd : isDigit d = false) : d ≠ c := by
  rintro rfl
  exact absurd hc (by rw [hd]; exact Bool.false_ne_true)

/-- None of the words is a number. -/
theorem readWord_number {cs : List Char} (h : OpensNumber cs) : readWord? cs = none := by
  obtain ⟨c, rest, hc, h⟩ := h
  have hn : 'n' ≠ c := isDigit_ne hc rfl
  have ht : 't' ≠ c := isDigit_ne hc rfl
  have hf : 'f' ≠ c := isDigit_ne hc rfl
  have hN : 'N' ≠ c := isDigit_ne hc rfl
  have hI : 'I' ≠ c := isDigit_ne hc rfl
  have hm : '-' ≠ c := isDigit_ne hc rfl
  rcases h with rfl | rfl <;> simp [readWord?, afterWord?, *]

section
variable {fuel : Nat} {cs : List Char}

theorem readValue_number (h : OpensNumber cs) : readValue (fuel + 1) cs = readNumber cs := by
  have hword := readWord_number h
  obtain ⟨c, rest, hc, h⟩ := h
  have hquote : c ≠ '"' := (isDigit_ne hc rfl).symm
  have hlist : c ≠ '[' := (isDigit_ne hc rfl).symm
  have hobject : c ≠ '\x7b' := (isDigit_ne hc rfl).symm
  rcases h with rfl | rfl <;> simp [readValue, *]

theorem readValue_text (ascii : Bool) (s : String) (rest : List Char) :
    readValue (fuel + 1) (writeText ascii s ++ rest) = .ok (.text s, rest) := by
  rw [writeText_eq, List.cons_append, readValue, if_pos (by decide), readText_writeText]
  rfl

section
variable (l : Layout) (level : Nat)

/-- A value begins where the blanks in front of it end. -/
theorem skipBlanks_writeAt (x : Json) (rest : List Char) :
    skipBlanks (writeAt l level x ++ rest) = writeAt l level x ++ rest := by
  obtain ⟨c, cs, hx, hc⟩ := writeAt_cons l level x
  rw [hx, List.cons_append, skipBlanks_cons (isEdge_iff.1 hc).1]

theorem readValue_list (x : Json) (rest : List Char) :
    readValue (fuel + 1) ('[' :: (l.newline level ++ (writeAt l level x ++ rest))) =
      (readItems fuel (writeAt l level x ++ rest)).map fun r => (.list r.1, r.2) := by
  rw [readValue, if_neg (by decide), if_pos (by decide), skipBlanks_append (newline_blank l level), skipBlanks_writeAt]
  split
  · rename_i h
    obtain ⟨c, cs, hx, hc⟩ := writeAt_cons l level x
    rw [hx] at h
    exact absurd (List.cons.inj h).1 (isEdge_iff.1 hc).2.1
  · cases readItems fuel (writeAt l level x ++ rest) <;> rfl

theorem readValue_object (k : String) (rest : List Char) :
    readValue (fuel + 1) ('\x7b' :: (l.newline level ++ (writeText l.asciiOnly k ++ rest))) =
      (readMembers fuel (writeText l.asciiOnly k ++ rest)).map fun r => (.object (collapse (· == ·) r.1), r.2) := by
  rw [readValue, if_neg (by decide), if_neg (by decide), if_pos (by decide), skipBlanks_append (newline_blank l level),
    writeText_eq, List.cons_append, skipBlanks_cons rfl]
  split
  · rename_i h
    exact absurd (List.cons.inj h).1 (by decide)
  · cases readMembers fuel ('"' :: ((writeText l.asciiOnly k).tail ++ rest)) <;> rfl


/-! ### Items and members -/

section
variable {x : Json} {rest : List Char}

theorem readItems_last (h : readValue fuel cs = .ok (x, l.newline level ++ ']' :: rest)) :
    readItems (fuel + 1) cs = .ok ([x], rest) := by
  rw [readItems, h]
  simp only [bind, Except.bind, skipBlanks_append (newline_blank l level), skipBlanks_cons (c := ']') rfl]
  rfl

theorem readItems_more {y : Json}
    (h : readValue fuel cs = .ok (x, l.comma level ++ (writeAt l level y ++ rest))) :
    readItems (fuel + 1) cs = (readItems fuel (writeAt l level y ++ rest)).map fun r => (x :: r.1, r.2) := by
  obtain ⟨bs, hcomma, hbs⟩ := comma_eq l level
  rw [readItems, h, hcomma]
  simp only [bind, Except.bind, List.cons_append, skipBlanks_cons (c := ',') rfl, skipBlanks_append hbs,
    skipBlanks_writeAt]
  cases readItems fuel (writeAt l level y ++ rest) <;> rfl

theorem readMembers_last {k : String} {y : Json}
    (h : readValue fuel (writeAt l (level + 1) x ++ cs) = .ok (y, l.newline level ++ '\x7d' :: rest)) :
    readMembers (fuel + 1) (writeText l.asciiOnly k ++ (':' :: ' ' :: (writeAt l (level + 1) x ++ cs))) =
      .ok ([(k, y)], rest) := by
  have hblank : skipBlanks (' ' :: (writeAt l (level + 1) x ++ cs)) = writeAt l (level + 1) x ++ cs :=
    skipBlanks_writeAt l (level + 1) x cs
  rw [writeText_eq, List.cons_append, readMembers, readText_writeText]
  simp only [bind, Except.bind, skipBlanks_cons (c := ':') rfl, hblank, h, skipBlanks_append (newline_blank l level),
    skipBlanks_cons (c := '\x7d') rfl]
  rfl

theorem readMembers_more {k k' : String} {y : Json}
    (h : readValue fuel (writeAt l level x ++ cs) = .ok (y, l.comma level ++ (writeText l.asciiOnly k' ++ rest))) :
    readMembers (fuel + 1) (writeText l.asciiOnly k ++ (':' :: ' ' :: (writeAt l level x ++ cs))) =
      (readMembers fuel (writeText l.asciiOnly k' ++ rest)).map fun r => ((k, y) :: r.1, r.2) := by
  obtain ⟨bs, hcomma, hbs⟩ := comma_eq l level
  have hblank : skipBlanks (' ' :: (writeAt l level x ++ cs)) = writeAt l level x ++ cs :=
    skipBlanks_writeAt l level x cs
  rw [writeText_eq, List.cons_append, readMembers, readText_writeText]
  rw [writeText_eq] at h ⊢
  simp only [bind, Except.bind, skipBlanks_cons (c := ':') rfl, hblank, h, hcomma, List.cons_append,
    skipBlanks_cons (c := ',') rfl, skipBlanks_append hbs, skipBlanks_cons (c := '"') rfl]
  cases readMembers fuel ('"' :: ((writeText l.asciiOnly k').tail ++ rest)) <;> rfl

end

end

end

/-! ## Reading what is written -/

section
variable {l : Layout}

theorem newline_ends (level : Nat) {c : Char} (hc : isDigit c = false ∧ c ≠ '.' ∧ c ≠ 'e' ∧ c ≠ 'E')
    (cs : List Char) : EndsNumber (l.newline level ++ c :: cs) := by
  unfold Layout.newline
  split
  · rintro d ⟨⟩
    decide
  · rintro d ⟨⟩
    exact hc

theorem comma_ends (level : Nat) (cs : List Char) : EndsNumber (l.comma level ++ cs) := by
  obtain ⟨bs, hcomma, -⟩ := comma_eq l level
  rw [hcomma]
  rintro d ⟨⟩
  decide

/-- A number ends where the end of its list stands, or what separates it from the next item. -/
theorem writeItems_ends (level : Nat) (xs : List Json) (rest : List Char) :
    EndsNumber (writeItems l level xs ++ rest) := by
  cases xs with
  | nil =>
    rw [writeItems, List.append_assoc]
    exact newline_ends level (by decide) rest
  | cons x xs =>
    rw [writeItems, List.append_assoc, List.append_assoc]
    exact comma_ends (level + 1) _

theorem writeMembers_ends (level : Nat) (ms : List (String × Json)) (rest : List Char) :
    EndsNumber (writeMembers l level ms ++ rest) := by
  cases ms with
  | nil =>
    rw [writeMembers, List.append_assoc]
    exact newline_ends level (by decide) rest
  | cons m ms =>
    simp only [writeMembers, List.append_assoc]
    exact comma_ends (level + 1) _

theorem length_writeAt (level : Nat) (j : Json) : 0 < (writeAt l level j).length := by
  obtain ⟨c, cs, hcons, -⟩ := writeAt_cons l level j
  rw [hcons]
  exact Nat.succ_pos _

theorem length_writeItems (level : Nat) (xs : List Json) : 0 < (writeItems l level xs).length := by
  cases xs with
  | nil => simp [writeItems]
  | cons x xs =>
    have := length_writeAt (l := l) (level + 1) x
    simp only [writeItems, List.length_append]
    omega

theorem natAbs_lt {n : Int} (h : hasLongInteger (.int n) = false) : n.natAbs < firstLong := by
  rw [hasLongInteger] at h
  exact Nat.not_le.1 (of_decide_eq_false h)

mutual
/-- What is written for a value is read as what comes back of it, whatever comes after it. -/
theorem readValue_writeAt : ∀ (j : Json) (level fuel : Nat) (rest : List Char),
    j.hasLongInteger = false → 2 * (writeAt l level j).length ≤ fuel + 1 → EndsNumber rest →
    readValue (fuel + 1) (writeAt l level j ++ rest) = .ok (j.reread, rest)
  | .null => by
    intro level fuel rest _ _ _
    rw [writeAt]
    rfl
  | .bool b => by
    intro level fuel rest _ _ _
    cases b <;> (rw [writeAt]; rfl)
  | .int n => by
    intro level fuel rest hlong _ hr
    rw [writeAt, readValue_number (opensNumber_writeInt n rest), reread]
    exact readNumber_writeInt (natAbs_lt hlong) hr
  | .float x => by
    intro level fuel rest _ _ hr
    rw [writeAt, reread]
    cases x with
    | nan => rfl
    | infinite s => cases s <;> rfl
    | finite s m e =>
      rw [readValue_number (opensNumber_writeFloat s m e rest)]
      exact readNumber_writeFloat s m e hr
  | .text s => by
    intro level fuel rest _ _ _
    rw [writeAt, reread]
    exact readValue_text _ s rest
  | .list [] => by
    intro level fuel rest _ _ _
    rw [writeAt]
    rfl
  | .list (x :: xs) => by
    intro level fuel rest hlong hfuel _
    simp only [writeAt, List.cons_append, List.append_assoc, List.length_cons, List.length_append] at hfuel ⊢
    rw [readValue_list, readItems_write (x :: xs) x xs rfl level fuel rest hlong (by omega), reread]
    rfl
  | .object [] => by
    intro level fuel rest _ _ _
    rw [writeAt]
    rfl
  | .object ((k, x) :: ms) => by
    intro level fuel rest hlong hfuel _
    simp only [writeAt, List.cons_append, List.append_assoc, List.length_cons, List.length_append, List.nil_append]
      at hfuel ⊢
    rw [readValue_object, readMembers_write ((k, x) :: ms) k x ms rfl level fuel rest hlong (by omega), reread]
    rfl

theorem readItems_write :
    ∀ (items : List Json) (x : Json) (xs : List Json), items = x :: xs →
    ∀ (level fuel : Nat) (rest : List Char), anyLong items = false →
    2 * ((writeAt l (level + 1) x).length + (writeItems l level xs).length) ≤ fuel →
    readItems fuel (writeAt l (level + 1) x ++ (writeItems l level xs ++ rest)) = .ok (rereadItems items, rest)
  | [], _, _, h => by cases h
  | x :: xs, _, _, rfl => by
    intro level fuel rest hlong hfuel
    rw [anyLong, Bool.or_eq_false_iff] at hlong
    have hpos := length_writeAt (l := l) (level + 1) x
    have htail := length_writeItems (l := l) level xs
    obtain ⟨fuel, rfl⟩ : ∃ f, fuel = f + 1 + 1 := ⟨fuel - 2, by omega⟩
    have hx := readValue_writeAt x (level + 1) fuel _ hlong.1 (by omega)
      (writeItems_ends (l := l) level xs rest)
    cases xs with
    | nil =>
      rw [writeItems, List.append_assoc] at hx
      rw [writeItems, List.append_assoc, readItems_last l level hx]
      rfl
    | cons y ys =>
      simp only [writeItems, List.append_assoc, List.length_append] at hx hfuel ⊢
      rw [readItems_more l (level + 1) hx,
        readItems_write (y :: ys) y ys rfl level (fuel + 1) rest hlong.2 (by omega)]
      rfl

theorem readMembers_write : ∀ (members : List (String × Json)) (k : String) (x : Json)
    (ms : List (String × Json)), members = (k, x) :: ms →
    ∀ (level fuel : Nat) (rest : List Char), anyLongMember members = false →
    2 * ((writeText l.asciiOnly k).length + (2 + ((writeAt l (level + 1) x).length + (writeMembers l level ms).length))) ≤
      fuel →
    readMembers fuel
        (writeText l.asciiOnly k ++ (':' :: ' ' :: (writeAt l (level + 1) x ++ (writeMembers l level ms ++ rest)))) =
      .ok (rereadMembers members, rest)
  | [], _, _, _, h => by cases h
  | (k, x) :: ms, _, _, _, rfl => by
    intro level fuel rest hlong hfuel
    rw [anyLongMember, Bool.or_eq_false_iff] at hlong
    obtain ⟨fuel, rfl⟩ : ∃ f, fuel = f + 1 + 1 := ⟨fuel - 2, by omega⟩
    have hx := readValue_writeAt x (level + 1) fuel _ hlong.1 (by omega)
      (writeMembers_ends (l := l) level ms rest)
    cases ms with
    | nil =>
      rw [writeMembers, List.append_assoc] at hx
      rw [writeMembers, List.append_assoc, readMembers_last l level hx]
      rfl
    | cons m ms =>
      obtain ⟨k', y⟩ := m
      simp only [writeMembers, List.append_assoc, List.length_append, List.cons_append, List.nil_append,
        List.length_cons] at hx hfuel ⊢
      rw [readMembers_more l (level + 1) hx,
        readMembers_write ((k', y) :: ms) k' y ms rfl level (fuel + 1) rest hlong.2 (by omega)]
      rfl
end

end

/-- The text of a value, laid out anyhow, is read as the value that comes back. -/
theorem read_write (l : Layout) {j : Json} (hlong : j.hasLongInteger = false) :
    Json.read (j.write l ++ "\n") = .ok j.reread := by
  have htext : (j.write l ++ "\n").toList = writeAt l 0 j ++ ['\n'] := by
    simp [write]
  obtain ⟨c, cs, hcons, hc⟩ := writeAt_cons l 0 j
  have hread := readValue_writeAt (l := l) j 0 (2 * (writeAt l 0 j ++ ['\n']).length) ['\n'] hlong
    (by rw [List.length_append]; omega) (by rintro d ⟨⟩; decide)
  rw [read, htext]
  unfold readAll
  split
  · rename_i h
    rw [hcons] at h
    exact absurd (List.cons.inj h).1 (isEdge_iff.1 hc).2.2.2
  · rw [skipBlanks_writeAt, hread]
    rfl

/-- The text of a document is read as the document that comes back. -/
theorem read_jsonText {j : Json} (hlong : j.hasLongInteger = false) :
    Json.read (Projection.jsonText j) = .ok j.reread := read_write .document hlong

end ApiProjection.Json
