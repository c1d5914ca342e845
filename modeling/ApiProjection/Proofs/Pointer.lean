import ApiProjection.Pointer
/-!
# Reading pointers back

`Pointer.parts` takes the text of a pointer apart at its slashes and undoes the escaping of each
part.

* `parts_text`: the parts of a pointer's text after its base are its segments, so nothing that
  stands in a segment is taken for a slash.
* `text_inj`: two pointers with one base and one text have the same segments.
-/
namespace ApiProjection.Pointer

/-- The segments that follow the base in the text of a pointer. -/
def parts (base text : String) : List String :=
  (((text.toList.drop base.length).splitOn '/').tail).map fun cs => unescape (String.ofList cs)

/-! ## Segments -/

theorem slash_not_mem_escapeChar (c : Char) : '/' ∉ escapeChar c := by
  unfold escapeChar
  split
  · decide
  · split
    · decide
    · rename_i h
      intro hc
      rw [List.mem_singleton] at hc
      exact h (by simp [← hc])

theorem slash_not_mem_escape (s : String) : '/' ∉ (escape s).toList := by
  simp only [escape, String.toList_ofList, List.mem_flatMap, not_exists, not_and]
  exact fun c _ => slash_not_mem_escapeChar c

theorem unescapeChars_escapeChars (cs : List Char) : unescapeChars (cs.flatMap escapeChar) = cs := by
  induction cs with
  | nil => rfl
  | cons c cs ih =>
    rw [List.flatMap_cons]
    by_cases ht : c = '~'
    · subst ht
      change '~' :: unescapeChars (cs.flatMap escapeChar) = _
      rw [ih]
    · by_cases hs : c = '/'
      · subst hs
        change '/' :: unescapeChars (cs.flatMap escapeChar) = _
        rw [ih]
      · have he : escapeChar c = [c] := by simp [escapeChar, ht, hs]
        rw [he, List.singleton_append, unescapeChars.eq_3 _ _ (by simp [ht]) (by simp [ht]), ih]

@[simp] theorem unescape_escape (s : String) : unescape (escape s) = s := by
  simp [unescape, escape, unescapeChars_escapeChars]

/-! ## Texts -/

/-- Each segment stands after a slash of its own. -/
theorem toList_extend (base : String) (segments : List String) :
    (extend base segments).toList =
      base.toList ++ segments.flatMap fun s => '/' :: (escape s).toList := by
  unfold extend
  induction segments generalizing base with
  | nil => simp
  | cons s rest ih =>
    have h := ih (escape s)
    rw [List.map_cons, String.intercalate_cons_cons, String.toList_append, String.toList_append, h]
    simp

theorem splitOn_segments (segments : List String) :
    (segments.flatMap fun s => '/' :: (escape s).toList).splitOn '/' =
      [] :: segments.map fun s => (escape s).toList := by
  have h : (segments.flatMap fun s => '/' :: (escape s).toList) =
      ['/'].intercalate ([] :: segments.map fun s => (escape s).toList) := by
    induction segments with
    | nil => simp
    | cons s rest ih =>
      cases rest with
      | nil => simp
      | cons t ts => simpa using ih
  rw [h, List.splitOn_intercalate '/' ?_ (by simp)]
  intro l hl
  rcases List.mem_cons.1 hl with rfl | hl
  · simp
  · obtain ⟨s, _, rfl⟩ := List.mem_map.1 hl
    exact slash_not_mem_escape s

theorem parts_extend (base : String) (segments : List String) :
    parts base (extend base segments) = segments := by
  have hd : (extend base segments).toList.drop base.length =
      segments.flatMap fun s => '/' :: (escape s).toList := by
    rw [toList_extend, ← String.length_toList, List.drop_left]
  rw [parts, hd, splitOn_segments, List.tail_cons, List.map_map]
  simp [Function.comp_def]

/-- **Segments come back**, however many slashes and tildes are in them. -/
theorem parts_text (p : Pointer) : parts p.base p.text = p.segments := parts_extend p.base p.segments

/-- A text is the place of one pointer only. -/
theorem text_inj {p q : Pointer} (hb : p.base = q.base) (h : p.text = q.text) : p = q := by
  have hs : p.segments = q.segments := by rw [← parts_text p, hb, h, parts_text q]
  cases p
  cases q
  simp_all

/-! ## Places further in -/

/-- The place reached by several segments. -/
def descend (p : Pointer) (segments : List String) : Pointer :=
  { p with segments := p.segments ++ segments }

@[simp] theorem descend_nil (p : Pointer) : p.descend [] = p := by simp [descend]

@[simp] theorem key_descend (p : Pointer) (k : String) (segments : List String) :
    (p.key k).descend segments = p.descend (k :: segments) := by simp [descend, key]

theorem descend_text_inj {p : Pointer} {xs ys : List String} :
    (p.descend xs).text = (p.descend ys).text ↔ xs = ys := by
  constructor
  · intro h
    have he : p.descend xs = p.descend ys := text_inj rfl h
    simpa [descend] using he
  · rintro rfl
    rfl

/-- Positions are written differently. -/
theorem toString_inj {i j : Nat} : toString i = toString j ↔ i = j := by
  constructor
  · intro h
    have hd : Nat.toDigits 10 i = Nat.toDigits 10 j := by
      rw [← Nat.toList_repr, ← Nat.toList_repr]
      exact congrArg String.toList h
    rw [← Nat.ofDigitChars_toDigits (n := i) (by decide : 1 < 10) (by decide), hd,
      Nat.ofDigitChars_toDigits (by decide) (by decide)]
  · rintro rfl
    rfl

end ApiProjection.Pointer
