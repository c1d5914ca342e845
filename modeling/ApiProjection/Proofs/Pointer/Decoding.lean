import ApiProjection.Proofs.Pointer
/-!
# Decoding pointers

Whoever reads the text of a pointer splits what follows the base at its slashes and puts a slash for each `~1` of a
part and then a tilde for each `~0`. This gives back the texts of the segments, whatever stands in them.

* `decode_eq_unescape`: the two replacements do what one pass over the part does.
* `segments_decoded`: the segments of every pointer come back.
-/
namespace ApiProjection.Pointer

/-! ## Two replacements -/

/-- A text with one character in place of each occurrence of two. -/
def replacePair (first second new : Char) : List Char → List Char
  | c :: d :: cs =>
    if c = first ∧ d = second then new :: replacePair first second new cs
    else c :: replacePair first second new (d :: cs)
  | cs => cs

/-- The text that a part of a pointer stands for. -/
def decode (part : List Char) : String :=
  String.ofList (replacePair '~' '0' '~' (replacePair '~' '1' '/' part))

section
variable {first second new c : Char}

theorem replacePair_cons_cons (c d : Char) (cs : List Char) : replacePair first second new (c :: d :: cs) =
    if c = first ∧ d = second then new :: replacePair first second new cs
    else c :: replacePair first second new (d :: cs) := rfl

theorem replacePair_pair (cs : List Char) :
    replacePair first second new (first :: second :: cs) = new :: replacePair first second new cs := by
  rw [replacePair_cons_cons, if_pos ⟨rfl, rfl⟩]

theorem replacePair_of_ne (h : c ≠ first) (cs : List Char) :
    replacePair first second new (c :: cs) = c :: replacePair first second new cs := by
  cases cs with
  | nil => rfl
  | cons d cs => rw [replacePair_cons_cons, if_neg fun hpair => h hpair.1]

/-- A character stays that is not the first of a pair. -/
theorem replacePair_of_head {cs : List Char} (h : cs.head? ≠ some second) :
    replacePair first second new (c :: cs) = c :: replacePair first second new cs := by
  cases cs with
  | nil => rfl
  | cons d cs => rw [replacePair_cons_cons, if_neg fun hpair => h (congrArg some hpair.2)]

/-- A text begins as before, or with a new character. -/
theorem head?_replacePair (cs : List Char) :
    (replacePair first second new cs).head? = cs.head? ∨ (replacePair first second new cs).head? = some new := by
  rcases cs with _ | ⟨c, _ | ⟨d, cs⟩⟩
  · exact .inl rfl
  · exact .inl rfl
  · rw [replacePair_cons_cons]
    split
    · exact .inr rfl
    · exact .inl rfl

end

/-- No pair of one replacement comes from the other, so that one pass is enough for both. -/
theorem replacePair_replacePair (cs : List Char) :
    replacePair '~' '0' '~' (replacePair '~' '1' '/' cs) = unescapeChars cs := by
  fun_induction unescapeChars cs with
  | case1 cs ih =>
    have hinner : replacePair '~' '1' '/' ('~' :: '0' :: cs) = '~' :: '0' :: replacePair '~' '1' '/' cs := by
      rw [replacePair_of_head (by simp), replacePair_of_ne (by decide)]
    rw [hinner, replacePair_pair, ih]
  | case2 cs ih =>
    rw [replacePair_pair, replacePair_of_ne (by decide), ih]
  | case3 c cs htilde hslash ih =>
    by_cases hc : c = '~'
    · subst hc
      have hinner : cs.head? ≠ some '1' := by
        rintro h
        obtain ⟨ds, rfl⟩ := List.head?_eq_some_iff.1 h
        exact hslash ds rfl rfl
      have houter : (replacePair '~' '1' '/' cs).head? ≠ some '0' := by
        have hhead : (replacePair '~' '1' '/' cs).head? = cs.head? ∨ (replacePair '~' '1' '/' cs).head? = some '/' :=
          head?_replacePair cs
        rcases hhead with h | h
        · rw [h]
          rintro h
          obtain ⟨ds, rfl⟩ := List.head?_eq_some_iff.1 h
          exact htilde ds rfl rfl
        · rw [h]
          decide
      rw [replacePair_of_head hinner, replacePair_of_head houter, ih]
    · rw [replacePair_of_ne hc, replacePair_of_ne hc, ih]
  | case4 => rfl

theorem decode_eq_unescape (part : List Char) : decode part = unescape (String.ofList part) := by
  rw [decode, replacePair_replacePair, unescape, String.toList_ofList]

/-! ## Segments -/

/-- What leads one step on in a document: the key of a member or the position of an item. -/
inductive Segment
  | key (k : String)
  | index (i : Int)

def Segment.text : Segment → String
  | .key k => k
  | .index i => toString i

/-- The base followed by segments. -/
def extendBy (base : String) (segments : List Segment) : String := extend base (segments.map Segment.text)

/-- The texts of the segments behind the base: the decoded parts behind the first slash. -/
def decoded (base text : String) : List String := (((text.toList.drop base.length).splitOn '/').tail).map decode

theorem decoded_eq_parts (base text : String) : decoded base text = parts base text :=
  List.map_congr_left fun part _ => decode_eq_unescape part

theorem extend_extend (base : String) (xs ys : List String) : extend (extend base xs) ys = extend base (xs ++ ys) := by
  rw [← String.toList_inj]
  simp only [toList_extend, List.flatMap_append, List.append_assoc]

/-- **The segments of a pointer come back,** in order and in number, so that pointers with one base are the same only
if the texts of their segments are; and further segments may be put on one after another or all at once. -/
theorem segments_decoded (base : String) :
    (∀ segments, base.toList <+: (extendBy base segments).toList ∧
      decoded base (extendBy base segments) = segments.map Segment.text) ∧
    (∀ xs ys, extendBy base xs = extendBy base ys ↔ xs.map Segment.text = ys.map Segment.text) ∧
    ∀ xs ys, extendBy (extendBy base xs) ys = extendBy base (xs ++ ys) := by
  have hdecoded (segments : List Segment) : decoded base (extendBy base segments) = segments.map Segment.text := by
    rw [decoded_eq_parts, extendBy, parts_extend]
  refine ⟨fun segments => ⟨?_, hdecoded segments⟩, fun xs ys => ⟨fun h => ?_, fun h => ?_⟩, fun xs ys => ?_⟩
  · rw [extendBy, toList_extend]
    exact List.prefix_append _ _
  · rw [← hdecoded xs, h, hdecoded ys]
  · rw [extendBy, h, extendBy]
  · rw [extendBy, extendBy, extendBy, extend_extend, List.map_append]

/-- Neither what looks escaped already nor empty segments are lost. -/
example : extendBy "#" [.key "~1", .key "", .key "/~", .index 7] = "#/~01//~1~0/7" := by decide

end ApiProjection.Pointer
