import ApiProjection.Proofs.RoundTrip.Layout
import ApiProjection.Yaml.Node
/-!
# The nodes of a value

The tokens of a value are parsed as one node, in which every scalar has the tag of its kind.

* `node`: the node of a value.
* `Node.ofTokens_tokens`: the tokens of an object are those of a document with its node.
-/
namespace ApiProjection.Yaml

mutual
/-- The node of a value. -/
def node : Json → Node
  | .null => .scalar .null "null"
  | .bool b => .scalar .bool (if b then "true" else "false")
  | .int n => .scalar .int (String.ofList (Json.writeInt n))
  | .float x => .scalar .float (String.ofList (floatChars x))
  | .text s => .scalar .str s
  | .list xs => .sequence .seq (nodes xs)
  | .object ms => .mapping .map (entries ms)

def nodes : List Json → List Node
  | [] => []
  | x :: xs => node x :: nodes xs

def entries : List (String × Json) → List (Node × Node)
  | [] => []
  | (k, x) :: ms => (.scalar .str k, node x) :: entries ms
end

namespace Node

/-! ## Steps of the parser -/

section
variable {h : List (String × String)} {ts rest : List Token} {position : Position} {fuel : Nat} {n k v : Node}
  {ns : List Node} {es : List (Node × Node)} {isPlain : Bool} {s : String}

/-- The tokens still to be parsed, in a document without names. -/
def source (h : List (String × String)) (ts : List Token) : Source := { tokens := ts, handles := h }

theorem read_scalar (h : List (String × String)) (ts : List Token) (position : Position) (fuel : Nat) (isPlain : Bool)
    (s : String) :
    read position (fuel + 1) (source h (.scalar isPlain s :: ts)) =
      .ok (.scalar (if isPlain then .ofPlain (.ofText s) else .str) s, source h ts) := by
  cases position <;> cases isPlain <;> rfl

theorem read_brackets (position : Position) (fuel : Nat) :
    read position (fuel + 2) (source h (.flowSequence :: .flowSequenceEnd :: rest)) =
      .ok (.sequence .seq [], source h rest) ∧
    read position (fuel + 2) (source h (.flowMapping :: .flowMappingEnd :: rest)) =
      .ok (.mapping .map [], source h rest) := by
  constructor <;> (cases position <;> rfl)

theorem read_blockSequence (hp : position ≠ .flow) (hread : readSequence fuel (source h ts) = .ok (ns, source h rest)) :
    read position (fuel + 1) (source h (.blockSequence :: ts)) = .ok (.sequence .seq ns, source h rest) := by
  have hstep : read position (fuel + 1) (source h (.blockSequence :: ts)) =
      (readSequence fuel (source h ts)).bind fun r => .ok (.sequence .seq r.1, r.2) := by
    cases position with
    | flow => exact absurd rfl hp
    | block => rfl
    | afterKey => rfl
  rw [hstep, hread]
  rfl

theorem read_blockMapping (hp : position ≠ .flow) (hread : readMapping fuel (source h ts) = .ok (es, source h rest)) :
    read position (fuel + 1) (source h (.blockMapping :: ts)) = .ok (.mapping .map es, source h rest) := by
  have hstep : read position (fuel + 1) (source h (.blockMapping :: ts)) =
      (readMapping fuel (source h ts)).bind fun r => .ok (.mapping .map r.1, r.2) := by
    cases position with
    | flow => exact absurd rfl hp
    | block => rfl
    | afterKey => rfl
  rw [hstep, hread]
  rfl

theorem read_indentless (hread : readIndentless fuel (source h (.entry :: ts)) = .ok (ns, source h rest)) :
    read .afterKey (fuel + 1) (source h (.entry :: ts)) = .ok (.sequence .seq ns, source h rest) := by
  have hstep : read .afterKey (fuel + 1) (source h (.entry :: ts)) =
      (readIndentless fuel (source h (.entry :: ts))).bind fun r => .ok (.sequence .seq r.1, r.2) := rfl
  rw [hstep, hread]
  rfl

/-! ### Items and members -/

/-- A token that begins a node. -/
def Starts (t : Token) : Prop := t ≠ .key ∧ t ≠ .value ∧ t ≠ .blockEnd

variable {t : Token} {more : List Token}

theorem endsEntry_of_starts (ht : Starts t) (hentry : t ≠ .entry) : endsEntry (source h (t :: ts)) = false := by
  obtain ⟨-, -, hend⟩ := ht
  cases t <;> first | rfl | contradiction

theorem endsIndentless_of_starts (ht : Starts t) (hentry : t ≠ .entry) :
    endsIndentless (source h (t :: ts)) = false := by
  obtain ⟨hkey, hvalue, hend⟩ := ht
  cases t <;> first | rfl | contradiction

theorem endsMember_of_starts (ht : Starts t) : endsMember (source h (t :: ts)) = false := by
  obtain ⟨hkey, hvalue, hend⟩ := ht
  cases t <;> first | rfl | contradiction

theorem readSequence_cons (ht : Starts t) (hentry : t ≠ .entry)
    (hitem : read .block fuel (source h (t :: ts)) = .ok (n, source h more))
    (hmore : readSequence fuel (source h more) = .ok (ns, source h rest)) :
    readSequence (fuel + 1) (source h (.entry :: t :: ts)) = .ok (n :: ns, source h rest) := by
  have hends : endsEntry (source h (t :: ts)) = false := endsEntry_of_starts ht hentry
  have hstep : readSequence (fuel + 1) (source h (.entry :: t :: ts)) =
      if endsEntry (source h (t :: ts)) then
        (readSequence fuel (source h (t :: ts))).bind fun r => .ok (empty :: r.1, r.2)
      else (read .block fuel (source h (t :: ts))).bind fun r =>
        (readSequence fuel r.2).bind fun r' => .ok (r.1 :: r'.1, r'.2) := rfl
  rw [hstep, hends, if_neg Bool.false_ne_true, hitem]
  simp only [Except.bind, hmore]

theorem readIndentless_cons (ht : Starts t) (hentry : t ≠ .entry)
    (hitem : read .block fuel (source h (t :: ts)) = .ok (n, source h more))
    (hmore : readIndentless fuel (source h more) = .ok (ns, source h rest)) :
    readIndentless (fuel + 1) (source h (.entry :: t :: ts)) = .ok (n :: ns, source h rest) := by
  have hends : endsIndentless (source h (t :: ts)) = false := endsIndentless_of_starts ht hentry
  have hstep : readIndentless (fuel + 1) (source h (.entry :: t :: ts)) =
      if endsIndentless (source h (t :: ts)) then
        (readIndentless fuel (source h (t :: ts))).bind fun r => .ok (empty :: r.1, r.2)
      else (read .block fuel (source h (t :: ts))).bind fun r =>
        (readIndentless fuel r.2).bind fun r' => .ok (r.1 :: r'.1, r'.2) := rfl
  rw [hstep, hends, if_neg Bool.false_ne_true, hitem]
  simp only [Except.bind, hmore]

theorem readIndentless_nil (hrest : rest.head? ≠ some .entry) :
    readIndentless (fuel + 1) (source h rest) = .ok ([], source h rest) := by
  rw [readIndentless]
  split
  · rename_i heq
    cases rest with
    | nil => cases heq
    | cons t ts =>
      cases (List.cons.inj heq).1
      exact absurd rfl hrest
  · rfl

theorem readMapping_end (rest : List Token) (hfuel : 1 ≤ fuel) :
    readMapping fuel (source h (.blockEnd :: rest)) = .ok ([], source h rest) := by
  obtain ⟨fuel, rfl⟩ : ∃ f, fuel = f + 1 := ⟨fuel - 1, by omega⟩
  rfl

theorem readMapping_cons (ht : Starts t)
    (hvalue : read .afterKey (fuel + 1) (source h (t :: ts)) = .ok (v, source h more))
    (hmore : readMapping (fuel + 2) (source h more) = .ok (es, source h rest)) :
    readMapping (fuel + 3) (source h (.key :: .scalar isPlain s :: .value :: t :: ts)) =
      .ok ((.scalar (if isPlain then .ofPlain (.ofText s) else .str) s, v) :: es, source h rest) := by
  have hends : endsMember (source h (t :: ts)) = false := endsMember_of_starts ht
  have hkey := read_scalar h (.value :: t :: ts) .afterKey (fuel + 1) isPlain s
  have hmember : readMember (fuel + 2) (source h (.value :: t :: ts)) = .ok (v, source h more) := by
    have hstep : readMember (fuel + 2) (source h (.value :: t :: ts)) =
        if endsMember (source h (t :: ts)) then .ok (empty, source h (t :: ts))
        else read .afterKey (fuel + 1) (source h (t :: ts)) := rfl
    rw [hstep, hends, if_neg Bool.false_ne_true, hvalue]
  have hstep : readMapping (fuel + 3) (source h (.key :: .scalar isPlain s :: .value :: t :: ts)) =
      (read .afterKey (fuel + 2) (source h (.scalar isPlain s :: .value :: t :: ts))).bind fun r =>
        (readMember (fuel + 2) r.2).bind fun r' => (readMapping (fuel + 2) r'.2).bind fun r'' =>
          .ok ((r.1, r'.1) :: r''.1, r''.2) := rfl
  rw [hstep, hkey]
  simp only [Except.bind, hmember, hmore]

end

/-! ## Scalars -/

theorem tag_text (simpleKey : Bool) (s : String) :
    (if styleOf simpleKey s.toList == .plain then Tag.ofPlain (.ofText s) else .str) = .str := by
  split
  · rename_i hstyle
    rw [Plain.ofText, ofChars_of_style (by simpa using hstyle)]
    rfl
  · rfl

theorem tag_word {cs : List Char} {kind : Plain} (hcs : Plain.ofChars cs = kind) :
    (if true then Tag.ofPlain (.ofText (String.ofList cs)) else .str) = .ofPlain kind := by
  rw [if_pos rfl, Plain.ofText, String.toList_ofList, hcs]

/-! ## Whole values -/

section
variable {h : List (String × String)}

/-- How the tokens of a value begin. -/
theorem tokens_starts (flush : Bool) (j : Json) :
    ∃ t ts, tokens flush j = t :: ts ∧ Starts t ∧ (flush = false → t ≠ .entry) := by
  have hword (cs : List Char) : ∃ t ts, [wordToken cs] = t :: ts ∧ Starts t ∧ (flush = false → t ≠ .entry) :=
    ⟨_, _, rfl, ⟨nofun, nofun, nofun⟩, fun _ => nofun⟩
  cases j with
  | null => exact hword _
  | bool b => exact hword _
  | int n => exact hword _
  | float x => exact hword _
  | text s => exact ⟨_, _, rfl, ⟨nofun, nofun, nofun⟩, fun _ => nofun⟩
  | list xs =>
    cases xs with
    | nil => exact ⟨_, _, rfl, ⟨nofun, nofun, nofun⟩, fun _ => nofun⟩
    | cons x xs =>
      cases flush with
      | false => exact ⟨_, _, rfl, ⟨nofun, nofun, nofun⟩, fun _ => nofun⟩
      | true => exact ⟨_, _, rfl, ⟨nofun, nofun, nofun⟩, nofun⟩
  | object ms =>
    cases ms with
    | nil => exact ⟨_, _, rfl, ⟨nofun, nofun, nofun⟩, fun _ => nofun⟩
    | cons m ms => exact ⟨_, _, rfl, ⟨nofun, nofun, nofun⟩, fun _ => nofun⟩

/-- Plain text of a kind. -/
theorem read_word {cs : List Char} {kind : Plain} (hcs : Plain.ofChars cs = kind) {position : Position} {fuel : Nat}
    {rest : List Token} (hfuel : 4 ≤ fuel) :
    read position fuel (source h ([wordToken cs] ++ rest)) =
      .ok (.scalar (.ofPlain kind) (String.ofList cs), source h rest) := by
  obtain ⟨fuel, rfl⟩ : ∃ f, fuel = f + 1 := ⟨fuel - 1, by omega⟩
  have hread := read_scalar h rest position fuel true (String.ofList cs)
  rw [tag_word hcs] at hread
  exact hread

mutual
/-- The tokens of a value are parsed as its node. -/
theorem read_tokens : ∀ (j : Json) (flush : Bool) (position : Position) (fuel : Nat) (rest : List Token),
    (∀ x ∈ j.floats, x.isFinite = true) → position ≠ .flow → (flush = true → position = .afterKey) →
    (flush = true → rest.head? ≠ some .entry) → 2 * (tokens flush j).length + 2 ≤ fuel →
    read position fuel (source h (tokens flush j ++ rest)) = .ok (node j, source h rest)
  | .null, flush, position, fuel, rest, _, _, _, _, hfuel =>
    have hform : Plain.ofChars "null".toList = .null := by decide
    read_word hform hfuel
  | .bool b, flush, position, fuel, rest, _, _, _, _, hfuel => by
    have hform : Plain.ofChars (if b then "true" else "false").toList = .bool := by cases b <;> decide
    cases b <;> exact read_word hform hfuel
  | .int n, flush, position, fuel, rest, _, _, _, _, hfuel => read_word (ofChars_writeInt n) hfuel
  | .float x, flush, position, fuel, rest, hf, _, _, _, hfuel => by
    cases x with
    | nan => exact absurd (hf .nan (List.mem_singleton_self _)) Bool.false_ne_true
    | infinite s => exact absurd (hf (.infinite s) (List.mem_singleton_self _)) Bool.false_ne_true
    | finite s m e =>
      obtain ⟨d, hd, hwf, hpoint, -⟩ := floatChars_finite s m e
      have hform : Plain.ofChars (floatChars (.finite s m e)) = .float := by
        rw [hd]
        exact ofChars_decimal hwf hpoint
      exact read_word hform hfuel
  | .text s, flush, position, fuel, rest, _, _, _, _, hfuel => by
    obtain ⟨fuel, rfl⟩ : ∃ f, fuel = f + 1 := ⟨fuel - 1, by omega⟩
    have hread := read_scalar h rest position fuel (styleOf false s.toList == .plain) s
    rw [tag_text] at hread
    exact hread
  | .list [], flush, position, fuel, rest, _, _, _, _, hfuel => by
    obtain ⟨fuel, rfl⟩ : ∃ f, fuel = f + 2 := ⟨fuel - 2, by omega⟩
    exact (read_brackets position fuel).1
  | .list (x :: xs), flush, position, fuel, rest, hf, hp, hafter, hrest, hfuel => by
    obtain ⟨fuel, rfl⟩ : ∃ f, fuel = f + 1 := ⟨fuel - 1, by omega⟩
    cases flush with
    | true =>
      have hlen : 2 * (itemTokens (x :: xs)).length + 2 ≤ fuel + 1 := hfuel
      have hitems := readIndentless_tokens (x :: xs) fuel rest hf (hrest rfl) (by omega)
      rw [hafter rfl]
      exact read_indentless hitems
    | false =>
      have hlen : 2 * (.blockSequence :: (itemTokens (x :: xs) ++ [.blockEnd])).length + 2 ≤ fuel + 1 := hfuel
      rw [List.length_cons, List.length_append] at hlen
      have hitems := readSequence_tokens (x :: xs) fuel rest hf (by omega)
      have htokens : tokens false (.list (x :: xs)) ++ rest =
          .blockSequence :: (itemTokens (x :: xs) ++ .blockEnd :: rest) := by
        rw [List.append_cons _ _ rest]
        rfl
      rw [htokens]
      exact read_blockSequence hp hitems
  | .object [], flush, position, fuel, rest, _, _, _, _, hfuel => by
    obtain ⟨fuel, rfl⟩ : ∃ f, fuel = f + 2 := ⟨fuel - 2, by omega⟩
    exact (read_brackets position fuel).2
  | .object (m :: ms), flush, position, fuel, rest, hf, hp, _, _, hfuel => by
    obtain ⟨fuel, rfl⟩ : ∃ f, fuel = f + 1 := ⟨fuel - 1, by omega⟩
    have hlen : 2 * (.blockMapping :: (memberTokens (m :: ms) ++ [.blockEnd])).length + 2 ≤ fuel + 1 := hfuel
    rw [List.length_cons, List.length_append] at hlen
    have hend : (.blockEnd :: rest : List Token).head? ≠ some .entry := nofun
    have hmembers := readMapping_append (m :: ms) 1 fuel hf hend (fun _ => readMapping_end rest) (by omega)
    rw [List.append_nil] at hmembers
    have htokens : tokens flush (.object (m :: ms)) ++ rest =
        .blockMapping :: (memberTokens (m :: ms) ++ .blockEnd :: rest) := by
      rw [List.append_cons _ _ rest]
      rfl
    rw [htokens]
    exact read_blockMapping hp hmembers

theorem readSequence_tokens : ∀ (xs : List Json) (fuel : Nat) (rest : List Token),
    (∀ x ∈ Json.floatsOfItems xs, x.isFinite = true) → 2 * (itemTokens xs).length + 1 ≤ fuel →
    readSequence fuel (source h (itemTokens xs ++ .blockEnd :: rest)) = .ok (nodes xs, source h rest)
  | [], fuel, rest, _, hfuel => by
    obtain ⟨fuel, rfl⟩ : ∃ f, fuel = f + 1 := ⟨fuel - 1, by omega⟩
    rfl
  | x :: xs, fuel, rest, hf, hfuel => by
    rw [Json.floatsOfItems, List.forall_mem_append] at hf
    rw [itemTokens, List.length_cons, List.length_append] at hfuel
    obtain ⟨fuel, rfl⟩ : ∃ f, fuel = f + 1 := ⟨fuel - 1, by omega⟩
    have hx := read_tokens x false .block fuel (itemTokens xs ++ .blockEnd :: rest) hf.1 nofun nofun nofun (by omega)
    have hxs := readSequence_tokens xs fuel rest hf.2 (by omega)
    obtain ⟨t, ts, htokens, ht, hentry⟩ := tokens_starts false x
    rw [itemTokens, List.cons_append, List.append_assoc]
    rw [htokens] at hx ⊢
    exact readSequence_cons ht (hentry rfl) hx hxs

theorem readIndentless_tokens : ∀ (xs : List Json) (fuel : Nat) (rest : List Token),
    (∀ x ∈ Json.floatsOfItems xs, x.isFinite = true) → rest.head? ≠ some .entry →
    2 * (itemTokens xs).length + 1 ≤ fuel →
    readIndentless fuel (source h (itemTokens xs ++ rest)) = .ok (nodes xs, source h rest)
  | [], fuel, rest, _, hrest, hfuel => by
    obtain ⟨fuel, rfl⟩ : ∃ f, fuel = f + 1 := ⟨fuel - 1, by omega⟩
    exact readIndentless_nil hrest
  | x :: xs, fuel, rest, hf, hrest, hfuel => by
    rw [Json.floatsOfItems, List.forall_mem_append] at hf
    rw [itemTokens, List.length_cons, List.length_append] at hfuel
    obtain ⟨fuel, rfl⟩ : ∃ f, fuel = f + 1 := ⟨fuel - 1, by omega⟩
    have hx := read_tokens x false .block fuel (itemTokens xs ++ rest) hf.1 nofun nofun nofun (by omega)
    have hxs := readIndentless_tokens xs fuel rest hf.2 hrest (by omega)
    obtain ⟨t, ts, htokens, ht, hentry⟩ := tokens_starts false x
    rw [itemTokens, List.cons_append, List.append_assoc]
    rw [htokens] at hx ⊢
    exact readIndentless_cons ht (hentry rfl) hx hxs

/-- The tokens of members are parsed as their entries, before whatever other members are parsed behind them. -/
theorem readMapping_append : ∀ (ms : List (String × Json)) (needed fuel : Nat) {more rest : List Token}
    {es : List (Node × Node)}, (∀ x ∈ Json.floatsOfMembers ms, x.isFinite = true) → more.head? ≠ some .entry →
    (∀ fuel, needed ≤ fuel → readMapping fuel (source h more) = .ok (es, source h rest)) →
    2 * (memberTokens ms).length + needed ≤ fuel →
    readMapping fuel (source h (memberTokens ms ++ more)) = .ok (entries ms ++ es, source h rest)
  | [], needed, fuel, more, rest, es, _, _, hmore, hfuel => hmore fuel (by simpa [memberTokens] using hfuel)
  | (k, x) :: ms, needed, fuel, more, rest, es, hf, hhead, hmore, hfuel => by
    rw [Json.floatsOfMembers, List.forall_mem_append] at hf
    simp only [memberTokens, List.length_cons, List.length_append] at hfuel
    obtain ⟨fuel, rfl⟩ : ∃ f, fuel = f + 3 := ⟨fuel - 3, by omega⟩
    have hrest : (memberTokens ms ++ more).head? ≠ some .entry := by
      cases ms with
      | nil => exact hhead
      | cons m ms => nofun
    have hx := read_tokens x (isSimpleKey k.toList) .afterKey (fuel + 1) (memberTokens ms ++ more) hf.1
      nofun (fun _ => rfl) (fun _ => hrest) (by omega)
    have hms := readMapping_append ms needed (fuel + 2) hf.2 hhead hmore (by omega)
    obtain ⟨t, ts, htokens, ht, -⟩ := tokens_starts (isSimpleKey k.toList) x
    simp only [memberTokens, List.cons_append, List.append_assoc]
    rw [htokens] at hx ⊢
    have hmember : readMapping (fuel + 3) (source h (.key :: textToken (isSimpleKey k.toList) k :: .value :: t ::
        (ts ++ (memberTokens ms ++ more)))) = .ok ((.scalar _ k, node x) :: (entries ms ++ es), source h rest) :=
      readMapping_cons ht hx hms
    rw [tag_text] at hmember
    exact hmember
end

theorem document_of_read {s rest : Source} {n : Node} (h : read .block (2 * s.tokens.length + 2) s = .ok (n, rest))
    (hrest : rest.tokens = []) : document s = .ok (n, []) := by
  unfold document
  rw [h]
  simp only [bind, Except.bind, hrest]
  rfl

/-- Tokens that are parsed as one node are those of a document. -/
theorem ofTokens_of_read {ts : List Token} {n : Node} (hbare : beginsBare ts = true)
    (hread : read .block (2 * ts.length + 2) (source standardHandles ts) = .ok (n, source standardHandles [])) :
    ofTokens ts = .ok (some n) := by
  have hdocument : document (source standardHandles ts) = .ok (n, []) := document_of_read hread rfl
  rw [ofTokens, if_pos hbare]
  change (document (source standardHandles ts)).bind ofTokens.finish = _
  rw [hdocument]
  rfl

/-- **The tokens of an object are those of a document that is its node.** -/
theorem ofTokens_tokens {ms : List (String × Json)} (hf : ∀ x ∈ (Json.object ms).floats, x.isFinite = true) :
    ofTokens (tokens false (.object ms)) = .ok (some (node (.object ms))) := by
  have hread := read_tokens (h := standardHandles) (.object ms) false .block _ [] hf nofun nofun nofun (Nat.le_refl _)
  rw [List.append_nil] at hread
  refine ofTokens_of_read ?_ hread
  cases ms <;> rfl

end

end Node
end ApiProjection.Yaml
