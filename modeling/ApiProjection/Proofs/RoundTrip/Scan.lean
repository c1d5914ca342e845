import ApiProjection.Proofs.RoundTrip.Text
/-!
# Tokens of a block

A reader of tokens goes from token to token. Between two tokens of a block it is in a state that is given by its place,
the tokens so far, the indents and whether a key may begin.

* `Scan.Reads`: a reader comes from one state to another.
* `Scan.inBlock`: a state between two tokens of a block.
* `Lands`: a text goes on in the next line.
* `Scan.Reads.scalar`, `Scan.Reads.entry`, `Scan.Reads.simpleKey`: single tokens.
-/
namespace ApiProjection.Yaml

open Pen Cursor

/-! ## Lines -/

namespace Pen

/-- How many lines have come to an end. -/
def line (p : Pen) : Nat := p.written.countP isBreak

@[simp] theorem place_line (p : Pen) (rest : List Char) : (p.place rest).line = p.line := rfl

@[simp] theorem place_index (p : Pen) (rest : List Char) : (p.place rest).index = p.written.length := rfl

variable {p q : Pen} {ws : List Char}

theorem Writes.line_eq (h : Writes p ws q) : q.line = ws.countP isBreak + p.line := by
  rw [line, h.written, List.countP_append, List.countP_reverse, line]

theorem Writes.line_le (h : Writes p ws q) : p.line ≤ q.line := by
  rw [h.line_eq]
  omega

theorem Writes.line_lt {n : Nat} (h : Writes p (lineStart n) q) : p.line < q.line := by
  rw [h.line_eq, lineStart, List.countP_cons_of_pos rfl]
  omega

end Pen

/-- A text behind a pen goes on at a column of a new line, at a place. -/
structure Lands (p : Pen) (tail : List Char) (n : Nat) (c : Cursor) : Prop where
  intro ::
  lands : ∃ rest q, tail = lineStart n ++ rest ∧ OpensLine n rest ∧ Writes p (lineStart n) q ∧ q.column = n ∧
    c = q.place rest

section
variable {p q : Pen} {c : Cursor} {n : Nat} {tail rest us : List Char}

theorem Lands.endsScalar (h : Lands p tail n c) : EndsScalar tail := by
  obtain ⟨rest, q, rfl, -⟩ := h.lands
  rintro d ⟨⟩
  exact .inr rfl

theorem Lands.stopsAt (h : Lands p tail n c) {i : Int} (hn : (n : Int) < i) : StopsAt i p tail c true := by
  obtain ⟨rest, q, rfl, hopens, hw, hcolumn, rfl⟩ := h.lands
  exact .of_lineStart hopens hw hcolumn hn

end

namespace Scan

/-! ## From token to token -/

/-- What is done before the next token is read. -/
def prepare (s : Scan) : Except Fault Scan :=
  (toNextToken (s.place.rest.length + 1) s).dropStale.map fun s => s.closeBlocks s.column

/-- A reader comes from one state to another. -/
def Reads (s s' : Scan) : Prop :=
  ∀ fuel, s.place.rest.length < fuel → ∃ fuel', s'.place.rest.length < fuel' ∧ run fuel s = run fuel' s'

section
variable {s s' s'' t u : Scan}

theorem Reads.refl (s : Scan) : Reads s s := fun fuel h => ⟨fuel, h, rfl⟩

theorem Reads.trans (h : Reads s s') (h' : Reads s' s'') : Reads s s'' := fun fuel hfuel => by
  obtain ⟨fuel', hfuel', heq⟩ := h fuel hfuel
  obtain ⟨fuel'', hfuel'', heq'⟩ := h' fuel' hfuel'
  exact ⟨fuel'', hfuel'', heq.trans heq'⟩

theorem prepare_ok (h : s.prepare = .ok t) :
    ∃ u, (toNextToken (s.place.rest.length + 1) s).dropStale = .ok u ∧ u.closeBlocks u.column = t := by
  unfold prepare at h
  cases hu : (toNextToken (s.place.rest.length + 1) s).dropStale with
  | error f =>
    rw [hu] at h
    cases h
  | ok u =>
    rw [hu] at h
    cases h
    exact ⟨u, rfl, rfl⟩

/-- One token is read. -/
theorem Reads.of_next (h : s.prepare = .ok t) (hne : t.place.rest ≠ []) (hnext : t.next = .ok u)
    (hlen : u.place.rest.length < s.place.rest.length) : Reads s u := fun fuel hfuel => by
  obtain ⟨fuel, rfl⟩ : ∃ f, fuel = f + 1 := ⟨fuel - 1, by omega⟩
  obtain ⟨v, hv, rfl⟩ := prepare_ok h
  refine ⟨fuel, by omega, ?_⟩
  have hempty : (v.closeBlocks v.column).place.rest.isEmpty = false := by simpa using hne
  rw [run]
  simp only [hv, hempty, Bool.false_eq_true, if_false, hnext]

/-- States that are prepared alike are read alike. -/
theorem Reads.of_prepare (h : s.prepare = .ok t) (h' : s'.prepare = .ok t)
    (hlen : s'.place.rest.length ≤ s.place.rest.length) : Reads s s' := fun fuel hfuel => by
  obtain ⟨fuel, rfl⟩ : ∃ f, fuel = f + 1 := ⟨fuel - 1, by omega⟩
  obtain ⟨u, hu, hu'⟩ := prepare_ok h
  obtain ⟨v, hv, rfl⟩ := prepare_ok h'
  refine ⟨fuel + 1, by omega, ?_⟩
  rw [run, run]
  simp only [hu, hv, hu']

/-- The text is at its end. -/
theorem run_of_end (h : s.prepare = .ok t) (hend : t.place.rest = []) (hmargin : t.atMargin = .ok u) (fuel : Nat) :
    run (fuel + 1) s = u.tokens := by
  obtain ⟨v, hv, rfl⟩ := prepare_ok h
  rw [run]
  simp only [hv, hend, List.isEmpty_nil, if_true, hmargin]

end

/-! ## States between tokens -/

/-- A state between two tokens of a block. -/
def inBlock (c : Cursor) (ts : List Token) (indent : Int) (around : List Int) (allowed : Bool) : Scan :=
  { place := c, tokens := ts, count := ts.length, indent, around, keyAllowed := allowed }

/-- A state in which keys may have begun whose colon can no longer come. -/
def withKeys (s : Scan) (keys : List (Nat × PossibleKey)) : Scan := { s with keys }

/-- Whether the keys are of earlier lines, and none of them is required. -/
def Past (keys : List (Nat × PossibleKey)) (line : Nat) : Prop :=
  ∀ k ∈ keys, k.2.required = false ∧ k.2.place.line ≤ line

section
variable {c : Cursor} {ts : List Token} {i j : Int} {around : List Int} {allowed : Bool} {p q : Pen} {n : Nat}
  {rest tail : List Char} {keys : List (Nat × PossibleKey)}

theorem dropStale_eq (s : Scan) : s.dropStale =
    if s.keys.any fun k => s.isStale k.2 && k.2.required then .error (.malformed .keyWithoutColon)
    else .ok { s with keys := s.keys.filter fun k => !s.isStale k.2 } := rfl

theorem dropStale_of_past {s : Scan} {line : Nat} (h : Past s.keys line) (hline : line < s.place.line) :
    s.dropStale = .ok { s with keys := [] } := by
  have hstale : ∀ k ∈ s.keys, s.isStale k.2 = true ∧ k.2.required = false := fun k hk => by
    obtain ⟨hrequired, hle⟩ := h k hk
    have hne : (k.2.place.line != s.place.line) = true := by simp; omega
    exact ⟨by rw [isStale, hne, Bool.true_or], hrequired⟩
  have hany : (s.keys.any fun k => s.isStale k.2 && k.2.required) = false := by
    rw [List.any_eq_false]
    intro k hk
    simp [(hstale k hk).2]
  have hfilter : (s.keys.filter fun k => !s.isStale k.2) = [] := by
    rw [List.filter_eq_nil_iff]
    intro k hk
    simp [(hstale k hk).1]
  rw [dropStale_eq, hany, hfilter]
  rfl

theorem skipSpaces_of_opens (h : OpensLine n rest) {k : Nat} (hw : Writes p (List.replicate k ' ') q) :
    (p.place (List.replicate k ' ' ++ rest)).skipSpaces.skipComment = q.place rest := by
  rw [skipSpaces, skipWhile, span_spaces h.ne_space hw, skipComment, if_neg (by simpa using h.peek q)]

theorem toNextToken_spaces (h : OpensLine n rest) {k : Nat} (hw : Writes p (List.replicate k ' ') q) {s : Scan}
    (hplace : s.place = p.place (List.replicate k ' ' ++ rest)) (fuel : Nat) :
    toNextToken (fuel + 1) s = s.goto (q.place rest) := by
  rw [toNextToken]
  simp only [hplace, skipSpaces_of_opens h hw, h.lineBreak? q]

theorem toNextToken_lineStart (h : OpensLine n rest) (hw : Writes p (lineStart n) q) {s : Scan}
    (hplace : s.place = p.place (lineStart n ++ rest)) (hflow : s.flow = 0) (fuel : Nat) :
    toNextToken (fuel + 2) s = { s with place := q.place rest, keyAllowed := true } := by
  have hskip : (p.place (lineStart n ++ rest)).skipSpaces.skipComment = p.place (lineStart n ++ rest) := rfl
  have hbreak : (p.place (lineStart n ++ rest)).lineBreak? =
      some ('\n', (p.newLine '\n').place (List.replicate n ' ' ++ rest)) :=
    lineBreak?_break (c := '\n') rfl (by decide) p _
  have hallowed : (s.keyAllowed || !s.isFlow) = true := by simp [isFlow, hflow]
  rw [toNextToken]
  simp only [hplace, hskip, hbreak, hallowed]
  rw [toNextToken_spaces h (hw.of_newLine (c := '\n') rfl) rfl]
  rfl

theorem closeBlocks_of_le {s : Scan} {column : Int} (h : s.indent ≤ column) : s.closeBlocks column = s := by
  unfold closeBlocks
  split
  · rfl
  · cases s.around with
    | nil => rfl
    | cons outer more => rw [closeBlocks.go, if_neg (Int.not_lt.2 h)]

/-- A block ends that is indented further. -/
theorem closeBlocks_inBlock {column : Int} (h : column < j) :
    (inBlock c ts j (i :: around) allowed).closeBlocks column =
      (inBlock c (.blockEnd :: ts) i around allowed).closeBlocks column := by
  unfold closeBlocks
  have hflow : ∀ ts i around, (inBlock c ts i around allowed).isFlow = false := fun _ _ _ => rfl
  simp only [hflow, Bool.false_eq_true, if_false]
  change closeBlocks.go column _ (i :: around) = _
  rw [closeBlocks.go]
  exact if_pos h

/-- Before a token on the same line. -/
theorem prepare_inline (h : OpensLine n rest) {k : Nat} (hw : Writes p (List.replicate k ' ') q)
    (hcolumn : i ≤ q.column) :
    (inBlock (p.place (List.replicate k ' ' ++ rest)) ts i around allowed).prepare =
      .ok (inBlock (q.place rest) ts i around allowed) := by
  rw [prepare, toNextToken_spaces h hw rfl]
  have hstale : ((inBlock (p.place (List.replicate k ' ' ++ rest)) ts i around allowed).goto (q.place rest)).dropStale =
      .ok (inBlock (q.place rest) ts i around allowed) := rfl
  rw [hstale]
  exact congrArg Except.ok (closeBlocks_of_le hcolumn)

theorem prepare_keys {s : Scan} (hread : toNextToken (s.place.rest.length + 1) s =
      (inBlock (q.place rest) ts i around allowed).withKeys keys) {line : Nat} (hpast : Past keys line)
    (hline : line < q.line) :
    s.prepare = .ok ((inBlock (q.place rest) ts i around allowed).closeBlocks q.column) := by
  have hstale := dropStale_of_past (s := (inBlock (q.place rest) ts i around allowed).withKeys keys) hpast hline
  rw [prepare, hread, hstale]
  rfl

/-- Where a text goes on in the next line, blocks may end, and keys that may have begun are past. -/
theorem prepare_lands (h : Lands p tail n c) (hpast : Past keys p.line) :
    ((inBlock (p.place tail) ts i around allowed).withKeys keys).prepare =
      .ok ((inBlock c ts i around true).closeBlocks n) := by
  obtain ⟨rest, q, rfl, hopens, hw, rfl, rfl⟩ := h.lands
  exact prepare_keys (toNextToken_lineStart hopens hw rfl rfl _) hpast hw.line_lt

theorem prepare_landed (h : Lands p tail n c) (hpast : Past keys p.line) :
    ((inBlock c ts i around true).withKeys keys).prepare = .ok ((inBlock c ts i around true).closeBlocks n) := by
  obtain ⟨rest, q, rfl, hopens, hw, rfl, rfl⟩ := h.lands
  exact prepare_keys (toNextToken_spaces (k := 0) hopens (.refl q) rfl _) hpast hw.line_lt

theorem past_nil (line : Nat) : Past [] line := nofun

/-- Behind a scalar the text goes on in the next line. -/
theorem Reads.of_lands (h : Lands p tail n c) (hpast : Past keys p.line) :
    Reads ((inBlock (p.place tail) ts i around allowed).withKeys keys) (inBlock c ts i around true) := by
  refine .of_prepare (prepare_lands h hpast) (prepare_landed h (past_nil _)) ?_
  obtain ⟨rest, q, rfl, -, -, -, rfl⟩ := h.lands
  exact (List.sublist_append_right (lineStart n) rest).length_le

/-- So it does behind plain text, which is read up to there. -/
theorem Reads.of_landed (h : Lands p tail n c) (hpast : Past keys p.line) :
    Reads ((inBlock c ts i around true).withKeys keys) (inBlock c ts i around true) :=
  .of_prepare (prepare_landed h hpast) (prepare_landed h (past_nil _)) (Nat.le_refl _)

/-- A block ends in the next line. -/
theorem Reads.blockEnd (h : Lands p tail n c) (hn : (n : Int) < j) :
    Reads (inBlock c ts j (i :: around) true) (inBlock c (.blockEnd :: ts) i around true) := by
  refine .of_prepare (t := (inBlock c ts j (i :: around) true).closeBlocks n) (prepare_landed h (past_nil _)) ?_
    (Nat.le_refl _)
  rw [closeBlocks_inBlock hn]
  exact prepare_landed h (past_nil _)

/-! ## Scalars -/

/-- The key that may have begun at a scalar. -/
def possible (c : Cursor) (ts : List Token) (allowed required : Bool) : List (Nat × PossibleKey) :=
  if allowed then [(0, ⟨ts.length, required, c⟩)] else []

theorem noteKey_inBlock (c : Cursor) (ts : List Token) (i : Int) (around : List Int) (allowed : Bool) :
    (inBlock c ts i around allowed).noteKey =
      .ok ((inBlock c ts i around allowed).withKeys (possible c ts allowed (i == c.column))) := by
  cases allowed <;> rfl

theorem past_possible (h : i < c.column) (ts : List Token) (allowed : Bool) :
    Past (possible c ts allowed (i == c.column)) c.line := by
  unfold possible
  split
  · refine List.forall_mem_singleton.2 ⟨?_, Nat.le_refl _⟩
    simpa using Int.ne_of_lt h
  · exact nofun

/-- The next token where plain text begins. -/
theorem next_plain {s : Scan} {us : List Char} (hplace : s.place = p.place us) (hopens : OpensPlain us)
    (hflow : s.flow = 0) : s.next = s.plain := by
  obtain ⟨c, vs, rfl, hc, hlead, hsep⟩ := hopens
  obtain ⟨hlist, hgap⟩ := isLeadingMark_head hlead
  have hne {d : Char} (hd : "#,[]\x7b\x7d&*!|>'\"%@\x60".toList.contains d = true) : c ≠ d := by
    rintro rfl
    rw [hlist] at hd
    cases hd
  have hpeek : s.place.peek = c := by rw [hplace]; rfl
  have hpeekAt : s.place.peekAt 1 = vs.headD '\x00' := by rw [hplace]; rfl
  have hflow : s.isFlow = false := by simp [isFlow, hflow]
  have hseparators := hsep p
  rw [isAtSeparator, Bool.or_eq_false_iff, ← hplace] at hseparators
  have hmark {d : Char} (hd : d = '?' ∨ d = ':' ∨ d = '-') : (c == d && isGap (vs.headD '\x00')) = false := by
    rw [Bool.and_eq_false_iff, beq_eq_false_iff_ne, Classical.or_iff_not_imp_left, Classical.not_not]
    rintro rfl
    exact hgap hd
  have hbegins : s.beginsPlain = true := by
    simp only [beginsPlain, hpeek, hpeekAt, hflow, hc, Bool.false_or, Bool.not_false, Bool.true_and]
    by_cases hd : c = '?' ∨ c = ':' ∨ c = '-'
    · rw [hgap hd]
      rcases hd with rfl | rfl | rfl <;> rfl
    · have hmarks : "-?:,[]\x7b\x7d#&*!|>'\"%@\x60".toList.contains c = false := by
        simp at hlist hd ⊢
        simp [hlist, hd]
      rw [hmarks]
      rfl
  have hpercent : (c == '%') = false := by simpa using hne (d := '%') (by decide)
  have hbar : (c == '|') = false := by simpa using hne (d := '|') (by decide)
  have hangle : (c == '>') = false := by simpa using hne (d := '>') (by decide)
  unfold next
  simp only [hpeek, hpeekAt]
  split
  · exact absurd rfl (hne (by decide))
  · exact absurd rfl (hne (by decide))
  · exact absurd rfl (hne (by decide))
  · exact absurd rfl (hne (by decide))
  · exact absurd rfl (hne (by decide))
  · exact absurd rfl (hne (by decide))
  · exact absurd rfl (hne (by decide))
  · exact absurd rfl (hne (by decide))
  · exact absurd rfl (hne (by decide))
  · exact absurd rfl (hne (by decide))
  · rw [if_neg (by simp [hpercent]), if_neg (by simp [hseparators.1]), if_neg (by simp [hseparators.2]),
      if_neg (Bool.eq_false_iff.1 (hmark (.inr (.inr rfl)))),
      if_neg (by rw [hflow, Bool.false_or]; exact Bool.eq_false_iff.1 (hmark (.inl rfl))),
      if_neg (by rw [hflow, Bool.false_or]; exact Bool.eq_false_iff.1 (hmark (.inr (.inl rfl)))),
      if_neg (by simp [hbar, hangle]), if_pos hbegins]

theorem Reads.spaces (h : OpensLine n rest) {k : Nat} (hw : Writes p (List.replicate k ' ') q)
    (hcolumn : i ≤ q.column) :
    Reads (inBlock (p.place (List.replicate k ' ' ++ rest)) ts i around allowed)
      (inBlock (q.place rest) ts i around allowed) :=
  .of_prepare (prepare_inline h hw hcolumn) (prepare_inline (k := 0) h (.refl q) hcolumn)
    (List.sublist_append_right _ rest).length_le

variable {ws cs us : List Char} {m : Nat} {toks : List Token}

theorem plain_of_noteKey {s s' : Scan} {hasBreak : Bool} (hnote : s.noteKey = .ok s')
    (hread : plainScalar s'.isFlow (s'.indent + 1) s'.place = ⟨cs, c, hasBreak⟩) :
    s.plain = .ok (({ s' with keyAllowed := hasBreak }.goto c).push (.scalar true (String.ofList cs))) := by
  rw [plain, hnote]
  simp only [bind, Except.bind, hread]
  rfl

theorem mayBeKey_of_noteKey {s s' : Scan} {f : Cursor → Except Fault (Token × Cursor)} {t : Token}
    (hnote : s.noteKey = .ok s') (hread : f s'.place = .ok (t, c)) :
    s.mayBeKey f = .ok (({ s' with keyAllowed := false }.goto c).push t) := by
  rw [mayBeKey, hnote]
  simp only [bind, Except.bind, hread]
  rfl

/-- Where plain text begins, it is the next token. -/
theorem next_plainScalar (hr : ReadsPlain p ws q m cs) (hends : EndsScalar tail) {hasBreak : Bool}
    (him : i + 1 ≤ m) (hip : i ≤ p.column) (hstop : StopsAt (i + 1) q tail c hasBreak) :
    (inBlock (p.place (ws ++ tail)) toks i around allowed).next =
      .ok ((inBlock c (.scalar true (String.ofList cs) :: toks) i around hasBreak).withKeys
        (possible (p.place (ws ++ tail)) toks allowed (i == p.column))) := by
  have hread := hr.reads him (by omega) hstop
  have hplain := plain_of_noteKey (noteKey_inBlock (p.place (ws ++ tail)) toks i around allowed) hread
  rw [next_plain rfl (hr.opens hends) rfl, hplain]
  rfl

/-- The token of a quote. -/
def quoteToken (c : Cursor) : Except Fault (Token × Cursor) :=
  (quotedScalar c).map fun r => (.scalar false r.1, r.2)

theorem next_quote {s : Scan} {double : Bool} (h : s.place.peek = quoteMark double) :
    s.next = s.mayBeKey quoteToken := by
  have htoken (c : Cursor) : (quotedScalar c >>= fun r => Except.ok (Token.scalar false r.1, r.2)) = quoteToken c := by
    unfold quoteToken
    cases quotedScalar c <;> rfl
  unfold next
  cases double with
  | false =>
    simp only [h, quoteMark, Bool.false_eq_true, if_false]
    exact congrArg s.mayBeKey (funext htoken)
  | true =>
    simp only [h, quoteMark, if_true]
    exact congrArg s.mayBeKey (funext htoken)

/-- Where a quote begins, it is the next token. -/
theorem next_quoted (hr : ReadsQuoted p ws q cs) (hends : EndsScalar tail) :
    (inBlock (p.place (ws ++ tail)) toks i around allowed).next =
      .ok ((inBlock (q.place tail) (.scalar false (String.ofList cs) :: toks) i around false).withKeys
        (possible (p.place (ws ++ tail)) toks allowed (i == p.column))) := by
  have hne : ∀ d ∈ tail.head?, d ≠ '\'' := by
    rintro d hd rfl
    exact absurd (hends _ hd) (by decide)
  obtain ⟨double, us, rfl⟩ := hr.opens
  have hread : quoteToken (p.place (quoteMark double :: us ++ tail)) =
      .ok (.scalar false (String.ofList cs), q.place tail) := by
    rw [quoteToken, hr.reads hne]
    rfl
  have hkey := mayBeKey_of_noteKey
    (noteKey_inBlock (p.place (quoteMark double :: us ++ tail)) toks i around allowed) hread
  have hpeek : (inBlock (p.place (quoteMark double :: us ++ tail)) toks i around allowed).place.peek =
      quoteMark double := rfl
  rw [next_quote hpeek, hkey]
  rfl

variable {isPlain : Bool}

/-- A scalar behind which the text goes on in the next line. -/
theorem Reads.scalar (h : ReadsScalar p ws q m cs isPlain) (him : i + 1 ≤ m) (hip : i < p.column)
    (hl : Lands q tail n c) (hn : (n : Int) < i + 1) :
    Reads (inBlock (p.place (ws ++ tail)) toks i around allowed)
      (inBlock c (.scalar isPlain (String.ofList cs) :: toks) i around true) := by
  have hends := hl.endsScalar
  have hprepare : (inBlock (p.place (ws ++ tail)) toks i around allowed).prepare = .ok _ :=
    prepare_inline (k := 0) (h.opensLine hends 1) (.refl p) (Int.le_of_lt hip)
  have hne := h.ne_nil
  have hpast : Past (possible (p.place (ws ++ tail)) toks allowed (i == p.column)) q.line := fun k hk => by
    obtain ⟨hrequired, hline⟩ := past_possible (c := p.place (ws ++ tail)) hip toks allowed k hk
    exact ⟨hrequired, Nat.le_trans hline h.writes.line_le⟩
  have hlen : tail.length < (ws ++ tail).length := by
    have := List.length_pos_iff.2 hne
    rw [List.length_append]
    omega
  cases h with
  | plain h =>
    have hnext : (inBlock (p.place (ws ++ tail)) toks i around allowed).next = .ok _ :=
      next_plainScalar h hends him (Int.le_of_lt hip) (hl.stopsAt hn)
    refine (Reads.of_next hprepare (List.append_ne_nil_of_left_ne_nil hne tail) hnext ?_).trans (.of_landed hl hpast)
    obtain ⟨rest, q', rfl, -, -, -, rfl⟩ := hl.lands
    exact Nat.lt_of_le_of_lt (List.sublist_append_right (lineStart n) rest).length_le hlen
  | quoted h =>
    have hnext : (inBlock (p.place (ws ++ tail)) toks i around allowed).next = .ok _ := next_quoted h hends
    exact (Reads.of_next hprepare (List.append_ne_nil_of_left_ne_nil hne tail) hnext hlen).trans (.of_lands hl hpast)

/-! ## Blocks -/

/-- How a block of a kind stands at a column: it is the one that is open, or it begins there. -/
inductive Opening (t : Token) : Int → List Int → Nat → List Int → List Token → Prop
  | inside (m : Nat) (around : List Int) : Opening t m around m around []
  | begins {i : Int} {m : Nat} (h : i < m) (around : List Int) : Opening t i around m (i :: around) [t]

variable {t : Token} {around' : List Int} {opened : List Token}

theorem Opening.le (h : Opening t i around m around' opened) : i ≤ m := by
  cases h with
  | inside => exact Int.le_refl _
  | begins h => exact Int.le_of_lt h

theorem insertAt_inBlock (c : Cursor) (us ts : List Token) (t : Token) (i : Int) (around : List Int) (allowed : Bool) :
    (inBlock c (us ++ ts) i around allowed).insertAt ts.length t = inBlock c (us ++ t :: ts) i around allowed := by
  have hback : (inBlock c (us ++ ts) i around allowed).count - ts.length = us.length := by
    simp [inBlock]
  rw [insertAt, hback]
  simp only [inBlock, List.take_left, List.drop_left, List.length_append, List.length_cons, Nat.add_assoc]

theorem openBlock_inBlock (h : Opening t i around m around' opened) (c : Cursor) (us ts : List Token) (allowed : Bool) :
    (inBlock c (us ++ ts) i around allowed).openBlock m ts.length t =
      inBlock c (us ++ (opened ++ ts)) m around' allowed := by
  unfold openBlock
  cases h with
  | inside => exact if_neg (Int.lt_irrefl (m : Int))
  | begins h => exact (if_pos h).trans (insertAt_inBlock c us ts t m _ allowed)

/-- The gap behind a mark. -/
def EndsMark (us : List Char) : Prop := isGap (us.headD '\x00') = true

theorem opensLine_mark {d : Char} (hd : d = '-' ∨ d = '?' ∨ d = ':') (hus : EndsMark us) (n : Nat) :
    OpensLine n (d :: us) := by
  refine .inr ⟨⟨d, us, rfl, ?_, ?_⟩, fun _ p => ?_⟩
  · rcases hd with rfl | rfl | rfl <;> rfl
  · rcases hd with rfl | rfl | rfl <;> decide
  · rcases hd with rfl | rfl | rfl
    · -- a dash with a gap behind it
      have hnext : ((p.place ('-' :: us)).peekAt 1 == '-') = false := by
        rw [beq_eq_false_iff_ne]
        intro h
        rw [EndsMark, show us.headD '\x00' = '-' from h] at hus
        cases hus
      simp [isAtSeparator, isMarked, hnext]
    · exact isAtSeparator_of_peek ⟨(by decide : '?' ≠ '-'), (by decide : '?' ≠ '.')⟩
    · exact isAtSeparator_of_peek ⟨(by decide : ':' ≠ '-'), (by decide : ':' ≠ '.')⟩

/-- The place behind a mark. -/
theorem skip_mark {d : Char} (hd : d = '-' ∨ d = '?' ∨ d = ':') (hroomy : p.roomy = true) (us : List Char) :
    (p.place (d :: us)).skip 1 = (p.mark d).place us := by
  have hinline : isInline d = true := by rcases hd with rfl | rfl | rfl <;> rfl
  rw [mark_eq, gap_of_roomy hroomy]
  exact next_put hinline p us

theorem next_dash {s : Scan} (hplace : s.place = p.place ('-' :: us)) (hus : EndsMark us) : s.next = s.entry := by
  have hpeek : s.place.peek = '-' := by rw [hplace]; rfl
  have hgap : isGap (s.place.peekAt 1) = true := by rw [hplace]; exact hus
  have hseparator : s.place.isAtSeparator = false := by
    rw [hplace]
    rcases opensLine_mark (.inl rfl) hus 0 with h | h
    · cases h
    · exact h.2 rfl p
  rw [isAtSeparator, Bool.or_eq_false_iff] at hseparator
  unfold next
  simp only [hpeek, hgap, hseparator.1, hseparator.2, Bool.and_false, Bool.false_eq_true, if_false]
  rfl

theorem next_question {s : Scan} (hplace : s.place = p.place ('?' :: us)) (hus : EndsMark us) :
    s.next = s.explicitKey := by
  have hpeek : s.place.peek = '?' := by rw [hplace]; rfl
  have hgap : isGap (s.place.peekAt 1) = true := by rw [hplace]; exact hus
  have hmarked : s.place.isMarked '-' = false ∧ s.place.isMarked '.' = false := by simp [isMarked, hpeek]
  unfold next
  simp only [hpeek, hgap, hmarked.1, hmarked.2, Bool.and_false, Bool.or_true, Bool.false_eq_true, if_false]
  rfl

theorem next_colon {s : Scan} (hplace : s.place = p.place (':' :: us)) (hus : EndsMark us) : s.next = s.colon := by
  have hpeek : s.place.peek = ':' := by rw [hplace]; rfl
  have hgap : isGap (s.place.peekAt 1) = true := by rw [hplace]; exact hus
  have hmarked : s.place.isMarked '-' = false ∧ s.place.isMarked '.' = false := by simp [isMarked, hpeek]
  unfold next
  simp only [hpeek, hgap, hmarked.1, hmarked.2, Bool.and_false, Bool.or_true, Bool.false_eq_true, if_false]
  rfl

theorem next_entry (h : Opening .blockSequence i around m around' opened) (hcolumn : p.column = m)
    (hroomy : p.roomy = true) (hus : EndsMark us) :
    (inBlock (p.place ('-' :: us)) toks i around true).next =
      .ok (inBlock ((p.mark '-').place us) (.entry :: (opened ++ toks)) m around' true) := by
  have hopened := openBlock_inBlock h (p.place ('-' :: us)) [] toks true
  rw [next_dash rfl hus, ← skip_mark (.inl rfl) hroomy]
  subst hcolumn
  exact congrArg (fun s : Scan => s.dropKey.map fun s => ({ s with keyAllowed := true }.skip 1).push .entry) hopened

theorem next_explicitKey (h : Opening .blockMapping i around m around' opened) (hcolumn : p.column = m)
    (hroomy : p.roomy = true) (hus : EndsMark us) :
    (inBlock (p.place ('?' :: us)) toks i around true).next =
      .ok (inBlock ((p.mark '?').place us) (.key :: (opened ++ toks)) m around' true) := by
  have hopened := openBlock_inBlock h (p.place ('?' :: us)) [] toks true
  rw [next_question rfl hus, ← skip_mark (.inr (.inl rfl)) hroomy]
  subst hcolumn
  exact congrArg (fun s : Scan => s.dropKey.map fun s => ({ s with keyAllowed := !s.isFlow }.skip 1).push .key) hopened

theorem next_value (h : Opening .blockMapping i around m around' opened) (hcolumn : p.column = m)
    (hroomy : p.roomy = true) (hus : EndsMark us) :
    (inBlock (p.place (':' :: us)) toks i around true).next =
      .ok (inBlock ((p.mark ':').place us) (.value :: (opened ++ toks)) m around' true) := by
  have hopened := openBlock_inBlock h (p.place (':' :: us)) [] toks true
  rw [next_colon rfl hus, ← skip_mark (.inr (.inr rfl)) hroomy]
  subst hcolumn
  exact congrArg (fun s : Scan => { s with keyAllowed := !s.isFlow }.dropKey.map fun s : Scan => (s.skip 1).push .value)
    hopened

theorem Reads.of_mark {d : Char} (hd : d = '-' ∨ d = '?' ∨ d = ':') (hi : i ≤ p.column) (hus : EndsMark us)
    (hnext : (inBlock (p.place (d :: us)) toks i around true).next =
      .ok (inBlock ((p.mark d).place us) ts m around' true)) :
    Reads (inBlock (p.place (d :: us)) toks i around true) (inBlock ((p.mark d).place us) ts m around' true) :=
  .of_next (prepare_inline (k := 0) (opensLine_mark hd hus 1) (.refl p) hi) (List.cons_ne_nil d us) hnext
    (Nat.lt_succ_self _)

/-- An item begins. -/
theorem Reads.entry (h : Opening .blockSequence i around m around' opened) (hcolumn : p.column = m)
    (hroomy : p.roomy = true) (hus : EndsMark us) :
    Reads (inBlock (p.place ('-' :: us)) toks i around true)
      (inBlock ((p.mark '-').place us) (.entry :: (opened ++ toks)) m around' true) :=
  .of_mark (.inl rfl) (hcolumn ▸ h.le) hus (next_entry h hcolumn hroomy hus)

/-- A key with a mark begins. -/
theorem Reads.explicitKey (h : Opening .blockMapping i around m around' opened) (hcolumn : p.column = m)
    (hroomy : p.roomy = true) (hus : EndsMark us) :
    Reads (inBlock (p.place ('?' :: us)) toks i around true)
      (inBlock ((p.mark '?').place us) (.key :: (opened ++ toks)) m around' true) :=
  .of_mark (.inr (.inl rfl)) (hcolumn ▸ h.le) hus (next_explicitKey h hcolumn hroomy hus)

/-- The value of a key with a mark begins. -/
theorem Reads.explicitValue (hcolumn : p.column = m) (hroomy : p.roomy = true) (hus : EndsMark us) :
    Reads (inBlock (p.place (':' :: us)) toks m around true)
      (inBlock ((p.mark ':').place us) (.value :: toks) m around true) :=
  .of_mark (.inr (.inr rfl)) (hcolumn ▸ Int.le_refl _) hus (next_value (.inside m around) hcolumn hroomy hus)

/-! ## Keys -/

theorem dropStale_single {s : Scan} {level : Nat} {k : PossibleKey} (hkeys : s.keys = [(level, k)])
    (hk : s.isStale k = false) : s.dropStale = .ok s := by
  have hany : (s.keys.any fun k => s.isStale k.2 && k.2.required) = false := by simp [hkeys, hk]
  have hfilter : (s.keys.filter fun k => !s.isStale k.2) = s.keys := by simp [hkeys, hk]
  rw [dropStale_eq, hany, hfilter]
  rfl

/-- The colon of a key that has begun on the same line, not too far from it. -/
theorem Reads.colon (h : Opening .blockMapping i around m around' opened) {required : Bool} {x : Cursor}
    (hx : x.column = m) (hline : x.line = p.line) (hlen : p.written.length - x.index ≤ longestKey) (hi : i ≤ p.column)
    (hus : EndsMark us) :
    Reads ((inBlock (p.place (':' :: us)) (t :: toks) i around false).withKeys [(0, ⟨toks.length, required, x⟩)])
      (inBlock ((p.put [':']).place us) (.value :: t :: .key :: (opened ++ toks)) m around' false) := by
  generalize hs : (inBlock (p.place (':' :: us)) (t :: toks) i around false).withKeys
    [(0, ⟨toks.length, required, x⟩)] = s
  have hplace : s.place = p.place (':' :: us) := by rw [← hs]; rfl
  have hstale : s.isStale ⟨toks.length, required, x⟩ = false := by
    have hfar : decide (longestKey < p.written.length - x.index) = false := by simpa using hlen
    rw [isStale, hplace]
    simp only [place_line, hline, bne_self_eq_false, Bool.false_or]
    exact hfar
  have hprepare : s.prepare = .ok s := by
    have hopens := opensLine_mark (.inr (.inr rfl)) hus 1
    have hgoto : s.goto (p.place (':' :: us)) = s := by rw [← hplace]; rfl
    have hclose : s.closeBlocks s.column = s := by
      refine closeBlocks_of_le ?_
      rw [column, hplace, ← hs]
      exact hi
    rw [prepare, toNextToken_spaces (k := 0) hopens (.refl p) hplace, hgoto,
      dropStale_single (by rw [← hs]; rfl) hstale]
    exact congrArg Except.ok hclose
  refine .of_next hprepare (by rw [hplace]; exact List.cons_ne_nil ':' us) ?_ (by rw [hplace]; exact Nat.lt_succ_self _)
  have hskip : (p.place (':' :: us)).skip 1 = (p.put [':']).place us := next_put (c := ':') rfl p us
  have hinsert := insertAt_inBlock (p.place (':' :: us)) [t] toks .key i around false
  have hopened := openBlock_inBlock h (p.place (':' :: us)) [t, .key] toks false
  rw [next_colon hplace hus, ← hskip, ← hs]
  subst hx
  have hboth := (congrArg (fun s : Scan => s.openBlock x.column toks.length .blockMapping) hinsert).trans hopened
  exact congrArg (fun s : Scan => Except.ok (({ s with keyAllowed := false }.skip 1).push .value)) hboth

/-- A key on the line of its value. -/
theorem Reads.simpleKey (h : Opening .blockMapping i around m around' opened) {indent : Nat}
    (hr : ReadsScalar p ws q indent cs isPlain) (hi : i + 1 ≤ indent) (hcolumn : p.column = m)
    (hq : p.column ≤ q.column) (hunbroken : ∀ c ∈ ws, isBreak c = false) (hlen : ws.length ≤ longestKey) (hus : EndsMark us) :
    Reads (inBlock (p.place (ws ++ ':' :: us)) toks i around true)
      (inBlock ((q.put [':']).place us) (.value :: .scalar isPlain (String.ofList cs) :: .key :: (opened ++ toks)) m
        around' false) := by
  have hle : i ≤ p.column := hcolumn ▸ h.le
  have hends : EndsScalar (':' :: us) := by
    rintro c ⟨⟩
    exact .inl rfl
  have hprepare : (inBlock (p.place (ws ++ ':' :: us)) toks i around true).prepare = .ok _ :=
    prepare_inline (k := 0) (hr.opensLine hends 1) (.refl p) hle
  have hlonger : (':' :: us).length < (ws ++ ':' :: us).length := by
    have := List.length_pos_iff.2 hr.ne_nil
    rw [List.length_append]
    omega
  have hline : p.line = q.line := by
    have hcount : ws.countP isBreak = 0 := by simpa [List.countP_eq_zero] using hunbroken
    rw [hr.writes.line_eq, hcount, Nat.zero_add]
  have hindex : q.written.length - p.written.length ≤ longestKey := by
    rw [hr.writes.written, List.length_append, List.length_reverse]
    omega
  have hnext : (inBlock (p.place (ws ++ ':' :: us)) toks i around true).next =
      .ok ((inBlock (q.place (':' :: us)) (.scalar isPlain (String.ofList cs) :: toks) i around false).withKeys
        [(0, ⟨toks.length, i == p.column, p.place (ws ++ ':' :: us)⟩)]) := by
    cases hr with
    | plain hr => exact next_plainScalar hr hends hi hle (.of_colon hus (i + 1) q)
    | quoted hr => exact next_quoted hr hends
  refine (Reads.of_next hprepare (List.append_ne_nil_of_left_ne_nil hr.ne_nil _) hnext hlonger).trans ?_
  exact .colon h hcolumn hline hindex (by omega) hus

/-! ## Empty collections -/

theorem dropStale_possible {s : Scan} {x : Cursor} {required : Bool} (hkeys : s.keys = possible x ts allowed required)
    (hline : x.line = s.place.line) (hindex : s.place.index - x.index ≤ longestKey) : s.dropStale = .ok s := by
  have hstale : s.isStale ⟨ts.length, required, x⟩ = false := by
    have hfar : decide (longestKey < s.place.index - x.index) = false := by simpa using hindex
    rw [isStale]
    simp only [hline, bne_self_eq_false, Bool.false_or]
    exact hfar
  cases allowed with
  | false =>
    have hnil : s.keys = [] := hkeys
    have hs : { s with keys := [] } = s := by rw [← hnil]
    rw [dropStale, hnil]
    exact congrArg Except.ok hs
  | true => exact dropStale_single hkeys hstale

/-- The marks around the items of a collection, with their tokens. -/
inductive Brackets : Char → Char → Token → Token → Prop
  | sequence : Brackets '[' ']' .flowSequence .flowSequenceEnd
  | mapping : Brackets '\x7b' '\x7d' .flowMapping .flowMappingEnd

/-- A state between two brackets. -/
def inBrackets (c : Cursor) (ts : List Token) (indent : Int) (around : List Int) (keys : List (Nat × PossibleKey)) :
    Scan :=
  { place := c, tokens := ts, count := ts.length, flow := 1, indent, around, keyAllowed := true, keys }

section
variable {a b : Char} {begins ends : Token}

theorem Brackets.isInline (h : Brackets a b begins ends) : isInline a = true ∧ isInline b = true := by
  cases h <;> exact ⟨rfl, rfl⟩

theorem Brackets.opensLine (h : Brackets a b begins ends) (us : List Char) (n : Nat) :
    OpensLine n (a :: us) ∧ OpensLine n (b :: us) := by
  have hmark {c : Char} (hc : isGap c = false ∧ c ≠ '#' ∧ c ≠ '-' ∧ c ≠ '.') : OpensLine n (c :: us) :=
    .inr ⟨⟨c, us, rfl, hc.1, hc.2.1⟩, fun _ p => isAtSeparator_of_peek hc.2.2⟩
  cases h <;> exact ⟨hmark (by decide), hmark (by decide)⟩

theorem Brackets.writes (h : Brackets a b begins ends) (p : Pen) : Writes p [a, b] (p.put [a, b]) := by
  refine .put_plain ?_ ?_ p <;> cases h <;> simp [isPlainChar, isBreak]

theorem next_open (h : Brackets a b begins ends) :
    (inBlock (p.place (a :: us)) toks i around allowed).next =
      .ok (inBrackets ((p.put [a]).place us) (begins :: toks) i around
        (possible (p.place (a :: us)) toks allowed (i == p.column))) := by
  rw [← next_put h.isInline.1]
  cases h <;> cases allowed <;> rfl

theorem next_close (h : Brackets a b begins ends) {x : Cursor} {required : Bool} :
    (inBrackets (p.place (b :: us)) toks i around (possible x ts allowed required)).next =
      .ok ((inBlock ((p.put [b]).place us) (ends :: toks) i around false).withKeys
        (possible x ts allowed required)) := by
  rw [← next_put h.isInline.2]
  cases h <;> cases allowed <;> rfl

theorem prepare_close (h : Brackets a b begins ends) {x : Cursor} {required : Bool} (hline : x.line = p.line)
    (hindex : p.written.length - x.index ≤ longestKey) :
    (inBrackets (p.place (b :: us)) toks i around (possible x ts allowed required)).prepare =
      .ok (inBrackets (p.place (b :: us)) toks i around (possible x ts allowed required)) := by
  have hgoto : (inBrackets (p.place (b :: us)) toks i around (possible x ts allowed required)).goto
      (p.place (b :: us)) = inBrackets (p.place (b :: us)) toks i around (possible x ts allowed required) := rfl
  have hkeys : (inBrackets (p.place (b :: us)) toks i around (possible x ts allowed required)).keys =
      possible x ts allowed required := rfl
  rw [prepare, toNextToken_spaces (k := 0) (h.opensLine us 1).2 (.refl p) rfl, hgoto,
    dropStale_possible hkeys hline hindex]
  rfl

/-- A pair of brackets with nothing between them. -/
theorem Reads.brackets (h : Brackets a b begins ends) (hip : i < p.column) (hl : Lands (p.put [a, b]) tail n c) :
    Reads (inBlock (p.place (a :: b :: tail)) toks i around allowed)
      (inBlock c (ends :: begins :: toks) i around true) := by
  have hopen : Reads (inBlock (p.place (a :: b :: tail)) toks i around allowed) _ :=
    .of_next (prepare_inline (k := 0) (h.opensLine (b :: tail) 1).1 (.refl p) (Int.le_of_lt hip))
      (List.cons_ne_nil a _) (next_open h) (Nat.lt_succ_self _)
  have hline : p.line = (p.put [a]).line := by
    rw [Pen.line, Pen.line, put, List.reverse_singleton, List.singleton_append,
      List.countP_cons_of_neg (Bool.eq_false_iff.1 (isBreak_of_isInline h.isInline.1))]
  have hindex : (p.put [a]).written.length - (p.place (a :: b :: tail)).index ≤ longestKey := by
    rw [put, place_index, List.length_append]
    exact Nat.sub_le_of_le_add (by simp [longestKey, Nat.add_comm])
  have hclose : Reads (inBrackets ((p.put [a]).place (b :: tail)) (begins :: toks) i around
      (possible (p.place (a :: b :: tail)) toks allowed (i == p.column))) _ :=
    .of_next (prepare_close h hline hindex) (List.cons_ne_nil b _) (next_close h) (Nat.lt_succ_self _)
  refine hopen.trans (hclose.trans ?_)
  rw [put_put]
  refine .of_lands hl fun k hk => ?_
  obtain ⟨hrequired, hle⟩ := past_possible (c := p.place (a :: b :: tail)) hip toks allowed k hk
  exact ⟨hrequired, Nat.le_trans hle (h.writes p).line_le⟩

end

end

end Scan
end ApiProjection.Yaml
