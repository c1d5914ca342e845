import ApiProjection.Proofs.RoundTrip.Document
import ApiProjection.Proofs.RoundTrip.Numeral
import ApiProjection.Proofs.RoundTrip.Scan
/-!
# The layout of a value

A value that is laid out in lines is read as tokens: where its lines are indented further a block begins, and where they
are indented less it ends.

* `tokens`: the tokens of a value.
* `comesBack`: whether all texts and keys of a value come back.
* `ReadsValue`, `ReadsParts`: what is put down for a value, and for some of the items or members of a block.
* `read_write`: the text of an object is read as its tokens.
-/
namespace ApiProjection.Yaml

open Pen Scan

/-! ## Tokens -/

/-- The token of a text. -/
def textToken (simpleKey : Bool) (s : String) : Token := .scalar (styleOf simpleKey s.toList == .plain) s

/-- The token of plain text. -/
def wordToken (cs : List Char) : Token := .scalar true (String.ofList cs)

mutual
/-- The tokens of a value. No block begins for a sequence that stands at the column of its mapping. -/
def tokens (flush : Bool) : Json → List Token
  | .null => [wordToken "null".toList]
  | .bool b => [wordToken (if b then "true" else "false").toList]
  | .int n => [wordToken (Json.writeInt n)]
  | .float x => [wordToken (floatChars x)]
  | .text s => [textToken false s]
  | .list xs =>
    if xs.isEmpty then [.flowSequence, .flowSequenceEnd]
    else if flush then itemTokens xs
    else .blockSequence :: (itemTokens xs ++ [.blockEnd])
  | .object ms =>
    if ms.isEmpty then [.flowMapping, .flowMappingEnd] else .blockMapping :: (memberTokens ms ++ [.blockEnd])

def itemTokens : List Json → List Token
  | [] => []
  | x :: xs => .entry :: (tokens false x ++ itemTokens xs)

def memberTokens : List (String × Json) → List Token
  | [] => []
  | (k, x) :: ms =>
    .key :: textToken (isSimpleKey k.toList) k :: .value :: (tokens (isSimpleKey k.toList) x ++ memberTokens ms)
end

/-- The indent of the block around a value. -/
def outerIndent : Option Nat → Int
  | none => -1
  | some n => n

/-- The column of the items or members of a value. -/
def innerColumn (indent : Option Nat) (flush : Bool) : Nat :=
  match indent with
  | none => 0
  | some n => if flush then n else n + indentStep

mutual
/-- Whether the texts and keys of a value come back. -/
def comesBack (indent : Option Nat) (flush : Bool) : Json → Bool
  | .text s => textComesBack (indent.getD 0 + indentStep) s.toList
  | .list xs => itemsComeBack (innerColumn indent flush) xs
  | .object ms => membersComeBack (innerColumn indent false) ms
  | .null | .bool _ | .int _ | .float _ => true

def itemsComeBack (column : Nat) : List Json → Bool
  | [] => true
  | x :: xs => comesBack (some column) false x && itemsComeBack column xs

def membersComeBack (column : Nat) : List (String × Json) → Bool
  | [] => true
  | (k, x) :: ms =>
    keyComesBack column k.toList && comesBack (some column) (isSimpleKey k.toList) x && membersComeBack column ms
end

section
variable {p q : Pen} {indent : Option Nat} {inMapping flush isPlain : Bool} {m n : Nat} {cs ws us : List Char}
  {ts ts' : List Token} {t : Token}

/-! ## Behind a text -/

theorem putPlainRuns_leading (indent : Nat) (split : Bool) (rs : List (Run × List Char)) (h : p.leading = false) :
    (putPlainRuns p indent split rs).leading = false := by
  induction rs generalizing p with
  | nil => exact h
  | cons r rs ih =>
    obtain ⟨r, cs⟩ := r
    cases r with
    | blanks =>
      rw [putPlainRuns]
      split
      · exact ih rfl
      · exact ih h
    | word => exact ih h
    | breaks => exact ih h

/-- A line leads up to nothing any more behind a text. -/
theorem putText_leading (p : Pen) (indent : Nat) (simpleKey : Bool) (s : String) :
    (putText p indent simpleKey s).leading = false := by
  unfold putText
  simp only
  cases hstyle : styleOf simpleKey s.toList with
  | plain =>
    have hempty : s.toList.isEmpty = false := by simpa using (standsPlain_of_style hstyle).nonempty
    rw [putPlain, hempty, if_neg Bool.false_ne_true]
    exact putPlainRuns_leading indent _ _ rfl
  | single => rfl
  | double => rfl

/-! ## Where a value begins -/

/-- Where a value begins: at the beginning of the text, behind a mark, or behind a key on the same line. -/
inductive Begins : Pen → Option Nat → Bool → Bool → Prop
  | start {p : Pen} (hl : p.leading = true) (hr : p.roomy = true) (hc : p.column = 0) : Begins p none false false
  | mark {p : Pen} {n : Nat} (hl : p.leading = true) (hr : p.roomy = false) (hc : p.column = n + 1) (inMapping : Bool) :
    Begins p (some n) inMapping false
  | key {p : Pen} {n : Nat} (hl : p.leading = false) (hr : p.roomy = false) (hc : n < p.column) :
    Begins p (some n) true true

theorem Begins.isFlush (h : Begins p indent inMapping flush) : Yaml.isFlush inMapping p = flush := by
  cases h with
  | start hl hr hc => rfl
  | mark hl hr hc => simp [Yaml.isFlush, hl]
  | key hl hr hc => simp [Yaml.isFlush, hl]

/-- The blank before a word, if one is needed. -/
def gapLength (p : Pen) : Nat := if p.roomy then 0 else 1

theorem Writes.gap (p : Pen) : Writes p (List.replicate (gapLength p) ' ') p.gap := by
  unfold gapLength Pen.gap
  cases p.roomy with
  | true => exact .refl p
  | false => exact .put_char (c := ' ') rfl rfl p

theorem Begins.column (h : Begins p indent inMapping flush) : outerIndent indent < p.gap.column := by
  have hle : p.column ≤ p.gap.column := by
    unfold Pen.gap
    split
    · exact Nat.le_refl _
    · exact Nat.le_add_right _ _
  have hlt : outerIndent indent < p.column := by
    cases h with
    | start hl hr hc => exact Int.lt_of_lt_of_le (by decide) (Int.natCast_nonneg _)
    | mark hl hr hc => simp [outerIndent, hc]
    | key hl hr hc => simpa [outerIndent] using hc
  omega

/-- The column where the items or members of a value begin. -/
theorem Begins.goto (h : Begins p indent inMapping flush) (f : Bool) (hf : f = true → flush = true) :
    ∃ ws, Writes p ws (p.goto (innerColumn indent f)) ∧ (p.goto (innerColumn indent f)).column = innerColumn indent f ∧
      (p.goto (innerColumn indent f)).roomy = true ∧ (p.goto (innerColumn indent f)).leading = true ∧
      (p.roomy = false → ∀ tail, EndsMark (ws ++ tail)) ∧
      ∀ (toks : List Token) (around : List Int) {rest : List Char}, OpensLine (innerColumn indent f) rest →
        Reads (inBlock (p.place (ws ++ rest)) toks (outerIndent indent) around (!flush))
          (inBlock ((p.goto (innerColumn indent f)).place rest) toks (outerIndent indent) around true) := by
  cases h with
  | start hl hr hc =>
    obtain ⟨hw, hcolumn, hroomy, hleading⟩ := goto_lineStart hl hr hc 0
    refine ⟨[], hw, hcolumn, hroomy, hleading, fun h => ?_, fun toks around rest hopens => ?_⟩
    · rw [hr] at h
      cases h
    · exact .spaces (k := 0) hopens hw (Int.le_trans (by decide : (-1 : Int) ≤ 0) (Int.natCast_nonneg _))
  | @mark n hl hr hc =>
    have hf : f = false := by simpa using hf
    subst hf
    obtain ⟨hw, hcolumn, hroomy, hleading⟩ := goto_inline (n := n + indentStep) hl (by rw [hc]; rfl)
    refine ⟨[' '], hw, hcolumn, hroomy, hleading, fun _ _ => rfl, fun toks around rest hopens => ?_⟩
    refine .spaces (k := 1) hopens hw ?_
    have hle : n ≤ (p.goto (n + indentStep)).column := by
      rw [hcolumn]
      exact Nat.le_add_right n indentStep
    exact Int.ofNat_le.2 hle
  | @key n hl hr hc =>
    obtain ⟨hw, hcolumn, hroomy, hleading⟩ := goto_newLine (n := innerColumn (some n) f) (.inl hl)
    refine ⟨_, hw, hcolumn, hroomy, hleading, fun _ _ => rfl, fun toks around rest hopens => ?_⟩
    have hpast : Past [] p.line := past_nil _
    exact .of_lands ⟨rest, _, rfl, hopens, hw, hcolumn, rfl⟩ hpast

/-! ## Single values -/

/-- What is put down for a value is read as tokens, if what follows is not indented further than the block around it. -/
structure ReadsValue (indent : Option Nat) (flush : Bool) (p : Pen) (ws : List Char) (q : Pen) (ts : List Token) :
    Prop where
  writes : Writes p ws q
  leading : q.leading = false
  endsMark : p.roomy = false → ∀ tail, EndsMark (ws ++ tail)
  reads (toks : List Token) (around : List Int) {tail : List Char} {n : Nat} {c : Cursor} : Lands q tail n c →
    (n : Int) ≤ outerIndent indent →
    Reads (inBlock (p.place (ws ++ tail)) toks (outerIndent indent) around (!flush))
      (inBlock c (ts.reverse ++ toks) (outerIndent indent) around true)

/-- What is put down behind the blank before a word. -/
theorem ReadsValue.word (hw : Writes p.gap ws q) (hq : q.leading = false)
    (h : ∀ {toks : List Token} {around : List Int} {tail : List Char} {n : Nat} {c : Cursor}, Lands q tail n c →
      (n : Int) ≤ outerIndent indent →
      Reads (inBlock (p.place (List.replicate (gapLength p) ' ' ++ (ws ++ tail))) toks (outerIndent indent) around
          (!flush))
        (inBlock c (ts.reverse ++ toks) (outerIndent indent) around true)) :
    ReadsValue indent flush p (List.replicate (gapLength p) ' ' ++ ws) q ts where
  writes := (Writes.gap p).trans hw
  leading := hq
  endsMark hr tail := by
    rw [gapLength, hr]
    rfl
  reads _ _ _ _ _ hl hn := by
    rw [List.append_assoc]
    exact h hl hn

/-- A scalar. -/
theorem ReadsValue.scalar (hb : Begins p indent inMapping flush) (hm : outerIndent indent + 1 ≤ m)
    (h : ReadsScalar p.gap ws q m cs isPlain) (hq : q.leading = false) :
    ReadsValue indent flush p (List.replicate (gapLength p) ' ' ++ ws) q [.scalar isPlain (String.ofList cs)] := by
  refine .word h.writes hq fun {toks around tail n c} hl hn => ?_
  have hspaces : Reads (inBlock (p.place (List.replicate (gapLength p) ' ' ++ (ws ++ tail))) toks (outerIndent indent)
      around (!flush)) _ := .spaces (h.opensLine hl.endsScalar 1) (Writes.gap p) (Int.le_of_lt hb.column)
  exact hspaces.trans (.scalar h hm hb.column hl (Int.lt_add_one_of_le hn))

/-- A pair of brackets with nothing between them. -/
theorem ReadsValue.brackets {a b : Char} {begins ends : Token} (hb : Begins p indent inMapping flush)
    (h : Brackets a b begins ends) :
    ReadsValue indent flush p (List.replicate (gapLength p) ' ' ++ [a, b]) (p.word [a, b]) [begins, ends] := by
  refine .word ((h.writes p.gap).flags false false) rfl fun {toks around tail n c} hl _ => ?_
  have hspaces : Reads (inBlock (p.place (List.replicate (gapLength p) ' ' ++ ([a, b] ++ tail))) toks
      (outerIndent indent) around (!flush)) _ := .spaces (h.opensLine (b :: tail) 1).1 (Writes.gap p) (Int.le_of_lt hb.column)
  obtain ⟨rest, q, rfl, hopens, hw, hcolumn, rfl⟩ := hl.lands
  exact hspaces.trans (.brackets h hb.column ⟨rest, q, rfl, hopens, ⟨hw.written, hw.place, hw.plain⟩, hcolumn, rfl⟩)

/-! ## Parts of a block -/

/-- What is put down for some items or members of a block is read as tokens, if what follows is not indented further. The
block is open already, or it begins there. -/
structure ReadsParts (t : Token) (m : Nat) (p : Pen) (ws : List Char) (q : Pen) (ts : List Token) : Prop where
  writes : Writes p ws q
  leading : q.leading = false
  opensLine (tail : List Char) : OpensLine m (ws ++ tail)
  reads (toks : List Token) {i : Int} {around around' : List Int} {opened : List Token} {tail : List Char} {n : Nat}
    {c : Cursor} :
    Opening t i around m around' opened → Lands q tail n c → n ≤ m →
    Reads (inBlock (p.place (ws ++ tail)) toks i around true)
      (inBlock c (ts.reverse ++ (opened ++ toks)) m around' true)

/-- What follows in the next line of a block. -/
theorem lands_lineStart (hq : q.leading = false) (hopens : OpensLine m us) :
    Lands q (lineStart m ++ us) m ((q.goto m).place us) := by
  obtain ⟨hw, hcolumn, -⟩ := goto_newLine (n := m) (.inl hq)
  exact ⟨us, q.goto m, rfl, hopens, hw, hcolumn, rfl⟩

/-- Parts of a block in lines one below the other. -/
theorem ReadsParts.append {r : Pen} (h : ReadsParts t m p ws q ts)
    (h' : ReadsParts t m (q.goto m) us r ts') : ReadsParts t m p (ws ++ (lineStart m ++ us)) r (ts ++ ts') where
  writes := h.writes.trans ((goto_newLine (.inl h.leading)).1.trans h'.writes)
  leading := h'.leading
  opensLine tail := by
    rw [List.append_assoc]
    exact h.opensLine _
  reads toks i around around' opened tail n c ho hl hn := by
    have hfirst := h.reads toks ho (lands_lineStart h.leading (h'.opensLine tail)) (Nat.le_refl m)
    rw [List.append_assoc, List.append_assoc, List.reverse_append, List.append_assoc]
    exact hfirst.trans (h'.reads _ (.inside m around') hl hn)

/-- What is put down for a mark. -/
theorem Writes.mark {c : Char} (hc : c = '-' ∨ c = '?' ∨ c = ':') (hroomy : p.roomy = true) :
    Writes p [c] (p.mark c) := by
  rw [mark_eq, gap_of_roomy hroomy]
  rcases hc with rfl | rfl | rfl <;> exact (Writes.put_char rfl rfl p).flags false p.leading

theorem begins_mark {c : Char} (hcolumn : p.column = m) (hroomy : p.roomy = true) (hleading : p.leading = true)
    (inMapping : Bool) : Begins (p.mark c) (some m) inMapping false := by
  have hmark : (p.mark c).column = m + 1 := by
    rw [mark_eq, gap_of_roomy hroomy]
    exact congrArg (· + 1) hcolumn
  have hleading' : (p.mark c).leading = true := by
    rw [mark_eq, gap_of_roomy hroomy]
    exact hleading
  exact .mark hleading' rfl hmark inMapping

/-- An item. -/
theorem ReadsParts.item (hcolumn : p.column = m) (hroomy : p.roomy = true)
    (h : ReadsValue (some m) false (p.mark '-') ws q ts) :
    ReadsParts .blockSequence m p ('-' :: ws) q (.entry :: ts) where
  writes := (Writes.mark (.inl rfl) hroomy).trans h.writes
  leading := h.leading
  opensLine tail := opensLine_mark (.inl rfl) (h.endsMark rfl tail) m
  reads toks i around around' opened tail n c ho hl hn := by
    have hentry : Reads (inBlock (p.place ('-' :: (ws ++ tail))) toks i around true) _ :=
      .entry ho hcolumn hroomy (h.endsMark rfl tail)
    rw [List.reverse_cons, List.append_assoc]
    exact hentry.trans (h.reads _ _ hl (Int.ofNat_le.2 hn))

theorem reverse_member (t : Token) (ts us : List Token) :
    (.key :: t :: .value :: ts).reverse ++ us = ts.reverse ++ .value :: t :: .key :: us := by
  simp

/-- A member whose key stands on the line of its value. -/
theorem ReadsParts.simple {k : String} (hcolumn : p.column = m) (hroomy : p.roomy = true)
    (hk : isSimpleKey k.toList = true) (hlen : (keyText k.toList).length ≤ longestKey)
    (h : ReadsValue (some m) true (putKey p m k) ws q ts) :
    ReadsParts .blockMapping m p (keyText k.toList ++ ':' :: ws) q (.key :: textToken true k :: .value :: ts) := by
  have hpos : 0 < m + indentStep := Nat.succ_pos _
  have hr := putText_key_reads hpos hk hroomy
  have hput : putKey p m k = (putText p (m + indentStep) true k).close ':' := by rw [putKey, if_pos hk]
  rw [hput] at h
  refine ⟨?_, h.leading, fun tail => ?_, fun toks {i around around' opened tail n c} ho hl hn => ?_⟩
  · exact hr.writes.trans (((Writes.put_char rfl rfl _).flags false false).trans h.writes)
  · rw [List.append_assoc]
    refine hr.opensLine ?_ m
    rintro c ⟨⟩
    exact .inl rfl
  · have hle : p.column ≤ (putText p (m + indentStep) true k).column := by
      rw [putText_key hk, Pen.scalar, gap_of_roomy hroomy]
      exact Nat.le_add_right _ _
    have hindent : i + 1 ≤ ((m + indentStep : Nat) : Int) := by
      have hi := ho.le
      have hstep : ((m + indentStep : Nat) : Int) = m + 2 := rfl
      omega
    have hkey : Reads (inBlock (p.place (keyText k.toList ++ ':' :: (ws ++ tail))) toks i around true) _ :=
      .simpleKey ho hr hindent hcolumn hle (keyText_unbroken hk) hlen (h.endsMark rfl tail)
    rw [String.ofList_toList] at hkey
    rw [List.append_assoc, reverse_member]
    exact hkey.trans (h.reads _ _ hl (Int.ofNat_le.2 hn))

/-- A member whose key stands behind a mark. -/
theorem ReadsParts.explicit {k : String} (hcolumn : p.column = m) (hroomy : p.roomy = true)
    (hleading : p.leading = true) (hk : isSimpleKey k.toList = false) (hback : textComesBack (m + indentStep) k.toList = true)
    (h : ReadsValue (some m) false (putKey p m k) ws q ts) :
    ∃ us, ReadsParts .blockMapping m p us q (.key :: textToken false k :: .value :: ts) := by
  have hput : putKey p m k = ((putText (p.mark '?') (m + indentStep) false k).goto m).mark ':' := by
    rw [putKey, hk, if_neg Bool.false_ne_true]
  rw [hput] at h
  have hpos : 0 < m + indentStep := Nat.succ_pos _
  obtain ⟨vs, hr⟩ := putText_comesBack hpos hback (p.mark '?')
  have hq : (putText (p.mark '?') (m + indentStep) false k).leading = false := putText_leading _ _ _ _
  have hindent : outerIndent (some m) + 1 ≤ ((m + indentStep : Nat) : Int) := by
    have hstep : ((m + indentStep : Nat) : Int) = m + 2 := rfl
    have hm : outerIndent (some m) = m := rfl
    omega
  have hkey := ReadsValue.scalar (begins_mark (c := '?') hcolumn hroomy hleading false) hindent hr hq
  obtain ⟨hgoto, hcolumn', hroomy', -⟩ := goto_newLine (n := m) (.inl hq)
  rw [String.ofList_toList] at hkey
  generalize putText (p.mark '?') (m + indentStep) false k = r at *
  generalize List.replicate (gapLength (p.mark '?')) ' ' ++ vs = vs at hkey
  refine ⟨'?' :: (vs ++ (lineStart m ++ ':' :: ws)), ?_, h.leading, fun tail => ?_,
    fun toks {i around around' opened tail n c} ho hl hn => ?_⟩
  · exact (Writes.mark (.inr (.inl rfl)) hroomy).trans
      (hkey.writes.trans (hgoto.trans ((Writes.mark (.inr (.inr rfl)) hroomy').trans h.writes)))
  · have hgap := hkey.endsMark rfl (lineStart m ++ ':' :: ws ++ tail)
    rw [← List.append_assoc] at hgap
    exact opensLine_mark (.inr (.inl rfl)) hgap m
  · have hopens := opensLine_mark (.inr (.inr rfl)) (h.endsMark rfl tail) m
    have hquestion :
        Reads (inBlock (p.place ('?' :: (vs ++ (lineStart m ++ ':' :: (ws ++ tail))))) toks i around true) _ :=
      .explicitKey ho hcolumn hroomy (hkey.endsMark rfl _)
    have htext := hkey.reads (.key :: (opened ++ toks)) around' (lands_lineStart hq hopens) (Int.le_refl _)
    have hcolon : Reads (inBlock ((r.goto m).place (':' :: (ws ++ tail)))
        (textToken false k :: .key :: (opened ++ toks)) m around' true) _ :=
      .explicitValue hcolumn' hroomy' (h.endsMark rfl tail)
    have hplace : '?' :: (vs ++ (lineStart m ++ ':' :: ws)) ++ tail =
        '?' :: (vs ++ (lineStart m ++ ':' :: (ws ++ tail))) := by simp only [List.cons_append, List.append_assoc]
    rw [hplace, reverse_member]
    exact hquestion.trans (htext.trans (hcolon.trans (h.reads _ _ hl (Int.ofNat_le.2 hn))))

/-! ## Blocks -/

/-- A sequence at the column of the mapping that it belongs to. -/
theorem ReadsValue.level (hb : Begins p indent inMapping true)
    (h : ReadsParts t (innerColumn indent true) (p.goto (innerColumn indent true)) ws q ts) :
    ∃ us, ReadsValue indent true p us q ts := by
  obtain ⟨us, hw, -, -, -, hends, hreads⟩ := hb.goto true fun _ => rfl
  refine ⟨us ++ ws, hw.trans h.writes, h.leading, fun hr tail => ?_, fun toks around tail n c hl hn => ?_⟩
  · rw [List.append_assoc]
    exact hends hr _
  · have hparts := hreads toks around (h.opensLine tail)
    rw [List.append_assoc]
    cases hb with
    | @key m => exact hparts.trans (h.reads _ (.inside m around) hl (Int.ofNat_le.1 hn))

theorem outerIndent_lt (indent : Option Nat) : outerIndent indent < innerColumn indent false := by
  cases indent with
  | none => exact (by decide : (-1 : Int) < 0)
  | some n => exact Int.ofNat_lt.2 (Nat.lt_add_of_pos_right (by decide))

/-- A block that is indented further. -/
theorem ReadsValue.block (hb : Begins p indent inMapping flush)
    (h : ReadsParts t (innerColumn indent false) (p.goto (innerColumn indent false)) ws q ts) :
    ∃ us, ReadsValue indent flush p us q (t :: (ts ++ [.blockEnd])) := by
  have hlt := outerIndent_lt indent
  obtain ⟨us, hw, -, -, -, hends, hreads⟩ := hb.goto false nofun
  refine ⟨us ++ ws, hw.trans h.writes, h.leading, fun hr tail => ?_, fun toks around tail n c hl hn => ?_⟩
  · rw [List.append_assoc]
    exact hends hr _
  · have hparts := h.reads toks (.begins hlt around) hl (by omega)
    have htokens : (t :: (ts ++ [.blockEnd])).reverse ++ toks = .blockEnd :: (ts.reverse ++ ([t] ++ toks)) := by
      simp only [List.reverse_cons, List.reverse_append, List.reverse_nil, List.nil_append, List.cons_append,
        List.append_assoc]
    rw [List.append_assoc, htokens]
    exact (hreads _ _ (h.opensLine tail)).trans (hparts.trans (.blockEnd hl (Int.lt_of_le_of_lt hn hlt)))

/-! ## Whole values -/

theorem begins_putKey {k : String} (hcolumn : p.column = m) (hroomy : p.roomy = true) :
    Begins (putKey p m k) (some m) true (isSimpleKey k.toList) := by
  unfold putKey
  cases hk : isSimpleKey k.toList with
  | true =>
    rw [if_pos rfl]
    refine .key rfl rfl ?_
    rw [putText_key hk]
    have hle : p.column ≤ p.gap.column := by
      rw [gap_of_roomy hroomy]
    have hclose : ((p.scalar (keyText k.toList)).close ':').column =
        p.gap.column + (keyText k.toList).length + 1 := rfl
    omega
  | false =>
    rw [if_neg Bool.false_ne_true]
    obtain ⟨-, hcolumn, hroomy, hleading⟩ :=
      goto_newLine (n := m) (.inl (putText_leading (p.mark '?') (m + indentStep) false k))
    exact begins_mark hcolumn hroomy hleading true

end

theorem outerIndent_add_one_le (indent : Option Nat) : outerIndent indent + 1 ≤ (indent.getD 0 + indentStep : Nat) := by
  cases indent with
  | none => exact (by decide : (0 : Int) ≤ 2)
  | some n => exact Int.ofNat_le.2 (Nat.add_le_add_left (by decide) n)

/-- A word. -/
theorem ReadsValue.plain {p : Pen} {indent : Option Nat} {inMapping flush : Bool} (hb : Begins p indent inMapping flush)
    {cs : List Char} (h : StandsPlain cs) : ∃ ws, ReadsValue indent flush p ws (p.word cs) [wordToken cs] := by
  have hpos : 0 < indent.getD 0 + indentStep := Nat.succ_pos _
  obtain ⟨ws, hr⟩ := putPlain_reads false hpos h p
  rw [putPlain_key (by simpa using h.nonempty)] at hr
  exact ⟨_, .scalar hb (outerIndent_add_one_le indent) (.plain hr) rfl⟩

theorem putValue_list {p : Pen} {indent : Option Nat} {inMapping flush : Bool} (hb : Begins p indent inMapping flush)
    (x : Json) (xs : List Json) :
    putValue p indent inMapping (.list (x :: xs)) =
      putItems (putValue ((p.goto (innerColumn indent flush)).mark '-') (some (innerColumn indent flush)) false x)
        (innerColumn indent flush) xs := by
  rw [← hb.isFlush]
  cases indent <;> rfl

theorem putValue_object (p : Pen) (indent : Option Nat) (inMapping : Bool) (k : String) (x : Json)
    (ms : List (String × Json)) :
    putValue p indent inMapping (.object ((k, x) :: ms)) =
      putMembers (putValue (putKey (p.goto (innerColumn indent false)) (innerColumn indent false) k)
        (some (innerColumn indent false)) true x) (innerColumn indent false) ms := by
  cases indent <;> rfl

/-- A member, whichever way its key stands. -/
theorem ReadsParts.member {p q : Pen} {m : Nat} {k : String} {ws : List Char} {ts : List Token} (hcolumn : p.column = m)
    (hroomy : p.roomy = true) (hleading : p.leading = true) (hback : keyComesBack m k.toList = true)
    (h : ReadsValue (some m) (isSimpleKey k.toList) (putKey p m k) ws q ts) :
    ∃ us, ReadsParts .blockMapping m p us q (.key :: textToken (isSimpleKey k.toList) k :: .value :: ts) := by
  unfold keyComesBack at hback
  cases hk : isSimpleKey k.toList with
  | true =>
    rw [hk] at h
    rw [hk, if_pos rfl, decide_eq_true_eq] at hback
    exact ⟨_, .simple hcolumn hroomy hk hback h⟩
  | false =>
    rw [hk] at h
    rw [hk, if_neg Bool.false_ne_true] at hback
    exact ReadsParts.explicit hcolumn hroomy hleading hk hback h

mutual
/-- What is put down for a value is read as its tokens. -/
theorem putValue_reads : ∀ (j : Json) {p : Pen} {indent : Option Nat} {inMapping flush : Bool},
    Begins p indent inMapping flush → (∀ x ∈ j.floats, x.isFinite = true) → comesBack indent flush j = true →
    ∃ ws, ReadsValue indent flush p ws (putValue p indent inMapping j) (tokens flush j)
  | .null, p, indent, inMapping, flush, hb, _, _ => by
    rw [putValue]
    exact ReadsValue.plain hb standsPlain_null
  | .bool b, p, indent, inMapping, flush, hb, _, _ => by
    rw [putValue]
    cases b with
    | false => exact ReadsValue.plain hb standsPlain_false
    | true => exact ReadsValue.plain hb standsPlain_true
  | .int n, p, indent, inMapping, flush, hb, _, _ => by
    rw [putValue]
    exact ReadsValue.plain hb (standsPlain_writeInt n)
  | .float x, p, indent, inMapping, flush, hb, hf, _ => by
    rw [putValue]
    cases x with
    | nan => exact absurd (hf .nan (List.mem_singleton_self _)) Bool.false_ne_true
    | infinite s => exact absurd (hf (.infinite s) (List.mem_singleton_self _)) Bool.false_ne_true
    | finite s m e =>
      obtain ⟨d, hd, hwf, -⟩ := floatChars_finite s m e
      have hplain : StandsPlain (floatChars (.finite s m e)) := hd ▸ standsPlain_decimal hwf
      exact ReadsValue.plain hb hplain
  | .text s, p, indent, inMapping, flush, hb, _, hback => by
    rw [putValue]
    have hpos : 0 < indent.getD 0 + indentStep := Nat.succ_pos _
    obtain ⟨ws, hr⟩ := putText_comesBack hpos hback p
    have h := ReadsValue.scalar hb (outerIndent_add_one_le indent) hr (putText_leading _ _ _ _)
    rw [String.ofList_toList] at h
    exact ⟨_, h⟩
  | .list [], p, indent, inMapping, flush, hb, _, _ => by
    rw [putValue]
    exact ⟨_, .brackets hb .sequence⟩
  | .list (x :: xs), p, indent, inMapping, flush, hb, hf, hback => by
    rw [comesBack, itemsComeBack, Bool.and_eq_true] at hback
    rw [Json.floats, Json.floatsOfItems, List.forall_mem_append] at hf
    obtain ⟨-, -, hcolumn, hroomy, hleading, -⟩ := hb.goto flush id
    obtain ⟨ws, hx⟩ := putValue_reads x (begins_mark (c := '-') hcolumn hroomy hleading false) hf.1 hback.1
    obtain ⟨us, hparts⟩ := putItems_reads xs (.item hcolumn hroomy hx) hf.2 hback.2
    rw [putValue_list hb]
    cases flush with
    | true => exact ReadsValue.level hb hparts
    | false => exact ReadsValue.block hb hparts
  | .object [], p, indent, inMapping, flush, hb, _, _ => by
    rw [putValue]
    exact ⟨_, .brackets hb .mapping⟩
  | .object ((k, x) :: ms), p, indent, inMapping, flush, hb, hf, hback => by
    rw [comesBack, membersComeBack, Bool.and_eq_true, Bool.and_eq_true] at hback
    rw [Json.floats, Json.floatsOfMembers, List.forall_mem_append] at hf
    obtain ⟨-, -, hcolumn, hroomy, hleading, -⟩ := hb.goto false nofun
    obtain ⟨ws, hx⟩ := putValue_reads x (begins_putKey hcolumn hroomy) hf.1 hback.1.2
    obtain ⟨vs, hmember⟩ := ReadsParts.member hcolumn hroomy hleading hback.1.1 hx
    obtain ⟨us, hparts⟩ := putMembers_reads ms hmember hf.2 hback.2
    rw [putValue_object]
    exact ReadsValue.block hb hparts

theorem putItems_reads : ∀ (xs : List Json) {m : Nat} {p q : Pen} {ws : List Char} {ts : List Token},
    ReadsParts .blockSequence m p ws q ts → (∀ x ∈ Json.floatsOfItems xs, x.isFinite = true) →
    itemsComeBack m xs = true →
    ∃ us, ReadsParts .blockSequence m p us (putItems q m xs) (ts ++ itemTokens xs)
  | [], m, p, q, ws, ts, h, _, _ => by
    rw [putItems, itemTokens, List.append_nil]
    exact ⟨ws, h⟩
  | x :: xs, m, p, q, ws, ts, h, hf, hback => by
    rw [itemsComeBack, Bool.and_eq_true] at hback
    rw [Json.floatsOfItems, List.forall_mem_append] at hf
    obtain ⟨-, hcolumn, hroomy, hleading⟩ := goto_newLine (n := m) (.inl h.leading)
    obtain ⟨vs, hx⟩ := putValue_reads x (begins_mark (c := '-') hcolumn hroomy hleading false) hf.1 hback.1
    obtain ⟨us, hparts⟩ := putItems_reads xs (h.append (.item hcolumn hroomy hx)) hf.2 hback.2
    rw [List.append_assoc] at hparts
    rw [putItems]
    exact ⟨us, hparts⟩

theorem putMembers_reads : ∀ (ms : List (String × Json)) {m : Nat} {p q : Pen} {ws : List Char} {ts : List Token},
    ReadsParts .blockMapping m p ws q ts → (∀ x ∈ Json.floatsOfMembers ms, x.isFinite = true) →
    membersComeBack m ms = true →
    ∃ us, ReadsParts .blockMapping m p us (putMembers q m ms) (ts ++ memberTokens ms)
  | [], m, p, q, ws, ts, h, _, _ => by
    rw [putMembers, memberTokens, List.append_nil]
    exact ⟨ws, h⟩
  | (k, x) :: ms, m, p, q, ws, ts, h, hf, hback => by
    rw [membersComeBack, Bool.and_eq_true, Bool.and_eq_true] at hback
    rw [Json.floatsOfMembers, List.forall_mem_append] at hf
    obtain ⟨-, hcolumn, hroomy, hleading⟩ := goto_newLine (n := m) (.inl h.leading)
    obtain ⟨ws', hx⟩ := putValue_reads x (begins_putKey hcolumn hroomy) hf.1 hback.1.2
    obtain ⟨vs, hmember⟩ := ReadsParts.member hcolumn hroomy hleading hback.1.1 hx
    obtain ⟨us, hparts⟩ := putMembers_reads ms (h.append hmember) hf.2 hback.2
    rw [List.append_assoc] at hparts
    rw [putMembers]
    exact ⟨us, hparts⟩
end

/-! ## Whole texts -/

/-- At the end of a text the outermost block ends. -/
theorem run_end {p : Pen} (hcolumn : p.column = 0) (ts : List Token) {fuel : Nat} (hfuel : 0 < fuel) :
    run fuel (inBlock (p.place []) ts 0 [-1] true) = .blockEnd :: ts := by
  obtain ⟨fuel, rfl⟩ : ∃ f, fuel = f + 1 := ⟨fuel - 1, by omega⟩
  have hprepare : (inBlock (p.place []) ts 0 [-1] true).prepare = .ok _ :=
    prepare_inline (k := 0) (n := 0) (.inl rfl) (.refl p) (by rw [hcolumn]; exact Int.le_refl 0)
  exact run_of_end hprepare rfl rfl fuel

/-- A text that is put down for members at its beginning is read as a mapping. -/
theorem ReadsParts.read {q : Pen} {ws : List Char} {ts : List Token} (h : ReadsParts .blockMapping 0 {} ws q ts) :
    Token.read (String.ofList (q.goto 0).written.reverse) = .blockMapping :: (ts ++ [.blockEnd]) := by
  obtain ⟨hend, hcolumn, -⟩ := goto_newLine (n := 0) (.inl h.leading)
  have hw := h.writes.trans hend
  have hwritten : (q.goto 0).written.reverse = ws ++ lineStart 0 := by
    rw [hw.written, List.reverse_append, List.reverse_reverse]
    exact List.nil_append _
  have hstart : Scan.start (ws ++ lineStart 0) = inBlock (Pen.place {} (ws ++ lineStart 0)) [] (-1) [] true := by
    have hmark : ((ws ++ lineStart 0).headD '\x00' == '\ufeff') = false := by
      cases hcs : ws ++ lineStart 0 with
      | nil => rfl
      | cons c cs =>
        have hc := hw.plain c (hcs ▸ List.mem_cons_self)
        exact beq_false_of_ne (isPlainChar_ne hc rfl)
    rw [Scan.start]
    simp only [Cursor.peek, hmark, Bool.false_eq_true, if_false]
    rfl
  have hallowed : (ws ++ lineStart 0).find? (fun c => !isAllowed c) = none :=
    List.find?_eq_none.2 fun c hc => by simpa using isAllowed_of_isPlainChar (hw.plain c hc)
  have hreads := h.reads [] (.begins (by decide : (-1 : Int) < (0 : Nat)) [])
    (lands_lineStart (m := 0) h.leading (.inl rfl)) (Nat.le_refl 0)
  obtain ⟨fuel, hfuel, hrun⟩ := hreads ((ws ++ lineStart 0).length + 1) (Nat.lt_succ_self _)
  have htokens : run ((ws ++ lineStart 0).length + 1) (inBlock (Pen.place {} (ws ++ lineStart 0)) [] (-1) [] true) =
      .blockEnd :: (ts.reverse ++ ([.blockMapping] ++ [])) := hrun.trans (run_end hcolumn _ hfuel)
  rw [Token.read, String.toList_ofList, hwritten]
  simp only [hallowed, hstart, htokens]
  simp

/-- **The text of an object is read as its tokens.** -/
theorem read_write {ms : List (String × Json)} (hf : ∀ x ∈ (Json.object ms).floats, x.isFinite = true)
    (hback : comesBack none false (.object ms) = true) :
    Token.read (write (.object ms)) = tokens false (.object ms) := by
  cases ms with
  | nil => decide
  | cons member ms =>
    obtain ⟨k, x⟩ := member
    rw [comesBack, membersComeBack, Bool.and_eq_true, Bool.and_eq_true] at hback
    rw [Json.floats, Json.floatsOfMembers, List.forall_mem_append] at hf
    have hkey : Begins (putKey {} 0 k) (some 0) true (isSimpleKey k.toList) := begins_putKey rfl rfl
    obtain ⟨ws, hx⟩ := putValue_reads x hkey hf.1 hback.1.2
    obtain ⟨vs, hmember⟩ := ReadsParts.member (p := {}) (m := 0) rfl rfl rfl hback.1.1 hx
    obtain ⟨us, hparts⟩ := putMembers_reads ms hmember hf.2 hback.2
    exact hparts.read

end ApiProjection.Yaml
