import ApiProjection.Diagnostic.Warnings
import Mathlib.Algebra.Ring.Nat
import Mathlib.Data.List.Induction
/-!
# Queries on collections of warnings

The queries on a collection agree with one another. Those that pick warnings by codes split the collection and combine
as sets of texts do; those that say what occurs say it once each, in the order of first occurrence, and agree with those
that look for one thing. How a code is given makes no difference, and no query changes a collection.

* `Warnings.firsts`: what is the first of its kind, which codes and counts are made from.
* `Warnings.Query`: the queries as data, with what they answer.
* `Warnings.consistent`: how they agree.
-/
namespace ApiProjection

/-! ## The first of each kind -/

section
variable {α κ : Type} [BEq κ] (key : α → κ)

/-- The elements before which there is none with the same key. -/
def firsts (as : List α) : List α :=
  as.foldl (fun seen a => if seen.any (key · == key a) then seen else seen ++ [a]) []

/-- The position of the first element with a key. -/
def firstAt (as : List α) (k : κ) : Nat := as.findIdx (key · == k)

theorem firsts_concat (as : List α) (a : α) :
    firsts key (as ++ [a]) = if (firsts key as).any (key · == key a) then firsts key as else firsts key as ++ [a] := by
  rw [firsts, List.foldl_append]
  rfl

theorem firstAt_concat_of_any {as : List α} {a : α} {k : κ} (h : as.any (key · == k) = true) :
    firstAt key (as ++ [a]) k = firstAt key as k := by
  have hlt : as.findIdx (key · == k) < as.length := List.findIdx_lt_length.2 (List.any_eq_true.1 h)
  rw [firstAt, List.findIdx_append, if_pos hlt]
  rfl

variable [LawfulBEq κ]

/-- Every key that occurs is that of a first element. -/
theorem any_firsts (as : List α) (k : κ) : (firsts key as).any (key · == k) = as.any (key · == k) := by
  induction as using List.reverseRecOn with
  | nil => rfl
  | append_singleton as a ih =>
    rw [firsts_concat]
    by_cases hseen : (firsts key as).any (key · == key a) = true
    · rw [if_pos hseen, ih]
      by_cases hk : key a = k
      · subst hk
        rw [← ih, hseen, List.any_append, ← ih, hseen, Bool.true_or]
      · simp [hk]
    · rw [if_neg hseen, List.any_append, List.any_append, ih]

theorem firstAt_concat_self {as : List α} {a : α} (h : ¬as.any (key · == key a) = true) :
    firstAt key (as ++ [a]) (key a) = as.length := by
  have hlen : as.findIdx (key · == key a) = as.length := by
    rw [List.findIdx_eq_length]
    intro x hx
    by_contra hkey
    exact h (List.any_eq_true.2 ⟨x, hx, by simpa using hkey⟩)
  rw [firstAt, List.findIdx_append, hlen, if_neg (Nat.lt_irrefl _)]
  simp

theorem any_of_mem_firsts {as : List α} {a : α} (h : a ∈ firsts key as) : as.any (key · == key a) = true := by
  rw [← any_firsts]
  exact List.any_eq_true.2 ⟨a, h, beq_self_eq_true _⟩

/-- Each of the first elements is where its key occurs first. -/
theorem getElem?_firstAt (as : List α) : ∀ a ∈ firsts key as, as[firstAt key as (key a)]? = some a := by
  induction as using List.reverseRecOn with
  | nil => nofun
  | append_singleton as b ih =>
    have hold : ∀ a ∈ firsts key as, (as ++ [b])[firstAt key (as ++ [b]) (key a)]? = some a := by
      intro a ha
      have hany := any_of_mem_firsts key ha
      have hlt : firstAt key as (key a) < as.length := List.findIdx_lt_length.2 (List.any_eq_true.1 hany)
      rw [firstAt_concat_of_any key hany, List.getElem?_append_left hlt, ih a ha]
    rw [firsts_concat]
    split
    · exact hold
    · rename_i hseen
      rw [any_firsts] at hseen
      rw [List.forall_mem_append]
      refine ⟨hold, List.forall_mem_singleton.2 ?_⟩
      rw [firstAt_concat_self key hseen, List.getElem?_concat_length]

/-- The first elements stand in the order in which their keys occur first. -/
theorem firsts_ordered (as : List α) :
    (firsts key as).Pairwise fun a b => firstAt key as (key a) < firstAt key as (key b) := by
  induction as using List.reverseRecOn with
  | nil => exact .nil
  | append_singleton as b ih =>
    have hold : (firsts key as).Pairwise fun a a' =>
        firstAt key (as ++ [b]) (key a) < firstAt key (as ++ [b]) (key a') := by
      refine List.Pairwise.imp_of_mem (fun {a a'} ha ha' hlt => ?_) ih
      rwa [firstAt_concat_of_any key (any_of_mem_firsts key ha), firstAt_concat_of_any key (any_of_mem_firsts key ha')]
    rw [firsts_concat]
    split
    · exact hold
    · rename_i hseen
      rw [any_firsts] at hseen
      refine List.pairwise_append.2 ⟨hold, List.pairwise_singleton _ _, fun a ha b' hb' => ?_⟩
      obtain rfl := List.mem_singleton.1 hb'
      have hany := any_of_mem_firsts key ha
      rw [firstAt_concat_self key hseen, firstAt_concat_of_any key hany]
      exact List.findIdx_lt_length.2 (List.any_eq_true.1 hany)

end

namespace Warnings

variable {ws : Warnings} {as bs : List Code} {c : Code} {k : Category}

/-! ## Picking warnings by their codes -/

/-- The codes of one list that are, as texts, in another. -/
def common (as bs : List Code) : List Code := as.filter fun a => bs.any fun b => a == b

theorem isOneOf_common (as bs : List Code) (w : Warning) : isOneOf (common as bs) w = (isOneOf as w && isOneOf bs w) := by
  rw [Bool.eq_iff_iff, Bool.and_eq_true]
  simp only [isOneOf, common, List.any_filter, List.any_eq_true, Bool.and_eq_true]
  constructor
  · rintro ⟨a, ha, ⟨b, hb, hab⟩, hwa⟩
    have hwb : (w.code.text == b.text) = true := by
      rw [eq_of_beq hwa]
      exact hab
    exact ⟨⟨a, ha, hwa⟩, b, hb, hwb⟩
  · rintro ⟨⟨a, ha, hwa⟩, b, hb, hwb⟩
    have hab : (a == b) = true := by
      change (a.text == b.text) = true
      rw [← eq_of_beq hwa, hwb]
    exact ⟨a, ha, ⟨b, hb, hab⟩, hwa⟩

theorem only_only (ws : Warnings) (as bs : List Code) : only (only ws as) bs = only ws (common as bs) := by
  rw [only, only, only, List.filter_filter]
  refine List.filter_congr fun w _ => ?_
  rw [isOneOf_common, Bool.and_comm]

theorem exclude_exclude (ws : Warnings) (as bs : List Code) : exclude (exclude ws as) bs = exclude ws (as ++ bs) := by
  rw [exclude, exclude, exclude, List.filter_filter]
  refine List.filter_congr fun w _ => ?_
  rw [isOneOf, isOneOf, isOneOf, List.any_append, Bool.not_or, Bool.and_comm]

/-- Every warning is picked or left out, once. -/
theorem only_append_exclude (ws : Warnings) (as : List Code) : (only ws as ++ exclude ws as).Perm ws :=
  List.filter_append_perm _ ws

theorem hasAny_iff : hasAny ws as = true ↔ only ws as ≠ [] := by
  rw [hasAny, only, Ne, List.filter_eq_nil_iff, List.any_eq_true]
  push Not
  rfl

theorem has_eq_hasAny (ws : Warnings) (c : Code) : has ws c = hasAny ws [c] := by
  unfold has hasAny
  refine congrArg (List.any ws) (funext fun w => ?_)
  rw [isOneOf, List.any_cons, List.any_nil, Bool.or_false]
  rfl

/-! ## What occurs -/

theorem codes_concat (ws : Warnings) (w : Warning) :
    codes (ws ++ [w]) = if (codes ws).any (· == w.code) then codes ws else codes ws ++ [w.code] := by
  rw [codes, List.foldl_append]
  rfl

theorem counts_concat (ws : Warnings) (w : Warning) : counts (ws ++ [w]) = countOne w.category (counts ws) := by
  rw [counts, List.foldl_append]
  rfl

/-- Codes are made from the warnings that have them first. -/
theorem codes_eq (ws : Warnings) : codes ws = (firsts (fun w => w.code.text) ws).map Warning.code := by
  induction ws using List.reverseRecOn with
  | nil => rfl
  | append_singleton ws w ih =>
    have hany : (codes ws).any (· == w.code) = (firsts (fun w => w.code.text) ws).any (fun v => v.code.text == w.code.text) := by
      rw [ih, List.any_map]
      rfl
    rw [codes_concat, hany, ih, firsts_concat]
    split
    · rfl
    · rw [List.map_append]
      rfl

/-- A code and its text are one code, which is listed as it is given first. -/
example : codes [⟨.known .downlevelWebhooks, "#", ""⟩, ⟨.plain "DOWNLEVEL_WEBHOOKS", "#", ""⟩] =
    [.known .downlevelWebhooks] := by decide

/-- The categories that occur, each once, in order of first occurrence. -/
def categories (ws : Warnings) : List Category := (firsts Warning.category ws).map Warning.category

theorem categories_concat (ws : Warnings) (w : Warning) :
    categories (ws ++ [w]) = if w.category ∈ categories ws then categories ws else categories ws ++ [w.category] := by
  have hmem : w.category ∈ categories ws ↔ (firsts Warning.category ws).any (Warning.category · == w.category) = true := by
    simp [categories]
  unfold categories at hmem ⊢
  rw [firsts_concat]
  by_cases hseen : (firsts Warning.category ws).any (Warning.category · == w.category) = true
  · rw [if_pos hseen, if_pos (hmem.2 hseen)]
  · rw [if_neg hseen, if_neg (mt hmem.1 hseen), List.map_append]
    rfl

theorem mem_categories : k ∈ categories ws ↔ hasCategory ws k = true := by
  have hany : hasCategory ws k = (firsts Warning.category ws).any (Warning.category · == k) := (any_firsts _ ws k).symm
  rw [hany]
  simp [categories]

theorem length_ofCategory_concat (ws : Warnings) (w : Warning) (k : Category) :
    (ofCategory (ws ++ [w]) k).length = (ofCategory ws k).length + if w.category = k then 1 else 0 := by
  rw [ofCategory, List.filter_append, List.length_append]
  by_cases hk : w.category = k
  · simp [ofCategory, hk]
  · simp [ofCategory, hk]

/-- One more of a category adds one to its number, or puts it behind the others. -/
theorem countOne_map (k : Category) (n : Category → Nat) :
    ∀ {ks : List Category}, ks.Nodup → countOne k (ks.map fun l => (l, n l)) =
      if k ∈ ks then ks.map fun l => (l, n l + if k = l then 1 else 0) else (ks.map fun l => (l, n l)) ++ [(k, 1)]
  | [], _ => rfl
  | l :: ks, h => by
    obtain ⟨hl, hks⟩ := List.nodup_cons.1 h
    rw [List.map_cons, countOne]
    by_cases hk : l = k
    · subst hk
      rw [if_pos rfl, if_pos List.mem_cons_self, List.map_cons, if_pos rfl]
      congr 1
      refine List.map_congr_left fun l' hl' => ?_
      have hne : l ≠ l' := by
        rintro rfl
        exact hl hl'
      rw [if_neg hne, Nat.add_zero]
    · rw [if_neg hk, countOne_map k n hks]
      by_cases hmem : k ∈ ks
      · rw [if_pos hmem, if_pos (List.mem_cons_of_mem _ hmem), List.map_cons, if_neg (Ne.symm hk), Nat.add_zero]
      · rw [if_neg hmem, if_neg (by simp [Ne.symm hk, hmem])]
        rfl

theorem nodup_categories (ws : Warnings) : (categories ws).Nodup := by
  refine List.pairwise_map.2 ((firsts_ordered Warning.category ws).imp fun {v w} hlt heq => ?_)
  rw [heq] at hlt
  exact Nat.lt_irrefl _ hlt

/-- The counts are those of the categories that occur. -/
theorem counts_eq (ws : Warnings) : counts ws = (categories ws).map fun k => (k, (ofCategory ws k).length) := by
  induction ws using List.reverseRecOn with
  | nil => rfl
  | append_singleton ws w ih =>
    rw [counts_concat, ih, countOne_map _ _ (nodup_categories ws), categories_concat]
    simp only [length_ofCategory_concat]
    by_cases hmem : w.category ∈ categories ws
    · rw [if_pos hmem, if_pos hmem]
    · rw [if_neg hmem, if_neg hmem, List.map_append]
      have hnone : ofCategory ws w.category = [] := by
        rw [mem_categories, hasCategory, Bool.not_eq_true, List.any_eq_false] at hmem
        exact List.filter_eq_nil_iff.2 hmem
      congr 1
      · refine List.map_congr_left fun l hl => ?_
        have hne : w.category ≠ l := by
          rintro rfl
          exact hmem hl
        rw [if_neg hne, Nat.add_zero]
      · simp [hnone]

theorem sum_countOne (k : Category) (ns : List (Category × Nat)) :
    ((countOne k ns).map Prod.snd).sum = (ns.map Prod.snd).sum + 1 := by
  induction ns with
  | nil => rfl
  | cons e ns ih =>
    rw [countOne]
    split
    · simp only [List.map_cons, List.sum_cons]
      omega
    · simp only [List.map_cons, List.sum_cons, ih]
      omega

theorem sum_counts (ws : Warnings) : ((counts ws).map Prod.snd).sum = ws.length := by
  induction ws using List.reverseRecOn with
  | nil => rfl
  | append_singleton ws w ih =>
    rw [counts_concat, sum_countOne, ih, List.length_append]
    rfl

/-! ## Queries as data -/

/-- A query on a collection. -/
inductive Query
  | has (c : Code)
  | hasAny (cs : List Code)
  | hasCategory (k : Category)
  | only (cs : List Code)
  | ofCategory (k : Category)
  | exclude (cs : List Code)
  | codes
  | counts

/-- What a query answers. -/
inductive Answer
  | holds (b : Bool)
  | found (ws : Warnings)
  | codes (cs : List Code)
  | counts (ns : List (Category × Nat))

def Query.answer (ws : Warnings) : Query → Answer
  | .has c => .holds (ws.has c)
  | .hasAny cs => .holds (ws.hasAny cs)
  | .hasCategory k => .holds (ws.hasCategory k)
  | .only cs => .found (ws.only cs)
  | .ofCategory k => .found (ws.ofCategory k)
  | .exclude cs => .found (ws.exclude cs)
  | .codes => .codes ws.codes
  | .counts => .counts ws.counts

/-! ## Codes of this library and texts -/

/-- A code as a mere text. -/
def spelled (c : Code) : Code := .plain c.text

/-- A collection in which every code is a mere text. -/
def spell (ws : Warnings) : Warnings := ws.map fun w => { w with code := spelled w.code }

def Query.spell : Query → Query
  | .has c => .has (spelled c)
  | .hasAny cs => .hasAny (cs.map spelled)
  | .only cs => .only (cs.map spelled)
  | .exclude cs => .exclude (cs.map spelled)
  | .hasCategory k => .hasCategory k
  | .ofCategory k => .ofCategory k
  | .codes => .codes
  | .counts => .counts

def Answer.spell : Answer → Answer
  | .found ws => .found (Warnings.spell ws)
  | .codes cs => .codes (cs.map spelled)
  | .holds b => .holds b
  | .counts ns => .counts ns

theorem isOneOf_spelled (cs : List Code) (w : Warning) :
    isOneOf (cs.map spelled) { w with code := spelled w.code } = isOneOf cs w := by
  rw [isOneOf, List.any_map]
  rfl

theorem codes_spell (ws : Warnings) : codes (spell ws) = (codes ws).map spelled := by
  induction ws using List.reverseRecOn with
  | nil => rfl
  | append_singleton ws w ih =>
    have hany : ((codes ws).map spelled).any (· == spelled w.code) = (codes ws).any (· == w.code) := List.any_map
    rw [spell, List.map_append]
    change codes (spell ws ++ [{ w with code := spelled w.code }]) = _
    rw [codes_concat, codes_concat, ih, hany]
    split
    · rfl
    · rw [List.map_append]
      rfl

/-- Categories are told apart by their names. -/
theorem category_name (k l : Category) : (k.name == l.name) = (k == l) := by
  cases k <;> cases l <;> rfl

/-- To spell out the codes and then to ask is the same as to ask and then to spell them out. -/
theorem answer_spell (ws : Warnings) (q : Query) : q.spell.answer (spell ws) = (q.answer ws).spell := by
  cases q with
  | has c => exact congrArg Answer.holds List.any_map
  | hasAny cs =>
    refine congrArg Answer.holds (List.any_map.trans (congrArg (List.any ws) (funext fun w => ?_)))
    exact isOneOf_spelled cs w
  | hasCategory k => exact congrArg Answer.holds List.any_map
  | only cs =>
    refine congrArg Answer.found (List.filter_map.trans (congrArg (List.map _) (List.filter_congr fun w _ => ?_)))
    exact isOneOf_spelled cs w
  | ofCategory k => exact congrArg Answer.found List.filter_map
  | exclude cs =>
    refine congrArg Answer.found (List.filter_map.trans (congrArg (List.map _) (List.filter_congr fun w _ => ?_)))
    exact congrArg (!·) (isOneOf_spelled cs w)
  | codes => exact congrArg Answer.codes (codes_spell ws)
  | counts =>
    refine congrArg Answer.counts ?_
    rw [counts, spell, List.foldl_map]
    rfl

/-! ## Collections that are kept -/

/-- What is done with collections, which are numbered in the order in which they were made. -/
inductive Call
  | make (ws : Warnings)
  | append (i : Nat) (w : Warning)
  | ask (i : Nat) (q : Query)

/-- The collections after a call. Warnings that a query finds are a new collection. -/
def Call.run (store : List Warnings) : Call → List Warnings
  | .make ws => store ++ [ws]
  | .append i w => store.modify i (· ++ [w])
  | .ask i q => match q.answer (store.getD i []) with
    | .found ws => store ++ [ws]
    | _ => store

/-- A call leaves a collection as it is unless it appends to it. -/
theorem Call.run_lasting {store : List Warnings} {i : Nat} {ws : Warnings} {call : Call} (h : store[i]? = some ws)
    (hcall : ∀ w, call ≠ .append i w) : (call.run store)[i]? = some ws := by
  have hlt : i < store.length := (List.getElem?_eq_some_iff.1 h).1
  cases call with
  | make vs => rw [run, List.getElem?_append_left hlt, h]
  | append j w =>
    have hne : j ≠ i := by
      rintro rfl
      exact hcall w rfl
    rw [run, List.getElem?_modify_ne _ _ hne, h]
  | ask j q =>
    rw [run]
    split
    · rw [List.getElem?_append_left hlt, h]
    · exact h

/-- **What is asked of a collection, and what is done with others, leaves it as it is.** -/
theorem Call.runs_lasting {store : List Warnings} {i : Nat} {ws : Warnings} {calls : List Call} (h : store[i]? = some ws)
    (hcalls : ∀ w, Call.append i w ∉ calls) : (calls.foldl Call.run store)[i]? = some ws := by
  induction calls generalizing store with
  | nil => exact h
  | cons call calls ih =>
    have hcall : ∀ w, call ≠ .append i w := fun w he => hcalls w (he ▸ List.mem_cons_self)
    exact ih (call.run_lasting h hcall) fun w hmem => hcalls w (List.mem_cons_of_mem _ hmem)

/-! ## All queries -/

/-- The queries on a collection agree with one another. -/
structure Consistent (ws : Warnings) : Prop where
  only_sublist : ∀ as, (only ws as).Sublist ws
  exclude_sublist : ∀ as, (exclude ws as).Sublist ws
  /-- Each warning is once in one of the two. -/
  parted : ∀ as, (only ws as ++ exclude ws as).Perm ws
  only_only : ∀ as bs, only (only ws as) bs = only ws (common as bs)
  exclude_exclude : ∀ as bs, exclude (exclude ws as) bs = exclude ws (as ++ bs)
  hasAny_iff : ∀ as, hasAny ws as = true ↔ only ws as ≠ []
  has_eq : ∀ c, has ws c = hasAny ws [c]
  codes_distinct : (codes ws).Pairwise fun a b => (a == b) = false
  codes_ordered : (codes ws).Pairwise fun a b =>
    firstAt (fun w => w.code.text) ws a.text < firstAt (fun w => w.code.text) ws b.text
  /-- A code is listed as it is given where it occurs first. -/
  codes_first : ∀ c ∈ codes ws, (ws[firstAt (fun w => w.code.text) ws c.text]?).map Warning.code = some c
  codes_any : ∀ c, (codes ws).any (· == c) = has ws c
  counts_ordered : (counts ws).Pairwise fun a b => firstAt Warning.category ws a.1 < firstAt Warning.category ws b.1
  counts_number : ∀ e ∈ counts ws, e.2 = (ofCategory ws e.1).length
  counts_sum : ((counts ws).map Prod.snd).sum = ws.length
  counts_any : ∀ k, k ∈ (counts ws).map Prod.fst ↔ hasCategory ws k = true
  /-- Codes of this library may be given as texts, and texts as codes of it, in a query and in the collection. -/
  spelling : ∀ vs q r, spell vs = spell ws → Query.spell r = Query.spell q → (r.answer vs).spell = (q.answer ws).spell
  /-- So may categories be given by their names. -/
  hasCategory_name : ∀ k, (ws.any fun w => w.category.name == k.name) = hasCategory ws k
  ofCategory_name : ∀ k, (ws.filter fun w => w.category.name == k.name) = ofCategory ws k
  /-- The collection is the same after any calls that append nothing to it. -/
  lasting : ∀ (store : List Warnings) (i : Nat) (calls : List Call), store[i]? = some ws →
    (∀ w, Call.append i w ∉ calls) → (calls.foldl Call.run store)[i]? = some ws

/-- **The queries on every collection agree with one another.** -/
theorem consistent (ws : Warnings) : Consistent ws where
  only_sublist _ := List.filter_sublist
  exclude_sublist _ := List.filter_sublist
  parted := only_append_exclude ws
  only_only := only_only ws
  exclude_exclude := exclude_exclude ws
  hasAny_iff _ := Warnings.hasAny_iff
  has_eq := has_eq_hasAny ws
  codes_distinct := by
    rw [codes_eq, List.pairwise_map]
    refine (firsts_ordered (fun w => w.code.text) ws).imp fun {v w} hlt => ?_
    rw [← Bool.not_eq_true]
    intro heq
    have htext : v.code.text = w.code.text := eq_of_beq (α := String) heq
    rw [htext] at hlt
    exact Nat.lt_irrefl _ hlt
  codes_ordered := by
    rw [codes_eq, List.pairwise_map]
    exact firsts_ordered _ ws
  codes_first := by
    rw [codes_eq, List.forall_mem_map]
    intro w hw
    rw [getElem?_firstAt (fun w => w.code.text) ws w hw, Option.map_some]
  codes_any c := by
    rw [codes_eq, List.any_map]
    exact any_firsts (fun w => w.code.text) ws c.text
  counts_ordered := by
    rw [counts_eq, categories, List.map_map, List.pairwise_map]
    exact firsts_ordered _ ws
  counts_number := by
    rw [counts_eq, List.forall_mem_map]
    exact fun _ _ => rfl
  counts_sum := sum_counts ws
  counts_any k := by
    rw [counts_eq, List.map_map, ← mem_categories]
    exact iff_of_eq (congrArg (k ∈ ·) (List.map_id _))
  spelling vs q r hvs hr := by rw [← answer_spell, ← answer_spell, hvs, hr]
  hasCategory_name k := congrArg (List.any ws) (funext fun w => category_name w.category k)
  ofCategory_name k := List.filter_congr fun w _ => category_name w.category k
  lasting _ _ _ := Call.runs_lasting

end Warnings
end ApiProjection
