import Mathlib.Data.List.Forall2
import ApiProjection.Proofs.Fields
import ApiProjection.Proofs.Resolve
/-!
# Documents that are equal but for the order of keys

`Json.Alike` is equality of JSON values whose objects have no order. Two nodes agree if both can be
written down as JSON and are alike then (`Node.Agree`); entries agree if they have the same keys in the
same order and agree one by one.

* `Value.toJson_ok`: a free-form value that is a JSON value can be written down.
* `Node.agree_object`: objects agree if their entries do, whatever extensions stand beside them.
* `Node.agree_match`: the entries may also be in another order, if none of them looks like an extension.
-/
namespace ApiProjection

/-! ## JSON values without key order -/

namespace Json

/-- Equality of JSON values whose objects have no order. -/
inductive Alike : Json → Json → Prop
  | refl (j : Json) : Alike j j
  | list {xs ys : List Json} : List.Forall₂ Alike xs ys → Alike (.list xs) (.list ys)
  | object {ms ns os : List (String × Json)} : ms.Perm ns → ns.map Prod.fst = os.map Prod.fst →
      List.Forall₂ Alike (ns.map Prod.snd) (os.map Prod.snd) → Alike (.object ms) (.object os)

/-- The object without the members that have one of the given keys. -/
def without (keys : List String) : Json → Json
  | .object ms => .object (ms.filter fun m => !keys.contains m.1)
  | j => j

/-- Members with the same keys in the same order whose values are alike. -/
def MembersAlike : List (String × Json) → List (String × Json) → Prop :=
  List.Forall₂ fun m n => m.1 = n.1 ∧ Alike m.2 n.2

theorem MembersAlike.refl (ms : List (String × Json)) : MembersAlike ms ms :=
  List.forall₂_same.2 fun m _ => ⟨rfl, .refl m.2⟩

theorem MembersAlike.keys {ms ns : List (String × Json)} (h : MembersAlike ms ns) :
    ms.map Prod.fst = ns.map Prod.fst ∧ List.Forall₂ Alike (ms.map Prod.snd) (ns.map Prod.snd) := by
  induction h with
  | nil => exact ⟨rfl, .nil⟩
  | cons hmn _ ih => exact ⟨by simp [hmn.1, ih.1], .cons hmn.2 ih.2⟩

theorem MembersAlike.object {ms ns os : List (String × Json)} (hp : ms.Perm ns) (h : MembersAlike ns os) :
    Alike (.object ms) (.object os) :=
  .object hp h.keys.1 h.keys.2

theorem MembersAlike.filter {ms ns : List (String × Json)} (h : MembersAlike ms ns) (p : String → Bool) :
    MembersAlike (ms.filter fun m => p m.1) (ns.filter fun m => p m.1) :=
  List.rel_filter (fun _ _ hmn => by simp [hmn.1]) h

theorem MembersAlike.upsert {ms ns : List (String × Json)} (h : MembersAlike ms ns) (k : String) (j : Json) :
    MembersAlike (ApiProjection.upsert (· == ·) k j ms) (ApiProjection.upsert (· == ·) k j ns) := by
  induction h with
  | nil => exact .refl [(k, j)]
  | @cons m n ms ns hmn h ih =>
    obtain ⟨l, x⟩ := m
    obtain ⟨l', y⟩ := n
    obtain ⟨rfl, hxy⟩ := hmn
    rw [ApiProjection.upsert, ApiProjection.upsert]
    split
    · exact .cons ⟨rfl, .refl j⟩ h
    · exact .cons ⟨rfl, hxy⟩ ih

theorem MembersAlike.inline {ms ns : List (String × Json)} (h : MembersAlike ms ns)
    (extra : List (String × Json)) : MembersAlike (Node.inline ms extra) (Node.inline ns extra) := by
  induction extra generalizing ms ns with
  | nil => exact h
  | cons e extra ih => exact ih (h.upsert e.1 e.2)

end Json

/-! ## Free-form values -/

/-- Whether a scalar is a JSON value. -/
def Scalar.isJson : Scalar → Bool
  | .null | .bool _ | .int _ | .float _ | .text _ => true
  | .bytes _ | .date _ | .moment _ => false

namespace Value

mutual
/-- Whether a free-form value is a JSON value. -/
def isJson : Value → Bool
  | .scalar s => s.isJson
  | .list xs => allJson xs
  | .map es => entriesJson es
  | .tuple _ | .set _ => false

def allJson : List Value → Bool
  | [] => true
  | x :: xs => x.isJson && allJson xs

def entriesJson : List (Scalar × Value) → Bool
  | [] => true
  | (.text _, x) :: es => x.isJson && entriesJson es
  | _ :: _ => false
end

mutual
/-- A JSON value can be written down. -/
theorem toJson_ok : ∀ v : Value, v.isJson = true → ∃ j, v.toJson = .ok j
  | .scalar s, h => by cases s <;> first | exact ⟨_, rfl⟩ | cases h
  | .list xs, h => by
    obtain ⟨js, hjs⟩ := listToJson_ok xs h
    exact ⟨.list js, by rw [toJson, hjs]; rfl⟩
  | .map es, h => by
    obtain ⟨ms, hms⟩ := entriesToMembers_ok es h
    exact ⟨.object (collapse (· == ·) ms), by rw [toJson, hms]; rfl⟩
  | .tuple _, h | .set _, h => by cases h

theorem listToJson_ok : ∀ xs : List Value, allJson xs = true → ∃ js, listToJson xs = .ok js
  | [], _ => ⟨[], rfl⟩
  | x :: xs, h => by
    obtain ⟨hx, hxs⟩ := Bool.and_eq_true_iff.1 h
    obtain ⟨j, hj⟩ := toJson_ok x hx
    obtain ⟨js, hjs⟩ := listToJson_ok xs hxs
    exact ⟨j :: js, by rw [listToJson, hj, hjs]; rfl⟩

theorem entriesToMembers_ok :
    ∀ es : List (Scalar × Value), entriesJson es = true → ∃ ms, entriesToMembers es = .ok ms
  | [], _ => ⟨[], rfl⟩
  | (.text k, x) :: es, h => by
    obtain ⟨hx, hes⟩ := Bool.and_eq_true_iff.1 h
    obtain ⟨j, hj⟩ := toJson_ok x hx
    obtain ⟨ms, hms⟩ := entriesToMembers_ok es hes
    exact ⟨(k, j) :: ms, by rw [entriesToMembers, hj, hms]; rfl⟩
end

end Value

namespace Node

theorem extensionMembers_ok {xs : Extensions} (h : ∀ x ∈ xs, x.2.isJson = true) :
    ∃ ms, extensionMembers xs = .ok ms := by
  induction xs with
  | nil => exact ⟨[], rfl⟩
  | cons x xs ih =>
    rw [List.forall_mem_cons] at h
    obtain ⟨j, hj⟩ := Value.toJson_ok x.2 h.1
    obtain ⟨ms, hms⟩ := ih h.2
    exact ⟨(x.1, j) :: ms, by rw [extensionMembers, hj, hms]; rfl⟩

/-! ## Nodes that agree -/

/-- Nodes that can be written down and are alike then. -/
def Agree (m n : Node) : Prop := ∃ i j, m.toJson = .ok i ∧ n.toJson = .ok j ∧ i.Alike j

/-- Entries with the same keys in the same order whose nodes agree. -/
def EntriesAgree : List (String × Node) → List (String × Node) → Prop :=
  List.Forall₂ fun d e => d.1 = e.1 ∧ Agree d.2 e.2

theorem agree_refl {n : Node} {j : Json} (h : n.toJson = .ok j) : Agree n n := ⟨j, j, h, h, .refl j⟩

theorem entriesToJson_agree {es fs : List (String × Node)} (h : EntriesAgree es fs) :
    ∃ ms ns, entriesToJson es = .ok ms ∧ entriesToJson fs = .ok ns ∧ Json.MembersAlike ms ns := by
  induction h with
  | nil => exact ⟨[], [], rfl, rfl, .nil⟩
  | @cons d e es fs hde _ ih =>
    obtain ⟨hk, i, j, hi, hj, hij⟩ := hde
    obtain ⟨ms, ns, hms, hns, hmn⟩ := ih
    exact ⟨_, _, entriesToJson_cons.2 ⟨i, ms, hi, hms, rfl⟩, entriesToJson_cons.2 ⟨j, ns, hj, hns, rfl⟩,
      .cons ⟨hk, hij⟩ hmn⟩

theorem agree_object {es fs : List (String × Node)} {xs : Extensions} (h : EntriesAgree es fs)
    (hx : ∀ x ∈ xs, x.2.isJson = true) : Agree (.object es xs) (.object fs xs) := by
  obtain ⟨ms, ns, hms, hns, hmn⟩ := entriesToJson_agree h
  obtain ⟨extra, he⟩ := extensionMembers_ok hx
  exact ⟨.object (inline ms extra), .object (inline ns extra), by rw [toJson, hms, he]; rfl,
    by rw [toJson, hns, he]; rfl, (hmn.inline extra).object (.refl _)⟩

theorem agree_plain {es fs : List (String × Node)} (h : EntriesAgree es fs) :
    Agree (.object es []) (.object fs []) :=
  agree_object h (by simp)

theorem agree_list {ms ns : List Node} (h : List.Forall₂ Agree ms ns) : Agree (.list ms) (.list ns) := by
  have hlist : ∃ is js, listToJson ms = .ok is ∧ listToJson ns = .ok js ∧ List.Forall₂ Json.Alike is js := by
    induction h with
    | nil => exact ⟨[], [], rfl, rfl, .nil⟩
    | @cons m n ms ns hmn _ ih =>
      obtain ⟨i, j, hi, hj, hij⟩ := hmn
      obtain ⟨is, js, his, hjs, hall⟩ := ih
      exact ⟨i :: is, j :: js, by rw [listToJson, hi, his]; rfl, by rw [listToJson, hj, hjs]; rfl,
        .cons hij hall⟩
  obtain ⟨is, js, his, hjs, hall⟩ := hlist
  exact ⟨.list is, .list js, by rw [toJson, his]; rfl, by rw [toJson, hjs]; rfl, .list hall⟩

theorem agree_list_texts (ss : List String) : Agree (.list (ss.map .text)) (.list (ss.map .text)) := by
  refine agree_list (List.forall₂_same.2 fun n hn => ?_)
  obtain ⟨s, _, rfl⟩ := List.mem_map.1 hn
  exact agree_refl rfl

theorem entriesAgree_flatten {fs gs : List Field} (h : List.Forall₂ EntriesAgree fs gs) :
    EntriesAgree fs.flatten gs.flatten := by
  induction h with
  | nil => exact .nil
  | cons hf _ ih => exact List.rel_append hf ih

/-! ## Fields that agree -/

namespace Field

section
variable (name : String)

theorem agree_self {f : Field} (h : ∀ e ∈ f, ∃ j, e.2.toJson = .ok j) : EntriesAgree f f :=
  List.forall₂_same.2 fun e he => ⟨rfl, agree_refl (h e he).choose_spec⟩

@[simp] theorem agree_nil : EntriesAgree [] [] := .nil

@[simp] theorem agree_text (s : String) : EntriesAgree (text name s) (text name s) :=
  agree_self fun e he => ⟨_, by cases List.mem_singleton.1 he; rfl⟩

@[simp] theorem agree_text? (o : Option String) : EntriesAgree (text? name o) (text? name o) := by
  unfold text?
  split
  · split
    · exact .nil
    · exact agree_text name _
  · exact .nil

@[simp] theorem agree_flag (b : Bool) : EntriesAgree (flag name b) (flag name b) := by
  cases b with
  | false => exact .nil
  | true => exact agree_self fun e he => ⟨_, by cases List.mem_singleton.1 he; rfl⟩

@[simp] theorem agree_int? (o : Option Int) : EntriesAgree (int? name o) (int? name o) := by
  cases o with
  | none => exact .nil
  | some n => exact agree_self fun e he => ⟨_, by cases List.mem_singleton.1 he; rfl⟩

@[simp] theorem agree_number? (o : Option Number) : EntriesAgree (number? name o) (number? name o) := by
  match o with
  | none => exact .nil
  | some (.int n) | some (.float x) => exact agree_self fun e he => ⟨_, by cases List.mem_singleton.1 he; rfl⟩

@[simp] theorem agree_texts (ss : List String) : EntriesAgree (texts name ss) (texts name ss) := by
  unfold texts
  split
  · exact .nil
  · exact .cons ⟨rfl, agree_list_texts ss⟩ .nil

theorem agree_free {v : Value} (h : v.isJson = true) : EntriesAgree (free name v) (free name v) := by
  unfold free
  split
  · exact .nil
  · exact .cons ⟨rfl, agree_refl (Value.toJson_ok v h).choose_spec⟩ .nil

theorem agree_frees {vs : List Value} (h : ∀ v ∈ vs, v.isJson = true) :
    EntriesAgree (frees name vs) (frees name vs) := by
  unfold frees
  split
  · exact .nil
  · refine .cons ⟨rfl, agree_list (List.forall₂_same.2 fun n hn => ?_)⟩ .nil
    obtain ⟨v, hv, rfl⟩ := List.mem_map.1 hn
    exact agree_refl (Value.toJson_ok v (h v hv)).choose_spec

theorem agree_single {m n : Node} (h : Agree m n) : EntriesAgree [(name, m)] [(name, n)] :=
  .cons ⟨rfl, h⟩ .nil

theorem agree_node? {o p : Option Node} (h : Option.Rel Agree o p) :
    EntriesAgree (node? name o) (node? name p) := by
  cases h with
  | none => exact .nil
  | some h => exact agree_single name h

theorem agree_nodes {ns ms : List Node} (h : List.Forall₂ Agree ns ms) :
    EntriesAgree (nodes name ns) (nodes name ms) := by
  cases h with
  | nil => exact .nil
  | cons h hs => exact agree_single name (agree_list (.cons h hs))

theorem agree_named {ns ms : List (String × Node)} (h : EntriesAgree ns ms) :
    EntriesAgree (named name ns) (named name ms) := by
  cases h with
  | nil => exact .nil
  | cons h hs => exact agree_single name (agree_plain (.cons h hs))

end

end Field

/-! ## Entries in another order -/

theorem upsert_fresh {own acc : List (String × Json)} {k : String} (h : ∀ e ∈ own, e.1 ≠ k) (j : Json) :
    upsert (· == ·) k j (own ++ acc) = own ++ upsert (· == ·) k j acc := by
  induction own with
  | nil => rfl
  | cons e own ih =>
    rw [List.forall_mem_cons] at h
    rw [List.cons_append, upsert, if_neg (by simpa using h.1), ih h.2, List.cons_append]

/-- Extensions that have no name of an entry come after the entries. -/
theorem inline_fresh {own extra : List (String × Json)} (h : ∀ x ∈ extra, ∀ e ∈ own, e.1 ≠ x.1)
    (acc : List (String × Json)) : inline (own ++ acc) extra = own ++ inline acc extra := by
  induction extra generalizing acc with
  | nil => rfl
  | cons x extra ih =>
    rw [List.forall_mem_cons] at h
    calc inline (own ++ acc) (x :: extra)
        = inline (upsert (· == ·) x.1 x.2 (own ++ acc)) extra := rfl
      _ = inline (own ++ upsert (· == ·) x.1 x.2 acc) extra := by rw [upsert_fresh h.1]
      _ = own ++ inline acc (x :: extra) := ih h.2 _

/-- Texts in front of an object come first in what is written down for it. -/
theorem toJson_headed (head : List (String × String)) {es : List (String × Node)} {ms : List (String × Json)}
    {xs : Extensions} {extra : List (String × Json)} (hms : entriesToJson es = .ok ms)
    (he : extensionMembers xs = .ok extra) (hfresh : ∀ x ∈ xs, ∀ e ∈ head, e.1 ≠ x.1) :
    (Node.object (head.map (fun e => (e.1, .text e.2)) ++ es) xs).toJson =
      .ok (.object (head.map (fun e => (e.1, .text e.2)) ++ inline ms extra)) := by
  have hown : entriesToJson (head.map (fun e => (e.1, .text e.2)) ++ es) =
      .ok (head.map (fun e => (e.1, .text e.2)) ++ ms) := by
    clear hfresh
    induction head with
    | nil => exact hms
    | cons e head ih => exact entriesToJson_cons.2 ⟨.text e.2, _, rfl, ih, rfl⟩
  have hnew : ∀ x ∈ extra, ∀ e ∈ head.map (fun e => (e.1, Json.text e.2)), e.1 ≠ x.1 := by
    intro x hx
    have hx' : x.1 ∈ xs.map Prod.fst := keys_extensionMembers he ▸ List.mem_map_of_mem hx
    obtain ⟨y, hy, hyx⟩ := List.mem_map.1 hx'
    exact List.forall_mem_map.2 fun e hmem => hyx ▸ hfresh y hy e hmem
  rw [toJson, hown, he, ← inline_fresh hnew]
  rfl

/-- Entries in another order are written down in another order. -/
theorem entriesToJson_perm {es fs : List (String × Node)} (hp : es.Perm fs) :
    ∀ {ms}, entriesToJson es = .ok ms → ∃ ns, entriesToJson fs = .ok ns ∧ ms.Perm ns := by
  induction hp with
  | nil => exact fun h => ⟨_, h, .refl _⟩
  | cons e _ ih =>
    intro ms h
    obtain ⟨j, rest, hj, hrest, rfl⟩ := entriesToJson_cons.1 h
    obtain ⟨ns, hns, hperm⟩ := ih hrest
    exact ⟨_, entriesToJson_cons.2 ⟨j, ns, hj, hns, rfl⟩, hperm.cons _⟩
  | swap d e es =>
    intro ms h
    obtain ⟨i, _, hi, htail, rfl⟩ := entriesToJson_cons.1 h
    obtain ⟨j, rest, hj, hrest, rfl⟩ := entriesToJson_cons.1 htail
    exact ⟨_, entriesToJson_cons.2 ⟨j, _, hj, entriesToJson_cons.2 ⟨i, rest, hi, hrest, rfl⟩, rfl⟩,
      .swap _ _ _⟩
  | trans _ _ ih ih' =>
    intro ms h
    obtain ⟨ns, hns, hp⟩ := ih h
    obtain ⟨os, hos, hp'⟩ := ih' hns
    exact ⟨os, hos, hp.trans hp'⟩

/-- Entries that agree once the first ones are put in another order. -/
def EntriesMatch (es gs : List (String × Node)) : Prop := ∃ fs, es.Perm fs ∧ EntriesAgree fs gs

theorem EntriesMatch.append {a b c d : List (String × Node)} (h : EntriesAgree a b)
    (h' : EntriesMatch c d) : EntriesMatch (a ++ c) (b ++ d) := by
  obtain ⟨fs, hp, hfs⟩ := h'
  exact ⟨a ++ fs, hp.append_left a, List.rel_append h hfs⟩

/-- Two fields may stand in front, or behind in the other order. -/
theorem EntriesMatch.behind {x x' y y' b b' : List (String × Node)} (hx : EntriesAgree x x')
    (hy : EntriesAgree y y') (hb : EntriesAgree b b') :
    EntriesMatch (x ++ (y ++ b)) (b' ++ (y' ++ x')) := by
  have hturn : ((y ++ b) ++ x).Perm ((b ++ y) ++ x) := List.perm_append_comm.append_right x
  refine ⟨b ++ (y ++ x), ?_, List.rel_append hb (List.rel_append hy hx)⟩
  rw [← List.append_assoc b]
  exact List.perm_append_comm.trans hturn

theorem EntriesAgree.keys {es fs : List (String × Node)} (h : EntriesAgree es fs) :
    es.map Prod.fst = fs.map Prod.fst := by
  induction h with
  | nil => rfl
  | cons hde _ ih => simp [hde.1, ih]

/-- Objects agree if their entries match, where no entry looks like an extension. -/
theorem agree_match {es gs : List (String × Node)} {xs : Extensions} (h : EntriesMatch es gs)
    (hx : ∀ x ∈ xs, x.2.isJson = true) (hfresh : ∀ x ∈ xs, ∀ e ∈ gs, e.1 ≠ x.1) :
    Agree (.object es xs) (.object gs xs) := by
  obtain ⟨fs, hp, hfs⟩ := h
  obtain ⟨ms, ns, hms, hns, hmn⟩ := entriesToJson_agree hfs
  obtain ⟨os, hos, hperm⟩ := entriesToJson_perm hp.symm hms
  obtain ⟨extra, he⟩ := extensionMembers_ok hx
  have hnew : ∀ x ∈ extra, ∀ e ∈ ms, e.1 ≠ x.1 := by
    intro x hx e he' heq
    have hx' : x.1 ∈ xs.map Prod.fst := keys_extensionMembers he ▸ List.mem_map_of_mem hx
    have he' : e.1 ∈ gs.map Prod.fst :=
      hfs.keys ▸ keys_entriesToJson hms ▸ List.mem_map_of_mem he'
    obtain ⟨y, hy, hyx⟩ := List.mem_map.1 hx'
    obtain ⟨d, hd, hde⟩ := List.mem_map.1 he'
    exact hfresh y hy d hd (by rw [hde, hyx, heq])
  have hnew' : ∀ x ∈ extra, ∀ e ∈ os, e.1 ≠ x.1 := fun x hx e he => hnew x hx e (hperm.mem_iff.2 he)
  refine ⟨.object (inline os extra), .object (inline ns extra), by rw [toJson, hos, he]; rfl,
    by rw [toJson, hns, he]; rfl, (hmn.inline extra).object ?_⟩
  rw [← os.append_nil, ← ms.append_nil, inline_fresh hnew', inline_fresh hnew]
  exact hperm.symm.append_right _

end Node
end ApiProjection
