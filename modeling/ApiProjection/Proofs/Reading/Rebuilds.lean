import ApiProjection.Api.Dump
import ApiProjection.Proofs.Reading.Lasting
import ApiProjection.Proofs.Reading.Respects
/-!
# Readers and dumps

What is read of JSON is dumped as JSON again. A reader and a dump fit together (`Rebuilds`) if everything that
is read can be dumped, and just what lasts is read again of its dump. The fields of a record do so together
(`Dumps`) if each does: the members that a field is dumped as are read by that field alone, for spellings of
different fields are different. Both are said of values up to a size, for the induction over recursive records.
-/
namespace ApiProjection

open Record

/-! ## Free-form values -/

namespace Json

mutual
/-- A value that came as JSON becomes JSON again, and the same if all its numbers have a value. -/
theorem toJson_toValue : ∀ {j : Json}, j.Keyed →
    ∃ j', j.toValue.toJson = .ok j' ∧ (j'.toValue = j.toValue ↔ j.toValue.Finite)
  | .null, _ => ⟨.null, rfl, by simp [toValue, Value.Finite, Scalar.Finite]⟩
  | .bool b, _ => ⟨.bool b, rfl, by simp [toValue, Value.Finite, Scalar.Finite]⟩
  | .int n, _ => ⟨.int n, rfl, by simp [toValue, Value.Finite, Scalar.Finite]⟩
  | .text s, _ => ⟨.text s, rfl, by simp [toValue, Value.Finite, Scalar.Finite]⟩
  | .float x, _ => by
    refine ⟨if x.isFinite then .float x else .null, rfl, ?_⟩
    cases hx : x.isFinite <;> simp [toValue, Value.Finite, Scalar.Finite, hx]
  | .list xs, hk => by
    obtain ⟨ys, hys, hfinite⟩ := toJson_items hk
    refine ⟨.list ys, by simp only [toValue, Value.toJson, hys]; rfl, ?_⟩
    simp only [toValue, Value.list.injEq, Value.Finite, hfinite]
  | .object ms, hk => by
    obtain ⟨ns, hns, hkeys, hfinite⟩ := toJson_members hk.2
    have hdistinct : DistinctKeys ns := by rw [DistinctKeys, hkeys]; exact hk.1
    refine ⟨.object ns, ?_, ?_⟩
    · simp only [toValue, Value.toJson, hns]
      exact congrArg (fun ns => Except.ok (Json.object ns)) (collapse_of_distinct hdistinct)
    · simp only [toValue, Value.map.injEq, Value.Finite, hfinite]

theorem toJson_items : ∀ {xs : List Json}, KeyedItems xs →
    ∃ ys, Value.listToJson (listToValues xs) = .ok ys ∧
      (listToValues ys = listToValues xs ↔ FiniteItems (listToValues xs))
  | [], _ => ⟨[], rfl, by simp [listToValues, FiniteItems]⟩
  | x :: xs, hk => by
    obtain ⟨y, hy, hfinite⟩ := toJson_toValue hk.1
    obtain ⟨ys, hys, hfinites⟩ := toJson_items hk.2
    refine ⟨y :: ys, by simp only [listToValues, Value.listToJson, hy, hys]; rfl, ?_⟩
    simp only [listToValues, List.cons.injEq, FiniteItems, hfinite, hfinites]

theorem toJson_members : ∀ {ms : List (String × Json)}, KeyedMembers ms →
    ∃ ns, Value.entriesToMembers (membersToEntries ms) = .ok ns ∧ ns.map Prod.fst = ms.map Prod.fst ∧
      (membersToEntries ns = membersToEntries ms ↔ FiniteEntries (membersToEntries ms))
  | [], _ => ⟨[], rfl, rfl, by simp [membersToEntries, FiniteEntries]⟩
  | (k, x) :: ms, hk => by
    obtain ⟨y, hy, hfinite⟩ := toJson_toValue hk.1
    obtain ⟨ns, hns, hkeys, hfinites⟩ := toJson_members hk.2
    refine ⟨(k, y) :: ns, by simp only [membersToEntries, Value.entriesToMembers, Scalar.toKey, hy, hns]; rfl,
      by simp [hkeys], ?_⟩
    simp only [membersToEntries, List.cons.injEq, Prod.mk.injEq, true_and, FiniteEntries, hfinite, hfinites]
end

end Json

/-- Objects without a name in common are one. -/
theorem Json.Keyed.append {p q : List (String × Json)} (hp : (Json.object p).Keyed) (hq : (Json.object q).Keyed)
    (h : ∀ a ∈ p, ∀ b ∈ q, a.1 ≠ b.1) : (Json.object (p ++ q)).Keyed := by
  constructor
  · rw [DistinctKeys, List.map_append, List.nodup_append]
    refine ⟨hp.1, hq.1, fun k hk l hl => ?_⟩
    obtain ⟨a, ha, rfl⟩ := List.mem_map.1 hk
    obtain ⟨b, hb, rfl⟩ := List.mem_map.1 hl
    exact h a ha b hb
  · rw [keyedMembers_iff]
    exact fun e he => (List.mem_append.1 he).elim (hp.members e) (hq.members e)

/-- The only member of an object is found under its spelling. -/
theorem Json.member?_singleton {spellings : List String} {name : String} (h : name ∈ spellings) (j : Json) :
    member? spellings [(name, j)] = some (name, j) := by
  induction spellings with
  | nil => cases h
  | cons s spellings ih =>
    rw [member?, List.findSome?_cons, List.lookup_cons]
    by_cases hs : s = name
    · subst hs
      simp
    · rw [beq_eq_false_iff_ne.2 hs]
      exact ih ((List.mem_cons.1 h).resolve_left (Ne.symm hs))

/-! ## Readers and dumps -/

namespace Record

/-- Whether all that is read of values up to a size can be dumped, with no name twice in an object, and just what
lasts is read of its dump. -/
def Rebuilds {α : Type} (n : Nat) (read : Value → Read α) (dump : α → Dumped Json) (Lasts : α → Prop) : Prop :=
  ∀ {j : Json} {a : α}, sizeOf j < n → j.Keyed → (read j.toValue).result? = some a →
    ∃ j', dump a = .ok j' ∧ j'.Keyed ∧ ((read j'.toValue).result? = some a ↔ Lasts a)

namespace Rebuilds

variable {α : Type} {n : Nat}

/-- All that is read of any value lasts. -/
theorem of_read {read : Value → Read α} (write : α → Json) (hk : ∀ a, (write a).Keyed)
    (h : ∀ a, (read (write a).toValue).result? = some a) : Rebuilds n read (fun a => .ok (write a)) fun _ => True :=
  fun {_ a} _ _ _ => ⟨write a, rfl, hk a, by simp [h]⟩

theorem text : Rebuilds n readText (fun s => .ok (.text s)) fun _ => True :=
  of_read Json.text (fun _ => trivial) fun _ => rfl

theorem bool : Rebuilds n readBool (fun b => .ok (.bool b)) fun _ => True :=
  of_read Json.bool (fun _ => trivial) fun _ => rfl

theorem int : Rebuilds n readInt (fun i => .ok (.int i)) fun _ => True :=
  of_read Json.int (fun _ => trivial) fun _ => rfl

theorem kind : Rebuilds n Kind.read (fun k => .ok (.text k.name)) fun _ => True :=
  of_read (fun k : Kind => .text k.name) (fun _ => trivial) fun k => by cases k <;> rfl

theorem number : Rebuilds n readNumber Number.dump Number.Finite := by
  intro j a _ _ _
  cases a with
  | int i => exact ⟨.int i, rfl, trivial, by simp [Number.Finite, Json.toValue, readNumber, readInt]⟩
  | float x =>
    refine ⟨if x.isFinite then .float x else .null, rfl, Value.keyed_toJson (v := .scalar (.float x)) rfl, ?_⟩
    cases hx : x.isFinite
    · simp [Number.Finite, hx, Json.toValue, readNumber, readInt, readFloat, textOrBytes?, Read.fail, Read.both,
        Read.under, Read.map]
    · simp [Number.Finite, hx, Json.toValue, readNumber]

theorem value : Rebuilds n .done Value.toJson Value.Finite := by
  intro j a _ hk h
  cases h
  obtain ⟨j', hj', hfinite⟩ := Json.toJson_toValue hk
  exact ⟨j', hj', Value.keyed_toJson hj', by simpa using hfinite⟩

theorem mapM_ok {ε β γ : Type} {f : β → Except ε γ} {bs : List β} {cs : List γ}
    (h : List.Forall₂ (fun b c => f b = .ok c) bs cs) : bs.mapM f = .ok cs := by
  induction h with
  | nil => rfl
  | cons hb _ ih =>
    rw [List.mapM_cons, hb, ih]
    rfl

theorem mapM_cons_ne_nil {ε β γ : Type} (f : β → Except ε γ) (b : β) (bs : List β) : (b :: bs).mapM f ≠ .ok [] := by
  rw [List.mapM_cons]
  cases f b with
  | error e => simp [bind, Except.bind]
  | ok c => cases bs.mapM f <;> simp [bind, Except.bind, Pure.pure, Except.pure]

theorem map_eq_ok {ε β γ : Type} {f : β → γ} {x : Except ε β} {c : γ} (h : x.map f = .ok c) :
    ∃ b, x = .ok b ∧ f b = c := by
  cases x with
  | error e => cases h
  | ok b => exact ⟨b, rfl, Except.ok.inj h⟩

/-- Each item of what is read of a list is dumped. -/
theorem items {read : Value → Read α} {dump : α → Dumped Json} {Lasts : α → Prop} (h : Rebuilds n read dump Lasts)
    {xs : List Json} (hn : sizeOf (Json.list xs) < n) (hk : (Json.list xs).Keyed) {as : List α}
    (has : List.Forall₂ (fun x a => (read x.toValue).result? = some a) xs as) :
    ∃ ys, List.Forall₂ (fun a y => dump a = .ok y) as ys ∧ (Json.list ys).Keyed ∧
      (List.Forall₂ (fun y a => (read y.toValue).result? = some a) ys as ↔ ∀ a ∈ as, Lasts a) := by
  have hsmall : ∀ x ∈ xs, sizeOf x < n ∧ x.Keyed := fun x hx =>
    ⟨Nat.lt_trans (Json.sizeOf_item hx) hn, hk.items x hx⟩
  clear hn hk
  induction has with
  | nil => exact ⟨[], .nil, trivial, by simp⟩
  | cons ha _ ih =>
    obtain ⟨hx, hxs⟩ := List.forall_mem_cons.1 hsmall
    obtain ⟨y, hy, hky, hlasts⟩ := h hx.1 hx.2 ha
    obtain ⟨ys, hys, hkys, hall⟩ := ih hxs
    exact ⟨y :: ys, .cons hy hys, ⟨hky, hkys⟩, by rw [List.forall₂_cons, List.forall_mem_cons, hlasts, hall]⟩

theorem listOf {read : Value → Read α} {dump : α → Dumped Json} {Lasts : α → Prop} (h : Rebuilds n read dump Lasts) :
    Rebuilds n (listOf read) (fun as => (Dump.each dump as).map .list) fun as => ∀ a ∈ as, Lasts a := by
  intro j as hn hk has
  cases j with
  | list xs =>
    rw [listOf_eq, Read.result?_all, List.forall₂_map_left_iff] at has
    obtain ⟨ys, hys, hkeyed, hall⟩ := h.items hn hk has
    have hdump : Dump.each dump as = .ok ys := mapM_ok hys
    refine ⟨.list ys, congrArg (Except.map Json.list) hdump, hkeyed, ?_⟩
    rw [listOf_eq, Read.result?_all, List.forall₂_map_left_iff, hall]
  | _ => cases has

/-- Each entry of what is read of a map is dumped under its key. -/
theorem entries {read : Value → Read α} {dump : α → Dumped Json} {Lasts : α → Prop} (h : Rebuilds n read dump Lasts)
    {ms : List (String × Json)} (hsmall : Json.Small n ms) {es : List (String × α)}
    (hes : List.Forall₂ (fun m e => m.1 = e.1 ∧ (read m.2.toValue).result? = some e.2) ms es) :
    ∃ ns : List (String × Json), Dump.eachNamed dump es = .ok ns ∧ ns.map Prod.fst = ms.map Prod.fst ∧
      Json.KeyedMembers ns ∧
      (List.Forall₂ (fun m e => m.1 = e.1 ∧ (read m.2.toValue).result? = some e.2) ns es ↔ ∀ e ∈ es, Lasts e.2) := by
  induction hes with
  | nil => exact ⟨[], rfl, rfl, trivial, by simp⟩
  | @cons m e ms es he _ ih =>
    obtain ⟨hm, hms⟩ := List.forall_mem_cons.1 hsmall
    obtain ⟨y, hy, hky, hlasts⟩ := h hm.1 hm.2 he.2
    obtain ⟨ns, hns, hkeys, hkns, hall⟩ := ih hms
    obtain ⟨k, a⟩ := e
    refine ⟨(k, y) :: ns, ?_, by simp [hkeys, he.1], ⟨hky, hkns⟩, ?_⟩
    · unfold Dump.eachNamed at hns ⊢
      rw [List.mapM_cons, hns]
      simp only [hy]
      rfl
    · rw [List.forall₂_cons, List.forall_mem_cons, hall]
      simp [hlasts]

theorem mapOf {read : Value → Read α} {dump : α → Dumped Json} {Lasts : α → Prop} (h : Rebuilds n read dump Lasts) :
    Rebuilds n (mapOf read) (fun es => (Dump.eachNamed dump es).map .object) fun es => ∀ e ∈ es, Lasts e.2 := by
  intro j es hn hk hes
  cases j with
  | object ms =>
    rw [mapOf_eq_some hk.1] at hes
    obtain ⟨ns, hns, hkeys, hkeyed, hall⟩ := h.entries (Json.small_of_object hk hn.le) hes
    have hdistinct : DistinctKeys ns := by rw [DistinctKeys, hkeys]; exact hk.1
    refine ⟨.object ns, congrArg (Except.map Json.object) hns, ⟨hdistinct, hkeyed⟩, ?_⟩
    rw [mapOf_eq_some hdistinct, hall]
  | _ => cases hes

/-- What may be null is dumped if it is not. -/
theorem nullable {read : Value → Read α} {dump : α → Dumped Json} {Lasts : α → Prop} (h : Rebuilds n read dump Lasts)
    (hnull : (read .null).result? = none) {j : Json} {a : α} (hn : sizeOf j < n) (hk : j.Keyed)
    (ha : (nullable read j.toValue).result? = some (some a)) :
    ∃ j', dump a = .ok j' ∧ j'.Keyed ∧ ((Record.nullable read j'.toValue).result? = some (some a) ↔ Lasts a) := by
  have hj : j ≠ .null := by
    rintro rfl
    cases ha
  rw [nullable_eq read hj, Option.map_eq_some_iff] at ha
  obtain ⟨_, ha, ⟨⟩⟩ := ha
  obtain ⟨j', hdump, hkeyed, hlasts⟩ := h hn hk ha
  refine ⟨j', hdump, hkeyed, ?_⟩
  by_cases hj' : j' = .null
  · subst hj'
    rw [← hlasts, show (Json.null).toValue = .null from rfl, hnull]
    simp [Record.nullable, orNull, Value.isNull]
  · rw [nullable_eq read hj', ← hlasts, Option.map_eq_some_iff]
    simp

end Rebuilds

/-! ## Fields -/

/-- The members that fields are dumped as. -/
def DumpsAs (fs : List DumpedField) (p : List (String × Json)) : Prop := ∃ ps, fs.mapM id = .ok ps ∧ ps.flatten = p

theorem DumpsAs.append {fs gs : List DumpedField} {p q : List (String × Json)} (hf : DumpsAs fs p) (hg : DumpsAs gs q) :
    DumpsAs (fs ++ gs) (p ++ q) := by
  obtain ⟨ps, hps, rfl⟩ := hf
  obtain ⟨qs, hqs, rfl⟩ := hg
  refine ⟨ps ++ qs, ?_, by rw [List.flatten_append]⟩
  rw [List.mapM_append, hps, hqs]
  rfl

theorem DumpsAs.pair {f g : DumpedField} {p : List (String × Json)} (h : DumpsAs [f, g] p) :
    ∃ q r, f = .ok q ∧ g = .ok r ∧ q ++ r = p := by
  obtain ⟨ps, hps, rfl⟩ := h
  cases f with
  | error e => cases hps
  | ok q =>
    cases g with
    | error e => cases hps
    | ok r => cases hps; exact ⟨q, r, rfl, rfl, by simp⟩

theorem DumpsAs.single {f : DumpedField} {p : List (String × Json)} (h : f = .ok p) : DumpsAs [f] p :=
  ⟨[p], by rw [h]; rfl, by simp⟩

theorem DumpsAs.record {fs : List DumpedField} {p : List (String × Json)} (h : DumpsAs fs p) :
    Dump.record fs = .ok (.object p) := by
  obtain ⟨ps, hps, rfl⟩ := h
  unfold Dump.record
  rw [hps]
  rfl

/-- Whether members are what some fields have dumped, as far as those fields are concerned. -/
def Holding (spellings : List (List String)) (p ns : List (String × Json)) : Prop :=
  ∀ s ∈ spellings.flatten, ns.lookup s = p.lookup s

/-- Whether fields, which make of an object what is put together from parts, are dumped part by part, and just
the parts that last are read of their dumps. -/
def Dumps {α T : Type} (n : Nat) (F : Fields Value α) (build : T → α) (dump : T → List DumpedField)
    (Lasts : T → Prop) : Prop :=
  ∃ parts : List (String × Json) → Option T, (∀ ms, F.get? ms = (parts ms).map build) ∧
    ∀ {ms : List (String × Json)} {t : T}, Json.Small n ms → parts ms = some t → F.spellings.flatten.Nodup →
      ∃ p, DumpsAs (dump t) p ∧ (Json.object p).Keyed ∧ (∀ e ∈ p, e.1 ∈ F.spellings.flatten) ∧
        ∀ ns, Holding F.spellings p ns →
          (∀ e ∈ p, ∃ ss ∈ F.spellings, ∃ j, Json.member? ss ns = some (e.1, j)) ∧ (parts ns = some t ↔ Lasts t)

namespace Dumps

variable {α β T U : Type} {n : Nat}

theorem pure (a : α) : Dumps n (Pure.pure a : Fields Value α) (fun _ : Unit => a) (fun _ => []) fun _ => True :=
  ⟨fun _ => some (), fun _ => rfl, fun {_ _} _ _ _ =>
    ⟨[], ⟨[], rfl, rfl⟩, ⟨.nil, trivial⟩, by simp, fun _ _ => by simp⟩⟩

/-- One after the other: neither reads what the other has dumped. -/
theorem seq {F : Fields Value (α → β)} {x : Fields Value α} {build : T → α → β} {build' : U → α}
    {dump : T → List DumpedField} {dump' : U → List DumpedField} {Lasts : T → Prop} {Lasts' : U → Prop}
    (hF : Dumps n F build dump Lasts) (hx : Dumps n x build' dump' Lasts') :
    Dumps n (F <*> x) (fun t : T × U => build t.1 (build' t.2)) (fun t => dump t.1 ++ dump' t.2)
      fun t => Lasts t.1 ∧ Lasts' t.2 := by
  obtain ⟨parts, hget, hback⟩ := hF
  obtain ⟨parts', hget', hback'⟩ := hx
  have hpair (ms : List (String × Json)) (t : T × U) :
      ((parts ms).bind fun t => (parts' ms).map fun u => (t, u)) = some t ↔
        parts ms = some t.1 ∧ parts' ms = some t.2 := by
    obtain ⟨t, u⟩ := t
    cases parts ms <;> cases parts' ms <;> simp
  refine ⟨fun ms => (parts ms).bind fun t => (parts' ms).map fun u => (t, u), fun ms => ?_, fun {ms t} hms ht hd => ?_⟩
  · rw [Fields.get?_seq, hget, hget']
    dsimp only
    cases parts ms <;> cases parts' ms <;> rfl
  · have hspellings : (F <*> x).spellings = F.spellings ++ x.spellings := rfl
    rw [hspellings, List.flatten_append, List.nodup_append] at hd
    obtain ⟨hd, hd', hdisjoint⟩ := hd
    obtain ⟨ht, ht'⟩ := (hpair ms t).1 ht
    obtain ⟨p, hp, hkeyed, hkeys, hread⟩ := hback hms ht hd
    obtain ⟨q, hq, hkeyed', hkeys', hread'⟩ := hback' hms ht' hd'
    have happart : ∀ e ∈ p, ∀ e' ∈ q, e.1 ≠ e'.1 := fun e he e' he' =>
      hdisjoint _ (hkeys e he) _ (hkeys' e' he')
    refine ⟨p ++ q, hp.append hq, hkeyed.append hkeyed' happart, fun e he => ?_, fun ns hns => ?_⟩
    · rw [hspellings, List.flatten_append, List.mem_append]
      exact (List.mem_append.1 he).imp (hkeys e) (hkeys' e)
    · rw [Holding, hspellings, List.flatten_append] at hns
      have hp' : Holding F.spellings p ns := fun s hs => by
        have hnone : q.lookup s = none := lookup_eq_none fun hmem => by
          obtain ⟨e, he, rfl⟩ := List.mem_map.1 hmem
          exact hdisjoint _ hs _ (hkeys' e he) rfl
        rw [hns s (List.mem_append_left _ hs), List.lookup_append, hnone, Option.or_none]
      have hq' : Holding x.spellings q ns := fun s hs => by
        have hnone : p.lookup s = none := lookup_eq_none fun hmem => by
          obtain ⟨e, he, rfl⟩ := List.mem_map.1 hmem
          exact hdisjoint _ (hkeys e he) _ hs rfl
        rw [hns s (List.mem_append_right _ hs), List.lookup_append, hnone, Option.none_or]
      obtain ⟨huse, hlasts⟩ := hread ns hp'
      obtain ⟨huse', hlasts'⟩ := hread' ns hq'
      refine ⟨fun e he => ?_, by rw [hpair, hlasts, hlasts']⟩
      rcases List.mem_append.1 he with he | he
      · obtain ⟨ss, hss, h⟩ := huse e he
        exact ⟨ss, List.mem_append_left _ hss, h⟩
      · obtain ⟨ss, hss, h⟩ := huse' e he
        exact ⟨ss, List.mem_append_right _ hss, h⟩

/-- A field that is left out where it is what stands for it then, and else is dumped under one of its spellings. -/
theorem field {x : Fields Value α} {spellings : List String} {read : Value → Read α} {absent : Option α} (name : String)
    (hs : x.spellings = [spellings])
    (hget : ∀ ms, x.get? ms = (Json.member? spellings ms).elim absent fun e => (read e.2.toValue).result?)
    (hname : name ∈ spellings) {dump : α → DumpedField} {Lasts : α → Prop}
    (hleft : ∀ a, absent = some a → dump a = .ok [] ∧ Lasts a)
    (hkept : ∀ {j : Json} {a : α}, sizeOf j < n → j.Keyed → (read j.toValue).result? = some a → absent ≠ some a →
      ∃ j', dump a = .ok [(name, j')] ∧ j'.Keyed ∧ ((read j'.toValue).result? = some a ↔ Lasts a)) :
    Dumps n x id (fun a => [dump a]) Lasts := by
  refine ⟨x.get?, fun ms => by simp, fun {ms a} hms ha _ => ?_⟩
  have hleft' (h : absent = some a) : ∃ p, DumpsAs [dump a] p ∧ (Json.object p).Keyed ∧
      (∀ e ∈ p, e.1 ∈ x.spellings.flatten) ∧ ∀ ns, Holding x.spellings p ns →
        (∀ e ∈ p, ∃ ss ∈ x.spellings, ∃ j, Json.member? ss ns = some (e.1, j)) ∧
        (x.get? ns = some a ↔ Lasts a) := by
    obtain ⟨hdump, hlasts⟩ := hleft a h
    refine ⟨[], .single hdump, ⟨.nil, trivial⟩, by simp, fun ns hns => ⟨by simp, ?_⟩⟩
    have hnone : Json.member? spellings ns = none := by
      rw [Json.member?_congr fun s hs' => hns s (by rw [hs]; simpa using hs')]
      exact List.findSome?_eq_none_iff.2 fun s _ => rfl
    rw [hget, hnone]
    exact ⟨fun _ => hlasts, fun _ => h⟩
  by_cases hdefault : absent = some a
  · exact hleft' hdefault
  rw [hget] at ha
  cases hm : Json.member? spellings ms with
  | none =>
    rw [hm] at ha
    exact absurd ha hdefault
  | some e =>
    rw [hm] at ha
    obtain ⟨hsize, hk⟩ := hms e (Json.mem_of_member? hm).2
    obtain ⟨j', hdump, hkeyed, hlasts⟩ := hkept hsize hk ha hdefault
    refine ⟨[(name, j')], .single hdump, ⟨List.nodup_singleton _, hkeyed, trivial⟩, by simpa [hs] using hname,
      fun ns hns => ?_⟩
    have hmember : Json.member? spellings ns = some (name, j') := by
      rw [Json.member?_congr fun s hs' => hns s (by rw [hs]; simpa using hs')]
      exact Json.member?_singleton hname j'
    refine ⟨by simp [hs, hmember], ?_⟩
    rw [hget, hmember]
    exact hlasts

section
variable {spellings : List String} {read : Value → Read α} {dump : α → Dumped Json} {Lasts : α → Prop} (name : String)

theorem required (hname : name ∈ spellings) (h : Rebuilds n read dump Lasts) :
    Dumps n (Fields.required spellings read) id (fun a => [Dump.unset? name dump (some a)]) Lasts := by
  refine field name rfl (Fields.get?_required spellings read) hname (by simp) fun hn hk ha _ => ?_
  obtain ⟨j', hdump, hkeyed, hlasts⟩ := h hn hk ha
  exact ⟨j', by rw [Dump.unset?, hdump]; rfl, hkeyed, hlasts⟩

theorem unset? (hname : name ∈ spellings) (h : Rebuilds n read dump Lasts) (hnull : (read .null).result? = none) :
    Dumps n (Fields.unset? spellings read) id (fun o => [Dump.unset? name dump o]) fun o => ∀ a ∈ o, Lasts a := by
  refine field name rfl (Fields.get?_optional _ _ _) hname (fun o ho => ?_) fun {j o} hn hk ho hne => ?_
  · cases ho
    exact ⟨rfl, by simp⟩
  · cases o with
    | none => exact absurd rfl hne
    | some a =>
      obtain ⟨j', hdump, hkeyed, hlasts⟩ := h.nullable hnull hn hk ho
      exact ⟨j', by rw [Dump.unset?, hdump]; rfl, hkeyed, by simpa using hlasts⟩

theorem flag (hname : name ∈ spellings) :
    Dumps n (Fields.flag spellings) id (fun b => [Dump.flag name b]) fun _ => True := by
  refine field name rfl (Fields.get?_optional _ _ _) hname (fun b hb => ?_) fun {j b} _ _ _ hne => ?_
  · cases hb
    exact ⟨rfl, trivial⟩
  · cases b with
    | false => exact absurd rfl hne
    | true => exact ⟨.bool true, rfl, trivial, by simp [Json.toValue, readBool]⟩

theorem free (hname : name ∈ spellings) :
    Dumps n (Fields.free spellings) id (fun v => [Dump.free name v]) Value.Finite := by
  refine field name rfl (Fields.get?_optional _ _ _) hname (fun v hv => ?_) fun {j v} hn hk hv hne => ?_
  · cases hv
    exact ⟨rfl, trivial⟩
  · obtain ⟨j', hdump, hkeyed, hlasts⟩ := Rebuilds.value hn hk hv
    have hnull : v.isNull = false := by
      cases hv
      cases j <;> first | rfl | exact absurd rfl hne
    exact ⟨j', by rw [Dump.free, hnull, if_neg Bool.false_ne_true, hdump]; rfl, hkeyed, hlasts⟩

theorem listed (hname : name ∈ spellings) (h : Rebuilds n read dump Lasts) :
    Dumps n (Fields.optional spellings [] (listOf read)) id (fun as => [Dump.listed name (Dump.each dump as)])
      fun as => ∀ a ∈ as, Lasts a := by
  refine field name rfl (Fields.get?_optional _ _ _) hname (fun as has => ?_) fun {j as} hn hk has hne => ?_
  · cases has
    exact ⟨rfl, by simp⟩
  · obtain ⟨j', hdump, hkeyed, hlasts⟩ := h.listOf hn hk has
    obtain ⟨ys, hys, rfl⟩ := Rebuilds.map_eq_ok hdump
    cases as with
    | nil => exact absurd rfl hne
    | cons a as =>
      cases ys with
      | nil => exact absurd hys (Rebuilds.mapM_cons_ne_nil _ a as)
      | cons y ys => exact ⟨.list (y :: ys), by rw [Dump.listed, hys]; rfl, hkeyed, hlasts⟩

theorem named (hname : name ∈ spellings) (h : Rebuilds n read dump Lasts) :
    Dumps n (Fields.optional spellings [] (mapOf read)) id (fun es => [Dump.named name (Dump.eachNamed dump es)])
      fun es => ∀ e ∈ es, Lasts e.2 := by
  refine field name rfl (Fields.get?_optional _ _ _) hname (fun es hes => ?_) fun {j es} hn hk hes hne => ?_
  · cases hes
    exact ⟨rfl, by simp⟩
  · obtain ⟨j', hdump, hkeyed, hlasts⟩ := h.mapOf hn hk hes
    obtain ⟨ns, hns, rfl⟩ := Rebuilds.map_eq_ok hdump
    cases es with
    | nil => exact absurd rfl hne
    | cons e es =>
      cases ns with
      | nil => exact absurd hns (Rebuilds.mapM_cons_ne_nil _ e es)
      | cons m ns => exact ⟨.object (m :: ns), by rw [Dump.named, hns]; rfl, hkeyed, hlasts⟩

end

end Dumps

/-- A record is read again of its dump if all its parts are. -/
theorem Rebuilds.record {α T : Type} {n : Nat} {name : String} {F : Fields Value α} {build : T → α}
    {dumps : T → List DumpedField} {LastParts : T → Prop} (h : ∀ k < n, Dumps k F build dumps LastParts)
    (hd : F.spellings.flatten.Nodup) (hbuild : Function.Injective build) {dump : α → Dumped Json} {Lasts : α → Prop}
    (hdump : ∀ t, dump (build t) = Dump.record (dumps t)) (hlasts : ∀ t, LastParts t ↔ Lasts (build t)) :
    Rebuilds n (F.readClosed name) dump Lasts := by
  intro j a hn hk ha
  cases j with
  | object ms =>
    obtain ⟨split, hget, hback⟩ := h _ hn
    have hread := ((Fields.readClosed_eq_some _ _).1 ha).2
    rw [hget, Option.map_eq_some_iff] at hread
    obtain ⟨t, ht, rfl⟩ := hread
    have hagain (ns : List (String × Json)) : F.get? ns = some (build t) ↔ split ns = some t := by
      rw [hget]
      exact (Option.map_injective hbuild).eq_iff (b := some t)
    obtain ⟨p, hp, hkeyed, -, hread⟩ := hback (Json.small_of_object hk le_rfl) ht hd
    obtain ⟨huse, hlast⟩ := hread p fun _ _ => rfl
    refine ⟨.object p, by rw [hdump, hp.record], hkeyed, ?_⟩
    rw [Fields.readClosed_eq_some, hagain, hlast, ← hlasts]
    exact ⟨And.right, fun h => ⟨huse, h⟩⟩
  | _ =>
    rw [Fields.readClosed_eq_none _ _ (by simp)] at ha
    cases ha

end Record
end ApiProjection
