import ApiProjection.Proofs.Visit.Written
/-!
# No place is visited twice

Two visits of one projection have different places, and so different texts of their pointers
(`Api.texts_nodup`). Each part of a node has a key of its own, and within a map
or a list each entry has one; that the keys of a map are distinct is `Subject.Keyed`.
-/
namespace ApiProjection

open Visit (gather below each newer)

namespace Visit

/-- Whether visits have places of their own, provided that no map has a key twice. -/
def Distinct (vs : List Visit) : Prop := (∀ v ∈ vs, v.subject.Keyed) → (vs.map place).Nodup

theorem distinct_nil : Distinct [] := fun _ => List.nodup_nil

theorem distinct_gather {parts : List (String × List Visit)} (hk : DistinctKeys parts)
    (h : ∀ b ∈ parts, Distinct b.2) : Distinct (gather parts) := by
  intro hs
  have hplaces : (gather parts).map place = parts.flatMap fun b => b.2.map fun v => b.1 :: v.place := by
    simp [gather, List.map_flatMap, under, Function.comp_def]
  rw [hplaces, List.nodup_flatMap]
  constructor
  · intro b hb
    have hn := h b hb (forall_gather.1 hs b hb)
    simpa [Function.comp_def] using hn.map (f := (b.1 :: ·)) fun _ _ hxy => List.tail_eq_of_cons_eq hxy
  · refine List.Pairwise.imp ?_ (List.pairwise_map.1 hk)
    intro b c hbc
    simp only [Function.onFun, List.disjoint_left, List.mem_map, not_exists, not_and]
    rintro _ ⟨v, _, rfl⟩ w _ hw
    exact hbc (List.head_eq_of_cons_eq hw).symm

/-- A node itself is at no place of its parts. -/
theorem distinct_whole {u : Subject} {parts : List (String × List Visit)}
    (h : u.Keyed → DistinctKeys parts ∧ ∀ b ∈ parts, Distinct b.2) : Distinct (⟨[], u⟩ :: gather parts) := by
  intro hs
  rw [List.forall_mem_cons] at hs
  obtain ⟨hk, hp⟩ := h hs.1
  rw [List.map_cons, List.nodup_cons]
  refine ⟨?_, distinct_gather hk hp hs.2⟩
  intro hm
  obtain ⟨v, hv, he⟩ := List.mem_map.1 hm
  obtain ⟨b, _, hv⟩ := List.mem_flatMap.1 hv
  obtain ⟨w, _, rfl⟩ := List.mem_map.1 hv
  cases he

theorem distinct_node {u : Subject} {ref : Option String} {parts : List (String × List Visit)}
    (h : u.Keyed → DistinctKeys parts ∧ ∀ b ∈ parts, Distinct b.2) :
    Distinct (⟨[], u⟩ :: below ref parts) := by
  unfold below
  split
  · exact fun _ => List.nodup_singleton _
  · exact distinct_whole h

section
variable {α : Type} {g : α → List Visit}

theorem distinct_each {xs : List (String × α)} (h : ∀ x ∈ xs, Distinct (g x.2)) :
    ∀ b ∈ each g xs, Distinct b.2 := List.forall_mem_map.2 h

theorem distinct_named {xs : List (String × α)} (hk : DistinctKeys xs) (h : ∀ x ∈ xs, Distinct (g x.2)) :
    Distinct (gather (each g xs)) :=
  distinct_gather (by simpa [DistinctKeys, each, Function.comp_def] using hk) (distinct_each h)

theorem distinct_items {xs : List α} (h : ∀ x ∈ xs, Distinct (g x)) : Distinct (gather (items g 0 xs)) := by
  refine distinct_gather ?_ (List.forall_mem_map.2 fun e he => h e.1 (List.fst_mem_of_mem_zipIdx he))
  have hp := distinctKeys_positioned 0 xs
  simpa [DistinctKeys, positioned, items, Function.comp_def] using hp

theorem distinct_option {o : Option α} (h : ∀ x ∈ o, Distinct (g x)) : Distinct (option g o) := by
  cases o with
  | none => exact distinct_nil
  | some x => simpa [option] using h x rfl

theorem distinct_newer (t : Target) {vs : List Visit} (h : Distinct vs) : Distinct (newer t vs) := by
  cases t with
  | v30 => exact distinct_nil
  | v31 => exact h

end
end Visit

open Visit (Distinct distinct_gather distinct_whole distinct_node distinct_each distinct_named distinct_items
  distinct_option distinct_newer)

section
variable (t : Target)

/-! ## Single nodes -/

theorem Schema.distinct (s : Schema) : Distinct (s.visits t) := by
  induction s using Schema.ind with
  | step s ih =>
    rw [Schema.visits_eq]
    refine distinct_node fun hk => ⟨by simp [DistinctKeys, Schema.parts], ?_⟩
    obtain ⟨hproperties, hpattern⟩ := hk
    have hadditional : Distinct (Visit.option (Schema.visits t) (s.additional.bind Additional.schema)) := by
      refine distinct_option fun c hc => ?_
      obtain ⟨a, ha, hc⟩ := Option.bind_eq_some_iff.1 hc
      exact ih.additional a ha c hc
    simp only [Schema.parts, List.forall_mem_cons]
    exact ⟨distinct_option ih.items, distinct_named hproperties ih.properties, hadditional,
      distinct_newer t (distinct_named hpattern ih.patternProperties),
      distinct_newer t (distinct_option ih.unevaluated), distinct_items ih.allOf, distinct_items ih.anyOf,
      distinct_items ih.oneOf, distinct_option ih.notOf, by simp⟩

theorem ServerVariable.distinct (v : ServerVariable) : Distinct v.visits :=
  fun _ => List.nodup_singleton _

theorem Server.distinct (s : Server) : Distinct s.visits := by
  refine distinct_whole fun hk => ⟨by simp [DistinctKeys], ?_⟩
  rw [List.forall_mem_singleton]
  exact distinct_named hk fun x _ => ServerVariable.distinct x.2

theorem Header.distinct_steps :
    Header.Steps (fun h => Distinct (h.visits t)) (fun m => Distinct (m.visits t))
      fun e => Distinct (e.visits t) where
  header h hc := by
    rw [Header.visits_eq]
    refine distinct_node fun hk => ⟨by simp [DistinctKeys], ?_⟩
    simp only [List.forall_mem_cons]
    exact ⟨distinct_option fun s _ => Schema.distinct t s, distinct_named hk hc, by simp⟩
  mediaType m he := by
    rw [MediaType.visits_eq]
    refine distinct_whole fun hk => ⟨by simp [DistinctKeys], ?_⟩
    simp only [List.forall_mem_cons]
    exact ⟨distinct_named hk he, distinct_option fun s _ => Schema.distinct t s, by simp⟩
  encoding e hh := by
    rw [Encoding.visits_eq]
    refine distinct_whole fun hk => ⟨by simp [DistinctKeys], ?_⟩
    rw [List.forall_mem_singleton]
    exact distinct_named hk hh

theorem Header.distinct (h : Header) : Distinct (h.visits t) := (Header.ind (Header.distinct_steps t)).1 h

theorem MediaType.distinct (m : MediaType) : Distinct (m.visits t) :=
  (Header.ind (Header.distinct_steps t)).2.1 m

theorem Parameter.distinct (x : Parameter) : Distinct (x.visits t) := by
  refine distinct_node fun hk => ⟨by simp [DistinctKeys], ?_⟩
  simp only [List.forall_mem_cons]
  exact ⟨distinct_option fun s _ => Schema.distinct t s,
    distinct_named hk fun m _ => MediaType.distinct t m.2, by simp⟩

theorem RequestBody.distinct (b : RequestBody) : Distinct (b.visits t) := by
  refine distinct_node fun hk => ⟨by simp [DistinctKeys], ?_⟩
  rw [List.forall_mem_singleton]
  exact distinct_named hk fun m _ => MediaType.distinct t m.2

theorem Link.distinct (l : Link) : Distinct l.visits := by
  refine distinct_node fun _ => ⟨by simp [DistinctKeys], ?_⟩
  rw [List.forall_mem_singleton]
  exact distinct_option fun s _ => Server.distinct s

theorem Response.distinct (r : Response) : Distinct (r.visits t) := by
  refine distinct_node fun hk => ⟨by simp [DistinctKeys], ?_⟩
  obtain ⟨hlinks, hheaders, hcontent⟩ := hk
  simp only [List.forall_mem_cons]
  exact ⟨distinct_named hlinks fun l _ => Link.distinct l.2,
    distinct_named hheaders fun x _ => Header.distinct t x.2,
    distinct_named hcontent fun m _ => MediaType.distinct t m.2, by simp⟩

/-! ## Operations -/

theorem Operation.distinct_steps :
    Operation.Steps (fun o => Distinct (o.visits t)) (fun i => Distinct (i.visits t))
      fun c => Distinct (c.visits t) where
  operation o hc := by
    rw [Operation.visits_eq]
    refine distinct_whole fun hk => ⟨by simp [DistinctKeys], ?_⟩
    obtain ⟨hresponses, hcallbacks⟩ := hk
    simp only [List.forall_mem_cons]
    exact ⟨distinct_items fun x _ => Parameter.distinct t x,
      distinct_option fun b _ => RequestBody.distinct t b,
      distinct_named hresponses fun r _ => Response.distinct t r.2, distinct_named hcallbacks hc,
      distinct_items fun s _ => Server.distinct s, by simp⟩
  pathItem i ho := by
    rw [PathItem.visits_eq]
    refine distinct_node fun hk => ⟨?_, ?_⟩
    · have hn := Method.distinctKeys_name hk
      refine List.nodup_cons.2 ⟨?_, by simpa [DistinctKeys, each, Function.comp_def] using hn⟩
      intro hm
      obtain ⟨b, hb, he⟩ := List.mem_map.1 hm
      simp only [each, List.map_map, List.mem_map] at hb
      obtain ⟨o, _, rfl⟩ := hb
      exact o.1.name_fresh.2.2.2 he
    · rw [List.forall_mem_cons]
      exact ⟨distinct_items fun x _ => Parameter.distinct t x, distinct_each (List.forall_mem_map.2 ho)⟩
  callback c hi := by
    rw [Callback.visits_eq]
    refine distinct_node fun hk => ⟨?_, distinct_each hi⟩
    have hk : DistinctKeys c.pathItems := hk
    simpa [DistinctKeys, each, Function.comp_def] using hk

theorem PathItem.distinct (i : PathItem) : Distinct (i.visits t) :=
  (Operation.ind (Operation.distinct_steps t)).2.1 i

theorem Callback.distinct (c : Callback) : Distinct (c.visits t) :=
  (Operation.ind (Operation.distinct_steps t)).2.2 c

/-! ## The whole -/

theorem Components.distinct (c : Components) (hk : c.Keyed) : Distinct (c.visits t) := by
  refine distinct_gather (by simp [DistinctKeys]) ?_
  simp only [List.forall_mem_cons]
  exact ⟨distinct_newer t (distinct_named hk.pathItems fun x _ => PathItem.distinct t x.2),
    distinct_named hk.schemas fun x _ => Schema.distinct t x.2,
    distinct_named hk.responses fun x _ => Response.distinct t x.2,
    distinct_named hk.parameters fun x _ => Parameter.distinct t x.2,
    distinct_named hk.requestBodies fun x _ => RequestBody.distinct t x.2,
    distinct_named hk.headers fun x _ => Header.distinct t x.2,
    distinct_named hk.links fun x _ => Link.distinct x.2,
    distinct_named hk.callbacks fun x _ => Callback.distinct t x.2, by simp⟩

theorem Api.distinct (a : Api) (hk : a.Keyed t) : Distinct (a.visits t) := by
  refine distinct_gather (by simp [DistinctKeys]) ?_
  simp only [List.forall_mem_cons]
  exact ⟨distinct_items fun s _ => Server.distinct s,
    distinct_named hk.paths fun x _ => PathItem.distinct t x.2,
    distinct_option fun c hc => Components.distinct t c (hk.components c hc),
    distinct_newer t (distinct_named hk.webhooks fun x _ => PathItem.distinct t x.2), by simp⟩

/-- **Visited nodes have pointers of their own.** -/
theorem Api.texts_nodup (a : Api) (hk : a.Keyed t) : ((a.visits t).map fun v => v.pointer.text).Nodup := by
  have hn := a.distinct t hk hk.visits
  simpa [Function.comp_def, Visit.pointer] using
    hn.map (f := fun place => (Pointer.root.descend place).text) fun _ _ => Pointer.descend_text_inj.1

end
end ApiProjection
