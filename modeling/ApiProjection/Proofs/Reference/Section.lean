import ApiProjection.Proofs.Visit.Written
/-!
# Reusable parts by section and name

The reusable parts of a document stand in sections, each with the parts of one kind by their names.
`Components.sections` lists what is written in them, `Components.names` only the names, and
`Api.follow_component` finds a name of a section in the JSON of the document exactly if it is listed there.
-/
namespace ApiProjection

open Node (Field)

namespace Components

/-- What is written in each section. -/
def sections (t : Target) (c : Components) : List (String × List (String × Node)) :=
  let s := (c.shared t).value
  [("schemas", s.schemas), ("responses", s.responses), ("parameters", s.parameters),
    ("examples", c.examples.map fun (k, e) => (k, e.project t)),
    ("requestBodies", s.requestBodies), ("headers", s.headers),
    ("securitySchemes", (c.schemes t).map fun (k, s) => (k, s.project t)),
    ("links", s.links), ("callbacks", s.callbacks),
    ("pathItems",
      if t.isFeatureRich then (Traced.named (PathItem.project t) (place.key "pathItems") c.pathItems).value
      else [])]

/-- The names of the sections. -/
def sectionNames : List String := ["schemas", "responses", "parameters", "examples", "requestBodies",
  "headers", "securitySchemes", "links", "callbacks", "pathItems"]

theorem sectionNames_plain : ∀ s ∈ sectionNames, "x-".isPrefixOf s = false := by
  simp only [Node.isPrefixOf_eq_false]
  decide

theorem keys_sections (t : Target) (c : Components) : (c.sections t).map Prod.fst = sectionNames := rfl

theorem written_sections (t : Target) (c : Components) :
    c.written t = .extended t ((c.sections t).map fun s => .named s.1 s.2) c.extensions := by
  rw [written_eq, node]
  rfl

/-- The names of the reusable parts that are written in a version, by section. -/
def names (t : Target) (c : Components) : List (String × List String) := [
  ("schemas", c.schemas.map Prod.fst), ("responses", c.responses.map Prod.fst),
  ("parameters", c.parameters.map Prod.fst), ("examples", c.examples.map Prod.fst),
  ("requestBodies", c.requestBodies.map Prod.fst), ("headers", c.headers.map Prod.fst),
  ("securitySchemes", (c.schemes t).map Prod.fst), ("links", c.links.map Prod.fst),
  ("callbacks", c.callbacks.map Prod.fst),
  ("pathItems", if t.isFeatureRich then c.pathItems.map Prod.fst else [])]

theorem names_sections (t : Target) (c : Components) :
    ((c.sections t).map fun s => (s.1, s.2.map Prod.fst)) = c.names t := by
  cases t <;>
    simp [sections, names, shared, Traced.value_named, Header.projectNamed_eq, Callback.projectNamed_eq,
      Target.isFeatureRich, Function.comp_def]

/-- A name is found in a section exactly if it is among the names of that section. -/
theorem isSome_section (t : Target) (c : Components) (s n : String) :
    (((c.sections t).lookup s).bind fun es => es.lookup n).isSome = true ↔
      ∃ ns, (s, ns) ∈ c.names t ∧ n ∈ ns := by
  have hkeys : DistinctKeys (c.sections t) := by
    rw [DistinctKeys, keys_sections]
    decide
  rw [← names_sections, Option.isSome_iff_exists]
  constructor
  · rintro ⟨m, hm⟩
    obtain ⟨es, hes, hm⟩ := Option.bind_eq_some_iff.1 hm
    exact ⟨es.map Prod.fst, List.mem_map_of_mem (Visit.mem_of_lookup hes),
      List.mem_map_of_mem (Visit.mem_of_lookup hm)⟩
  · rintro ⟨ns, hs, hn⟩
    obtain ⟨⟨_, es⟩, hmem, hpair⟩ := List.mem_map.1 hs
    cases hpair
    obtain ⟨e, he, rfl⟩ := List.mem_map.1 hn
    obtain ⟨m, hm⟩ := Option.isSome_iff_exists.1 (List.lookup_isSome_iff.2 ⟨e, he, beq_self_eq_true e.1⟩)
    refine ⟨m, ?_⟩
    rw [Visit.lookup_of_mem hkeys hmem]
    exact hm

/-- An object of sections has those that are not empty. -/
theorem lookup_sections {ss : List (String × List (String × Node))} (hk : DistinctKeys ss) (s : String) :
    (ss.map fun s => Field.named s.1 s.2).flatten.lookup s =
      (ss.lookup s).bind fun es => if es = [] then none else some (.object es []) := by
  induction ss with
  | nil => rfl
  | cons x ss ih =>
    obtain ⟨name, es⟩ := x
    obtain ⟨hname, hk⟩ := List.nodup_cons.1 hk
    rw [List.map_cons, List.flatten_cons, List.lookup_append, Field.lookup_named, ih hk, List.lookup_cons]
    by_cases hs : s = name
    · have hnone : ss.lookup s = none := by
        rw [List.lookup_eq_none_iff]
        intro x hx
        rw [bne_iff_ne, hs]
        exact fun hnx => hname (List.mem_map.2 ⟨x, hx, hnx.symm⟩)
      by_cases he : es = [] <;> simp [hs, he, hs ▸ hnone]
    · simp [hs, beq_eq_false_iff_ne.2 hs]

/-- A name of a section leads to what is listed there. -/
theorem follow_sections (t : Target) (c : Components) {s : String} (hs : s ∈ sectionNames) (n : String) :
    (c.written t).follow? [s, n] = ((c.sections t).lookup s).bind fun es => es.lookup n := by
  have hkeys : DistinctKeys (c.sections t) := by
    rw [DistinctKeys, keys_sections]
    decide
  rw [written_sections, Node.follow?, Node.child_extended (sectionNames_plain s hs), lookup_sections hkeys,
    Option.bind_assoc]
  refine Option.bind_congr fun es _ => ?_
  by_cases he : es = []
  · rw [if_pos he, he]
    rfl
  · rw [if_neg he, Option.bind_some, Node.follow?]
    simp [Node.child?, Node.follow?]

/-- A name of a section is found in the JSON of the reusable parts exactly if it is listed there. -/
theorem follow_section {t : Target} {c : Components} {j : Json} (hj : (c.written t).toJson = .ok j)
    {s : String} (hs : s ∈ sectionNames) (n : String) :
    (j.follow? [s, n]).isSome = (((c.sections t).lookup s).bind fun es => es.lookup n).isSome := by
  have hplain := sectionNames_plain s hs
  have hkeys : DistinctKeys (c.sections t) := by
    rw [DistinctKeys, keys_sections]
    decide
  have hlookup := lookup_sections hkeys s
  rw [written_sections] at hj
  cases hes : (c.sections t).lookup s with
  | none =>
    rw [hes] at hlookup
    have hnone := Node.toJson_child_none hj (Node.ne_allowed hplain) hlookup
    rw [Json.follow?, hnone]
    rfl
  | some es =>
    rw [hes, Option.bind_some] at hlookup
    rw [Option.bind_some]
    by_cases he : es = []
    · rw [if_pos he] at hlookup
      have hnone := Node.toJson_child_none hj (Node.ne_allowed hplain) hlookup
      rw [Json.follow?, hnone, he]
      rfl
    · rw [if_neg he] at hlookup
      have hchild := (Node.child_extended (t := t) hplain _ c.extensions).trans hlookup
      obtain ⟨i, hi, hsi⟩ := Node.toJson_child hj hchild
      rw [Json.follow?, hsi, Option.bind_some, Json.follow?]
      cases hn : es.lookup n with
      | none => rw [Node.toJson_child_none hi (by simp) hn]; rfl
      | some m =>
        obtain ⟨k, _, hk⟩ := Node.toJson_child hi (m := m) (k := n) (by simpa [Node.child?] using hn)
        rw [hk]
        rfl

end Components

namespace Api

/-- A name of a section is found in the JSON of a document exactly if it is listed in that section. -/
theorem follow_component {t : Target} {a : Api} {j : Json} (hj : (a.written t).toJson = .ok j)
    {s : String} (hs : s ∈ Components.sectionNames) (n : String) :
    (j.follow? ["components", s, n]).isSome = true ↔
      ∃ c ∈ a.components, ∃ ns, (s, ns) ∈ c.names t ∧ n ∈ ns := by
  have hchild := a.child_components t
  cases hc : a.components with
  | none =>
    have hplain := Node.partNames_plain "components" (by decide)
    obtain ⟨fields, hw⟩ : ∃ fields, a.written t = .extended t fields a.extensions := by
      cases t <;> exact ⟨_, rfl⟩
    rw [hc, Option.map_none, hw, Node.child_extended hplain] at hchild
    rw [hw] at hj
    rw [Json.follow?, Node.toJson_child_none hj (Node.ne_allowed hplain) hchild]
    simp
  | some c =>
    rw [hc, Option.map_some] at hchild
    obtain ⟨i, hi, hji⟩ := Node.toJson_child hj hchild
    rw [Json.follow?, hji, Option.bind_some, Components.follow_section hi hs, Components.isSome_section]
    simp

end Api
end ApiProjection
