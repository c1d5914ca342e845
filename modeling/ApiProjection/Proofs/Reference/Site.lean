import ApiProjection.Proofs.Reference.Section
/-!
# Where references are written

Ten kinds of nodes may refer to another one. Eight of them are visited by a projection; examples are
written with the node that holds them, and security schemes with the reusable parts. `Api.sites` lists
the places of all that are references.

* `Api.follow_site`: at the place of a site the written document has the object that refers to its target,
  and nothing else.
-/
namespace ApiProjection

/-- A place of a document and what is referred to there. -/
structure Site where
  place : List String
  target : String
  deriving DecidableEq

namespace Site

/-- The site as it looks from further out. -/
def under (place : List String) (s : Site) : Site := { s with place := place ++ s.place }

/-- The named parts under a key that are references. -/
def named {α : Type} (ref : α → Option String) (key : String) (xs : List (String × α)) : List Site :=
  xs.filterMap fun x => (nonEmpty (ref x.2)).map fun target => ⟨[key, x.1], target⟩

theorem mem_named {α : Type} {ref : α → Option String} {key : String} {xs : List (String × α)} {s : Site} :
    s ∈ named ref key xs ↔ ∃ x ∈ xs, nonEmpty (ref x.2) = some s.target ∧ s.place = [key, x.1] := by
  simp only [named, List.mem_filterMap, Option.map_eq_some_iff]
  constructor
  · rintro ⟨x, hx, target, hr, rfl⟩
    exact ⟨x, hx, hr, rfl⟩
  · rintro ⟨x, hx, hr, hp⟩
    obtain ⟨place, target⟩ := s
    cases hp
    exact ⟨x, hx, target, hr, rfl⟩

end Site

/-! ## References of visited nodes -/

namespace Subject

/-- What a node refers to, if it does. -/
def ref? : Subject → Option String
  | .schema s => nonEmpty s.ref
  | .header h => nonEmpty h.ref
  | .parameter x => nonEmpty x.ref
  | .requestBody b => nonEmpty b.ref
  | .link l => nonEmpty l.ref
  | .response r => nonEmpty r.ref
  | .pathItem i => nonEmpty i.ref
  | .callback c => nonEmpty c.ref
  | .mediaType _ | .encoding _ | .serverVariable _ | .server _ | .operation _ => none

/-- The named examples that are written with a node. -/
def examples : Subject → List (String × Example)
  | .header h => if isSet h.ref then [] else h.examples
  | .mediaType m => m.examples
  | .parameter x => if isSet x.ref then [] else x.examples
  | _ => []

theorem project_ref {u : Subject} {target : String} (h : u.ref? = some target) (t : Target) (p : Pointer) :
    u.project t p = pure (.reference target) := by
  cases u with
  | schema s => exact Schema.project_ref h t p
  | header x | pathItem x | callback x =>
    cases x
    simp only [ref?] at h
    simp only [project, Header.project, PathItem.project, Callback.project, h]
  | parameter x | requestBody x | link x | response x =>
    simp only [ref?] at h
    simp only [project, Parameter.project, RequestBody.project, Link.project, Response.project, h]
  | mediaType | encoding | serverVariable | server | operation => cases h

/-- What is written for a path item is an object. -/
theorem pathItem_object (t : Target) (i : PathItem) (p : Pointer) :
    ∃ es xs, (i.project t p).value = .object es xs := by
  cases hr : nonEmpty i.ref with
  | some target =>
    have href : i.project t p = pure (.reference target) := project_ref (u := .pathItem i) hr t p
    exact ⟨_, _, congrArg Traced.value href⟩
  | none => exact ⟨_, _, i.value_project hr⟩

/-- The examples of a node are written in it by their names. -/
theorem child_examples {u : Subject} (h : u.examples ≠ []) (t : Target) (p : Pointer) :
    (u.project t p).value.child? "examples" =
      some (.object (u.examples.map fun e => (e.1, e.2.project t)) []) := by
  have hplain : "x-".isPrefixOf "examples" = false := Components.sectionNames_plain _ (by decide)
  cases u with
  | header x =>
    cases hr : nonEmpty x.ref with
    | some target => simp [Subject.examples, isSet, hr] at h
    | none =>
      have hx : x.examples ≠ [] := by simpa [Subject.examples, isSet, hr] using h
      rw [project, x.value_project hr, Node.child_extended hplain]
      simp [List.lookup_append, Example.projectAll, Subject.examples, isSet, hr, hx]
  | mediaType m =>
    have hx : m.examples ≠ [] := h
    rw [project, m.value_project, Node.child_extended hplain]
    simp [List.lookup_append, Example.projectAll, Subject.examples, hx]
  | parameter x =>
    cases hr : nonEmpty x.ref with
    | some target => simp [Subject.examples, isSet, hr] at h
    | none =>
      have hx : x.examples ≠ [] := by simpa [Subject.examples, isSet, hr] using h
      rw [project, x.value_project hr, Node.child_extended hplain]
      simp [List.lookup_append, Example.projectAll, Subject.examples, isSet, hr, hx]
  | _ => exact absurd rfl h

end Subject

/-- The references that a visited node and its examples are. -/
def Visit.sites (v : Visit) : List Site :=
  (v.subject.ref?.toList.map fun target => ⟨v.place, target⟩) ++
    (Site.named Example.ref "examples" v.subject.examples).map (Site.under v.place)

/-! ## References among the reusable parts -/

/-- The references that are written for examples and security schemes among the reusable parts. -/
def Components.sites (t : Target) (c : Components) : List Site :=
  (Site.named Example.ref "examples" c.examples ++
    Site.named SecurityScheme.ref "securitySchemes" (c.schemes t)).map (Site.under ["components"])

/-- The references of a description that are written in a version. -/
def Api.sites (t : Target) (a : Api) : List Site :=
  (a.visits t).flatMap Visit.sites ++ a.components.toList.flatMap (Components.sites t)

/-- Whether no map of examples has a key twice. -/
structure Api.ExamplesKeyed (t : Target) (a : Api) : Prop where
  visits : ∀ v ∈ a.visits t, DistinctKeys v.subject.examples
  components : ∀ c ∈ a.components, DistinctKeys c.examples

theorem Example.project_ref {e : Example} {target : String} (h : nonEmpty e.ref = some target) (t : Target) :
    e.project t = .reference target := by
  rw [Example.project, h]

theorem SecurityScheme.project_ref {s : SecurityScheme} {target : String} (h : nonEmpty s.ref = some target)
    (t : Target) : s.project t = .reference target := by
  rw [SecurityScheme.project, h]

/-- A named part is found among what is written for all of them. -/
theorem lookup_projected {α : Type} {xs : List (String × α)} (hk : DistinctKeys xs) {x : String × α} (hx : x ∈ xs)
    (f : α → Node) : (xs.map fun e => (e.1, f e.2)).lookup x.1 = some (f x.2) := by
  have hkeys : DistinctKeys (xs.map fun e => (e.1, f e.2)) := by
    simpa [DistinctKeys, Function.comp_def] using hk
  exact Visit.lookup_of_mem hkeys (e := (x.1, f x.2)) (List.mem_map_of_mem hx)

namespace Components

/-- At the place of a reference among the reusable parts there is nothing but that reference. -/
theorem follow_site {t : Target} {c : Components} (hk : c.Keyed) (he : DistinctKeys c.examples) {s : Site}
    (hs : s ∈ Site.named Example.ref "examples" c.examples ++
      Site.named SecurityScheme.ref "securitySchemes" (c.schemes t)) :
    (c.written t).follow? s.place = some (.reference s.target) := by
  rcases List.mem_append.1 hs with hs | hs
  · obtain ⟨e, hmem, hr, hp⟩ := Site.mem_named.1 hs
    rw [hp, follow_sections t c (by decide)]
    change (c.examples.map fun e => (e.1, e.2.project t)).lookup e.1 = _
    rw [lookup_projected he hmem, Example.project_ref hr]
  · obtain ⟨e, hmem, hr, hp⟩ := Site.mem_named.1 hs
    have hkeys : DistinctKeys (c.schemes t) := by
      cases t with
      | v30 => exact hk.securitySchemes.sublist (List.filter_sublist.map _)
      | v31 => exact hk.securitySchemes
    rw [hp, follow_sections t c (by decide)]
    change ((c.schemes t).map fun e => (e.1, e.2.project t)).lookup e.1 = _
    rw [lookup_projected hkeys hmem, SecurityScheme.project_ref hr]

end Components

namespace Api

/-- **A reference is nothing else.** Where a reference is written, and not hidden by an extension, there is
an object with its target and no other member. -/
theorem follow_site {t : Target} {a : Api} (hk : a.Keyed t) (he : a.ExamplesKeyed t) {s : Site}
    (hs : s ∈ a.sites t) (ho : ∀ w ∈ a.visits t, ¬w.Hides t s.place) :
    (a.written t).follow? s.place = some (.reference s.target) := by
  rcases List.mem_append.1 hs with hs | hs
  · obtain ⟨v, hv, hs⟩ := List.mem_flatMap.1 hs
    rcases List.mem_append.1 hs with hs | hs
    · obtain ⟨target, htarget, rfl⟩ := List.mem_map.1 hs
      have hr : v.subject.ref? = some target := Option.mem_toList.1 htarget
      rw [a.shows t hk hk.visits v hv ho, Subject.project_ref hr]
      rfl
    · obtain ⟨s, hmem, rfl⟩ := List.mem_map.1 hs
      obtain ⟨e, hmem, hr, hp⟩ := Site.mem_named.1 hmem
      have hopen : ∀ w ∈ a.visits t, ¬w.Hides t v.place := fun w hw ⟨k, hk, hpre⟩ =>
        ho w hw ⟨k, hk, hpre.trans (List.prefix_append _ _)⟩
      have hne : v.subject.examples ≠ [] := List.ne_nil_of_mem hmem
      rw [Site.under, Node.follow?_append, a.shows t hk hk.visits v hv hopen, Option.bind_some, hp,
        Node.follow?, Subject.child_examples hne, Option.bind_some, Node.follow?]
      change ((v.subject.examples.map fun e => (e.1, e.2.project t)).lookup e.1).bind _ = _
      rw [lookup_projected (he.visits v hv) hmem, Example.project_ref hr]
      rfl
  · obtain ⟨c, hc, hs⟩ := List.mem_flatMap.1 hs
    have hc : a.components = some c := Option.mem_toList.1 hc
    obtain ⟨s, hmem, rfl⟩ := List.mem_map.1 hs
    have hchild := a.child_components t
    rw [hc] at hchild
    rw [Site.under, Node.follow?_append, Node.follow?, hchild, Option.map_some, Option.bind_some]
    exact Components.follow_site (hk.components c hc) (he.components c hc) hmem

end Api
end ApiProjection
