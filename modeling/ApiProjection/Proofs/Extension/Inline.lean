import Mathlib
import ApiProjection.Proofs.Extension.Bearer
/-!
# Extensions beside entries

`Api.bearers` lists the nodes of a description that carry extensions, each with its place in the document.

* `Api.follow_bearer`: what is written for a node is found at its place, unless an extension of a callback
  takes the place of something on the way there.
* `Api.extensions_inlined`: at the place of a node that is no reference stand its entries with their values,
  and behind them its allowed extensions; none is lost exactly if the node is no callback with an expression
  that is the key of one of them.
-/
namespace ApiProjection

/-! ## Nodes with their places -/

/-- A node that may carry extensions, and the keys and positions that lead to it. -/
structure Held where
  place : List String
  bearer : Bearer

namespace Held

/-- The node as it looks from further out. -/
def under (place : List String) (h : Held) : Held := { h with place := place ++ h.place }

/-- A part that may be absent, under its key. -/
def option {α : Type} (key : String) (f : α → Bearer) (o : Option α) : List Held :=
  o.toList.map fun x => ⟨[key], f x⟩

/-- Named parts, under the key of their map. -/
def named {α : Type} (key : String) (f : α → Bearer) (xs : List (String × α)) : List Held :=
  xs.map fun x => ⟨[key, x.1], f x.2⟩

end Held

/-- The nodes that are written in one piece with a visited node. -/
def Subject.details : Subject → List Held
  | .operation o => Held.option "externalDocs" .docs o.externalDocs
  | u => Held.named "examples" .sample u.examples

def Visit.held (v : Visit) : List Held := ⟨v.place, .visited v.subject⟩ :: v.subject.details.map (Held.under v.place)

def Info.held (i : Info) : List Held :=
  ⟨[], .info i⟩ :: Held.option "contact" .contact i.contact ++ Held.option "license" .license i.license

def Tag.held (g : Tag) : List Held := ⟨[], .tag g⟩ :: Held.option "externalDocs" .docs g.externalDocs

def OAuthFlows.held (f : OAuthFlows) : List Held :=
  ⟨[], .flows f⟩ :: (Held.option "implicit" .flow f.implicit ++ Held.option "password" .flow f.password ++
    Held.option "clientCredentials" .flow f.clientCredentials ++
    Held.option "authorizationCode" .flow f.authorizationCode)

/-- The nodes of a security scheme. Flows are written if there is one. -/
def SecurityScheme.held (t : Target) (s : SecurityScheme) : List Held :=
  ⟨[], .scheme s⟩ :: if isSet s.ref then [] else
    (s.flows.filter fun f => (f.project? t).isSome).toList.flatMap fun f => f.held.map (Held.under ["flows"])

def Components.held (t : Target) (c : Components) : List Held :=
  ⟨[], .components c⟩ :: (Held.named "examples" .sample c.examples ++
    (c.schemes t).flatMap fun s => (s.2.held t).map (Held.under ["securitySchemes", s.1]))

/-- The nodes of a description that may carry extensions and are written in a version. -/
def Api.bearers (t : Target) (a : Api) : List Held :=
  ⟨[], .api a⟩ :: ((a.visits t).flatMap Visit.held ++ a.info.held.map (Held.under ["info"]) ++
    (positioned 0 a.tags).flatMap (fun g => g.2.held.map (Held.under ["tags", g.1])) ++
    Held.option "externalDocs" .docs a.externalDocs ++
    a.components.toList.flatMap fun c => (c.held t).map (Held.under ["components"]))

/-! ## Finding them -/

/-- Whether a node has what is written for another one at its place, wherever that is said to be. -/
def Node.Holds (t : Target) (n : Node) (h : Held) : Prop := ∀ p, n.follow? h.place = some (h.bearer.node t p)

namespace Node

variable {t : Target} {n m : Node}

theorem holds_under {place : List String} (hm : n.follow? place = some m) {hs : List Held}
    (h : ∀ x ∈ hs, m.Holds t x) : ∀ x ∈ hs.map (Held.under place), n.Holds t x := by
  rw [List.forall_mem_map]
  intro x hx p
  rw [Held.under, follow?_append, hm, Option.bind_some]
  exact h x hx p

theorem follow_child {k : String} (hm : n.child? k = some m) : n.follow? [k] = some m := by
  rw [follow?, hm]
  rfl

theorem holds_option {α : Type} {key : String} {f : α → Bearer} {o : Option α} (g : α → Node)
    (hg : ∀ x p, (f x).node t p = g x) (hc : n.child? key = o.map g) : ∀ x ∈ Held.option key f o, n.Holds t x := by
  cases o with
  | none => simp [Held.option]
  | some y =>
    rw [Held.option, Option.toList_some, List.map_singleton, List.forall_mem_singleton]
    intro p
    rw [follow_child hc, hg]

theorem holds_named {α : Type} {key : String} {f : α → Bearer} {xs : List (String × α)} (g : α → Node)
    (hk : DistinctKeys xs) (hg : ∀ x p, (f x).node t p = g x)
    (hc : xs ≠ [] → n.child? key = some (.object (xs.map fun e => (e.1, g e.2)) [])) :
    ∀ x ∈ Held.named key f xs, n.Holds t x := by
  rw [Held.named, List.forall_mem_map]
  intro x hx p
  have hxs : xs ≠ [] := List.ne_nil_of_mem hx
  have hlookup : (xs.map fun e => (e.1, g e.2)).lookup x.1 = some (g x.2) := lookup_projected hk hx g
  rw [follow?, hc hxs, Option.bind_some, hg]
  exact follow_child hlookup

end Node

open Node (Holds holds_under holds_option holds_named follow_child)

/-- The names of the fields that nodes are written in beside what is visited. -/
def Held.fieldNames : List String :=
  ["info", "contact", "license", "tags", "externalDocs", "examples", "securitySchemes", "flows", "implicit",
    "password", "clientCredentials", "authorizationCode"]

theorem Held.fieldNames_plain : ∀ k ∈ Held.fieldNames, "x-".isPrefixOf k = false := by
  simp only [Node.isPrefixOf_eq_false]
  decide

/-- A field that a node is written in is found whatever extensions stand beside it. -/
theorem Node.child_held {t : Target} {k : String} (h : k ∈ Held.fieldNames) (fields : List Field) (xs : Extensions) :
    (Node.extended t fields xs).child? k = fields.flatten.lookup k :=
  child_extended (Held.fieldNames_plain k h) fields xs

section
variable (t : Target)

theorem Subject.holds_details {u : Subject} (hk : DistinctKeys u.examples) (p : Pointer) :
    ∀ h ∈ u.details, (u.project t p).value.Holds t h := by
  have hexamples : ∀ h ∈ Held.named "examples" .sample u.examples, (u.project t p).value.Holds t h :=
    holds_named (Example.project t) hk (fun _ _ => rfl) fun hx => u.child_examples hx t p
  cases u with
  | operation o =>
    refine holds_option (ExternalDocs.project t) (fun _ _ => rfl) ?_
    rw [project, o.value_project, Node.child_held (by decide)]
    simp [List.lookup_append, List.lookup_cons]
  | _ => exact hexamples

theorem Info.holds (i : Info) : ∀ h ∈ i.held, (i.written t).Holds t h := by
  rw [held, List.cons_append, List.forall_mem_cons, List.forall_mem_append]
  refine ⟨fun _ => rfl, holds_option (Contact.project t) (fun _ _ => rfl) ?_,
    holds_option (fun l => l.written t) (fun _ _ => rfl) ?_⟩
  all_goals
    cases t with
    | v30 =>
      rw [written, project30, Traced.value_bind, Traced.value_bind, Traced.value_pure, Node.child_held (by decide)]
      simp [List.lookup_append, Traced.value_option]
    | v31 =>
      rw [written, written31, Node.child_held (by decide)]
      simp [List.lookup_append]

theorem Tag.holds (g : Tag) : ∀ h ∈ g.held, (g.project t).Holds t h := by
  rw [held, List.forall_mem_cons]
  refine ⟨fun _ => rfl, holds_option (ExternalDocs.project t) (fun _ _ => rfl) ?_⟩
  rw [project, Node.child_held (by decide)]
  simp [List.lookup_append]

theorem OAuthFlows.project?_eq (f : OAuthFlows) :
    f.project? t = if f.entries t = [] then none else some (.object (f.entries t) (Extension.allowed t f.extensions)) := by
  unfold project? entries
  simp only
  split <;> simp_all [Node.extended, Node.ofFields]

theorem OAuthFlows.holds (f : OAuthFlows) :
    ∀ h ∈ f.held, (Node.object (f.entries t) (Extension.allowed t f.extensions)).Holds t h := by
  have hchild {k : String} (hk : k ∈ Held.fieldNames) :
      (Node.object (f.entries t) (Extension.allowed t f.extensions)).child? k = (f.entries t).lookup k :=
    Node.child_held hk _ f.extensions
  rw [held, List.forall_mem_cons, List.forall_mem_append, List.forall_mem_append, List.forall_mem_append]
  refine ⟨fun _ => rfl, ⟨⟨?_, ?_⟩, ?_⟩, ?_⟩
  all_goals
    refine holds_option (OAuthFlow.project t) (fun _ _ => rfl) ?_
    rw [hchild (by decide)]
    simp [entries, List.lookup_append]

theorem SecurityScheme.holds (s : SecurityScheme) : ∀ h ∈ s.held t, (s.project t).Holds t h := by
  rw [held, List.forall_mem_cons]
  refine ⟨fun _ => rfl, ?_⟩
  cases hr : nonEmpty s.ref with
  | some target => simp [isSet, hr]
  | none =>
    rw [isSet, hr, Option.isSome_none, if_neg Bool.false_ne_true]
    intro h hh
    obtain ⟨f, hf, hh⟩ := List.mem_flatMap.1 hh
    obtain ⟨hs, hsome⟩ := Option.filter_eq_some_iff.1 (Option.mem_toList.1 hf)
    rw [f.project?_eq] at hsome
    have hentries : f.entries t ≠ [] := fun he => by simp [he] at hsome
    refine holds_under (follow_child ?_) (f.holds t) h hh
    rw [project, hr, Node.child_held (by decide)]
    simp [List.lookup_append, hs, f.project?_eq, hentries]

theorem Components.holds {c : Components} (hk : c.Distinct) : ∀ h ∈ c.held t, (c.written t).Holds t h := by
  rw [held, List.forall_mem_cons, List.forall_mem_append, List.forall_mem_flatMap]
  have hschemes : DistinctKeys (c.schemes t) := by
    cases t with
    | v30 => exact hk.securitySchemes.sublist (List.filter_sublist.map _)
    | v31 => exact hk.securitySchemes
  refine ⟨fun _ => rfl, fun h hh p => ?_, fun s hs => ?_⟩
  · obtain ⟨e, he, rfl⟩ := List.mem_map.1 hh
    rw [follow_sections t c (by decide)]
    exact lookup_projected hk.examples he (Example.project t)
  · refine holds_under ?_ (s.2.holds t)
    rw [follow_sections t c (by decide)]
    exact lookup_projected hschemes hs (SecurityScheme.project t)

/-! ### In the whole document -/

theorem Subject.Distinct.examples {u : Subject} (h : u.Distinct) : DistinctKeys u.examples := by
  obtain ⟨_, h⟩ := h
  cases u with
  | header x =>
    rw [Subject.examples]
    split
    · exact List.nodup_nil
    · exact h
  | parameter x =>
    rw [Subject.examples]
    split
    · exact List.nodup_nil
    · exact h
  | mediaType m => exact h
  | _ => exact List.nodup_nil

theorem Api.Distinct.keyed {a : Api} (h : a.Distinct t) : a.Keyed t where
  paths := h.paths
  webhooks := h.webhooks
  components c hc := (h.components c hc).toKeyed
  visits v hv := (h.visits v hv).1

namespace Api

/-- The fields of the root that are not visited. -/
theorem child_details (a : Api) :
    (a.written t).child? "info" = some (a.info.written t) ∧
    (a.tags ≠ [] → (a.written t).child? "tags" = some (.list (a.tags.map fun g => g.project t))) ∧
    (a.written t).child? "externalDocs" = a.externalDocs.map fun d => d.project t := by
  cases t with
  | v30 =>
    rw [written, written30]
    refine ⟨?_, fun h => ?_, ?_⟩
    all_goals
      rw [Node.child_held (by decide)]
      simp [List.lookup_append, List.lookup_cons, *]
  | v31 =>
    rw [written, written31]
    refine ⟨?_, fun h => ?_, ?_⟩
    all_goals
      rw [Node.child_held (by decide)]
      simp [List.lookup_append, List.lookup_cons, *]

/-- **What is written for a node is found at its place**, unless it is hidden. -/
theorem follow_bearer {a : Api} (hk : a.Distinct t) {h : Held} (hh : h ∈ a.bearers t)
    (ho : ∀ w ∈ a.visits t, ¬w.Hides t h.place) :
    (a.written t).follow? h.place = some (h.bearer.node t (Pointer.root.descend h.place)) := by
  obtain ⟨hinfo, htags, hdocs⟩ := a.child_details t
  simp only [bearers, List.mem_cons, List.mem_append, List.mem_flatMap] at hh
  rcases hh with rfl | (((⟨v, hv, hh⟩ | hh) | ⟨g, hg, hh⟩) | hh) | ⟨c, hc, hh⟩
  · rfl
  · have hopen : ∀ w ∈ a.visits t, ¬w.Hides t v.place := fun w hw ⟨k, hk, hpre⟩ => by
      refine ho w hw ⟨k, hk, hpre.trans ?_⟩
      rcases List.mem_cons.1 hh with rfl | hh
      · exact List.prefix_rfl
      · obtain ⟨x, _, rfl⟩ := List.mem_map.1 hh
        exact List.prefix_append _ _
    have hshow := a.shows t hk.keyed hk.keyed.visits v hv hopen
    rcases List.mem_cons.1 hh with rfl | hh
    · exact hshow
    · exact holds_under hshow (Subject.holds_details t (hk.visits v hv).examples _) h hh _
  · exact holds_under (follow_child hinfo) (a.info.holds t) h hh _
  · have hne : a.tags ≠ [] := by
      rintro he
      rw [he] at hg
      cases hg
    obtain ⟨e, he, rfl⟩ := List.mem_map.1 hg
    have hpositioned : (positioned 0 (a.tags.map fun g => g.project t)) =
        (positioned 0 a.tags).map fun g => (g.1, g.2.project t) := by
      simp [positioned, List.zipIdx_map]
    have hlookup : (positioned 0 (a.tags.map fun g => g.project t)).lookup (toString e.2) = some (e.1.project t) := by
      rw [hpositioned]
      exact lookup_projected (Visit.distinctKeys_positioned 0 a.tags) hg (Tag.project t)
    have hfollow : (a.written t).follow? ["tags", toString e.2] = some (e.1.project t) := by
      rw [Node.follow?, htags hne, Option.bind_some]
      exact follow_child hlookup
    exact holds_under hfollow (e.1.holds t) h hh _
  · exact holds_option (ExternalDocs.project t) (fun _ _ => rfl) hdocs h hh _
  · have hc : a.components = some c := Option.mem_toList.1 hc
    have hchild := a.child_components t
    rw [hc] at hchild
    exact holds_under (follow_child hchild) (Components.holds t (hk.components c hc)) h hh _

end Api
end

/-! ## Entries and extensions in JSON -/

theorem Node.follow_keyed {n m : Node} {ks : List String} (h : n.Keyed) (hf : n.follow? ks = some m) : m.Keyed := by
  induction ks generalizing n with
  | nil =>
    cases hf
    exact h
  | cons k ks ih =>
    obtain ⟨c, hc, hf⟩ := Option.bind_eq_some_iff.1 hf
    refine ih ?_ hf
    cases n with
    | free | text => cases hc
    | list ns =>
      obtain ⟨e, he, hec⟩ := List.mem_map.1 (Visit.mem_of_lookup hc)
      obtain ⟨-, rfl⟩ := Prod.mk.inj hec
      exact Node.keyed_list.1 h e.1 (List.fst_mem_of_mem_zipIdx he)
    | object es xs =>
      rw [child?] at hc
      split at hc
      · cases hc
      · exact (Node.keyed_object.1 h).2 _ (Visit.mem_of_lookup hc)

/-- Entries with extensions beside them have lost none exactly if no extension has the key of an entry. -/
theorem Node.inline_eq_append {own extra : List (String × Json)} (ho : DistinctKeys own) (hx : DistinctKeys extra) :
    inline own extra = own ++ extra ↔ ∀ m ∈ own, ∀ x ∈ extra, x.1 ≠ m.1 := by
  have happend : DistinctKeys (own ++ extra) ↔ ∀ m ∈ own, ∀ x ∈ extra, x.1 ≠ m.1 := by
    rw [DistinctKeys, List.map_append, List.nodup_append]
    simp only [List.forall_mem_map]
    constructor
    · rintro ⟨_, _, h⟩ m hm x hxm
      exact (h m hm x hxm).symm
    · intro h
      exact ⟨ho, hx, fun m hm x hxm => (h m hm x hxm).symm⟩
  rw [← happend]
  constructor
  · intro h
    rw [← h]
    exact distinctKeys_inline ho extra
  · exact inline_of_fresh

/-- A callback none of whose expressions looks like an extension is clear of its extensions. -/
theorem Subject.Plain.clear {u : Subject} (h : u.Plain) (hr : u.ref? = none) (t : Target) :
    (Bearer.visited u).Clear t := by
  cases u with
  | callback c =>
    intro k hk
    obtain ⟨i, hi, rfl⟩ := List.mem_map.1 hk
    exact Node.ne_allowed (h hr i hi)
  | _ => simp [Bearer.Clear, Bearer.expressions]

/-- The JSON of a node that is no reference. -/
theorem Bearer.Consists.toJson {t : Target} {p : Pointer} {b : Bearer} {es : List (String × Node)} {j : Json}
    (h : b.Consists t p es) (hk : (b.node t p).Keyed) (hx : DistinctKeys b.extensions)
    (hj : (b.node t p).toJson = .ok j) :
    ∃ own extra, (b.stripped.node t p).toJson = .ok (.object own) ∧
      Node.extensionMembers (Extension.allowed t b.extensions) = .ok extra ∧ j = .object (Node.inline own extra) ∧
      (∀ m ∈ own, "x-".isPrefixOf m.1 = true → m.1 ∈ b.expressions) ∧
      (b.Clear t ↔ Node.inline own extra = own ++ extra) := by
  rw [h.whole] at hk hj
  obtain ⟨own, ho, hj⟩ := Node.bind_ok hj
  obtain ⟨extra, he, hj⟩ := Node.bind_ok hj
  cases hj
  have hkeys := Node.keys_entriesToJson ho
  have hextra := Node.keys_extensionMembers he
  have hmem {k : String} : k ∈ own.map Prod.fst ↔ k ∈ es.map Prod.fst := by rw [hkeys]
  refine ⟨own, extra, ?_, he, rfl, fun m hm hp => ?_, ?_⟩
  · rw [h.bare, Node.toJson, ho]
    rfl
  · obtain ⟨e, hes, hem⟩ := List.mem_map.1 (hmem.1 (List.mem_map_of_mem hm))
    exact hem ▸ h.plain e hes (hem ▸ hp)
  · have hown : DistinctKeys own := by
      rw [DistinctKeys, hkeys]
      exact (Node.keyed_object.1 hk).1
    have hdistinct : DistinctKeys extra := by
      rw [DistinctKeys, hextra]
      exact hx.sublist (List.filter_sublist.map _)
    rw [Node.inline_eq_append hown hdistinct]
    constructor
    · intro hclear m hm x hxm hxk
      obtain ⟨y, hy, hyx⟩ := List.mem_map.1 (hextra ▸ List.mem_map_of_mem hxm)
      obtain ⟨e, hes, hem⟩ := List.mem_map.1 (hmem.1 (List.mem_map_of_mem hm))
      have hlooks : "x-".isPrefixOf e.1 = true := by
        by_contra hplain
        exact Node.ne_allowed (Bool.not_eq_true _ ▸ hplain) y hy (hyx.trans (hxk.trans hem.symm))
      exact hclear e.1 (h.plain e hes hlooks) y hy (hyx.trans (hxk.trans hem.symm))
    · intro hfresh k hk y hy hyk
      obtain ⟨m, hm, rfl⟩ := List.mem_map.1 (hmem.2 (h.expressed k hk))
      obtain ⟨x, hxm, hxy⟩ := List.mem_map.1 (hextra ▸ List.mem_map_of_mem hy)
      exact hfresh m hm x hxm (hxy.trans hyk)

namespace Api

/-- **Extensions stand beside entries.** Of a projection that succeeds, at the place of each node that is no
reference and not hidden: an object of the entries that are written for the node without its extensions, with
their values, and of those of its extensions that the version allows, in their order. Only an expression of a
callback looks like an extension without being one. The extensions stand behind the entries, and no name is
there twice or lost, exactly if the node is no callback with an expression that is the key of one of them. -/
theorem extensions_inlined {t : Target} {strict : Bool} {a : Api} {doc : Node} {j : Json}
    (hdoc : (a.toDocument t strict).value = .ok doc) (hj : doc.toJson = .ok j) (hk : a.Distinct t) {h : Held}
    (hh : h ∈ a.bearers t) (hx : DistinctKeys h.bearer.extensions) (hr : h.bearer.ref? = none)
    (ho : ∀ w ∈ a.visits t, ¬w.Hides t h.place) :
    ∃ own extra, (h.bearer.stripped.node t (Pointer.root.descend h.place)).toJson = .ok (.object own) ∧
      Node.extensionMembers (Extension.allowed t h.bearer.extensions) = .ok extra ∧
      j.follow? h.place = some (.object (Node.inline own extra)) ∧
      (∀ m ∈ own, "x-".isPrefixOf m.1 = true → m.1 ∈ h.bearer.expressions) ∧
      (h.bearer.Clear t ↔ Node.inline own extra = own ++ extra) := by
  have hfollow := follow_bearer t hk hh ho
  have hkeyed := Node.follow_keyed (a.keyed_written t hk) hfollow
  rw [← eq_written hdoc] at hfollow
  obtain ⟨i, hi, hji⟩ := Node.toJson_follow hj hfollow
  obtain ⟨es, hes⟩ := Bearer.consists t (Pointer.root.descend h.place) hr
  obtain ⟨own, extra, hown, hextra, rfl, hplain, hclear⟩ := hes.toJson hkeyed hx hi
  exact ⟨own, extra, hown, hextra, hji, hplain, hclear⟩

/-- An interface that calls back, with extensions of which the newer version reserves one. -/
def ferry : Api where
  info := { title := "Ferry", version := "1" }
  paths := [("/t", { operations := [(.post, { callbacks := [("c", {
    pathItems := [("$url", {})]
    extensions := [("x-oai-k", .int 1), ("x-none", .null), ("y", .int 2)] })] })] })]

/-- The document of that interface. -/
def ferryJson : Json := .object [("openapi", .text "3.1.2"), ("jsonSchemaDialect", .text schemaDialect),
  ("info", .object [("title", .text "Ferry"), ("version", .text "1")]),
  ("servers", .list [.object [("url", .text "/")]]),
  ("paths", .object [("/t", .object [("post", .object [("responses", .object []),
    ("callbacks", .object [("c", .object [("$url", .object []), ("x-none", .null)])])])])])]

theorem extensions_inlined_ferry :
    (∃ doc, (ferry.toDocument .v31 false).value = .ok doc ∧ doc.toJson = .ok ferryJson) ∧ ferry.Distinct .v31 ∧
      ∃ h ∈ ferry.bearers .v31, DistinctKeys h.bearer.extensions ∧ h.bearer.ref? = none ∧ h.bearer.Clear .v31 ∧
        (∀ w ∈ ferry.visits .v31, ¬w.Hides .v31 h.place) ∧
        ferryJson.follow? h.place = some (.object ([("$url", .object [])] ++ [("x-none", .null)])) := by
  let back : Callback := {
    pathItems := [("$url", {})]
    extensions := [("x-oai-k", .int 1), ("x-none", .null), ("y", .int 2)] }
  let send : Operation := { callbacks := [("c", back)] }
  let path : PathItem := { operations := [(.post, send)] }
  let h : Held := ⟨["paths", "/t", "post", "callbacks", "c"], .visited (.callback back)⟩
  have hvisits : ferry.visits .v31 = [⟨["paths", "/t"], .pathItem path⟩, ⟨["paths", "/t", "post"], .operation send⟩,
    ⟨["paths", "/t", "post", "callbacks", "c"], .callback back⟩,
    ⟨["paths", "/t", "post", "callbacks", "c", "$url"], .pathItem {}⟩] := by cbv
  have hplain : ∀ v ∈ ferry.visits .v31, v.subject.Plain := by
    rw [hvisits]
    decide +kernel
  have hdoc : (ferry.toDocument .v31 false).value = .ok ferry.written31 := by
    rw [toDocument, project31_run]
    rfl
  have hj : ferry.written31.toJson = .ok ferryJson := by cbv
  have hk : ferry.Distinct .v31 := by
    refine ⟨by decide, by decide, by simp [ferry], by simp [ferry], ?_⟩
    rw [hvisits]
    simp [Subject.Distinct, Subject.Keyed, Subject.Tidy, path, send, back, DistinctKeys]
  have hh : h ∈ ferry.bearers .v31 := by
    simp [bearers, hvisits, Visit.held, h]
  have hx : DistinctKeys h.bearer.extensions := by decide
  have ho : ∀ w ∈ ferry.visits .v31, ¬w.Hides .v31 h.place := by
    rintro w hw ⟨k, hk, -⟩
    exact (hplain w hw).not_hides _ k hk
  have hclear : h.bearer.Clear .v31 := Subject.Plain.clear (hplain ⟨h.place, .callback back⟩ (by simp [hvisits, h])) rfl .v31
  obtain ⟨own, extra, hown, hextra, hfollow, _, hiff⟩ := extensions_inlined hdoc hj hk hh hx rfl ho
  have hentries : (h.bearer.stripped.node .v31 (Pointer.root.descend h.place)).toJson =
      .ok (.object [("$url", .object [])]) := by cbv
  have hmembers : Node.extensionMembers (Extension.allowed .v31 h.bearer.extensions) = .ok [("x-none", .null)] := by cbv
  cases hentries.symm.trans hown
  cases hmembers.symm.trans hextra
  rw [hiff.1 hclear] at hfollow
  exact ⟨⟨_, hdoc, hj⟩, hk, h, hh, hx, rfl, hclear, ho, hfollow⟩

/-- An interface with an expression that is the key of an extension. -/
def mask : Api where
  info := { title := "Mask", version := "1" }
  paths := [("/t", { operations := [(.post, { callbacks := [("c", {
    pathItems := [("x-a", {})]
    extensions := [("x-a", .int 1)] })] })] })]

/-- The extension takes the place of what is called back. -/
theorem expression_replaced :
    ∃ doc j, (mask.toDocument .v30 true).value = .ok doc ∧ doc.toJson = .ok j ∧
      ∃ h ∈ mask.bearers .v30, h.bearer.ref? = none ∧
        (h.bearer.stripped.node .v30 (Pointer.root.descend h.place)).toJson = .ok (.object [("x-a", .object [])]) ∧
        j.follow? h.place = some (.object [("x-a", .int 1)]) := by
  have hdoc : (mask.toDocument .v30 true).value = .ok mask.written30 := by
    rw [toDocument, project30_run]
    rfl
  let back : Callback := { pathItems := [("x-a", {})], extensions := [("x-a", .int 1)] }
  let send : Operation := { callbacks := [("c", back)] }
  have hj : mask.written30.toJson = .ok (.object [("openapi", .text "3.0.4"),
      ("info", .object [("title", .text "Mask"), ("version", .text "1")]),
      ("paths", .object [("/t", .object [("post", .object [("responses", .object []),
        ("callbacks", .object [("c", .object [("x-a", .int 1)])])])])])]) := by cbv
  have hvisits : mask.visits .v30 = [⟨["paths", "/t"], .pathItem { operations := [(.post, send)] }⟩,
    ⟨["paths", "/t", "post"], .operation send⟩, ⟨["paths", "/t", "post", "callbacks", "c"], .callback back⟩,
    ⟨["paths", "/t", "post", "callbacks", "c", "x-a"], .pathItem {}⟩] := by cbv
  refine ⟨_, _, hdoc, hj, ⟨["paths", "/t", "post", "callbacks", "c"], .visited (.callback back)⟩, ?_, rfl, ?_, ?_⟩
  · simp [bearers, hvisits, Visit.held]
  · cbv
  · cbv

end Api
end ApiProjection
