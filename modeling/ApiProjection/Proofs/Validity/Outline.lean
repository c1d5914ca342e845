import ApiProjection.Proofs.Outcome
import ApiProjection.Proofs.Validity.Reading
/-!
# The outline of a document

The objects of a document that a meta-schema looks into are written as it wants them: each field that may be
there is a property, and what is read of it keeps the rule of the property.

* `MetaSchema.keeps_server`, `MetaSchema.keeps_info30` and their like: one for each of these objects.
-/
namespace ApiProjection.MetaSchema

open Node (Field)

/-! ## Nodes and fields -/

theorem keeps_string (s : String) : Keeps string (.text s) := by
  intro v h
  rw [Node.readsAs_text h]
  exact accepts_ofType rfl

/-- Whether a node is written as an object. -/
def IsObject (n : Node) : Prop := ∃ es xs, n = .object es xs

theorem isObject_extended (t : Target) (fields : List Field) (xs : Extensions) : IsObject (.extended t fields xs) :=
  ⟨_, _, rfl⟩

theorem keeps_object {n : Node} (h : IsObject n) : Keeps (ofType .object) n := by
  obtain ⟨es, xs, rfl⟩ := h
  intro v hv
  obtain ⟨entries, rfl, -⟩ := Node.readsAs_object hv
  exact accepts_ofType rfl

theorem keeps_listOf {items : List (String × Value)} {ns : List Node} (h : ∀ n ∈ ns, Keeps (object items) n) :
    Keeps (listOf (object items)) (.list ns) := by
  intro v hv
  obtain ⟨vs, rfl, -, hvs⟩ := Node.readsAs_list hv
  refine accepts_listOf fun x hx => ?_
  obtain ⟨n, hn, hread⟩ := hvs x hx
  exact h n hn x hread

section
variable (name : String) {schema : Value}

/-- Whether the entries of a field are those of a property, and whatever is read of them keeps its rule. -/
abbrev Keeping (f : Field) (p : String × Value) : Prop := Fits (fun _ => True) f p

theorem keeping_of_keeps {f : Field} (hu : f.Under name) (hk : ∀ e ∈ f, Keeps schema e.2) :
    Keeping f (name, schema) := ⟨hu, hk⟩

theorem keeping_text (s : String) : Keeping (.text name s) (name, string) :=
  keeping_of_keeps name (Field.under_text name s) (List.forall_mem_singleton.2 (keeps_string s))

theorem keeping_text? (o : Option String) : Keeping (.text? name o) (name, string) := by
  refine keeping_of_keeps name (Field.under_text? name o) fun e he => ?_
  unfold Field.text? at he
  split at he
  · split at he
    · cases he
    · rw [List.mem_singleton.1 he]
      exact keeps_string _
  · cases he

theorem keeping_node? {o : Option Node} (h : ∀ n ∈ o, Keeps schema n) : Keeping (.node? name o) (name, schema) := by
  refine keeping_of_keeps name (Field.under_node? name o) fun e he => ?_
  cases o with
  | none => cases he
  | some n =>
    rw [List.mem_singleton.1 he]
    exact h n rfl

theorem keeping_nodes {items : List (String × Value)} {ns : List Node} (h : ∀ n ∈ ns, Keeps (object items) n) :
    Keeping (.nodes name ns) (name, listOf (object items)) := by
  refine keeping_of_keeps name (Field.under_nodes name ns) fun e he => ?_
  unfold Field.nodes at he
  split at he
  · cases he
  · rw [List.mem_singleton.1 he]
    exact keeps_listOf h

theorem keeping_single {n : Node} (h : Keeps schema n) : Keeping [(name, n)] (name, schema) :=
  keeping_of_keeps name (Field.under_single name n) (List.forall_mem_singleton.2 h)

theorem keeping_named (ns : List (String × Node)) : Keeping (.named name ns) (name, ofType .object) := by
  refine keeping_of_keeps name (Field.under_named name ns) fun e he => ?_
  unfold Field.named at he
  split at he
  · cases he
  · rw [List.mem_singleton.1 he]
    exact keeps_object ⟨_, _, rfl⟩

end

/-! ## Servers -/

/-- Texts of which there is one at least if there is the field. -/
theorem keeping_enum (name : String) (ss : List String) :
    Keeping (.texts name ss)
      (name, object [("type", .text Kind.array.name), ("items", string), ("minItems", .int 1)]) := by
  refine keeping_of_keeps name (Field.under_texts name ss) fun e he => ?_
  unfold Field.texts at he
  split at he
  · cases he
  · rename_i hne
    rw [List.mem_singleton.1 he]
    intro v hv
    obtain ⟨vs, rfl, hlen, hvs⟩ := Node.readsAs_list hv
    refine accepts_someItems ?_ fun x hx => ?_
    · rintro rfl
      rw [List.length_nil, List.length_map] at hlen
      exact hne (List.isEmpty_iff.2 (List.length_eq_zero_iff.1 hlen.symm))
    · obtain ⟨n, hn, hread⟩ := hvs x hx
      obtain ⟨s, -, rfl⟩ := List.mem_map.1 hn
      exact keeps_string s x hread

/-- Named objects that all keep a rule. -/
theorem keeping_everyNamed (name : String) {members : List (String × Value)} {ns : List (String × Node)}
    (h : ∀ e ∈ ns, Keeps (object members) e.2) :
    Keeping (.named name ns)
      (name, object [("type", .text Kind.object.name), ("additionalProperties", object members)]) := by
  refine keeping_of_keeps name (Field.under_named name ns) fun e he => ?_
  unfold Field.named at he
  split at he
  · cases he
  · rw [List.mem_singleton.1 he]
    intro v hv
    obtain ⟨entries, rfl, hmem⟩ := Node.readsAs_object hv
    refine accepts_everyMember fun x hx => ?_
    obtain ⟨name, -, ⟨n, hn, hread⟩ | hno⟩ := hmem.own_or_extension x hx
    · exact h _ hn x.2 hread
    · cases hno

theorem fits_of_forall₂ {q : String → Prop} {fields : List Field} {props : List (String × Value)}
    (h : List.Forall₂ (Fits q) fields props) : ∀ f ∈ fields, ∃ p ∈ props, Fits q f p := by
  induction h with
  | nil => simp
  | cons h _ ih =>
    refine List.forall_mem_cons.2 ⟨⟨_, List.mem_cons_self, h⟩, fun f hf => ?_⟩
    obtain ⟨p, hp, hfits⟩ := ih f hf
    exact ⟨p, List.mem_cons_of_mem _ hp, hfits⟩

/-- An object that is written field for field as its properties stand keeps its rule. -/
theorem keeps_of_fields {t : Target} {fields : List Field} {xs : Extensions} {props : List (String × Value)}
    {names : List String} (hp : Table props) (hfields : List.Forall₂ Keeping fields props)
    (hnames : ∀ n ∈ names, n ∈ fields.flatten.map Prod.fst) : Keeps (closed props names) (.extended t fields xs) :=
  keeps_closed hp (fits_of_forall₂ hfields) hnames

theorem keeps_serverVariable (t : Target) (x : ServerVariable) (p : Pointer) :
    Keeps serverVariable (x.project t p).value := by
  have hvalue : (x.project t p).value = .extended t [.texts "enum" (x.enum.getD []), .text "default" x.default,
      .text? "description" x.description] x.extensions := by
    rw [ServerVariable.project]
    split <;> rfl
  rw [hvalue]
  refine keeps_of_fields ⟨?_, by simp, by simp [IsExtension]⟩
    (.cons (keeping_enum _ _) (.cons (keeping_text _ _) (.cons (keeping_text? _ _) .nil))) ?_
  · simp [object, string, ofType, isMap]
  · simp [Field.text]

/-- A server that is written field for field keeps its rule. -/
theorem keeps_serverFields (t : Target) (url : String) (description : Option String) {vars : List (String × Node)}
    (h : ∀ e ∈ vars, Keeps serverVariable e.2) (xs : Extensions) :
    Keeps server (.extended t [.text "url" url, .text? "description" description, .named "variables" vars] xs) := by
  refine keeps_of_fields ⟨?_, by simp, by simp [IsExtension]⟩
    (.cons (keeping_text _ _) (.cons (keeping_text? _ _) (.cons (keeping_everyNamed _ h) .nil))) ?_
  · simp [object, string, ofType, isMap]
  · simp [Field.text]

theorem keeps_server (t : Target) (x : Server) (p : Pointer) : Keeps server (x.project t p).value := by
  refine keeps_serverFields t x.url x.description ?_ x.extensions
  rw [Traced.value_named, List.forall_mem_map]
  exact fun v _ => keeps_serverVariable t v.2 _

theorem keeps_defaultServer : Keeps server Api.defaultServer :=
  keeps_serverFields .v31 "/" none (List.forall_mem_nil _) []

/-! ## Information, tags and documentation -/

theorem keeps_option {α : Type} {schema : Value} {f : α → Node} (h : ∀ x, Keeps schema (f x)) (o : Option α) :
    ∀ n ∈ o.map f, Keeps schema n := by
  intro n hn
  obtain ⟨x, -, rfl⟩ := Option.mem_map.1 hn
  exact h x

theorem keeps_externalDocs (t : Target) (d : ExternalDocs) : Keeps externalDocs (d.project t) := by
  refine keeps_of_fields ⟨?_, by simp, by simp [IsExtension]⟩
    (.cons (keeping_text? _ _) (.cons (keeping_text _ _) .nil)) ?_
  · simp [object, string, ofType, isMap]
  · simp [Field.text]

theorem keeps_tag (t : Target) (g : Tag) : Keeps tag (g.project t) := by
  refine keeps_of_fields ⟨?_, by simp, by simp [IsExtension]⟩ (.cons (keeping_text _ _) (.cons (keeping_text? _ _)
    (.cons (keeping_node? _ (keeps_option (keeps_externalDocs t) _)) .nil))) ?_
  · simp [object, string, ofType, isMap, externalDocs, closed]
  · simp [Field.text]

theorem keeps_contact (t : Target) (c : Contact) : Keeps contact (c.project t) := by
  refine keeps_of_fields ⟨?_, by simp, by simp [IsExtension]⟩
    (.cons (keeping_text? _ _) (.cons (keeping_text? _ _) (.cons (keeping_text? _ _) .nil))) (by simp)
  simp [object, string, ofType, isMap]

theorem keeps_license30 (l : License) : Keeps license30 l.project30.value := by
  refine keeps_of_fields ⟨?_, by simp, by simp [IsExtension]⟩
    (.cons (keeping_text _ _) (.cons (keeping_text? _ _) .nil)) ?_
  · simp [object, string, ofType, isMap]
  · simp [Field.text]

theorem keeps_info30 (i : Info) : Keeps info30 i.project30.value := by
  have hlicense : ∀ n ∈ (Traced.option (fun l _ => License.project30 l) .root i.license).value, Keeps license30 n := by
    rw [Traced.value_option]
    exact keeps_option keeps_license30 i.license
  refine keeps_of_fields ⟨?_, by simp, by simp [IsExtension]⟩ (.cons (keeping_text _ _) (.cons (keeping_text? _ _)
    (.cons (keeping_text? _ _) (.cons (keeping_node? _ (keeps_option (keeps_contact .v30) _))
      (.cons (keeping_node? _ hlicense) (.cons (keeping_text _ _) .nil)))))) ?_
  · simp [object, string, ofType, isMap, contact, license30, closed]
  · simp [Field.text]

/-- Among the entries of fields with different names there is one of a name exactly if its field is written. -/
theorem mem_keys_flatten {names : List String} {fields : List Field} (hu : List.Forall₂ Field.Under names fields)
    (hn : names.Nodup) {name : String} {f : Field} (h : (name, f) ∈ names.zip fields) :
    name ∈ fields.flatten.map Prod.fst ↔ f ≠ [] := by
  induction hu with
  | nil => cases h
  | @cons other g names fields hg hu ih =>
    obtain ⟨hfresh, hn⟩ := List.nodup_cons.1 hn
    rw [List.flatten_cons, List.map_append, List.mem_append]
    have hkeys {m : String} (hm : m ∈ fields.flatten.map Prod.fst) : m ∈ names := by
      obtain ⟨e, he, rfl⟩ := List.mem_map.1 hm
      exact Field.keys_flatten hu e he
    rcases List.mem_cons.1 h with heq | h
    · cases heq
      rw [or_iff_left fun hm => hfresh (hkeys hm)]
      constructor
      · rintro hm rfl
        cases hm
      · intro hne
        obtain ⟨e, g', rfl⟩ := List.exists_cons_of_ne_nil hne
        exact List.mem_map.2 ⟨e, List.mem_cons_self, hg e List.mem_cons_self⟩
    · rw [or_iff_right fun hm => ?_, ih hn h]
      obtain ⟨e, he, rfl⟩ := List.mem_map.1 hm
      exact hfresh (hg e he ▸ (List.of_mem_zip h).1)

theorem under_of_fits {q : String → Prop} {fields : List Field} {props : List (String × Value)}
    (h : List.Forall₂ (Fits q) fields props) : List.Forall₂ Field.Under (props.map Prod.fst) fields := by
  induction h with
  | nil => exact .nil
  | cons h _ ih => exact .cons h.1 ih

theorem text?_ne_nil (name : String) {o : Option String} : Field.text? name o ≠ [] ↔ isSet o = true := by
  cases o with
  | none => simp [Field.text?, isSet, nonEmpty]
  | some s => by_cases hs : s = "" <;> simp [Field.text?, isSet, nonEmpty, hs]

/-- Where a license does not have both an identifier and an address, the rule that excludes both is kept. -/
theorem keeps_license31 {l : License} (h : l.conflicts = false) : Keeps license31 l.written31 := by
  intro v hv
  have hp : Table [("name", string), ("identifier", string), ("url", string)] :=
    ⟨by simp [object, string, ofType, isMap], by simp, by simp [IsExtension]⟩
  have hfields : List.Forall₂ Keeping [Field.text "name" l.name, .text? "identifier" l.identifier, .text? "url" l.url]
      [("name", string), ("identifier", string), ("url", string)] :=
    .cons (keeping_text _ _) (.cons (keeping_text? _ _) (.cons (keeping_text? _ _) .nil))
  obtain ⟨es, rfl, hclosed, hrules, hkeys⟩ := readsAs_extended hv ["name"] hp (fits_of_forall₂ hfields)
    (by simp [Field.text])
  have hidentifier : HasMember es "identifier" ↔ isSet l.identifier = true := by
    rw [hkeys _ (by simp [IsExtension]), ← text?_ne_nil "identifier"]
    exact mem_keys_flatten (under_of_fits hfields) hp.nodup (by simp)
  have hurl : HasMember es "url" ↔ isSet l.url = true := by
    rw [hkeys _ (by simp [IsExtension]), ← text?_ne_nil "url"]
    exact mem_keys_flatten (under_of_fits hfields) hp.nodup (by simp)
  have hboth : ¬∀ n ∈ ["identifier", "url"], HasMember es n := by
    simp only [List.forall_mem_cons, hidentifier, hurl]
    rw [License.conflicts, Bool.and_eq_false_iff] at h
    simpa [-not_and, ← Bool.not_eq_true, not_and_or] using h
  have h := decides_closedMembers [("not", object [required ["identifier", "url"]])] (q := fun _ => True)
    hp.objects hclosed hrules (decides_lacksOne ["identifier", "url"])
  exact h.congr (iff_true_intro ⟨fun _ _ _ => trivial, hboth⟩)

theorem keeps_info31 {i : Info} (h : i.license.any License.conflicts = false) : Keeps info31 i.written31 := by
  have hlicense : ∀ n ∈ i.license.map License.written31, Keeps license31 n := by
    intro n hn
    obtain ⟨l, hl, rfl⟩ := Option.mem_map.1 hn
    rw [Option.mem_def.1 hl] at h
    exact keeps_license31 h
  refine keeps_of_fields ⟨?_, by simp, by simp [IsExtension]⟩ (.cons (keeping_text _ _) (.cons (keeping_text? _ _)
    (.cons (keeping_text? _ _) (.cons (keeping_text? _ _) (.cons (keeping_node? _ (keeps_option (keeps_contact .v31) _))
      (.cons (keeping_node? _ hlicense) (.cons (keeping_text _ _) .nil))))))) ?_
  · simp [object, string, ofType, isMap, contact, license31, closed]
  · simp [Field.text]

end ApiProjection.MetaSchema
