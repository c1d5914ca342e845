import ApiProjection.Proofs.Validity.Rule
/-!
# What the parts of the meta-schemas decide

The bundled meta-schemas are built of a few kinds of parts: types, lists, closed objects and the paths. What a closed
object decides is what its properties decide, if it has the fields that are required and none but properties and
extensions.

* `MetaSchema.Decides`, `MetaSchema.Accepts`: the notions for a part of a meta-schema.
* `MetaSchema.decides_closedMembers`, `MetaSchema.decides_paths`.
-/
namespace ApiProjection.MetaSchema

/-! ## Types and lists -/

/-- Whether a part of a meta-schema decides a statement about a value. -/
def Decides (schema v : Value) (p : Prop) : Prop := (Rule.ofValue .draft2020 schema).Decides v p

/-- Whether a value keeps a part of a meta-schema. -/
def Accepts (schema v : Value) : Prop := Decides schema v True

theorem Decides.congr {schema v : Value} {p q : Prop} (h : Decides schema v p) (hpq : p ↔ q) : Decides schema v q :=
  Rule.Decides.congr h hpq

theorem accepts_ofType {k : Kind} {v : Value} (h : hasType true v k.name = some true) : Accepts (ofType k) v := by
  have hrule : Rule.ofValue .draft2020 (ofType k) = .all [.type true [.text k.name]] := rfl
  rw [Accepts, Decides, hrule]
  refine Rule.decides_all ((Keyword.decides_type ?_).cons_accepted Keyword.allDecide_nil)
  rw [hasSomeType, h]

theorem accepts_listOf {items : List (String × Value)} {xs : List Value} (h : ∀ x ∈ xs, Accepts (object items) x) :
    Accepts (listOf (object items)) (.list xs) := by
  have hrule : Rule.ofValue .draft2020 (listOf (object items)) =
      .all [.type true [.text Kind.array.name], .items 0 (Rule.ofValue .draft2020 (object items))] := rfl
  rw [Accepts, Decides, hrule]
  exact Rule.decides_all (((Keyword.decides_type rfl).cons_accepted ((Keyword.decides_items rfl h).cons_accepted
    Keyword.allDecide_nil)))

/-- Whether a value is an object. -/
def isMap : Value → Bool
  | .map _ => true
  | _ => false

theorem namedOf_eq {props : List (String × Value)} (hp : ∀ p ∈ props, isMap p.2 = true) :
    Rule.namedOf .draft2020 (props.map fun p => (.text p.1, p.2)) =
      props.map fun p => (p.1, Rule.ofValue .draft2020 p.2) := by
  induction props with
  | nil => rfl
  | cons p props ih =>
    rw [List.forall_mem_cons] at hp
    obtain ⟨name, schema⟩ := p
    rw [List.map_cons, List.map_cons, ← ih hp.2]
    cases schema with
    | map es => rfl
    | _ => exact absurd hp.1 Bool.false_ne_true

theorem keysOf_eq (props : List (String × Value)) :
    Rule.keysOf (.map (props.map fun p => (.text p.1, p.2))) = props.map Prod.fst := by
  induction props with
  | nil => rfl
  | cons p props ih =>
    rw [List.map_cons, List.map_cons, ← ih]
    rfl

theorem ofValue_closed (props : List (String × Value)) (names : List String) (more : List (String × Value))
    (hp : ∀ p ∈ props, isMap p.2 = true) :
    Rule.ofValue .draft2020 (object (closedMembers props names ++ more)) =
      .all ([.type true [.text Kind.object.name], .required (names.map .text),
        .properties (props.map fun p => (p.1, Rule.ofValue .draft2020 p.2)),
        .patternProperties [(.ofText extensionRule.1, .all [])],
        .additionalProperties (props.map Prod.fst) [.ofText extensionRule.1] true (.always false)] ++
        Rule.keywords .draft2020 ((closedMembers props names ++ more).map fun m => (.text m.1, m.2))
          (more.map fun m => (.text m.1, m.2))) := by
  have hnames : Rule.itemsOf (Value.list (names.map .text)) = names.map .text := rfl
  have hkey : Rule.keysOf (Value.map [(Scalar.text "^x-", Value.map [])]) = ["^x-"] := rfl
  have hpattern : (Value.scalar (Scalar.text "^x-")).display = "^x-" := rfl
  simp [object, Rule.ofValue, Dialect.isLegacy, closedMembers, Rule.keywords, Rule.simpleKeyword?, Rule.several?,
    Rule.single?, Rule.limitOf?, required, texts, lookupText, Rule.patternsOf, extensionRule, hnames, hkey, hpattern,
    namedOf_eq hp, keysOf_eq props]

theorem accepts_someItems {items : List (String × Value)} {xs : List Value} (hne : xs ≠ [])
    (h : ∀ x ∈ xs, Accepts (object items) x) :
    Accepts (object [("type", .text Kind.array.name), ("items", object items), ("minItems", .int 1)]) (.list xs) := by
  have hrule : Rule.ofValue .draft2020
      (object [("type", .text Kind.array.name), ("items", object items), ("minItems", .int 1)]) =
      .all [.type true [.text Kind.array.name], .items 0 (Rule.ofValue .draft2020 (object items)),
        .least .items (.int 1)] := rfl
  obtain ⟨x, xs, rfl⟩ := List.exists_cons_of_ne_nil hne
  rw [Accepts, Decides, hrule]
  exact Rule.decides_all ((Keyword.decides_type rfl).cons_accepted ((Keyword.decides_items rfl h).cons_accepted
    (Keyword.decides_someItem.cons_accepted Keyword.allDecide_nil)))

theorem accepts_everyMember {members : List (String × Value)} {es : List (Scalar × Value)}
    (h : ∀ e ∈ es, Accepts (object members) e.2) :
    Accepts (object [("type", .text Kind.object.name), ("additionalProperties", object members)]) (.map es) := by
  have hrule : Rule.ofValue .draft2020
      (object [("type", .text Kind.object.name), ("additionalProperties", object members)]) =
      .all [.type true [.text Kind.object.name],
        .additionalProperties [] [] false (Rule.ofValue .draft2020 (object members))] := rfl
  rw [Accepts, Decides, hrule]
  exact Rule.decides_all ((Keyword.decides_type rfl).cons_accepted ((Keyword.decides_everyMember rfl h).cons_accepted
    Keyword.allDecide_nil))

/-! ## Closed objects -/

/-- Whether a name is that of an extension. -/
def IsExtension (name : String) : Prop := "x-".toList <+: name.toList

theorem anyMatches_extension (s : String) :
    Pattern.anyMatches [.ofText extensionRule.1] s = .ok ("x-".toList.isPrefixOf s.toList) := by
  simp only [Pattern.anyMatches, extensionRule, Pattern.extension_matches]
  cases "x-".toList.isPrefixOf s.toList <;> rfl

/-- Whether an object has the fields that a closed object must have, and none but its properties and extensions. -/
structure Closed (props : List (String × Value)) (names : List String) (es : List (Scalar × Value)) : Prop where
  required : ∀ n ∈ names, HasMember es n
  names : ∀ e ∈ es, ∃ name, e.1 = .text name ∧ (name ∈ props.map Prod.fst ∨ IsExtension name)

variable {props : List (String × Value)} {names : List String} {es : List (Scalar × Value)}

/-- What a closed object decides is what its properties decide, and what further keywords do. -/
theorem decides_closedMembers (more : List (String × Value)) {q : String → Prop} {r : Prop}
    (hp : ∀ p ∈ props, isMap p.2 = true) (hclosed : Closed props names es)
    (hrules : ∀ p ∈ props, ∀ x, (Scalar.text p.1, x) ∈ es → Decides p.2 x (q p.1))
    (hmore : Keyword.AllDecide (Rule.keywords .draft2020
      ((closedMembers props names ++ more).map fun m => (.text m.1, m.2)) (more.map fun m => (.text m.1, m.2))) (.map es) r) :
    Decides (object (closedMembers props names ++ more)) (.map es)
      ((∀ p ∈ props, HasMember es p.1 → q p.1) ∧ r) := by
  rw [Decides, ofValue_closed props names more hp]
  have hrequired : Keyword.Decides (.required (names.map .text)) (.map es) True :=
    (Keyword.decides_required names).congr (iff_true_intro hclosed.required)
  have hproperties : Keyword.Decides (.properties (props.map fun p => (p.1, Rule.ofValue .draft2020 p.2))) (.map es)
      (∀ p ∈ props, HasMember es p.1 → q p.1) :=
    (Keyword.decides_properties (List.forall_mem_map.2 hrules)).congr List.forall_mem_map
  have hpatterns : Keyword.Decides (.patternProperties [(.ofText extensionRule.1, .all [])]) (.map es) True :=
    Keyword.decides_patternProperties (List.forall_mem_singleton.2 fun e _ =>
      ⟨_, Pattern.extension_matches _, fun _ => Rule.decides_all Keyword.allDecide_nil⟩)
  have hextras : Keyword.Decides
      (.additionalProperties (props.map Prod.fst) [.ofText extensionRule.1] true (.always false)) (.map es) True := by
    refine (Keyword.decides_noExtras anyMatches_extension).congr (iff_true_intro fun e he => ?_)
    obtain ⟨name, hname, h⟩ := hclosed.names e he
    rw [hname, List.isPrefixOf_iff_prefix]
    exact h
  exact Rule.decides_all ((Keyword.decides_type rfl).cons_accepted (hrequired.cons_accepted
    (Keyword.Decides.cons hproperties (hpatterns.cons_accepted (hextras.cons_accepted hmore)))))

/-- A closed object is kept if its properties are. -/
theorem accepts_closed (hp : ∀ p ∈ props, isMap p.2 = true) (hclosed : Closed props names es)
    (hrules : ∀ p ∈ props, ∀ x, (Scalar.text p.1, x) ∈ es → Accepts p.2 x) :
    Accepts (closed props names) (.map es) := by
  have h : Decides (object (closedMembers props names ++ [])) (.map es)
      ((∀ p ∈ props, HasMember es p.1 → True) ∧ True) :=
    decides_closedMembers [] (q := fun _ => True) hp hclosed hrules Keyword.allDecide_nil
  rw [List.append_nil] at h
  exact h.congr (iff_true_intro ⟨fun _ _ _ => trivial, trivial⟩)

/-! ## Keywords beside those of closed objects -/

theorem decides_requiredAlone (names : List String) :
    Decides (object [required names]) (.map es) (∀ n ∈ names, HasMember es n) := by
  have hrule : Rule.ofValue .draft2020 (object [required names]) = .all [.required (names.map .text)] := rfl
  rw [Decides, hrule]
  exact Rule.decides_all (((Keyword.decides_required names).cons Keyword.allDecide_nil).congr (iff_of_eq (and_true _)))

/-- That an object must not have all of several members. -/
theorem decides_lacksOne (names : List String) {all : List (Scalar × Value)} :
    Keyword.AllDecide (Rule.keywords .draft2020 all [(.text "not", object [required names])]) (.map es)
      ¬∀ n ∈ names, HasMember es n :=
  ((Keyword.decides_not (decides_requiredAlone names)).cons Keyword.allDecide_nil).congr (iff_of_eq (and_true _))

/-- That an object must have one of several members. -/
theorem decides_hasOne (names : List String) {all : List (Scalar × Value)} :
    Keyword.AllDecide (Rule.keywords .draft2020 all
      [(.text "$schema", .text Dialect.draft2020.uri),
        (.text "anyOf", .list (names.map fun n => object [required [n]]))])
      (.map es) (∃ n ∈ names, HasMember es n) := by
  have hlist : Rule.listOf .draft2020 (names.map fun n => object [required [n]]) =
      names.map fun n => Rule.ofValue .draft2020 (object [required [n]]) := by
    induction names with
    | nil => rfl
    | cons n names ih => rw [List.map_cons, List.map_cons, ← ih, Rule.listOf]
  have hkeywords : Rule.keywords .draft2020 all
      [(.text "$schema", .text Dialect.draft2020.uri),
        (.text "anyOf", .list (names.map fun n => object [required [n]]))] =
      [.anyOf (names.map fun n => Rule.ofValue .draft2020 (object [required [n]]))] := by
    rw [← hlist]
    rfl
  rw [hkeywords]
  refine ((Keyword.decides_anyOf fun n _ => decides_requiredAlone [n]).cons Keyword.allDecide_nil).congr ?_
  simp

theorem allDecide_dialect {all : List (Scalar × Value)} {v : Value} :
    Keyword.AllDecide (Rule.keywords .draft2020 all [(.text "$schema", .text Dialect.draft2020.uri)]) v True :=
  Keyword.allDecide_nil

theorem accepts_version {version : String} {s : String} (h : (Pattern.ofText version).matches? s = .ok true) :
    Accepts (object [("type", .text Kind.string.name), ("pattern", .text version)]) (.text s) := by
  have hrule : Rule.ofValue .draft2020 (object [("type", .text Kind.string.name), ("pattern", .text version)]) =
      .all [.type true [.text Kind.string.name], .pattern (.ofText version)] := rfl
  rw [Accepts, Decides, hrule]
  exact Rule.decides_all ((Keyword.decides_type rfl).cons_accepted ((Keyword.decides_pattern h).cons_accepted
    Keyword.allDecide_nil))

/-! ## Paths -/

/-- Whether a name is one that the paths of a document may have. -/
def IsPathName (name : String) : Prop := "/".toList <+: name.toList ∨ IsExtension name

theorem anyMatches_path (s : String) : Pattern.anyMatches [.ofText "^/", .ofText extensionRule.1] s =
    .ok ("/".toList.isPrefixOf s.toList || "x-".toList.isPrefixOf s.toList) := by
  simp only [Pattern.anyMatches, extensionRule, Pattern.extension_matches, Pattern.path_matches]
  cases "/".toList.isPrefixOf s.toList <;> cases "x-".toList.isPrefixOf s.toList <;> rfl

/-- The rule of the paths decides of objects under names whether the names are those of paths. -/
theorem decides_paths (h : ∀ e ∈ es, ∃ name members, e = (.text name, .map members)) :
    Decides paths (.map es) (∀ name, HasMember es name → IsPathName name) := by
  have hrule : Rule.ofValue .draft2020 paths = .all [.type true [.text Kind.object.name],
      .patternProperties [(.ofText "^/", Rule.ofValue .draft2020 (ofType .object)), (.ofText extensionRule.1, .all [])],
      .additionalProperties [] [.ofText "^/", .ofText extensionRule.1] true (.always false)] := rfl
  have hpatterns : Keyword.Decides (.patternProperties [(.ofText "^/", Rule.ofValue .draft2020 (ofType .object)),
      (.ofText extensionRule.1, .all [])]) (.map es) True := by
    refine Keyword.decides_patternProperties
      (List.forall_mem_cons.2 ⟨fun e he => ?_, List.forall_mem_singleton.2 fun e _ => ?_⟩)
    · obtain ⟨name, members, rfl⟩ := h e he
      exact ⟨_, Pattern.path_matches _, fun _ => accepts_ofType rfl⟩
    · exact ⟨_, Pattern.extension_matches _, fun _ => Rule.decides_all Keyword.allDecide_nil⟩
  rw [Decides, hrule]
  refine Rule.decides_all ((Keyword.decides_type rfl).cons_accepted (hpatterns.cons_accepted
    (((Keyword.decides_noExtras anyMatches_path).cons Keyword.allDecide_nil).congr ?_)))
  have hname : ∀ name : String, ((Value.scalar (.text name)).display ∈ [] ∨
      ("/".toList.isPrefixOf name.toList || "x-".toList.isPrefixOf name.toList) = true) ↔ IsPathName name := by
    intro name
    rw [or_iff_right List.not_mem_nil, Bool.or_eq_true, List.isPrefixOf_iff_prefix, List.isPrefixOf_iff_prefix]
    rfl
  rw [and_true]
  constructor
  · rintro hall name ⟨x, hx⟩
    exact (hname name).1 (hall _ hx)
  · intro hall e he
    obtain ⟨name, members, rfl⟩ := h e he
    exact (hname name).2 (hall name ⟨_, he⟩)

end ApiProjection.MetaSchema
