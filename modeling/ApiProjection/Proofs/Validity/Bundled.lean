import ApiProjection.Proofs.Failure.Ending
import ApiProjection.Proofs.Reference.Site
import ApiProjection.Proofs.Validity.Outline
import ApiProjection.Validation.Validator
/-!
# Projected documents against the bundled meta-schemas

The projections and the bundled meta-schemas agree: of all that a projection writes, the meta-schema of its version
minds nothing but names of paths that are none and, in the newer version, that a document has neither paths nor
components nor webhooks.

* `MetaSchema.decides_written`: what the meta-schema of a version decides of a written document.
* `Validator.validate_never`: what a validation that nobody calls off comes to.
* `Api.project_bundled`: what a projection comes to if its document is validated.
-/
namespace ApiProjection

open Node (Field)

namespace MetaSchema

/-! ## Objects of which only the kind is looked at -/

theorem SecurityRequirement.isObject_project (r : SecurityRequirement) : IsObject r.project := ⟨_, _, rfl⟩

theorem keeping_security (rs : List SecurityRequirement) :
    Keeping (.nodes "security" (rs.map SecurityRequirement.project)) ("security", listOf (ofType .object)) :=
  keeping_nodes "security" (List.forall_mem_map.2 fun r _ => keeps_object (SecurityRequirement.isObject_project r))

theorem keeping_servers (t : Target) (ss : List Server) (p : Pointer) :
    Keeping (.nodes "servers" (Server.projectAll t ss p).value) ("servers", listOf server) := by
  refine keeping_nodes "servers" ?_
  rw [Server.projectAll, Traced.value_items, List.forall_mem_map]
  exact fun s _ => keeps_server t s.1 _

theorem keeping_tags (t : Target) (gs : List Tag) :
    Keeping (.nodes "tags" (gs.map fun g => g.project t)) ("tags", listOf tag) :=
  keeping_nodes "tags" (List.forall_mem_map.2 fun g _ => keeps_tag t g)

theorem keeping_version {t : Target} {version : String}
    (h : (Pattern.ofText version).matches? t.version = .ok true) :
    Keeping (.text "openapi" t.version)
      ("openapi", object [("type", .text Kind.string.name), ("pattern", .text version)]) := by
  refine keeping_of_keeps "openapi" (Field.under_text _ _) (List.forall_mem_singleton.2 fun v hv => ?_)
  rw [Node.readsAs_text hv]
  exact accepts_version h

/-! ## Paths -/

/-- Paths are kept exactly if their names are those of paths. -/
theorem decides_pathItems (t : Target) (is : List (String × PathItem)) (p : Pointer) {v : Value}
    (h : (Node.object (PathItem.projectNamed t is p).value []).ReadsAs v) :
    Decides paths v (∀ i ∈ is, IsPathName i.1) := by
  obtain ⟨es, rfl, hmem⟩ := Node.readsAs_object h
  have hkeys : ∀ name, HasMember es name ↔ name ∈ is.map Prod.fst := by
    intro name
    rw [hmem.hasMember, PathItem.projectNamed_eq, Traced.value_named, List.map_map]
    exact or_iff_left List.not_mem_nil
  refine (decides_paths fun e he => ?_).congr ?_
  · obtain ⟨k, x⟩ := e
    obtain ⟨name, hname, ⟨n, hn, hread⟩ | hno⟩ := hmem.own_or_extension _ he
    · rw [PathItem.projectNamed_eq, Traced.value_named] at hn
      obtain ⟨i, -, heq⟩ := List.mem_map.1 hn
      cases heq
      obtain ⟨es', xs', hobj⟩ := Subject.pathItem_object t i.2 (p.key i.1)
      rw [hobj] at hread
      obtain ⟨members, hx, -⟩ := Node.readsAs_object hread
      exact ⟨_, members, by rw [← hname, ← hx]⟩
    · cases hno
  · simp only [hkeys, List.forall_mem_map]

/-! ## Whole documents -/

/-- What the properties of a whole document decide: that of the paths the names, any other nothing. -/
def RootDecides (a : Api) (name : String) : Prop := name = "paths" → ∀ i ∈ a.paths, IsPathName i.1

theorem Keeping.root {f : Field} {p : String × Value} (h : Keeping f p) (a : Api) (hp : p.1 ≠ "paths") :
    Fits (RootDecides a) f p :=
  ⟨h.1, fun e he v hv => (h.2 e he v hv).congr (iff_of_true trivial fun heq => absurd heq hp)⟩

theorem fits_paths (t : Target) {a : Api} (p : Pointer) {f : Field}
    (hf : ∀ e ∈ f, e = ("paths", .object (PathItem.projectNamed t a.paths p).value [])) :
    Fits (RootDecides a) f ("paths", paths) := by
  refine ⟨fun e he => by rw [hf e he], fun e he v hv => ?_⟩
  rw [hf e he] at hv
  exact (decides_pathItems t a.paths p hv).congr (by simp [RootDecides])

/-- Whether the paths of a document are kept where its properties are. -/
theorem root_iff {a : Api} {props : List (String × Value)} {es : List (Scalar × Value)}
    (hp : ∃ schema, ("paths", schema) ∈ props) (hpaths : a.paths ≠ [] → HasMember es "paths") :
    (∀ p ∈ props, HasMember es p.1 → RootDecides a p.1) ↔ ∀ i ∈ a.paths, IsPathName i.1 := by
  constructor
  · intro h i hi
    obtain ⟨schema, hm⟩ := hp
    exact h _ hm (hpaths (List.ne_nil_of_mem hi)) rfl i hi
  · exact fun h _ _ _ _ => h

/-- The properties that documents of both versions have. -/
def rootProperties (version : String) (info : Value) : List (String × Value) := [
  ("openapi", object [("type", .text Kind.string.name), ("pattern", .text version)]),
  ("info", info),
  ("servers", listOf server),
  ("paths", paths),
  ("components", ofType .object),
  ("security", listOf (ofType .object)),
  ("tags", listOf tag),
  ("externalDocs", externalDocs)]

theorem table_root {version : String} {info : Value} (h : isMap info = true) :
    Table (rootProperties version info ++ [("jsonSchemaDialect", string), ("webhooks", ofType .object)]) := by
  refine ⟨?_, ?_, ?_⟩
  · have hrest : ∀ v, isMap (listOf v) = true := fun _ => rfl
    simp only [rootProperties, List.cons_append, List.nil_append, List.forall_mem_cons, h, hrest, true_and]
    exact ⟨rfl, rfl, rfl, rfl, rfl, rfl, List.forall_mem_nil _⟩
  · simp [rootProperties]
  · simp [rootProperties, IsExtension]

theorem Table.of_append {props more : List (String × Value)} (h : Table (props ++ more)) : Table props where
  objects := fun p hp => h.objects p (List.mem_append_left more hp)
  nodup := by
    have hn := h.nodup
    rw [List.map_append] at hn
    exact hn.of_append_left
  plain := fun p hp => h.plain p (List.mem_append_left more hp)

theorem decides_written30 {a : Api} {v : Value} (hv : a.written30.ReadsAs v) :
    Decides (bundled .v30) v (∀ i ∈ a.paths, IsPathName i.1) := by
  have hp : Table (rootProperties "^3\\.0\\.\\d+(-.+)?$" info30) := Table.of_append (table_root rfl)
  obtain ⟨es, rfl, hclosed, hrules, hkeys⟩ := readsAs_extended (q := RootDecides a) hv ["openapi", "info", "paths"] hp
    (fits_of_forall₂
      (.cons ((keeping_version Pattern.version30_matches).root a (by simp))
      (.cons ((keeping_single "info" (keeps_info30 a.info)).root a (by simp))
      (.cons ((keeping_servers .v30 a.servers _).root a (by simp))
      (.cons (fits_paths .v30 _ (List.forall_mem_singleton.2 rfl))
      (.cons ((keeping_node? "components"
        (keeps_option (fun c => keeps_object (isObject_extended .v30 _ _)) _)).root a (by simp))
      (.cons ((keeping_security a.security).root a (by simp))
      (.cons ((keeping_tags .v30 a.tags).root a (by simp))
      (.cons ((keeping_node? "externalDocs" (keeps_option (keeps_externalDocs .v30) _)).root a (by simp)) .nil)))))))))
    (by simp [Field.text])
  have h := decides_closedMembers [("$schema", .text Dialect.draft2020.uri)] hp.objects hclosed hrules
    allDecide_dialect
  refine h.congr ?_
  rw [and_true]
  exact root_iff ⟨paths, by simp [rootProperties]⟩ fun _ => hclosed.required "paths" (by simp)

/-- The properties of documents of the newer version. -/
def rootProperties31 : List (String × Value) :=
  rootProperties "^3\\.1\\.\\d+(-.+)?$" info31 ++ [("jsonSchemaDialect", string), ("webhooks", ofType .object)]

/-- The same in the order in which they are written. -/
def writtenProperties31 : List (String × Value) := [
  ("openapi", object [("type", .text Kind.string.name), ("pattern", .text "^3\\.1\\.\\d+(-.+)?$")]),
  ("jsonSchemaDialect", string),
  ("info", info31),
  ("servers", listOf server),
  ("paths", paths),
  ("webhooks", ofType .object),
  ("components", ofType .object),
  ("security", listOf (ofType .object)),
  ("tags", listOf tag),
  ("externalDocs", externalDocs)]

theorem keeping_servers31 (a : Api) : Keeping (.nodes "servers" a.servers31) ("servers", listOf server) := by
  unfold Api.servers31
  simp only
  split
  · exact keeping_nodes "servers" (List.forall_mem_singleton.2 keeps_defaultServer)
  · exact keeping_servers .v31 a.servers _

theorem named_ne_nil (name : String) {ns : List (String × Node)} : Field.named name ns ≠ [] ↔ ns ≠ [] := by
  cases ns <;> simp [Field.named]

theorem node?_ne_nil (name : String) {o : Option Node} : Field.node? name o ≠ [] ↔ o.isSome = true := by
  cases o <;> simp [Field.node?]

theorem pathItems_ne_nil {t : Target} {is : List (String × PathItem)} {p : Pointer} :
    (PathItem.projectNamed t is p).value ≠ [] ↔ is ≠ [] := by
  rw [PathItem.projectNamed_eq, Traced.value_named, Ne, List.map_eq_nil_iff]

/-- The fields of a document of the newer version. -/
def fields31 (a : Api) : List Field := [
  .text "openapi" Target.v31.version,
  .text "jsonSchemaDialect" Api.schemaDialect,
  [("info", a.info.written31)],
  .nodes "servers" a.servers31,
  .named "paths" (PathItem.projectNamed .v31 a.paths (Pointer.root.key "paths")).value,
  .named "webhooks" (PathItem.projectNamed .v31 a.webhooks (Pointer.root.key "webhooks")).value,
  .node? "components" (a.components.map fun c => c.project31.value),
  .nodes "security" (a.security.map SecurityRequirement.project),
  .nodes "tags" (a.tags.map fun g => g.project .v31),
  .node? "externalDocs" (a.externalDocs.map fun d => d.project .v31)]

theorem fits_fields31 {a : Api} (h : a.info.license.any License.conflicts = false) :
    List.Forall₂ (Fits (RootDecides a)) (fields31 a) writtenProperties31 := by
  have hpaths : Fits (RootDecides a)
      (.named "paths" (PathItem.projectNamed .v31 a.paths (Pointer.root.key "paths")).value) ("paths", paths) := by
    refine fits_paths .v31 (Pointer.root.key "paths") fun e he => ?_
    unfold Field.named at he
    split at he
    · cases he
    · exact List.mem_singleton.1 he
  have hcomponents : ∀ n ∈ a.components.map fun c => c.project31.value, Keeps (ofType .object) n :=
    keeps_option (fun c => keeps_object (isObject_extended .v31 _ _)) _
  exact .cons ((keeping_version Pattern.version31_matches).root a (by simp))
    (.cons ((keeping_text "jsonSchemaDialect" Api.schemaDialect).root a (by simp))
    (.cons ((keeping_single "info" (keeps_info31 h)).root a (by simp))
    (.cons ((keeping_servers31 a).root a (by simp))
    (.cons hpaths
    (.cons ((keeping_named "webhooks" _).root a (by simp))
    (.cons ((keeping_node? "components" hcomponents).root a (by simp))
    (.cons ((keeping_security a.security).root a (by simp))
    (.cons ((keeping_tags .v31 a.tags).root a (by simp))
    (.cons ((keeping_node? "externalDocs" (keeps_option (keeps_externalDocs .v31) _)).root a (by simp)) .nil)))))))))

theorem decides_written31 {a : Api} {v : Value} (hl : a.info.license.any License.conflicts = false)
    (hv : a.written31.ReadsAs v) :
    Decides (bundled .v31) v
      ((∀ i ∈ a.paths, IsPathName i.1) ∧ (a.paths ≠ [] ∨ a.components.isSome = true ∨ a.webhooks ≠ [])) := by
  have hp : Table rootProperties31 := table_root rfl
  have hsame : ∀ p ∈ writtenProperties31, p ∈ rootProperties31 := by
    simp [writtenProperties31, rootProperties31, rootProperties]
  have hfits := fits_fields31 hl
  obtain ⟨es, rfl, hclosed, hrules, hkeys⟩ := readsAs_extended hv ["openapi", "info"] hp
    (fun f hf => (fits_of_forall₂ hfits f hf).imp fun p h => ⟨hsame p h.1, h.2⟩) (by simp [Field.text])
  have hwritten : ∀ {name f}, (name, f) ∈ (writtenProperties31.map Prod.fst).zip (fields31 a) → ¬IsExtension name →
      (HasMember es name ↔ f ≠ []) := by
    intro name f hm hx
    rw [hkeys name hx]
    exact mem_keys_flatten (under_of_fits hfits) (by simp [writtenProperties31]) hm
  have hpaths : HasMember es "paths" ↔ a.paths ≠ [] :=
    (hwritten (by simp [writtenProperties31, fields31]; rfl) (by simp [IsExtension])).trans
      ((named_ne_nil "paths").trans pathItems_ne_nil)
  have hcomponents : HasMember es "components" ↔ a.components.isSome = true := by
    rw [← Option.isSome_map (f := fun c : Components => c.project31.value), ← node?_ne_nil "components"]
    exact hwritten (by simp [writtenProperties31, fields31]) (by simp [IsExtension])
  have hwebhooks : HasMember es "webhooks" ↔ a.webhooks ≠ [] :=
    (hwritten (by simp [writtenProperties31, fields31]; rfl) (by simp [IsExtension])).trans
      ((named_ne_nil "webhooks").trans pathItems_ne_nil)
  have h := decides_closedMembers [("$schema", .text Dialect.draft2020.uri),
      ("anyOf", .list (["paths", "components", "webhooks"].map fun n => object [required [n]]))]
    hp.objects hclosed hrules (decides_hasOne ["paths", "components", "webhooks"])
  refine Decides.congr h (and_congr (root_iff ⟨paths, by simp [rootProperties31, rootProperties]⟩ hpaths.2) ?_)
  simp [hpaths, hcomponents, hwebhooks]

/-! ## Either version -/

end MetaSchema

/-- Whether a description has the outline that the meta-schema of a version asks for: the names of its paths are
those of paths, and in the newer version there is something in it. -/
def Api.HasOutline (t : Target) (a : Api) : Prop :=
  (∀ i ∈ a.paths, MetaSchema.IsPathName i.1) ∧
    (t = .v31 → a.paths ≠ [] ∨ a.components.isSome = true ∨ a.webhooks ≠ [])

namespace MetaSchema

/-- The meta-schema of a version decides of a written document whether its description has the outline. -/
theorem decides_written {t : Target} {strict : Bool} {a : Api} {doc : Node} {v : Value}
    (h : (a.toDocument t strict).value = .ok doc) (hv : doc.ReadsAs v) :
    Decides (bundled t) v (a.HasOutline t) := by
  rw [Api.eq_written h] at hv
  cases t with
  | v30 => exact (decides_written30 hv).congr (by simp [Api.HasOutline])
  | v31 =>
    have hl : a.info.license.any License.conflicts = false := by
      rw [Api.toDocument, Api.project31_run] at h
      split_ifs at h with hc
      exact Bool.eq_false_iff.2 hc
    exact (decides_written31 hl hv).congr (by simp [Api.HasOutline])

theorem check_bundled (t : Target) (v : Value) {p : Prop} (h : Decides (bundled t) v p) :
    (check (bundled t) v).Decides p := by
  have hroot : rootDefect? (bundled t) = none := by cases t <;> rfl
  have hdialect : Rule.dialectOf (bundled t) = .draft2020 := by cases t <;> rfl
  rw [check, hroot]
  simp only [hdialect]
  exact h _

end MetaSchema

/-! ## Validation -/

namespace Validator

theorem reports_never (vs : List Violation) (n : Nat) :
    reports Cancellation.never n vs = some (vs.map Violation.report) := by
  induction vs generalizing n with
  | nil => rfl
  | cons v vs ih =>
    rw [reports, ih]
    rfl

theorem withoutMark_jsonText (j : Json) : withoutMark (Projection.jsonText j) = Projection.jsonText j := by
  obtain ⟨c, cs, hcons, hc⟩ := Json.writeAt_cons .document 0 j
  have htext : (Projection.jsonText j).toList = c :: (cs ++ ['\n']) := by
    simp [Projection.jsonText, Json.pretty, Json.write, hcons]
  rw [withoutMark, htext]
  split
  · rename_i h
    exact absurd (List.cons.inj h).1 (Json.isEdge_iff.1 hc).2.2.2
  · rfl

/-- A document is found to be valid exactly if what the meta-schema decides of it holds, and else its violations
are reported. -/
theorem validate_never {v : Validator} {t : Target} {j : Json} (hlong : j.hasLongInteger = false) {p : Prop}
    (h : (MetaSchema.check (v.schemaFor t) j.valueRead).Decides p) :
    (p → v.validate .never (Projection.jsonText j) t = .ok ()) ∧
      (¬p → ∃ errors, errors ≠ [] ∧ v.validate .never (Projection.jsonText j) t = .error (.violations t errors)) := by
  have hstart : Cancellation.never 0 = false := rfl
  unfold validate
  simp only [hstart, Bool.false_eq_true, if_false, withoutMark_jsonText, Json.read_jsonText hlong, reports_never]
  have hends : (MetaSchema.check (v.schemaFor t) j.reread.toValue).defect = none := h.ends
  have hiff : (MetaSchema.check (v.schemaFor t) j.reread.toValue).violations = [] ↔ p := h.iff
  rw [hends]
  cases hv : (MetaSchema.check (v.schemaFor t) j.reread.toValue).violations with
  | nil => exact ⟨fun _ => rfl, fun hp => absurd (hiff.1 hv) hp⟩
  | cons w ws =>
    refine ⟨fun hp => ?_, fun _ => ⟨sortTexts ((w :: ws).map Violation.report), ?_, rfl⟩⟩
    · rw [hiff.2 hp] at hv
      cases hv
    · rw [sortTexts, ← List.length_pos_iff, List.length_mergeSort]
      exact Nat.succ_pos _

end Validator

/-! ## Validated projections -/

/-- A document that is written down is JSON without integers that are too long. -/
theorem Node.of_document {n : Node} {j : Json} (h : n.document = .ok j) :
    n.toJson = .ok j ∧ j.hasLongInteger = false := by
  cases hj : n.toJson with
  | error f =>
    obtain ⟨atTop, he⟩ := document_of_error hj
    cases he.symm.trans h
  | ok i =>
    have hd := (document_of_ok hj).symm.trans h
    split_ifs at hd with hlong
    cases hd
    exact ⟨rfl, Bool.eq_false_iff.2 hlong⟩

namespace Api

variable {a : Api} {t : Target} {strict : Bool} {ws : Warnings}

theorem projectTo_of_toDocument {ε : Type} {doc : Node} (h : a.toDocument t strict = ⟨.ok doc, ws⟩)
    (check : Option (Projection.Check ε)) : a.projectTo t strict check = ⟨Projection.render t check doc, ws⟩ := by
  rw [projectTo, h]

/-- A projection that ends with renderings has written the document that they are of. -/
theorem of_projectTo_rendered {ε : Type} {r : Projection.Rendering}
    (h : (a.projectTo t strict none : Traced (Projection.Outcome ε)) = ⟨.rendered r, ws⟩) :
    ∃ doc j, a.toDocument t strict = ⟨.ok doc, ws⟩ ∧ doc.document = .ok j ∧
      r = ⟨Projection.jsonText j, Yaml.write j⟩ := by
  cases hdoc : a.toDocument t strict with
  | mk value warnings =>
    cases value with
    | error e =>
      rw [projectTo, hdoc] at h
      cases h
    | ok doc =>
      rw [projectTo_of_toDocument hdoc] at h
      cases hj : doc.document with
      | error u =>
        rw [Projection.render_of_error hj] at h
        cases h
      | ok j =>
        rw [Projection.render_of_ok hj] at h
        cases h
        exact ⟨doc, j, rfl, hj, rfl⟩

/-- A projection that ends with renderings ends with the same ones if its document is validated and its description
has the outline of a document. Else it fails for the violations that are found, with the same warnings. -/
theorem project_bundled {target : Value} {r : Projection.Rendering}
    (h : Api.project (some a) target strict (none : Option (Projection.Check Invalid)) = ⟨.rendered r, ws⟩) :
    ∃ t, Target.parse target = .ok t ∧
      (a.HasOutline t →
        Api.project (some a) target strict (some (Validator.bundled.validate .never)) = ⟨.rendered r, ws⟩) ∧
      (¬a.HasOutline t → ∃ errors, errors ≠ [] ∧
        Api.project (some a) target strict (some (Validator.bundled.validate .never)) =
          ⟨.failed (.invalid t (.violations t errors)), ws⟩) := by
  unfold Api.project at h ⊢
  cases ht : Target.parse target with
  | error e =>
    rw [ht] at h
    cases h
  | ok t =>
    rw [ht] at h
    obtain ⟨doc, j, hdoc, hj, rfl⟩ := of_projectTo_rendered h
    obtain ⟨hjson, hlong⟩ := Node.of_document hj
    have hdecides := MetaSchema.check_bundled t j.valueRead
      (MetaSchema.decides_written (congrArg Traced.value hdoc) ⟨j, hjson, rfl⟩)
    have hschema : Validator.bundled.schemaFor t = MetaSchema.bundled t := by cases t <;> rfl
    obtain ⟨hvalid, hinvalid⟩ := Validator.validate_never hlong (hschema ▸ hdecides)
    simp only [projectTo_of_toDocument hdoc, Projection.render_checked hj]
    refine ⟨t, rfl, fun ho => by rw [hvalid ho], fun ho => ?_⟩
    obtain ⟨errors, hne, he⟩ := hinvalid ho
    exact ⟨errors, hne, by rw [he]⟩

/-- A description with one path. -/
def harbour (path : String) : Api := { info := { title := "Harbour", version := "1" }, paths := [(path, {})] }

theorem harbour_rendered (path : String) : ∃ r : Projection.Rendering,
    Api.project (some (harbour path)) (.text "3.1") false (none : Option (Projection.Check Invalid)) =
      ⟨.rendered r, []⟩ := by
  obtain ⟨j, hjson, hlong⟩ : ∃ j, ((harbour path).written .v31).toJson = .ok j ∧ j.hasLongInteger = false :=
    ⟨.object [("openapi", .text "3.1.2"),
      ("jsonSchemaDialect", .text "https://spec.openapis.org/oas/3.1/dialect/2024-11-10"),
      ("info", .object [("title", .text "Harbour"), ("version", .text "1")]),
      ("servers", .list [.object [("url", .text "/")]]), ("paths", .object [(path, .object [])])],
      by rfl, by simp [Json.hasLongInteger, Json.anyLongMember, Json.anyLong]⟩
  have hdoc : (harbour path).toDocument .v31 false = ⟨.ok ((harbour path).written .v31), []⟩ := by rfl
  have htarget : Target.parse (.text "3.1") = .ok .v31 := Target.parse_of_word (by decide +kernel)
  refine ⟨⟨Projection.jsonText j, Yaml.write j⟩, ?_⟩
  rw [Api.project, htarget]
  simp only [projectTo_of_toDocument hdoc, Projection.render_of_ok (Node.document_of_toJson hjson hlong)]

/-- With a slash before the path the document is valid, without it is not. -/
theorem project_bundled_harbour :
    (∃ r, Api.project (some (harbour "/berths")) (.text "3.1") false
      (some (Validator.bundled.validate .never)) = ⟨.rendered r, []⟩) ∧
    ∃ errors, errors ≠ [] ∧ Api.project (some (harbour "berths")) (.text "3.1") false
      (some (Validator.bundled.validate .never)) = ⟨.failed (.invalid .v31 (.violations .v31 errors)), []⟩ := by
  have htarget : Target.parse (.text "3.1") = .ok .v31 := Target.parse_of_word (by decide +kernel)
  obtain ⟨r, hr⟩ := harbour_rendered "/berths"
  obtain ⟨r', hr'⟩ := harbour_rendered "berths"
  obtain ⟨t, ht, hvalid, -⟩ := project_bundled hr
  obtain ⟨t', ht', -, hinvalid⟩ := project_bundled hr'
  cases htarget.symm.trans ht
  cases htarget.symm.trans ht'
  refine ⟨⟨r, hvalid ⟨?_, fun _ => .inl (by simp [harbour])⟩⟩, hinvalid fun h => ?_⟩
  · simp [harbour, MetaSchema.IsPathName]
  · have hname := h.1 ("berths", {}) (by simp [harbour])
    simp [MetaSchema.IsPathName, MetaSchema.IsExtension] at hname

end Api
end ApiProjection
