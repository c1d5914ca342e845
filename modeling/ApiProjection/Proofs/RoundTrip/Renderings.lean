import Mathlib
import ApiProjection.Proofs.RoundTrip.Nodes
import ApiProjection.Proofs.RoundTrip.Keyed
import ApiProjection.Yaml.Reader
/-!
# The two renderings of a document

A document is rendered as JSON and as YAML. The two texts are read as one value if all texts and keys of the document
come back from YAML. A text with U+0085 in it between apostrophes does not: the break is written as it is, and read as a
line feed. Nor does a text far to the right whose line ends behind an escape, or a key that takes too many characters
for its line once it is spelled out (`Yaml.textComesBack`, `Yaml.keyComesBack`).

* `Yaml.Node.build_node`: the node of a value is built as what comes back of the value in JSON.
* `Yaml.read_write_object`: the YAML text of an object is read as that.
* `Api.of_project_rendered`: the renderings are two texts of one document.
-/
namespace ApiProjection

/-! ## Maps -/

section
variable {α β γ δ : Type} {same : α → α → Bool} {same' : γ → γ → Bool} {f : α → γ} {g : β → δ}

theorem upsert_map (h : ∀ a b, same' (f a) (f b) = same a b) (k : α) (v : β) (es : List (α × β)) :
    upsert same' (f k) (g v) (es.map (Prod.map f g)) = (upsert same k v es).map (Prod.map f g) := by
  induction es with
  | nil => rfl
  | cons e es ih =>
    rw [List.map_cons, upsert, Prod.map_fst, h, upsert, ih]
    split <;> rfl

theorem foldl_upsert_map (h : ∀ a b, same' (f a) (f b) = same a b) (es acc : List (α × β)) :
    (es.map (Prod.map f g)).foldl (fun acc (k, v) => upsert same' k v acc) (acc.map (Prod.map f g)) =
      (es.foldl (fun acc (k, v) => upsert same k v acc) acc).map (Prod.map f g) := by
  induction es generalizing acc with
  | nil => rfl
  | cons e es ih =>
    rw [List.map_cons, List.foldl_cons, List.foldl_cons, ← ih, ← upsert_map h]
    rfl

/-- Entries are brought together alike once their keys and values have been mapped. -/
theorem collapse_map (h : ∀ a b, same' (f a) (f b) = same a b) (es : List (α × β)) :
    collapse same' (es.map (Prod.map f g)) = (collapse same es).map (Prod.map f g) :=
  foldl_upsert_map h es []

end

namespace Yaml.Node

theorem sameKey_text (k l : String) : sameKey (.text k) (.text l) = (k == l) := by
  rw [Bool.eq_iff_iff, sameKey, Bool.or_eq_true, Scalar.same_text]
  simp

/-- The members of an object as the reader of YAML brings them together. -/
theorem valueRead_collapse (ms : List (String × Json)) :
    Json.valueRead (.object ms) =
      .map (collapse sameKey ((ms.map fun m => (m.1, m.2.valueRead)).map fun e => (.text e.1, e.2))) := by
  have hmap : ((ms.map fun m => (m.1, m.2.valueRead)).map fun e => (.text e.1, e.2) : List (Scalar × Value)) =
      (Json.rereadMembers ms).map (Prod.map .text Json.toValue) := by
    rw [Json.rereadMembers_eq, List.map_map, List.map_map]
    rfl
  rw [hmap, collapse_map sameKey_text, Json.valueRead, Json.reread, Json.toValue, Json.membersToEntries_eq]
  rfl

/-! ## The value of a node -/

/-- A value without faults. -/
def built (v : Value) : Built := { value := v }

theorem scalarOf_bool (b : Bool) : scalarOf .bool (if b then "true" else "false") = .ok (.bool b) := by
  cases b <;> cbv

/-- The map of entries that have no fault. -/
theorem mapOf_built (es : List (String × Value)) :
    mapOf (es.map fun e => ⟨built (.text e.1), built e.2⟩) =
      built (.map (collapse sameKey (es.map fun e => (.text e.1, e.2)))) := by
  have hentries : es.filterMap (fun e => some (Scalar.text e.1, e.2)) = es.map fun e => (.text e.1, e.2) :=
    congrFun List.filterMap_eq_map' es
  have hfaults : es.flatMap (fun _ => ([] : List (Nat × Fault))) = [] := List.flatMap_eq_nil_iff.2 fun _ _ => rfl
  simp only [mapOf, built, Built.deeper, List.filterMap_map, List.flatMap_map, Function.comp_def, List.map_nil,
    List.append_nil, hentries, hfaults]

/-- The list of values that have no fault. -/
theorem sequence_built (vs : List Value) :
    ({ value := .list ((vs.map built).map (·.value)), faults := (vs.map built).flatMap Built.deeper } : Built) =
      built (.list vs) := by
  have hvalues : (vs.map built).map (·.value) = vs := by
    rw [List.map_map]
    exact List.map_id vs
  have hfaults : (vs.map built).flatMap Built.deeper = [] := by
    rw [List.flatMap_eq_nil_iff, List.forall_mem_map]
    exact fun v _ => rfl
  rw [hvalues, hfaults]
  rfl

mutual
/-- A node has the value that comes back of what it is the node of. -/
theorem build_node : ∀ (j : Json), (∀ x ∈ j.floats, x.isFinite = true) → j.hasLongInteger = false →
    build (node j) = built j.valueRead
  | .null => by
    intro _ _
    rw [node, build]
    rfl
  | .bool b => by
    intro _ _
    rw [node, build, scalarOf_bool]
    rfl
  | .int n => by
    intro _ hlong
    rw [node, build]
    exact congrArg Built.ofScalar (congrArg (Except.map .int) (Number.int_writeInt (Json.natAbs_lt hlong)))
  | .float x => by
    intro hf _
    rw [node, build]
    cases x with
    | nan => exact absurd (hf .nan (List.mem_singleton_self _)) Bool.false_ne_true
    | infinite s => exact absurd (hf (.infinite s) (List.mem_singleton_self _)) Bool.false_ne_true
    | finite s m e =>
      obtain ⟨d, hd, hwf, hpoint, hvalue⟩ := floatChars_finite s m e
      have hread := Number.float_decimal hwf hpoint
      rw [← hd, hvalue] at hread
      exact congrArg Built.ofScalar (congrArg (Except.map .float) hread)
  | .text s => by
    intro _ _
    rw [node, build]
    rfl
  | .list xs => by
    intro hf hlong
    rw [node, build, Json.valueRead_list]
    simp only [buildAll_nodes xs hf hlong]
    exact sequence_built _
  | .object ms => by
    intro hf hlong
    rw [node, build, members]
    simp only [splitMembers_entries ms hf hlong]
    rw [valueRead_collapse]
    exact mapOf_built _

theorem buildAll_nodes : ∀ (xs : List Json), (∀ x ∈ Json.floatsOfItems xs, x.isFinite = true) →
    Json.anyLong xs = false → buildAll (nodes xs) = (xs.map Json.valueRead).map built
  | [] => by
    intro _ _
    rw [nodes, buildAll]
    rfl
  | x :: xs => by
    intro hf hlong
    rw [Json.floatsOfItems, List.forall_mem_append] at hf
    rw [Json.anyLong, Bool.or_eq_false_iff] at hlong
    rw [nodes, buildAll, build_node x hf.1 hlong.1, buildAll_nodes xs hf.2 hlong.2]
    rfl

theorem splitMembers_entries : ∀ (ms : List (String × Json)), (∀ x ∈ Json.floatsOfMembers ms, x.isFinite = true) →
    Json.anyLongMember ms = false →
    splitMembers (entries ms) =
      .ok ([], (ms.map fun m => (m.1, m.2.valueRead)).map fun e => ⟨built (.text e.1), built e.2⟩)
  | [] => by
    intro _ _
    rw [entries, splitMembers]
    rfl
  | (k, x) :: ms => by
    intro hf hlong
    rw [Json.floatsOfMembers, List.forall_mem_append] at hf
    rw [Json.anyLongMember, Bool.or_eq_false_iff] at hlong
    have hkey : build (.scalar .str k) = built (.text k) := by
      rw [build]
      rfl
    rw [entries, splitMembers, splitMembers_entries ms hf.2 hlong.2, build_node x hf.1 hlong.1, hkey]
    · rfl
    all_goals nofun
end

theorem value_node {j : Json} (hf : ∀ x ∈ j.floats, x.isFinite = true) (hlong : j.hasLongInteger = false) :
    (node j).value = .ok j.valueRead := by
  rw [Node.value, build_node j hf hlong]
  rfl

end Yaml.Node

/-! ## Reading a document back -/

/-- **The YAML text of an object is read as what comes back of it in JSON,** if its numbers are finite and can be
written down, and its texts and keys come back from where they stand. -/
theorem Yaml.read_write_object {ms : List (String × Json)} (hf : ∀ x ∈ (Json.object ms).floats, x.isFinite = true)
    (hlong : (Json.object ms).hasLongInteger = false) (hback : comesBack none false (.object ms) = true) :
    Yaml.read (Yaml.write (.object ms)) = .ok (Json.object ms).valueRead := by
  rw [Yaml.read, read_write hf hback, Node.ofTokens_tokens hf]
  exact Node.value_node hf hlong

theorem Projection.of_render_rendered {ε : Type} {t : Target} {check : Option (Check ε)} {doc : Node} {r : Rendering}
    (h : render t check doc = .rendered r) : ∃ j, doc.document = .ok j ∧ r = ⟨jsonText j, Yaml.write j⟩ := by
  cases hj : doc.document with
  | error u =>
    rw [render_of_error hj] at h
    cases h
  | ok j =>
    cases check with
    | none =>
      rw [render_of_ok hj] at h
      cases h
      exact ⟨j, rfl, rfl⟩
    | some check =>
      rw [render_checked hj] at h
      split at h
      · cases h
      · cases h
        exact ⟨j, rfl, rfl⟩

namespace Api

variable {a : Api} {t : Target} {strict : Bool}

/-- A projection that ends with renderings has written one document twice. -/
theorem of_project_rendered {ε : Type} {target : Value} {check : Option (Projection.Check ε)} {r : Projection.Rendering}
    (h : (Api.project (some a) target strict check).value = .rendered r) :
    ∃ t doc j, Target.parse target = .ok t ∧ (a.toDocument t strict).value = .ok doc ∧ doc.document = .ok j ∧
      r = ⟨Projection.jsonText j, Yaml.write j⟩ := by
  unfold Api.project at h
  cases ht : Target.parse target with
  | error e =>
    rw [ht] at h
    cases h
  | ok t =>
    simp only [ht, projectTo] at h
    cases hdoc : (a.toDocument t strict).value with
    | error e =>
      rw [hdoc] at h
      cases h
    | ok doc =>
      rw [hdoc] at h
      obtain ⟨j, hj, hr⟩ := Projection.of_render_rendered h
      exact ⟨t, doc, j, rfl, hdoc, hj, hr⟩

/-- The JSON of a document is an object. -/
theorem document_object {doc : Node} {j : Json} (hdoc : (a.toDocument t strict).value = .ok doc)
    (hj : doc.toJson = .ok j) : ∃ ms, j = .object ms := by
  obtain ⟨es, xs, rfl⟩ : ∃ es xs, doc = .object es xs := by
    rw [eq_written hdoc]
    cases t <;> exact ⟨_, _, rfl⟩
  rw [Node.toJson] at hj
  obtain ⟨own, -, hj⟩ := Node.bind_ok hj
  obtain ⟨extra, -, hj⟩ := Node.bind_ok hj
  cases hj
  exact ⟨_, rfl⟩

/-- **Both renderings of a document are read as the same entries in the same order,** whatever checks the document, if
its numbers are finite and its texts and keys come back from where they stand in YAML. -/
theorem renderings_read {ε : Type} {target : Value} {check : Option (Projection.Check ε)} {r : Projection.Rendering}
    (h : (Api.project (some a) target strict check).value = .rendered r) :
    ∃ t doc j, Target.parse target = .ok t ∧ (a.toDocument t strict).value = .ok doc ∧ doc.document = .ok j ∧
      r = ⟨Projection.jsonText j, Yaml.write j⟩ ∧
      ((∀ x ∈ j.floats, x.isFinite = true) → Yaml.comesBack none false j = true →
        ∃ entries, j.valueRead = .map entries ∧ Content.read (Hint.ofName "json") r.json = .ok entries ∧
          Content.read (Hint.ofName "yaml") r.yaml = .ok entries) := by
  obtain ⟨t, doc, j, ht, hdoc, hj, rfl⟩ := of_project_rendered h
  refine ⟨t, doc, j, ht, hdoc, hj, rfl, fun hfinite hback => ?_⟩
  obtain ⟨hjson, hlong⟩ := Node.of_document hj
  obtain ⟨ms, rfl⟩ := document_object hdoc hjson
  obtain ⟨entries, hentries, -⟩ := Json.valueRead_object ms
  refine ⟨entries, hentries, ?_, ?_⟩
  · have hread := Content.read_jsonText (Hint.ofName_ne_yaml (by decide : "json" ≠ "yaml")) hlong
    rw [← Json.valueRead, hentries] at hread
    exact hread
  · have hread := Yaml.read_write_object hfinite hlong hback
    rw [hentries] at hread
    have hyaml : Content.read .yaml (Yaml.write (.object ms)) = Content.readYaml none (Yaml.write (.object ms)) := rfl
    change Content.read .yaml (Yaml.write (.object ms)) = .ok entries
    rw [hyaml, Content.readYaml, hread]
    rfl

/-- An interface with texts that look like something else, on several lines or out of ASCII. -/
def almanac : Api where
  info := { title := "no", version := "1.0", description := some "Ebb and flood:\n\n- spring\n - neap" }
  paths := [("/moon: new #1", {})]
  extensions := [("x-date", .text "2024-06-01"), ("x-level", .float (.finite false 5902958103587057 (-69))),
    ("x-mark\n", .text "\x01 é 😀"), ("x-merge", .list [.text "<<", .null])]

/-- The document of that interface. -/
def almanacJson : Json := .object [("openapi", .text "3.0.4"),
  ("info", .object [("title", .text "no"), ("description", .text "Ebb and flood:\n\n- spring\n - neap"),
    ("version", .text "1.0")]),
  ("paths", .object [("/moon: new #1", .object [])]), ("x-date", .text "2024-06-01"),
  ("x-level", .float (.finite false 5902958103587057 (-69))), ("x-mark\n", .text "\x01 é 😀"),
  ("x-merge", .list [.text "<<", .null])]

theorem renderings_read_almanac : ∃ r entries,
    (Api.project (some almanac) (.text "3.0") true (none : Option (Projection.Check Invalid))).value = .rendered r ∧
      almanacJson.valueRead = .map entries ∧ Content.read (Hint.ofName "json") r.json = .ok entries ∧
      Content.read (Hint.ofName "yaml") r.yaml = .ok entries := by
  have htarget : Target.parse (.text "3.0") = .ok .v30 := by cbv
  have hdoc : (almanac.toDocument .v30 true).value = .ok almanac.written30 := by
    rw [toDocument, project30_run]
    rfl
  have hjson : almanac.written30.toJson = .ok almanacJson := by cbv
  have hlong : almanacJson.hasLongInteger = false := by
    simp [almanacJson, Json.hasLongInteger, Json.anyLongMember, Json.anyLong]
  have hj : almanac.written30.document = .ok almanacJson := Node.document_of_toJson hjson hlong
  have hvalue : (Api.project (some almanac) (.text "3.0") true (none : Option (Projection.Check Invalid))).value =
      .rendered ⟨Projection.jsonText almanacJson, Yaml.write almanacJson⟩ := by
    rw [Api.project, htarget]
    simp only [projectTo, hdoc, Projection.render_of_ok hj]
  have hback : Yaml.comesBack none false almanacJson = true := by decide +kernel
  have hfinite : ∀ x ∈ almanacJson.floats, x.isFinite = true := by
    simp [almanacJson, Json.floats, Json.floatsOfMembers, Json.floatsOfItems, Binary64.isFinite]
  obtain ⟨t, doc, j, ht, hdoc', hj', -, hread⟩ := renderings_read hvalue
  cases htarget.symm.trans ht
  cases hdoc.symm.trans hdoc'
  cases hj.symm.trans hj'
  obtain ⟨entries, hentries, hjsonRead, hyamlRead⟩ := hread hfinite hback
  exact ⟨_, entries, hvalue, hentries, hjsonRead, hyamlRead⟩

/-- A description with the break of U+0085 in the key of an extension. -/
def broken : Api :=
  { info := { title := "T", version := "1" }, paths := [("/a", {})], extensions := [("x-a\x85b", .bool true)] }

/-- The document of that description, with a key for the extension. -/
def brokenJson (k : String) : Json := .object [("openapi", .text "3.0.4"),
  ("info", .object [("title", .text "T"), ("version", .text "1")]), ("paths", .object [("/a", .object [])]),
  (k, .bool true)]

/-- The entries of that document. -/
def brokenEntries (k : String) : List (Scalar × Value) := [(.text "openapi", .text "3.0.4"),
  (.text "info", .map [(.text "title", .text "T"), (.text "version", .text "1")]),
  (.text "paths", .map [(.text "/a", .map [])]), (.text k, .bool true)]

open Yaml.Node (readMapping source standardHandles)

/-- The members of that document but the extension. -/
def brokenMembers : List (String × Json) := [("openapi", .text "3.0.4"),
  ("info", .object [("title", .text "T"), ("version", .text "1")]), ("paths", .object [("/a", .object [])])]

/-- The tokens of the extension with a blank in its key, which stands between apostrophes, up to the end. -/
def lastTokens : List Yaml.Token := [.key, .scalar false "x-a b", .value, .scalar true "true", .blockEnd]

/-- The tokens that are read. -/
def brokenTokens : List Yaml.Token := .blockMapping :: (Yaml.memberTokens brokenMembers ++ lastTokens)

/-- The key is written as `'x-a\u0085  b'`, and read with a blank. -/
theorem read_write_broken : Yaml.Token.read (Yaml.write (brokenJson "x-a\x85b")) = brokenTokens := by decide +kernel

theorem finite_broken (k : String) : ∀ x ∈ (brokenJson k).floats, x.isFinite = true := by
  simp [brokenJson, Json.floats, Json.floatsOfMembers]

theorem hasLongInteger_broken (k : String) : (brokenJson k).hasLongInteger = false := by
  simp [brokenJson, Json.hasLongInteger, Json.anyLongMember]

/-- The tokens are those of the document with the blank in its key: quotes make no other text of it. -/
theorem ofTokens_broken : Yaml.Node.ofTokens brokenTokens = .ok (some (Yaml.node (brokenJson "x-a b"))) := by
  have hbool : Yaml.Plain.ofChars "true".toList = .bool := by decide
  have hlast (fuel : Nat) (hfuel : 7 ≤ fuel) : readMapping fuel (source standardHandles lastTokens) =
      .ok ([(.scalar .str "x-a b", .scalar .bool "true")], source standardHandles []) := by
    obtain ⟨fuel, rfl⟩ : ∃ f, fuel = f + 3 := ⟨fuel - 3, by omega⟩
    have hvalue : Yaml.Node.read .afterKey (fuel + 1) (source standardHandles [.scalar true "true", .blockEnd]) =
        .ok (.scalar .bool "true", source standardHandles [.blockEnd]) := Yaml.Node.read_word hbool (by omega)
    exact Yaml.Node.readMapping_cons ⟨by simp, by simp, by simp⟩ hvalue (Yaml.Node.readMapping_end [] (by omega))
  have hfinite : ∀ x ∈ Json.floatsOfMembers brokenMembers, x.isFinite = true := by
    simp [brokenMembers, Json.floatsOfMembers, Json.floats]
  have hhead : lastTokens.head? ≠ some .entry := by simp [lastTokens]
  have hlength : brokenTokens.length = (Yaml.memberTokens brokenMembers).length + 5 + 1 := by
    rw [brokenTokens, List.length_cons, List.length_append]
    rfl
  have hmembers := Yaml.Node.readMapping_append (h := standardHandles) brokenMembers 7
    (2 * brokenTokens.length + 1) hfinite hhead hlast (by omega)
  exact Yaml.Node.ofTokens_of_read rfl (Yaml.Node.read_blockMapping (by simp) hmembers)

/-- That break is written as it is between apostrophes, an indent behind it, and read as a line feed that is folded into
a blank: JSON gives back the key of the extension, YAML another one. -/
theorem renderings_differ : ∃ r,
    (Api.project (some broken) (.text "3.0") true (none : Option (Projection.Check Invalid))).value = .rendered r ∧
      Content.read (Hint.ofName "json") r.json = .ok (brokenEntries "x-a\x85b") ∧
      Content.read (Hint.ofName "yaml") r.yaml = .ok (brokenEntries "x-a b") ∧
      brokenEntries "x-a\x85b" ≠ brokenEntries "x-a b" := by
  have htarget : Target.parse (.text "3.0") = .ok .v30 := by cbv
  have hdoc : (broken.toDocument .v30 true).value = .ok broken.written30 := by
    rw [toDocument, project30_run]
    rfl
  have hjson : broken.written30.toJson = .ok (brokenJson "x-a\x85b") := by cbv
  have hvalue : (brokenJson "x-a\x85b").valueRead = .map (brokenEntries "x-a\x85b") := by cbv
  have hlong := hasLongInteger_broken "x-a\x85b"
  refine ⟨⟨Projection.jsonText (brokenJson "x-a\x85b"), Yaml.write (brokenJson "x-a\x85b")⟩, ?_, ?_, ?_, ?_⟩
  · rw [Api.project, htarget]
    simp only [projectTo, hdoc, Projection.render_of_ok (Node.document_of_toJson hjson hlong)]
  · have hread := Content.read_jsonText (Hint.ofName_ne_yaml (by decide : "json" ≠ "yaml")) hlong
    rw [← Json.valueRead, hvalue] at hread
    exact hread
  · change Content.readYaml none (Yaml.write (brokenJson "x-a\x85b")) = .ok (brokenEntries "x-a b")
    have hread : Yaml.read (Yaml.write (brokenJson "x-a\x85b")) = .ok (brokenJson "x-a b").valueRead := by
      rw [Yaml.read, read_write_broken, ofTokens_broken]
      exact Yaml.Node.value_node (finite_broken _) (hasLongInteger_broken _)
    have hblank : (brokenJson "x-a b").valueRead = .map (brokenEntries "x-a b") := by cbv
    rw [Content.readYaml, hread, hblank]
    rfl
  · simp [brokenEntries]

end Api
end ApiProjection
