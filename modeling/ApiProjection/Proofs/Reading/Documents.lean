import ApiProjection.Proofs.Reading.Schemas
/-!
# Descriptions as codecs

All records of a description are codecs, up to the whole (`Api.codec`): all that is read can be dumped, and what
lasts, and only that, is read again; what is in other words is read as the same, and what has a key too many is
not read.
-/
namespace ApiProjection

open Record

variable {n : Nat}

/-! ## Document structure -/

theorem ExternalDocs.codec : Codec n ExternalDocs.read ExternalDocs.dump ExternalDocs.Lasts (.record .externalDocs) :=
  .record
    (fun _ _ => Part.start _ |>.seq (.required "url" .text) |>.seq (.text? "description") |>.seq .extensions)
    rfl rfl (fun _ => rfl) (fun t u h => by simp_all [Prod.ext_iff])
    (by simp [Lasts, ExtensionsLast])

theorem Contact.codec : Codec n Contact.read Contact.dump Contact.Lasts (.record .contact) :=
  .record
    (fun _ _ => Part.start _ |>.seq (.text? "name") |>.seq (.text? "url") |>.seq (.text? "email") |>.seq .extensions)
    rfl rfl (fun _ => rfl) (fun t u h => by simp_all [Prod.ext_iff])
    (by simp [Lasts, ExtensionsLast])

theorem License.codec : Codec n License.read License.dump License.Lasts (.record .license) :=
  .record
    (fun _ _ => Part.start _ |>.seq (.required "name" .text) |>.seq (.text? "identifier") |>.seq (.text? "url")
      |>.seq .extensions)
    rfl rfl (fun _ => rfl) (fun t u h => by simp_all [Prod.ext_iff])
    (by simp [Lasts, ExtensionsLast])

theorem Info.codec : Codec n Info.read Info.dump Info.Lasts (.record .info) :=
  .record
    (fun _ _ => Part.start _ |>.seq (.required "title" .text) |>.seq (.required "version" .text)
      |>.seq (.text? "summary") |>.seq (.text? "description") |>.seq (.text? "terms_of_service")
      |>.seq (.unset? "contact" Contact.codec rfl) |>.seq (.unset? "license" License.codec rfl) |>.seq .extensions)
    rfl rfl (fun _ => rfl) (fun t u h => by simp_all [Prod.ext_iff])
    (by simp [Lasts, ExtensionsLast, and_assoc])

theorem ServerVariable.codec :
    Codec n ServerVariable.read ServerVariable.dump ServerVariable.Lasts (.record .serverVariable) :=
  .record
    (fun _ _ => Part.start _ |>.seq (.required "default" .text) |>.seq (.unset? "enum" .texts rfl)
      |>.seq (.text? "description") |>.seq .extensions)
    rfl rfl (fun _ => rfl) (fun t u h => by simp_all [Prod.ext_iff])
    (by simp [Lasts, ExtensionsLast])

theorem Server.codec : Codec n Server.read Server.dump Server.Lasts (.record .server) :=
  .record
    (fun _ _ => Part.start _ |>.seq (.required "url" .text) |>.seq (.text? "description")
      |>.seq (.named "variables" ServerVariable.codec) |>.seq .extensions)
    rfl rfl (fun _ => rfl) (fun t u h => by simp_all [Prod.ext_iff])
    (by simp [Lasts, ExtensionsLast])

theorem Tag.codec : Codec n Tag.read Tag.dump Tag.Lasts (.record .tag) :=
  .record
    (fun _ _ => Part.start _ |>.seq (.required "name" .text) |>.seq (.text? "description")
      |>.seq (.unset? "external_docs" ExternalDocs.codec rfl) |>.seq .extensions)
    rfl rfl (fun _ => rfl) (fun t u h => by simp_all [Prod.ext_iff])
    (by simp [Lasts, ExtensionsLast])

/-! ## Headers and bodies -/

theorem Example.codec : Codec n Example.read Example.dump Example.Lasts (.record .example) :=
  .record
    (fun _ _ => Part.start _ |>.seq (.text? "ref") |>.seq (.text? "summary") |>.seq (.text? "description")
      |>.seq (.free "value") |>.seq (.text? "external_value") |>.seq .extensions)
    rfl rfl (fun _ => rfl) (fun t u h => by simp_all [Prod.ext_iff])
    (by simp [Lasts, ExtensionsLast])

theorem Header.dumpNamed_eq (hs : List (String × Header)) : dumpNamed hs = Dump.eachNamed dump hs :=
  Dump.eachNamed_unique dump dumpNamed rfl (fun _ _ _ => rfl) hs

theorem MediaType.dumpNamed_eq (ms : List (String × MediaType)) : dumpNamed ms = Dump.eachNamed dump ms :=
  Dump.eachNamed_unique dump dumpNamed rfl (fun _ _ _ => rfl) ms

theorem Encoding.dumpNamed_eq (es : List (String × Encoding)) : dumpNamed es = Dump.eachNamed dump es :=
  Dump.eachNamed_unique dump dumpNamed rfl (fun _ _ _ => rfl) es

section
variable (n)

theorem Header.codec_step
    (content : ∀ k < n, Codec k MediaType.read MediaType.dump MediaType.Lasts (.record .mediaType)) :
    Codec n Header.read Header.dump Header.Lasts (.record .header) :=
  .record
    (fun k hk => Part.start _ |>.seq (.text? "ref") |>.seq (.text? "description") |>.seq (.flag "required")
      |>.seq (.flag "deprecated") |>.seq (.flag "allow_empty_value") |>.seq (.text? "style") |>.seq (.flag "explode")
      |>.seq (.unset? "schema_" (Schema.codec k) Schema.read_null) |>.seq (.free "example")
      |>.seq (.named "examples" Example.codec) |>.seq (.named "content" (content k hk)) |>.seq .extensions)
    Header.read_eq rfl
    (fun t => by simp only [Header.dump, MediaType.dumpNamed_eq, List.nil_append, List.cons_append, id_eq])
    (fun t u h => by simp_all [Prod.ext_iff])
    (by simp [Header.Lasts, MediaType.namedLast_iff, ExtensionsLast, and_assoc])

theorem MediaType.codec_step
    (encoding : ∀ k < n, Codec k Encoding.read Encoding.dump Encoding.Lasts (.record .encoding)) :
    Codec n MediaType.read MediaType.dump MediaType.Lasts (.record .mediaType) :=
  .record
    (fun k hk => Part.start _ |>.seq (.unset? "schema_" (Schema.codec k) Schema.read_null) |>.seq (.free "example")
      |>.seq (.named "examples" Example.codec) |>.seq (.named "encoding" (encoding k hk)) |>.seq .extensions)
    MediaType.read_eq rfl
    (fun t => by simp only [MediaType.dump, Encoding.dumpNamed_eq, List.nil_append, List.cons_append, id_eq])
    (fun t u h => by simp_all [Prod.ext_iff])
    (by simp [MediaType.Lasts, Encoding.namedLast_iff, ExtensionsLast, and_assoc])

theorem Encoding.codec_step
    (headers : ∀ k < n, Codec k Header.read Header.dump Header.Lasts (.record .header)) :
    Codec n Encoding.read Encoding.dump Encoding.Lasts (.record .encoding) :=
  .record
    (fun k hk => Part.start _ |>.seq (.text? "content_type") |>.seq (.named "headers" (headers k hk))
      |>.seq (.text? "style") |>.seq (.flag "explode") |>.seq (.flag "allow_reserved") |>.seq .extensions)
    Encoding.read_eq rfl
    (fun t => by simp only [Encoding.dump, Header.dumpNamed_eq, List.nil_append, List.cons_append, id_eq])
    (fun t u h => by simp_all [Prod.ext_iff])
    (by simp [Encoding.Lasts, Header.namedLast_iff, ExtensionsLast])

/-- Headers, bodies and encodings are codecs together. -/
theorem body_codecs : Codec n Header.read Header.dump Header.Lasts (.record .header) ∧
    Codec n MediaType.read MediaType.dump MediaType.Lasts (.record .mediaType) ∧
      Codec n Encoding.read Encoding.dump Encoding.Lasts (.record .encoding) := by
  induction n using Nat.strong_induction_on with
  | h n ih =>
    exact ⟨Header.codec_step n fun k hk => (ih k hk).2.1, MediaType.codec_step n fun k hk => (ih k hk).2.2,
      Encoding.codec_step n fun k hk => (ih k hk).1⟩

theorem Header.codec : Codec n Header.read Header.dump Header.Lasts (.record .header) := (body_codecs n).1

theorem MediaType.codec : Codec n MediaType.read MediaType.dump MediaType.Lasts (.record .mediaType) :=
  (body_codecs n).2.1

end

theorem Parameter.codec : Codec n Parameter.read Parameter.dump Parameter.Lasts (.record .parameter) :=
  .record
    (fun k _ => Part.start _ |>.seq (.text? "ref") |>.seq (.text? "name") |>.seq (.text? "in_")
      |>.seq (.text? "description") |>.seq (.flag "required") |>.seq (.flag "deprecated")
      |>.seq (.flag "allow_empty_value") |>.seq (.text? "style") |>.seq (.flag "explode")
      |>.seq (.flag "allow_reserved") |>.seq (.unset? "schema_" (Schema.codec k) Schema.read_null)
      |>.seq (.free "example") |>.seq (.named "examples" Example.codec)
      |>.seq (.named "content" (MediaType.codec k)) |>.seq .extensions)
    rfl rfl
    (fun t => by simp only [dump, MediaType.dumpNamed_eq, List.nil_append, List.cons_append, id_eq])
    (fun t u h => by simp_all [Prod.ext_iff])
    (by simp [Lasts, ExtensionsLast, and_assoc])

theorem RequestBody.codec : Codec n RequestBody.read RequestBody.dump RequestBody.Lasts (.record .requestBody) :=
  .record
    (fun k _ => Part.start _ |>.seq (.text? "ref") |>.seq (.text? "description") |>.seq (.flag "required")
      |>.seq (.named "content" (MediaType.codec k)) |>.seq .extensions)
    rfl rfl
    (fun t => by simp only [dump, MediaType.dumpNamed_eq, List.nil_append, List.cons_append, id_eq])
    (fun t u h => by simp_all [Prod.ext_iff])
    (by simp [Lasts, ExtensionsLast])

theorem Link.codec : Codec n Link.read Link.dump Link.Lasts (.record .link) :=
  .record
    (fun _ _ => Part.start _ |>.seq (.text? "ref") |>.seq (.text? "operation_ref") |>.seq (.text? "operation_id")
      |>.seq (.namedLeaves "parameters" .value) |>.seq (.free "request_body") |>.seq (.text? "description")
      |>.seq (.unset? "server" Server.codec rfl) |>.seq .extensions)
    rfl rfl (fun _ => rfl) (fun t u h => by simp_all [Prod.ext_iff])
    (by simp [Lasts, ExtensionsLast, and_assoc])

/-- A text that is left out where it is empty. -/
theorem Response.description_part :
    Part n (.optional ["description"] "" readText) id
      (fun s => [Dump.text? "description" (if s = "" then none else some s)]) (fun _ => True)
      [⟨["description"], .leaf⟩] := by
  refine ⟨.field "description" rfl (Fields.get?_optional _ _ _) (by simp) (fun s hs => ?_) fun {j s} _ _ _ hne => ?_,
    .optional (.leaf _)⟩
  · cases hs
    exact ⟨rfl, trivial⟩
  · have hs : s ≠ "" := fun h => hne (congrArg some h.symm)
    exact ⟨.text s, by rw [if_neg hs]; rfl, trivial, by simp [Json.toValue, readText, textOrBytes?]⟩

theorem Response.codec : Codec n Response.read Response.dump Response.Lasts (.record .response) :=
  .record
    (fun k _ => Part.start _ |>.seq (.text? "ref") |>.seq description_part |>.seq (.named "content" (MediaType.codec k))
      |>.seq (.named "headers" (Header.codec k)) |>.seq (.named "links" Link.codec) |>.seq .extensions)
    rfl rfl
    (fun t => by
      simp only [dump, MediaType.dumpNamed_eq, Header.dumpNamed_eq, List.nil_append, List.cons_append, id_eq])
    (fun t u h => by simp_all [Prod.ext_iff])
    (by simp [Lasts, ExtensionsLast, and_assoc])

/-! ## Operations -/

theorem PathItem.dumpNamed_eq (ps : List (String × PathItem)) : dumpNamed ps = Dump.eachNamed dump ps :=
  Dump.eachNamed_unique dump dumpNamed rfl (fun _ _ _ => rfl) ps

theorem Callback.dumpNamed_eq (cs : List (String × Callback)) : dumpNamed cs = Dump.eachNamed dump cs :=
  Dump.eachNamed_unique dump dumpNamed rfl (fun _ _ _ => rfl) cs

namespace PathItem

/-- What may be read under a path for some methods. -/
def Offered : List Method → Type
  | [] => Unit
  | _ :: ms => (Unit × Option Operation) × Offered ms

def Offered.operations : (ms : List Method) → Offered ms → List (Method × Operation)
  | [], _ => []
  | m :: ms, (o, os) => (o.2.map (m, ·)).toList ++ operations ms os

theorem Offered.methods_subset : ∀ (ms : List Method) (os : Offered ms), ∀ e ∈ operations ms os, e.1 ∈ ms
  | [], _, _, h => by cases h
  | m :: ms, ((_, o), os), e, h => by
    rcases List.mem_append.1 h with h | h
    · rw [Option.mem_toList, Option.map_eq_some_iff] at h
      obtain ⟨_, _, rfl⟩ := h
      exact List.mem_cons_self
    · exact List.mem_cons_of_mem _ (methods_subset ms os e h)

/-- What is offered by different methods is told from the operations. -/
theorem Offered.operations_injective : ∀ {ms : List Method}, ms.Nodup → Function.Injective (operations ms)
  | [], _ => fun _ _ _ => rfl
  | m :: ms, hd => by
    rintro ⟨⟨_, o⟩, os⟩ ⟨⟨_, o'⟩, os'⟩ h
    obtain ⟨hm, hd⟩ := List.nodup_cons.1 hd
    have hfirst (os : Offered ms) (o : Operation) (rest : List (Method × Operation)) :
        operations ms os ≠ (m, o) :: rest := fun heq =>
      hm (methods_subset ms os (m, o) (by rw [heq]; exact List.mem_cons_self))
    cases o with
    | none =>
      cases o' with
      | none => rw [operations_injective hd h]
      | some o' => exact absurd h (hfirst os o' _)
    | some o =>
      cases o' with
      | none => exact absurd h.symm (hfirst os' o _)
      | some o' =>
        obtain ⟨heq, hrest⟩ := List.cons.inj h
        cases heq
        rw [operations_injective hd hrest]

theorem Offered.dumps {m : Method} {o : Option Operation} {os : List (Method × Operation)} {p : List (String × Json)}
    (h : DumpsAs [Dump.unset? m.name Operation.dump o, Operation.dumpMethods os] p) :
    DumpsAs [Operation.dumpMethods ((o.map (m, ·)).toList ++ os)] p := by
  obtain ⟨q, r, hq, hr, rfl⟩ := h.pair
  cases o with
  | none =>
    cases hq
    exact .single hr
  | some o =>
    cases ho : o.dump with
    | error e => rw [Dump.unset?, ho] at hq; cases hq
    | ok j =>
      rw [Dump.unset?, ho] at hq
      cases hq
      refine .single ?_
      rw [Option.map_some, Option.toList_some, List.singleton_append, Operation.dumpMethods, ho, hr]
      rfl

theorem operation_null : (Operation.read .null).result? = none := by
  rw [Operation.read_eq]
  rfl

/-- The operations under a path are dumped as members of the path. -/
theorem operations_part (h : Codec n Operation.read Operation.dump Operation.Lasts (.record .operation)) :
    ∀ ms : List Method, Part n (operationFields id Operation.read ms) (Offered.operations ms)
      (fun os => [Operation.dumpMethods (Offered.operations ms os)])
      (fun os => Operation.MethodsLast (Offered.operations ms os)) (ms.map fun m => ⟨[m.name], .record .operation⟩)
  | [] => (Part.start []).congr (fun _ _ hp => by obtain ⟨_, ⟨⟩, rfl⟩ := hp; exact .single rfl) fun _ => Iff.rfl
  | m :: ms =>
    (Part.start (fun (o : Option Operation) (os : List (Method × Operation)) => (o.map (m, ·)).toList ++ os)
      |>.seq (.unset? m.name h operation_null) |>.seq (operations_part h ms)).congr
      (fun _ _ => Offered.dumps) fun ((_, o), os) => by
        cases o <;> simp [Offered.operations, Operation.MethodsLast]

end PathItem

section
variable (n)

theorem Operation.codec_step
    (callbacks : ∀ k < n, Codec k Callback.read Callback.dump Callback.Lasts (.record .callback)) :
    Codec n Operation.read Operation.dump Operation.Lasts (.record .operation) :=
  .record
    (fun k hk => Part.start _ |>.seq (.texts "tags") |>.seq (.text? "summary") |>.seq (.text? "description")
      |>.seq (.unset? "external_docs" ExternalDocs.codec rfl) |>.seq (.text? "operation_id")
      |>.seq (.listed "parameters" Parameter.codec) |>.seq (.unset? "request_body" RequestBody.codec rfl)
      |>.seq (.named "responses" Response.codec) |>.seq (.named "callbacks" (callbacks k hk))
      |>.seq (.flag "deprecated") |>.seq (.leaves "security" .requirement) |>.seq (.listed "servers" Server.codec)
      |>.seq .extensions)
    Operation.read_eq rfl
    (fun t => by simp only [Operation.dump, Callback.dumpNamed_eq, List.nil_append, List.cons_append, id_eq])
    (fun t u h => by simp_all [Prod.ext_iff])
    (by simp [Operation.Lasts, Callback.namedLast_iff, ExtensionsLast, and_assoc])

theorem PathItem.codec_step
    (operations : ∀ k < n, Codec k Operation.read Operation.dump Operation.Lasts (.record .operation)) :
    Codec n PathItem.read PathItem.dump PathItem.Lasts (.record .pathItem) :=
  .record
    (fun k hk => Part.start _ |>.seq (.text? "ref") |>.seq (.text? "summary") |>.seq (.text? "description")
      |>.seq (operations_part (operations k hk) Method.all) |>.seq (.listed "parameters" Parameter.codec)
      |>.seq .extensions)
    PathItem.read_eq rfl
    (fun t => by simp only [PathItem.dump, List.nil_append, List.cons_append, id_eq])
    (fun t u h => by
      have hoperations := Offered.operations_injective (show Method.all.Nodup by decide)
      simp only [PathItem.mk.injEq, id_eq, hoperations.eq_iff] at h
      simp_all [Prod.ext_iff])
    (by simp [PathItem.Lasts, ExtensionsLast, and_assoc])

theorem Callback.codec_step
    (pathItems : ∀ k < n, Codec k PathItem.read PathItem.dump PathItem.Lasts (.record .pathItem)) :
    Codec n Callback.read Callback.dump Callback.Lasts (.record .callback) :=
  .record
    (fun k hk => Part.start _ |>.seq (.text? "ref") |>.seq (.named "path_items" (pathItems k hk)) |>.seq .extensions)
    Callback.read_eq rfl
    (fun t => by simp only [Callback.dump, PathItem.dumpNamed_eq, List.nil_append, List.cons_append, id_eq])
    (fun t u h => by simp_all [Prod.ext_iff])
    (by simp [Callback.Lasts, PathItem.namedLast_iff, ExtensionsLast])

/-- Operations, paths and callbacks are codecs together. -/
theorem operation_codecs : Codec n Operation.read Operation.dump Operation.Lasts (.record .operation) ∧
    Codec n PathItem.read PathItem.dump PathItem.Lasts (.record .pathItem) ∧
      Codec n Callback.read Callback.dump Callback.Lasts (.record .callback) := by
  induction n using Nat.strong_induction_on with
  | h n ih =>
    exact ⟨Operation.codec_step n fun k hk => (ih k hk).2.2, PathItem.codec_step n fun k hk => (ih k hk).1,
      Callback.codec_step n fun k hk => (ih k hk).2.1⟩

theorem PathItem.codec : Codec n PathItem.read PathItem.dump PathItem.Lasts (.record .pathItem) :=
  (operation_codecs n).2.1

theorem Callback.codec : Codec n Callback.read Callback.dump Callback.Lasts (.record .callback) :=
  (operation_codecs n).2.2

end

/-! ## Security -/

theorem OAuthFlow.codec : Codec n OAuthFlow.read OAuthFlow.dump OAuthFlow.Lasts (.record .oauthFlow) :=
  .record
    (fun _ _ => Part.start _ |>.seq (.text? "authorization_url") |>.seq (.text? "token_url")
      |>.seq (.text? "refresh_url") |>.seq (.namedTexts "scopes") |>.seq .extensions)
    rfl rfl (fun _ => rfl) (fun t u h => by simp_all [Prod.ext_iff])
    (by simp [Lasts, ExtensionsLast])

theorem OAuthFlows.codec : Codec n OAuthFlows.read OAuthFlows.dump OAuthFlows.Lasts (.record .oauthFlows) :=
  .record
    (fun _ _ => Part.start _ |>.seq (.unset? "implicit" OAuthFlow.codec rfl)
      |>.seq (.unset? "password" OAuthFlow.codec rfl) |>.seq (.unset? "client_credentials" OAuthFlow.codec rfl)
      |>.seq (.unset? "authorization_code" OAuthFlow.codec rfl) |>.seq .extensions)
    rfl rfl (fun _ => rfl) (fun t u h => by simp_all [Prod.ext_iff])
    (by simp [Lasts, ExtensionsLast, and_assoc])

theorem SecurityScheme.codec :
    Codec n SecurityScheme.read SecurityScheme.dump SecurityScheme.Lasts (.record .securityScheme) :=
  .record
    (fun _ _ => Part.start _ |>.seq (.text? "ref") |>.seq (.text? "type") |>.seq (.text? "description")
      |>.seq (.text? "name") |>.seq (.text? "in_") |>.seq (.text? "scheme") |>.seq (.text? "bearer_format")
      |>.seq (.unset? "flows" OAuthFlows.codec rfl) |>.seq (.text? "open_id_connect_url") |>.seq .extensions)
    rfl rfl (fun _ => rfl) (fun t u h => by simp_all [Prod.ext_iff])
    (by simp [Lasts, ExtensionsLast])

/-! ## The whole -/

theorem Components.codec : Codec n Components.read Components.dump Components.Lasts (.record .components) :=
  .record
    (fun k _ => Part.start _ |>.seq (.named "schemas" (Schema.codec k)) |>.seq (.named "responses" Response.codec)
      |>.seq (.named "parameters" Parameter.codec) |>.seq (.named "examples" Example.codec)
      |>.seq (.named "request_bodies" RequestBody.codec) |>.seq (.named "headers" (Header.codec k))
      |>.seq (.named "security_schemes" SecurityScheme.codec) |>.seq (.named "links" Link.codec)
      |>.seq (.named "callbacks" (Callback.codec k)) |>.seq (.named "path_items" (PathItem.codec k))
      |>.seq .extensions)
    rfl rfl
    (fun t => by
      simp only [dump, Schema.dumpNamed_eq, Header.dumpNamed_eq, Callback.dumpNamed_eq, PathItem.dumpNamed_eq,
        List.nil_append, List.cons_append, id_eq])
    (fun t u h => by simp_all [Prod.ext_iff])
    (by simp [lasts_iff, ExtensionsLast, and_assoc])

theorem Api.codec : Codec n Api.read Api.dump Api.Lasts (.record .spec) :=
  .record
    (fun k _ => Part.start _ |>.seq (.required "info" Info.codec) |>.seq (.listed "servers" Server.codec)
      |>.seq (.named "paths" (PathItem.codec k)) |>.seq (.unset? "components" Components.codec rfl)
      |>.seq (.named "webhooks" (PathItem.codec k)) |>.seq (.listed "tags" Tag.codec)
      |>.seq (.leaves "security" .requirement) |>.seq (.unset? "external_docs" ExternalDocs.codec rfl)
      |>.seq .extensions)
    rfl rfl
    (fun t => by simp only [dump, PathItem.dumpNamed_eq, List.nil_append, List.cons_append, id_eq])
    (fun t u h => by simp_all [Prod.ext_iff])
    (by simp [lasts_iff, ExtensionsLast, and_assoc])

end ApiProjection
