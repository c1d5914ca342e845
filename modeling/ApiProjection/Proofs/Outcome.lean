import Mathlib.Tactic.SplitIfs
import ApiProjection.Projection.Document
import ApiProjection.Proofs.Walk
/-!
# What a whole projection comes to

`Api.project30_run` and `Api.project31_run` give the outcome of a projection in closed form: the
conditions under which there is no document, in the order in which they are looked at, the warnings
recorded until then, and otherwise the document with all warnings. Strictness decides only whether
there is a document, not what is in it or what is recorded on the way (`Api.toDocument_ok`).
-/
namespace ApiProjection

/-! ## Steps of a walk -/

namespace Walk

variable {α β : Type}

@[simp] theorem run_pure (a : α) : (pure a : Walk α).run = ⟨.ok a, []⟩ := rfl

@[simp] theorem run_step (x : Traced α) : (step x).run = ⟨.ok x.value, x.warnings⟩ := by
  change (⟨.ok x.value, x.warnings ++ []⟩ : Traced (Except Refusal α)) = _
  rw [List.append_nil]

@[simp] theorem run_refuseIf (c : Bool) (r : Refusal) :
    (refuseIf c r).run = ⟨if c then .error r else .ok (), []⟩ := by
  cases c <;> rfl

theorem run_bind (x : Walk α) (f : α → Walk β) :
    (x >>= f).run = match x.run.value with
      | .ok a => ⟨(f a).run.value, x.run.warnings ++ (f a).run.warnings⟩
      | .error r => ⟨.error r, x.run.warnings⟩ := by
  match x with
  | ⟨.ok _, _⟩ => rfl
  | ⟨.error r, ws⟩ => exact congrArg (Traced.mk (Except.error r)) (List.append_nil ws)

theorem run_mapM (f : α → Walk β) (o : Option α) :
    (o.mapM f).run = match o with
      | none => ⟨.ok none, []⟩
      | some a => match (f a).run.value with
        | .ok b => ⟨.ok (some b), (f a).run.warnings⟩
        | .error r => ⟨.error r, (f a).run.warnings⟩ := by
  cases o with
  | none => rfl
  | some a =>
    have h : (some a).mapM f = f a >>= fun b => pure (some b) := rfl
    rw [h, run_bind]
    cases hv : (f a).run.value with
    | ok b => simp [hv]
    | error r => simp [hv]

end Walk

/-! ## The older version -/

namespace Components

/-- What is recorded about reusable parts before reusable paths are looked at. -/
def front30 (c : Components) : Warnings := (c.shared .v30).warnings ++ (warnDropped c.droppedSchemes).warnings

def recorded30 (c : Components) : Warnings :=
  c.front30 ++ (Traced.warnIf (!c.pathItems.isEmpty) .pathItems (place.key "pathItems")).warnings

def written30 (c : Components) : Node :=
  node .v30 (c.shared .v30).value
    ((c.securitySchemes.filter fun (_, s) => !isMutualTls s).map fun (k, s) => (k, s.project .v30)) []
    c.extensions

theorem project30_run (strict : Bool) (c : Components) :
    (c.project30 strict).run =
      if strict && !c.droppedSchemes.isEmpty then ⟨.error .strictMutualTls, c.front30⟩
      else ⟨.ok c.written30, c.recorded30⟩ := by
  simp only [project30, Walk.run_bind, Walk.run_step, Walk.run_refuseIf, Walk.run_pure]
  cases strict && !c.droppedSchemes.isEmpty with
  | true => simp [front30]
  | false => simp [front30, recorded30, written30]

end Components

namespace Api

/-- What is recorded about everything before the reusable parts. -/
def front30 (a : Api) : Warnings :=
  a.info.project30.warnings ++ (Server.projectAll .v30 a.servers (Pointer.root.key "servers")).warnings ++
    (PathItem.projectNamed .v30 a.paths (Pointer.root.key "paths")).warnings

def recorded30 (a : Api) : Warnings :=
  a.front30 ++ a.components.toList.flatMap Components.recorded30 ++
    (Traced.warnIf (!a.webhooks.isEmpty) .webhooks (Pointer.root.key "webhooks")).warnings

def written30 (a : Api) : Node := .extended .v30 [
  .text "openapi" Target.v30.version,
  [("info", a.info.project30.value)],
  .nodes "servers" (Server.projectAll .v30 a.servers (Pointer.root.key "servers")).value,
  [("paths", .object (PathItem.projectNamed .v30 a.paths (Pointer.root.key "paths")).value [])],
  .node? "components" (a.components.map Components.written30),
  .nodes "security" (a.security.map SecurityRequirement.project),
  .nodes "tags" (a.tags.map fun g => g.project .v30),
  .node? "externalDocs" (a.externalDocs.map fun d => d.project .v30)] a.extensions

theorem project30_run (strict : Bool) (a : Api) :
    (a.project30 strict).run =
      if a.paths.isEmpty then ⟨.error .pathsMissing, []⟩
      else if strict && isSet a.info.summary then ⟨.error .strictSummary, a.front30⟩
      else if strict && a.components.any (fun c => !c.droppedSchemes.isEmpty) then
        ⟨.error .strictMutualTls, a.front30 ++ a.components.toList.flatMap Components.front30⟩
      else if strict && !a.webhooks.isEmpty then ⟨.error .strictWebhooks, a.recorded30⟩
      else ⟨.ok a.written30, a.recorded30⟩ := by
  simp only [project30, Walk.run_bind, Walk.run_step, Walk.run_refuseIf, Walk.run_pure, Walk.run_mapM]
  cases a.paths.isEmpty with
  | true => rfl
  | false =>
    cases strict && isSet a.info.summary with
    | true => simp [front30]
    | false =>
      cases hc : a.components with
      | none =>
        cases strict && !a.webhooks.isEmpty with
        | true => simp [front30, recorded30, hc]
        | false => simp [front30, recorded30, written30, hc]
      | some c =>
        cases hd : strict && !c.droppedSchemes.isEmpty with
        | true => simp [Components.project30_run, front30, hd]
        | false =>
          cases strict && !a.webhooks.isEmpty with
          | true => simp [Components.project30_run, front30, recorded30, hc, hd]
          | false => simp [Components.project30_run, front30, recorded30, written30, hc, hd]

end Api

/-! ## The newer version -/

namespace Traced

variable {α β : Type} (f : α → Traced β) (o : Option α)

theorem value_mapM : (o.mapM f).value = o.map fun a => (f a).value := by
  cases o <;> rfl

theorem warnings_mapM : (o.mapM f).warnings = o.toList.flatMap fun a => (f a).warnings := by
  cases o with
  | none => rfl
  | some a =>
    have h : (some a).mapM f = f a >>= fun b => pure (some b) := rfl
    simp [h]

end Traced

/-- Whether a license has both of what excludes each other. -/
def License.conflicts (l : License) : Bool := isSet l.identifier && isSet l.url

def License.written31 (l : License) : Node :=
  .extended .v31 [.text "name" l.name, .text? "identifier" l.identifier, .text? "url" l.url] l.extensions

theorem License.project31_run (l : License) :
    l.project31.run =
      if l.conflicts then ⟨.error .licenseIdentifierAndUrl, []⟩ else ⟨.ok l.written31, []⟩ := by
  rw [project31, Walk.run_bind, Walk.run_refuseIf, conflicts]
  cases isSet l.identifier && isSet l.url <;> rfl

namespace Info

def written31 (i : Info) : Node := .extended .v31 [
  .text "title" i.title,
  .text? "summary" i.summary,
  .text? "description" i.description,
  .text? "termsOfService" i.termsOfService,
  .node? "contact" (i.contact.map fun c => c.project .v31),
  .node? "license" (i.license.map License.written31),
  .text "version" i.version] i.extensions

theorem project31_run (i : Info) :
    i.project31.run = if i.license.any License.conflicts then ⟨.error .licenseIdentifierAndUrl, []⟩
      else ⟨.ok i.written31, []⟩ := by
  rw [project31, Walk.run_bind, Walk.run_mapM]
  cases hl : i.license with
  | none => simp [written31, hl]
  | some l =>
    simp only [License.project31_run]
    cases hc : l.conflicts with
    | true => simp [hc]
    | false => simp [written31, hl, hc]

end Info

namespace Api

def recorded31 (a : Api) : Warnings :=
  (Server.projectAll .v31 a.servers (Pointer.root.key "servers")).warnings ++
    ((PathItem.projectNamed .v31 a.paths (Pointer.root.key "paths")).warnings ++
      ((a.components.toList.flatMap fun c => c.project31.warnings) ++
        (PathItem.projectNamed .v31 a.webhooks (Pointer.root.key "webhooks")).warnings))

/-- The servers of a document of the newer version, which has one at least. -/
def servers31 (a : Api) : List Node :=
  let servers := (Server.projectAll .v31 a.servers (Pointer.root.key "servers")).value
  if servers.isEmpty then [defaultServer] else servers

def written31 (a : Api) : Node := .extended .v31 [
  .text "openapi" Target.v31.version,
  .text "jsonSchemaDialect" schemaDialect,
  [("info", a.info.written31)],
  .nodes "servers" a.servers31,
  .named "paths" (PathItem.projectNamed .v31 a.paths (Pointer.root.key "paths")).value,
  .named "webhooks" (PathItem.projectNamed .v31 a.webhooks (Pointer.root.key "webhooks")).value,
  .node? "components" (a.components.map fun c => c.project31.value),
  .nodes "security" (a.security.map SecurityRequirement.project),
  .nodes "tags" (a.tags.map fun g => g.project .v31),
  .node? "externalDocs" (a.externalDocs.map fun d => d.project .v31)] a.extensions

theorem project31_run (a : Api) :
    a.project31.run = if a.info.license.any License.conflicts then ⟨.error .licenseIdentifierAndUrl, []⟩
      else ⟨.ok a.written31, a.recorded31⟩ := by
  simp only [project31, Walk.run_bind, Walk.run_step, Walk.run_pure, Info.project31_run]
  cases a.info.license.any License.conflicts with
  | true => simp
  | false => simp [written31, recorded31, servers31, Traced.value_mapM, Traced.warnings_mapM]

/-! ## Either version -/

/-- The document of a version, if there is one. -/
def written (t : Target) (a : Api) : Node :=
  match t with
  | .v30 => a.written30
  | .v31 => a.written31

/-- What is recorded on the way to the document of a version. -/
def recorded (t : Target) (a : Api) : Warnings :=
  match t with
  | .v30 => a.recorded30
  | .v31 => a.recorded31

/-- A document has nothing in it that depends on strictness, and nor do the warnings with it. -/
theorem toDocument_ok {t : Target} {strict : Bool} {a : Api} {doc : Node}
    (h : (a.toDocument t strict).value = .ok doc) :
    a.toDocument t strict = ⟨.ok (a.written t), a.recorded t⟩ := by
  cases t with
  | v30 =>
    rw [toDocument, project30_run] at h ⊢
    split_ifs at h ⊢
    rfl
  | v31 =>
    rw [toDocument, project31_run] at h ⊢
    split_ifs at h ⊢
    rfl

theorem eq_written {t : Target} {strict : Bool} {a : Api} {doc : Node}
    (h : (a.toDocument t strict).value = .ok doc) : doc = a.written t := by
  rw [toDocument_ok h] at h
  cases h
  rfl

end Api
end ApiProjection
