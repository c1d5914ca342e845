import ApiProjection.Projection.Rendering
import ApiProjection.Proofs.Reference.Bare
import ApiProjection.Proofs.Visit.Warnings
import ApiProjection.Proofs.Visit.Written
/-!
# Outcomes and what stands beside references

The outcome of a projection does not depend on what stands beside a reference, with one exception: the
older version drops security schemes by their type, and looks at the type of a reference too.
-/
namespace ApiProjection

open Node (Field)

namespace Components

/-! ## Security schemes that are dropped -/

/-- A scheme is dropped if its name is among those of the dropped ones. -/
theorem mem_dropped {c : Components} (hk : DistinctKeys c.securitySchemes) {s : String × SecurityScheme}
    (hs : s ∈ c.securitySchemes) : s.1 ∈ c.droppedSchemes ↔ isMutualTls s.2 = true := by
  rw [droppedSchemes, List.mem_map]
  constructor
  · rintro ⟨d, hd, hds⟩
    obtain ⟨hd, hm⟩ := List.mem_filter.1 hd
    rw [← List.inj_on_of_nodup_map hk hd hs hds]
    exact hm
  · exact fun hm => ⟨s, List.mem_filter.2 ⟨hs, hm⟩, rfl⟩

/-- The older version writes the schemes that are not dropped. -/
theorem kept_eq {c : Components} (hk : DistinctKeys c.securitySchemes) :
    ((c.securitySchemes.filter fun (_, s) => !isMutualTls s).map fun (k, s) => (k, s.project .v30)) =
      (c.securitySchemes.map fun s => (s.1, s.2.project .v30)).filter
        fun e => !c.droppedSchemes.contains e.1 := by
  rw [List.filter_map]
  congr 1
  refine List.filter_congr fun s hs => ?_
  simp only [Function.comp_apply]
  congr 1
  rw [Bool.eq_iff_iff, ← mem_dropped hk hs, List.contains_iff_mem]

/-! ## Reusable parts that are the same once they are bare -/

section
variable {c d : Components} (h : c.bare = d.bare)

include h

theorem shared_congr (t : Target) : c.shared t = d.shared t := by
  rw [← shared_bare, h, shared_bare]

theorem schemes_congr (t : Target) : (c.securitySchemes.map fun s => (s.1, s.2.project t)) =
    d.securitySchemes.map fun s => (s.1, s.2.project t) := by
  have hbare (c : Components) : (c.securitySchemes.map fun s => (s.1, s.2.project t)) =
      c.bare.securitySchemes.map fun s => (s.1, s.2.project t) := by
    simp [bare, bareParts, SecurityScheme.project_bare]
  rw [hbare c, h, ← hbare d]

theorem names_congr : c.securitySchemes.map Prod.fst = d.securitySchemes.map Prod.fst := by
  have hbare (c : Components) : c.securitySchemes.map Prod.fst = c.bare.securitySchemes.map Prod.fst := by
    simp [bare, bareParts]
  rw [hbare c, h, ← hbare d]

theorem pathItems_congr (t : Target) (p : Pointer) :
    PathItem.projectNamed t c.pathItems p = PathItem.projectNamed t d.pathItems p := by
  have hitems : bareParts PathItem.bare c.pathItems = bareParts PathItem.bare d.pathItems :=
    congrArg Components.pathItems h
  rw [← PathItem.projectNamed_bare, hitems, PathItem.projectNamed_bare]

theorem pathItems_isEmpty : c.pathItems.isEmpty = d.pathItems.isEmpty := by
  have hbare (c : Components) : c.pathItems.isEmpty = c.bare.pathItems.isEmpty := by
    simp [bare, bareParts]
  rw [hbare c, h, ← hbare d]

theorem project31_congr : c.project31 = d.project31 := by
  have hx : c.extensions = d.extensions := (congrArg Components.extensions h :)
  have hs : (c.securitySchemes.map fun (k, s) => (k, s.project .v31)) =
      d.securitySchemes.map fun (k, s) => (k, s.project .v31) := schemes_congr h .v31
  rw [project31, project31, pathItems_congr h, shared_congr h, hs, hx]

theorem recorded30_congr (hd : c.droppedSchemes = d.droppedSchemes) : c.recorded30 = d.recorded30 := by
  rw [recorded30, recorded30, front30, front30, shared_congr h, hd, pathItems_isEmpty h]

theorem written30_congr (hk : DistinctKeys c.securitySchemes) (hd : c.droppedSchemes = d.droppedSchemes) :
    c.written30 = d.written30 := by
  have hkd : DistinctKeys d.securitySchemes := by
    rw [DistinctKeys, ← names_congr h]
    exact hk
  have hx : c.extensions = d.extensions := (congrArg Components.extensions h :)
  rw [written30, written30, kept_eq hk, kept_eq hkd, schemes_congr h, shared_congr h, hd, hx]

end
end Components

namespace Api

/-- The names of the security schemes that the older version drops. -/
def droppedSchemes (a : Api) : List String := a.components.toList.flatMap Components.droppedSchemes

/-! ## What is recorded about dropped schemes -/

theorem warnings_warnDropped_inj {ms ns : List String}
    (h : (Components.warnDropped ms).warnings = (Components.warnDropped ns).warnings) : ms = ns := by
  have hplace : Function.Injective fun name : String =>
      Finding.mutualTls.warning (Pointer.root.descend ["components", "securitySchemes", name]) := by
    intro m n hmn
    have ht := Pointer.descend_text_inj.1 (congrArg Warning.path hmn)
    simpa using ht
  rw [Components.warnings_warnDropped, Components.warnings_warnDropped, Finding.warnings, Finding.warnings,
    List.map_map, List.map_map] at h
  exact hplace.list_map h

/-- The warnings about dropped schemes are told from others by their code. -/
theorem filter_warnDropped (names : List String) {rest : Warnings}
    (hr : ∀ w ∈ rest, w.code ≠ .known .downlevelMutualTls) :
    ((Components.warnDropped names).warnings ++ rest).filter (fun w => w.code = .known .downlevelMutualTls) =
      (Components.warnDropped names).warnings := by
  have hmine : ∀ w ∈ (Components.warnDropped names).warnings, w.code = .known .downlevelMutualTls := by
    rw [Components.warnings_warnDropped, Finding.warnings, List.map_map, List.forall_mem_map]
    exact fun _ _ => rfl
  rw [List.filter_append, List.filter_eq_self.2 (by simpa using hmine), List.filter_eq_nil_iff.2 (by simpa using hr),
    List.append_nil]

theorem code_warnIf {c : Bool} {f : Finding} {p : Pointer} (hf : f.code ≠ .downlevelMutualTls) :
    ∀ w ∈ (Traced.warnIf c f p).warnings, w.code ≠ .known .downlevelMutualTls := by
  cases c with
  | false => simp [Traced.warnIf]
  | true => simpa [Traced.warnIf, Traced.warn, Finding.warning] using hf

/-- If the walk comes to the reusable parts, it records each dropped scheme there, and what it records
later on is about something else. -/
theorem warnings_reached {strict : Bool} {a : Api} (hp : a.paths ≠ [])
    (hs : ¬(strict = true ∧ isSet a.info.summary = true)) :
    ∃ rest : Warnings, (∀ w ∈ rest, w.code ≠ .known .downlevelMutualTls) ∧
      (a.toDocument .v30 strict).warnings =
        a.front30 ++ (a.components.toList.flatMap (fun c => (c.shared .v30).warnings) ++
          ((Components.warnDropped a.droppedSchemes).warnings ++ rest)) := by
  have hpaths : a.paths.isEmpty = false := by simpa using hp
  have hsummary : (strict && isSet a.info.summary) = false := by simpa using hs
  let webhooks := (Traced.warnIf (!a.webhooks.isEmpty) .webhooks (Pointer.root.key "webhooks")).warnings
  have hwebhooks : ∀ w ∈ webhooks, w.code ≠ .known .downlevelMutualTls := code_warnIf (by decide)
  rw [toDocument, project30_run, hpaths, hsummary]
  simp only [Bool.false_eq_true, if_false]
  cases hc : a.components with
  | none =>
    refine ⟨webhooks, hwebhooks, ?_⟩
    simp only [Option.any_none, Bool.and_false, Bool.false_eq_true, if_false]
    split <;> simp [recorded30, droppedSchemes, hc, Components.warnDropped, webhooks]
  | some c =>
    have hd : a.droppedSchemes = c.droppedSchemes := by simp [droppedSchemes, hc]
    rw [Option.any_some]
    cases strict && !c.droppedSchemes.isEmpty with
    | true => exact ⟨[], by simp, by simp [Components.front30, hd]⟩
    | false =>
      refine ⟨(Traced.warnIf (!c.pathItems.isEmpty) .pathItems (Components.place.key "pathItems")).warnings ++
        webhooks, ?_, ?_⟩
      · rw [List.forall_mem_append]
        exact ⟨code_warnIf (by decide), hwebhooks⟩
      · simp only [Bool.false_eq_true, if_false]
        split <;> simp [recorded30, Components.recorded30, Components.front30, hc, hd, webhooks]

/-! ## Descriptions that are the same once they are bare -/

section
variable {a b : Api} (h : a.bare = b.bare)

include h

theorem components_cases : (a.components = none ∧ b.components = none) ∨
    ∃ c d, a.components = some c ∧ b.components = some d ∧ c.bare = d.bare := by
  have hc : a.components.map Components.bare = b.components.map Components.bare := congrArg Api.components h
  cases ha : a.components <;> cases hb : b.components <;> simp_all

theorem info_congr : a.info = b.info := (congrArg Api.info h :)

theorem paths_isEmpty : a.paths.isEmpty = b.paths.isEmpty := by
  have hbare (a : Api) : a.paths.isEmpty = a.bare.paths.isEmpty := by simp [bare, bareParts]
  rw [hbare a, h, ← hbare b]

theorem projectNamed_paths (t : Target) (p : Pointer) :
    PathItem.projectNamed t a.paths p = PathItem.projectNamed t b.paths p := by
  have hitems : bareParts PathItem.bare a.paths = bareParts PathItem.bare b.paths := congrArg Api.paths h
  rw [← PathItem.projectNamed_bare, hitems, PathItem.projectNamed_bare]

theorem projectNamed_webhooks (t : Target) (p : Pointer) :
    PathItem.projectNamed t a.webhooks p = PathItem.projectNamed t b.webhooks p := by
  have hitems : bareParts PathItem.bare a.webhooks = bareParts PathItem.bare b.webhooks := congrArg Api.webhooks h
  rw [← PathItem.projectNamed_bare, hitems, PathItem.projectNamed_bare]

theorem webhooks_isEmpty : a.webhooks.isEmpty = b.webhooks.isEmpty := by
  have hbare (a : Api) : a.webhooks.isEmpty = a.bare.webhooks.isEmpty := by simp [bare, bareParts]
  rw [hbare a, h, ← hbare b]

theorem front30_congr : a.front30 = b.front30 := by
  have hservers : a.servers = b.servers := (congrArg Api.servers h :)
  rw [front30, front30, info_congr h, hservers, projectNamed_paths h]

/-- The newer version writes what stands beside a reference nowhere. -/
theorem toDocument31_congr (strict : Bool) : a.toDocument .v31 strict = b.toDocument .v31 strict := by
  have hservers : a.servers = b.servers := (congrArg Api.servers h :)
  have hsecurity : a.security = b.security := (congrArg Api.security h :)
  have htags : a.tags = b.tags := (congrArg Api.tags h :)
  have hdocs : a.externalDocs = b.externalDocs := (congrArg Api.externalDocs h :)
  have hx : a.extensions = b.extensions := (congrArg Api.extensions h :)
  have hcomponents : (a.components.map fun c => c.project31.value) = (b.components.map fun c => c.project31.value) ∧
      (a.components.toList.flatMap fun c => c.project31.warnings) =
        b.components.toList.flatMap fun c => c.project31.warnings := by
    obtain ⟨ha, hb⟩ | ⟨c, d, ha, hb, hcd⟩ := components_cases h
    · simp [ha, hb]
    · simp [ha, hb, Components.project31_congr hcd]
  rw [toDocument, toDocument, project31_run, project31_run]
  simp only [written31, recorded31, servers31, info_congr h, projectNamed_paths h, projectNamed_webhooks h,
    hservers, hsecurity, htags, hdocs, hx, hcomponents]

/-- The older version does not either, if the same security schemes are dropped. -/
theorem toDocument30_congr (hk : ∀ c ∈ a.components, DistinctKeys c.securitySchemes)
    (hd : a.droppedSchemes = b.droppedSchemes) (strict : Bool) :
    a.toDocument .v30 strict = b.toDocument .v30 strict := by
  have hservers : a.servers = b.servers := (congrArg Api.servers h :)
  have hsecurity : a.security = b.security := (congrArg Api.security h :)
  have htags : a.tags = b.tags := (congrArg Api.tags h :)
  have hdocs : a.externalDocs = b.externalDocs := (congrArg Api.externalDocs h :)
  have hx : a.extensions = b.extensions := (congrArg Api.extensions h :)
  have hcomponents : a.components.map Components.written30 = b.components.map Components.written30 ∧
      a.components.toList.flatMap Components.recorded30 = b.components.toList.flatMap Components.recorded30 ∧
      a.components.toList.flatMap Components.front30 = b.components.toList.flatMap Components.front30 ∧
      (a.components.any fun c => !c.droppedSchemes.isEmpty) =
        b.components.any fun c => !c.droppedSchemes.isEmpty := by
    obtain ⟨ha, hb⟩ | ⟨c, d, ha, hb, hcd⟩ := components_cases h
    · simp [ha, hb]
    · have hd : c.droppedSchemes = d.droppedSchemes := by simpa [droppedSchemes, ha, hb] using hd
      simp [ha, hb, Components.written30_congr hcd (hk c ha) hd, Components.recorded30_congr hcd hd,
        Components.front30, Components.shared_congr hcd, hd]
  obtain ⟨hwritten, hrecorded, hcfront, hany⟩ := hcomponents
  rw [toDocument, toDocument, project30_run, project30_run]
  simp only [written30, recorded30, info_congr h, projectNamed_paths h, paths_isEmpty h, webhooks_isEmpty h,
    hservers, hsecurity, htags, hdocs, hx, front30_congr h, hwritten, hrecorded, hcfront, hany]

/-- What is recorded tells which security schemes are dropped, if the walk comes to them. -/
theorem dropped_of_warnings {strict : Bool} (hp : a.paths ≠ [])
    (hs : ¬(strict = true ∧ isSet a.info.summary = true))
    (hw : (a.toDocument .v30 strict).warnings = (b.toDocument .v30 strict).warnings) :
    a.droppedSchemes = b.droppedSchemes := by
  have hpb : b.paths ≠ [] := fun hb => hp (List.isEmpty_iff.1 (by rw [paths_isEmpty h, hb, List.isEmpty_nil]))
  have hsb : ¬(strict = true ∧ isSet b.info.summary = true) := info_congr h ▸ hs
  obtain ⟨ra, hra, ha⟩ := warnings_reached hp hs
  obtain ⟨rb, hrb, hb⟩ := warnings_reached hpb hsb
  have hshared : a.components.toList.flatMap (fun c => (c.shared .v30).warnings) =
      b.components.toList.flatMap fun c => (c.shared .v30).warnings := by
    obtain ⟨ha, hb⟩ | ⟨c, d, ha, hb, hcd⟩ := components_cases h
    · simp [ha, hb]
    · simp [ha, hb, Components.shared_congr hcd]
  rw [ha, hb, front30_congr h, hshared, List.append_cancel_left_eq, List.append_cancel_left_eq] at hw
  -- what follows in either run is about something else
  exact warnings_warnDropped_inj (by rw [← filter_warnDropped _ hra, hw, filter_warnDropped _ hrb])

/-- The outcome depends on nothing that stands beside a reference but on the security schemes that the
older version drops, and on these if the walk comes to them. -/
theorem projectTo_eq_iff {ε : Type} (hk : ∀ c ∈ a.components, DistinctKeys c.securitySchemes) (t : Target)
    (strict : Bool) (check : Option (Projection.Check ε)) :
    a.projectTo t strict check = b.projectTo t strict check ↔
      t = .v31 ∨ a.paths = [] ∨ (strict = true ∧ isSet a.info.summary = true) ∨
        a.droppedSchemes = b.droppedSchemes := by
  have hcongr (hrun : a.toDocument t strict = b.toDocument t strict) :
      a.projectTo t strict check = b.projectTo t strict check := by
    rw [projectTo, projectTo, hrun]
  have hwarnings (a : Api) : (a.projectTo t strict check).warnings = (a.toDocument t strict).warnings := by
    simp only [projectTo]
    split <;> rfl
  cases t with
  | v31 => exact iff_of_true (hcongr (toDocument31_congr h strict)) (.inl rfl)
  | v30 =>
    by_cases hp : a.paths = []
    · refine iff_of_true (hcongr ?_) (.inr (.inl hp))
      rw [toDocument, toDocument, project30_run, project30_run, ← paths_isEmpty h, hp]
      rfl
    · by_cases hs : strict = true ∧ isSet a.info.summary = true
      · refine iff_of_true (hcongr ?_) (.inr (.inr (.inl hs)))
        have hsummary : (strict && isSet b.info.summary) = true := by simpa [← info_congr h] using hs
        simp only [toDocument, project30_run, paths_isEmpty h, info_congr h, front30_congr h, hsummary, if_true]
      · constructor
        · intro he
          have hw := congrArg Traced.warnings he
          rw [hwarnings, hwarnings] at hw
          exact .inr (.inr (.inr (dropped_of_warnings h hp hs hw)))
        · rintro (ht | hp' | hs' | hd)
          · cases ht
          · exact absurd hp' hp
          · exact absurd hs' hs
          · exact hcongr (toDocument30_congr h hk hd strict)

end

end Api
end ApiProjection
