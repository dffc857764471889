import EntityViews.Proofs.Entity.Name
import EntityViews.Proofs.Entity.Resolve
import EntityViews.Proofs.SourceUnit.Types

/-!
This module contains the entities that fail because there is a unit with the file name of theirs already,
and what is reported about them. The entity that was first is called by its declared name, its unit by
the name without blanks around it, so the two labels are the same if and only if there are none.
-/

namespace EntityViews

namespace Kept

-- different units that are kept have different file names
theorem find?_eq_some_iff {kept : List Kept} (h : (kept.map (·.unit.fileName)).Nodup)
    {fileName : String} {found : Kept} :
    kept.find? (·.unit.fileName = fileName) = some found
      ↔
    found ∈ kept ∧ found.unit.fileName = fileName := by
  constructor
  . intro hfind
    exact ⟨List.mem_of_find?_eq_some hfind, by simpa using List.find?_some hfind⟩
  . rintro ⟨hmem, rfl⟩
    cases hfind : kept.find? (·.unit.fileName = found.unit.fileName) with
    | none =>
      rw [List.find?_eq_none] at hfind
      exact absurd (by simp) (hfind found hmem)
    | some first =>
      have hfirst := List.mem_of_find?_eq_some hfind
      have hname : first.unit.fileName = found.unit.fileName := by
        simpa using List.find?_some hfind
      rw [List.inj_on_of_nodup_map h hfirst hmem hname]

theorem accept_eq_error_iff {kept : List Kept} (h : (kept.map (·.unit.fileName)).Nodup)
    {added : Kept} {failure : Failure} :
    accept kept added = .error failure
      ↔
    ∃ first, (first ∈ kept ∧ first.unit.fileName = added.unit.fileName)
      ∧ ⟨added.descriptor.qualifiedName, .duplicate added.descriptor.qualifiedName
          added.unit.fileName first.descriptor.qualifiedName⟩ = failure := by
  simp only [← find?_eq_some_iff h]
  unfold accept
  dsimp only
  cases kept.find? (·.unit.fileName = added.unit.fileName) with
  | none => simp
  | some found => simp

end Kept

namespace Descriptor

variable {options : Options} {descriptor : Descriptor}

theorem fileName_of_attempt {schema : Schema} {unit : SourceUnit}
    (h : descriptor.attempt options = .ok (schema, unit)) : unit.fileName = schema.fileName := by
  exact Generator.fileName_of_generate (attempt_eq_ok_iff.mp h).2

theorem entity_of_attempt {schema : Schema} {unit : SourceUnit}
    (h : descriptor.attempt options = .ok (schema, unit)) :
    unit.entity = qualify descriptor.namespaceName (Text.trim descriptor.name) := by
  have ⟨hresolve, hgenerate⟩ := attempt_eq_ok_iff.mp h
  have ⟨_, _, hschema⟩ := exists_of_resolve_eq_ok hresolve
  rw [Generator.entity_of_generate hgenerate, ← hschema]
  rfl

-- an entity that is handled alone has no other file to overwrite
theorem attempt_ne_duplicate (entity fileName first : String) :
    descriptor.attempt options ≠ .error (.duplicate entity fileName first) := by
  unfold attempt Generator.generate
  dsimp only
  cases descriptor.resolve options.ecs with
  | error error => simp
  | ok schema =>
    dsimp only
    cases (schema.unitTree (Generator.ofOptions options).options).check with
    | error error => simp
    | ok _ => simp

theorem find?_of_settle_eq_duplicate {kept : List Kept} {label entity fileName first : String}
    (h : descriptor.settle options kept = .error ⟨label, .duplicate entity fileName first⟩) :
    ∃ schema unit made, descriptor.attempt options = .ok (schema, unit)
      ∧ label = descriptor.qualifiedName
      ∧ entity = descriptor.qualifiedName
      ∧ unit.fileName = fileName
      ∧ kept.find? (·.unit.fileName = fileName) = some made
      ∧ first = made.descriptor.qualifiedName := by
  unfold settle at h
  cases hattempt : descriptor.attempt options with
  | error error =>
    rw [hattempt] at h
    simp only [Except.error.injEq, Failure.mk.injEq] at h
    rw [h.2] at hattempt
    exact absurd hattempt (attempt_ne_duplicate entity fileName first)
  | ok attempted =>
    rcases attempted with ⟨schema, unit⟩
    rw [hattempt] at h
    unfold Kept.accept at h
    dsimp only at h
    cases hfind : kept.find? (·.unit.fileName = unit.fileName) with
    | none => simp [hfind] at h
    | some made =>
      simp only [hfind, Except.error.injEq, Failure.mk.injEq, UnitError.duplicate.injEq] at h
      obtain ⟨hlabel, hentity, hfileName, hfirst⟩ := h
      rw [hfileName] at hfind
      exact ⟨schema, unit, made, rfl, hlabel.symm, hentity.symm, hfileName, hfind, hfirst.symm⟩

theorem exists_of_settle_eq_duplicate {kept : List Kept} {label entity fileName first : String}
    (h : descriptor.settle options kept = .error ⟨label, .duplicate entity fileName first⟩) :
    ∃ schema unit, descriptor.attempt options = .ok (schema, unit)
      ∧ label = descriptor.qualifiedName
      ∧ unit.fileName = fileName
      ∧ ∃ made ∈ kept, made.unit.fileName = fileName := by
  have ⟨schema, unit, made, hattempt, hlabel, _, hfileName, hfind, _⟩ :=
    find?_of_settle_eq_duplicate h
  refine ⟨schema, unit, hattempt, hlabel, hfileName, made, List.mem_of_find?_eq_some hfind, ?_⟩
  simpa using List.find?_some hfind

end Descriptor

namespace Options

open Descriptor Verdict

variable {options : Options}

theorem mem_report_failures_iff {entities : List Descriptor} {failure : Failure} :
    failure ∈ (options.report entities).failures
      ↔
    ∃ before entity after, entities = before ++ entity :: after
      ∧ options.FailsAfter before entity failure := by
  constructor
  . intro h
    have ⟨earlier, later, hsplit⟩ := List.append_of_mem h
    have ⟨before, entity, after, hentities, _, hfails⟩ := exists_failsAfter hsplit
    exact ⟨before, entity, after, hentities, hfails⟩
  . rintro ⟨before, entity, after, rfl, hfails⟩
    have ⟨later, hfailures, _⟩ := hfails.report_remove after
    rw [hfailures]
    simp

theorem eq_of_mem_report_units {descriptors : List Descriptor} {unit other : SourceUnit}
    (hunit : unit ∈ (options.report descriptors).units)
    (hother : other ∈ (options.report descriptors).units) (h : other.fileName = unit.fileName) :
    other = unit := by
  have hnodup := @nodup_settleAll options [] List.nodup_nil descriptors
  rw [report_units, List.mem_map] at hunit hother
  obtain ⟨made, hmade, rfl⟩ := hunit
  obtain ⟨otherMade, hotherMade, rfl⟩ := hother
  rw [List.inj_on_of_nodup_map hnodup hotherMade hmade h]

theorem exists_kept_of_mem_report_failures {descriptors : List Descriptor}
    {label entity fileName first : String}
    (h : ⟨label, .duplicate entity fileName first⟩ ∈ (options.report descriptors).failures) :
    ∃ made ∈ keptOf (settleAll options [] descriptors),
      made.unit.fileName = fileName ∧ first = made.descriptor.qualifiedName := by
  have ⟨before, failing, after, hsplit, hfails⟩ := mem_report_failures_iff.mp h
  rw [failsAfter_iff] at hfails
  have ⟨_, _, made, _, _, _, _, hfind, hfirst⟩ := find?_of_settle_eq_duplicate hfails
  refine ⟨made, ?_, by simpa using List.find?_some hfind, hfirst⟩
  rw [hsplit, settleAll_append, keptOf_append]
  exact List.mem_append_left _ (List.mem_of_find?_eq_some hfind)

theorem report_duplicate_label {descriptors : List Descriptor} {label entity fileName first : String}
    (h : ⟨label, .duplicate entity fileName first⟩ ∈ (options.report descriptors).failures) :
    ∃ descriptor ∈ descriptors, ∃ schema unit,
      descriptor.attempt options = .ok (schema, unit)
        ∧ unit ∈ (options.report descriptors).units
        ∧ unit.fileName = fileName
        ∧ (∀ other ∈ (options.report descriptors).units, other.fileName = fileName → other = unit)
        ∧ first = qualify descriptor.namespaceName descriptor.name
        ∧ unit.entity = qualify descriptor.namespaceName (Text.trim descriptor.name)
        ∧ (first = unit.entity ↔ Text.trim descriptor.name = descriptor.name) := by
  have ⟨made, hmade, hfileName, hfirst⟩ := exists_kept_of_mem_report_failures h
  have ⟨hmem, hattempt⟩ := mem_keptOf_settleAll hmade
  have hentity := entity_of_attempt hattempt
  have hunit : made.unit ∈ (options.report descriptors).units := by
    rw [report_units]
    exact List.mem_map_of_mem hmade
  refine ⟨made.descriptor, hmem, made.schema, made.unit, hattempt, hunit, hfileName, ?_, hfirst,
    hentity, ?_⟩
  . intro other hother hname
    exact eq_of_mem_report_units hunit hother (hname.trans hfileName.symm)
  . rw [hfirst, hentity, Descriptor.qualifiedName, qualify_right_inj]
    exact eq_comm

theorem report_duplicate_label_trimmed :
    let descriptors : List Descriptor :=
      [{ namespaceName := "Game", name := "IUnit" }, { namespaceName := "Game", name := " Unit " }]
    let failure : Failure :=
      ⟨"Game. Unit ", .duplicate "Game. Unit " "Generated_Game_UnitEntity.cs" "Game.IUnit"⟩
    failure ∈ (report {} descriptors).failures
      ∧ ∃ unit ∈ (report {} descriptors).units,
          unit.fileName = "Generated_Game_UnitEntity.cs" ∧ "Game.IUnit" = unit.entity := by
  intro descriptors failure
  have hfailure : failure ∈ (report {} descriptors).failures := by decide +kernel
  refine ⟨hfailure, ?_⟩
  have ⟨descriptor, hmem, _, unit, _, hunit, hfileName, _, hfirst, _, hlabel⟩ :=
    report_duplicate_label hfailure
  refine ⟨unit, hunit, hfileName, hlabel.mpr ?_⟩
  simp only [descriptors, List.mem_cons, List.not_mem_nil, or_false] at hmem
  rcases hmem with rfl | rfl
  . decide
  . exact absurd hfirst (by decide)

theorem report_label_of_blank_name :
    let report := report {} [{ name := " Unit" }, { name := "Unit" }]
    report.failures = [⟨"Unit", .duplicate "Unit" "Generated_UnitEntity.cs" " Unit"⟩]
      ∧ report.units.map (fun unit => (unit.fileName, unit.entity))
          = [("Generated_UnitEntity.cs", "Unit")]
      ∧ ¬ ∃ unit ∈ report.units,
          unit.fileName = "Generated_UnitEntity.cs" ∧ " Unit" = unit.entity := by
  intro report
  refine ⟨?_, ?_, ?_⟩
  . decide +kernel
  . decide +kernel
  . decide +kernel

end Options

end EntityViews
