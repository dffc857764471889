import EntityViews.Manifest.Basic
import EntityViews.Proofs.Manifest.Accepted
import EntityViews.Proofs.SourceUnit.Duplicate

/-!
This module contains the ways in which entities of accepted manifests can fail. Their fields clash, or
there is a unit for another entity with the same file name already.
-/

namespace EntityViews

open Verdict

inductive Descriptor.Fault (handleType : String) (units : List SourceUnit) (entity : Descriptor) :
    UnitError → Prop where
  | fields {before after : List Field} {field : Field} {error : ResolveError}
      (hfields : entity.fields = before ++ field :: after)
      (hbefore : Field.AreDistinct handleType before)
      (hclash : field.Clashes handleType entity.qualifiedName before error) :
      Fault handleType units entity (.resolve error)
  | fileName {unit : SourceUnit} (hfields : Field.AreDistinct handleType entity.fields)
      (hunit : unit ∈ units) (hname : unit.fileName = entity.fileName) :
      Fault handleType units entity (.duplicate entity.qualifiedName unit.fileName unit.entity)

namespace Descriptor.IsValid

variable {options : Options} {units : List SourceUnit} {entity : Descriptor}

theorem fault_iff_of_attempt_eq_error (h : entity.IsValid) {found : UnitError}
    (hattempt : entity.attempt options = .error found) {error : UnitError} :
    entity.Fault options.ecs.entity units error ↔ found = error := by
  have ⟨before, field, after, clash, hfields, hbefore, hclash, heq⟩ :=
    h.attempt_eq_error_iff.mp hattempt
  constructor
  . intro hfault
    cases hfault with
    | fields hother hotherBefore hotherClash =>
      have hsame := h.attempt_eq_error_iff.mpr ⟨_, _, _, _, hother, hotherBefore, hotherClash, rfl⟩
      rw [hattempt] at hsame
      exact Except.error.inj hsame
    | fileName hdistinct =>
      rw [hfields] at hdistinct
      exact absurd hdistinct (hclash.not_areDistinct after)
  . intro hfound
    rw [← hfound]
    rw [← heq]
    exact .fields hfields hbefore hclash

theorem fault_iff_of_attempt_eq_ok (h : entity.IsValid) {schema : Schema} {made : SourceUnit}
    (hattempt : entity.attempt options = .ok (schema, made)) {error : UnitError} :
    entity.Fault options.ecs.entity units error
      ↔
    ∃ unit ∈ units, unit.fileName = made.fileName
      ∧ .duplicate entity.qualifiedName unit.fileName unit.entity = error := by
  have ⟨hdistinct, hfileName, _⟩ := h.of_attempt_eq_ok hattempt
  rw [hfileName]
  constructor
  . intro hfault
    cases hfault with
    | @fields _ after _ _ hfields _ hclash =>
      rw [hfields] at hdistinct
      exact absurd hdistinct (hclash.not_areDistinct after)
    | @fileName unit _ hunit hname => exact ⟨unit, hunit, hname, rfl⟩
  . rintro ⟨unit, hunit, hname, rfl⟩
    exact .fileName hdistinct hunit hname

end Descriptor.IsValid

namespace Options

open Descriptor

variable {options : Options} {before : List Descriptor} {entity : Descriptor}

theorem failsAfter_iff_fault (hbefore : ∀ other ∈ before, other.IsValid) (hentity : entity.IsValid)
    {failure : Failure} :
    options.FailsAfter before entity failure
      ↔
    failure.entity = entity.qualifiedName
      ∧ entity.Fault options.ecs.entity (options.report before).units failure.error := by
  rcases failure with ⟨label, error⟩
  rw [failsAfter_iff]
  rw [report_eq]
  unfold settle
  cases hattempt : entity.attempt options with
  | error found =>
    rw [hentity.fault_iff_of_attempt_eq_error hattempt]
    simp [eq_comm]
  | ok made =>
    have hnodup := @nodup_settleAll options [] List.nodup_nil before
    -- a unit that is kept is labelled with the name of the entity it was made for
    have hlabel : ∀ first ∈ keptOf (settleAll options [] before),
        first.unit.entity = first.descriptor.qualifiedName := by
      intro first hfirst
      have ⟨hmem, hmade⟩ := mem_keptOf_settleAll hfirst
      exact ((hbefore _ hmem).of_attempt_eq_ok hmade).2.2
    rw [List.nil_append] at hnodup
    dsimp only
    rw [hentity.fault_iff_of_attempt_eq_ok hattempt]
    rw [Kept.accept_eq_error_iff hnodup]
    constructor
    . rintro ⟨first, ⟨hfirst, hname⟩, heq⟩
      cases heq
      refine ⟨rfl, first.unit, List.mem_map_of_mem hfirst, hname, ?_⟩
      rw [hname]
      rw [hlabel first hfirst]
    . rintro ⟨rfl, unit, hunit, hname, rfl⟩
      have ⟨first, hfirst, heq⟩ := List.mem_map.mp hunit
      rw [← heq] at hname
      refine ⟨first, ⟨hfirst, hname⟩, ?_⟩
      rw [← heq]
      rw [hname]
      rw [hlabel first hfirst]

theorem exists_failsAfter_iff (hbefore : ∀ other ∈ before, other.IsValid)
    (hentity : entity.IsValid) :
    (∃ failure, options.FailsAfter before entity failure)
      ↔
    ¬ (entity.fields.map (·.name)).Nodup
      ∨ 2 ≤ entity.fields.countP (·.type = options.ecs.entity)
      ∨ ∃ unit ∈ (options.report before).units, unit.fileName = entity.fileName := by
  simp only [failsAfter_iff_fault hbefore hentity]
  constructor
  . rintro ⟨⟨label, error⟩, _, hfault⟩
    cases hfault with
    | @fields _ after _ _ hfields _ hclash =>
      have hclash := hclash.not_areDistinct after
      rw [← hfields] at hclash
      rw [Field.areDistinct_iff] at hclash
      rw [Classical.not_and_iff_not_or_not] at hclash
      rcases hclash with hnames | hhandles
      . exact .inl hnames
      . exact .inr (.inl (Nat.lt_of_not_le hhandles))
    | fileName _ hunit hname => exact .inr (.inr ⟨_, hunit, hname⟩)
  . intro h
    rcases Field.areDistinct_or_exists_clashes options.ecs.entity entity.qualifiedName
      entity.fields with hdistinct | ⟨front, field, back, clash, hfields, hfront, hclash⟩
    . have hnames := hdistinct.names
      have hhandles := hdistinct.handles
      rcases h with hrepeated | hsecond | ⟨unit, hunit, hname⟩
      . contradiction
      . omega
      . exact ⟨⟨_, _⟩, rfl, .fileName hdistinct hunit hname⟩
    . exact ⟨⟨_, _⟩, rfl, .fields hfields hfront hclash⟩

theorem mem_report_failures_iff_fault {entities : List Descriptor}
    (h : ∀ entity ∈ entities, entity.IsValid) {failure : Failure} :
    failure ∈ (options.report entities).failures
      ↔
    ∃ before entity after, entities = before ++ entity :: after
      ∧ failure.entity = entity.qualifiedName
      ∧ entity.Fault options.ecs.entity (options.report before).units failure.error := by
  rw [mem_report_failures_iff]
  constructor
  . rintro ⟨before, entity, after, rfl, hfails⟩
    rw [List.forall_mem_append, List.forall_mem_cons] at h
    exact ⟨before, entity, after, rfl, (failsAfter_iff_fault h.1 h.2.1).mp hfails⟩
  . rintro ⟨before, entity, after, rfl, hfault⟩
    rw [List.forall_mem_append, List.forall_mem_cons] at h
    exact ⟨before, entity, after, rfl, (failsAfter_iff_fault h.1 h.2.1).mpr hfault⟩

end Options

namespace Manifest

theorem generate_failures_iff_fault (manifest : Manifest) (h : manifest.IsAccepted) :
    let options := manifest.settings.options
    let handleType := s!"{manifest.settings.ecs.namespaceName}.Entity"
    (∀ failure,
        failure ∈ manifest.generate.failures
          ↔
        ∃ before entity after, manifest.entities = before ++ entity :: after
          ∧ failure.entity = entity.qualifiedName
          ∧ entity.Fault handleType (options.report before).units failure.error)
      ∧ (∀ before entity after, manifest.entities = before ++ entity :: after →
          ((∃ failure, options.FailsAfter before entity failure)
            ↔
          ¬ (entity.fields.map (·.name)).Nodup
            ∨ 2 ≤ entity.fields.countP (·.type = handleType)
            ∨ ∃ unit ∈ (options.report before).units, unit.fileName = entity.fileName))
      ∧ ∀ failure ∈ manifest.generate.failures,
          failure.error ≠ .resolve .emptyName
            ∧ (∀ entity access, failure.error ≠ .resolve (.unknownAccess entity access))
            ∧ ∀ entity error, failure.error ≠ .build entity error := by
  intro options handleType
  have hvalid := isAccepted_iff_isValid.mp h
  have hentities := hvalid.entities
  have hhandle : options.ecs.entity = handleType := by
    unfold options Settings.options Ecs.entity qualify
    rw [if_neg]
    . rw [String.append_assoc]
      rfl
    . rw [String.isEmpty_iff]
      exact hvalid.settings.runtime_ne_empty
  have hmem := @Options.mem_report_failures_iff_fault options _ hentities
  rw [hhandle] at hmem
  refine ⟨fun failure => hmem, ?_, ?_⟩
  . intro before entity after hsplit
    rw [hsplit, List.forall_mem_append, List.forall_mem_cons] at hentities
    rw [← hhandle]
    exact Options.exists_failsAfter_iff hentities.1 hentities.2.1
  . intro failure hfailure
    have ⟨_, entity, _, _, _, hfault⟩ := hmem.mp hfailure
    rcases failure with ⟨label, error⟩
    cases hfault with
    | fields _ _ hclash => cases hclash <;> simp
    | fileName => simp

theorem generate_failures_iff_fault_repeated_name :
    let health : Field := { name := "Health", type := "int" }
    let owner : Field := { name := "Health", type := "Abg.Entities.Entity" }
    let manifest : Manifest := { entities := [{ name := "Unit", fields := [health, owner] }] }
    manifest.IsAccepted
      ∧ ⟨"Unit", .resolve (.duplicateField "Unit" "Health")⟩ ∈ manifest.generate.failures := by
  intro health owner manifest
  have haccepted : manifest.IsAccepted := ⟨"", by decide +kernel⟩
  refine ⟨haccepted, ?_⟩
  rw [(generate_failures_iff_fault manifest haccepted).1]
  refine ⟨[], _, [], rfl, rfl, ?_⟩
  apply @Descriptor.Fault.fields _ _ _ [health] [] owner
  . rfl
  . exact ⟨by decide, by decide⟩
  . apply Field.Clashes.name
    decide

end Manifest

end EntityViews
