import EntityViews.Proofs.Entity.FileName
import EntityViews.Proofs.Manifest.Failure
import EntityViews.Proofs.SourceUnit.Types

/-!
This module contains the files that the entities of manifests get. Entities with different types share a
file name if and only if their types overlap, and these are the only entities besides those with the
same type that keep each other from having a unit.
-/

namespace EntityViews

def Schema.viewType (schema : Schema) : String × String :=
  (schema.namespaceName, schema.viewName)

namespace Descriptor

variable {options : Options} {descriptor other : Descriptor}

theorem fileName_eq_iff_of_attempt {schema otherSchema : Schema} {unit otherUnit : SourceUnit}
    (h : descriptor.attempt options = .ok (schema, unit))
    (hother : other.attempt options = .ok (otherSchema, otherUnit)) :
    unit.fileName = otherUnit.fileName
      ↔
    schema.viewType = otherSchema.viewType
      ∨ Overlaps schema.viewType otherSchema.viewType
      ∨ Overlaps otherSchema.viewType schema.viewType := by
  rw [fileName_of_attempt h, fileName_of_attempt hother]
  exact @unitFileName_eq_unitFileName_iff schema.viewType otherSchema.viewType

end Descriptor

namespace Manifest

open Descriptor Verdict

theorem generate_fileNames_overlap (manifest : Manifest) :
    let options := manifest.settings.options
    (∀ first ∈ manifest.entities, ∀ second ∈ manifest.entities, ∀ schema unit other otherUnit,
        first.attempt options = .ok (schema, unit) →
        second.attempt options = .ok (other, otherUnit) →
        schema.viewType ≠ other.viewType →
          (unit.fileName = otherUnit.fileName
            ↔
          Overlaps schema.viewType other.viewType ∨ Overlaps other.viewType schema.viewType))
      ∧ ∀ label duplicate fileName first,
          ⟨label, .duplicate duplicate fileName first⟩ ∈ manifest.generate.failures →
            ∃ before entity after schema unit made,
              manifest.entities = before ++ entity :: after
                ∧ label = entity.qualifiedName
                ∧ entity.attempt options = .ok (schema, unit)
                ∧ unit.fileName = fileName
                ∧ made ∈ keptOf (settleAll options [] before)
                ∧ made.unit ∈ manifest.generate.units
                ∧ made.unit.fileName = fileName
                ∧ (schema.viewType = made.schema.viewType
                  ∨ Overlaps schema.viewType made.schema.viewType
                  ∨ Overlaps made.schema.viewType schema.viewType) := by
  intro options
  refine ⟨?_, ?_⟩
  . intro first _ second _ schema unit other otherUnit hfirst hsecond hne
    rw [fileName_eq_iff_of_attempt hfirst hsecond]
    simp [hne]
  . intro label duplicate fileName first hfailure
    have ⟨before, entity, after, hsplit, hfails⟩ := Options.mem_report_failures_iff.mp hfailure
    rw [Options.failsAfter_iff] at hfails
    have ⟨schema, unit, hattempt, hlabel, hfileName, made, hmade, hshared⟩ :=
      exists_of_settle_eq_duplicate hfails
    have ⟨_, hmadeAttempt⟩ := mem_keptOf_settleAll hmade
    refine ⟨before, entity, after, schema, unit, made, hsplit, hlabel, hattempt, hfileName, hmade,
      ?_, hshared, ?_⟩
    . rw [generate_units, hsplit, settleAll_append, keptOf_append]
      exact List.mem_map_of_mem (List.mem_append_left _ hmade)
    . rw [← fileName_eq_iff_of_attempt hattempt hmadeAttempt, hfileName, hshared]

theorem generate_fileNames_overlap_outermost :
    let manifest : Manifest :=
      { entities := [{ name := "A_B" }, { namespaceName := "A", name := "B" }] }
    let failure : Failure := ⟨"A.B", .duplicate "A.B" "Generated_A_BEntity.cs" "A_B"⟩
    failure ∈ manifest.generate.failures
      ∧ ∃ before entity after made,
          manifest.entities = before ++ entity :: after
            ∧ entity.qualifiedName = "A.B"
            ∧ made ∈ keptOf (settleAll manifest.settings.options [] before)
            ∧ made.unit.fileName = "Generated_A_BEntity.cs" := by
  intro manifest failure
  have hfailure : failure ∈ manifest.generate.failures := by decide +kernel
  have ⟨before, entity, after, _, _, made, hsplit, hlabel, _, _, hmade, _, hfileName, _⟩ :=
    (generate_fileNames_overlap manifest).2 _ _ _ _ hfailure
  exact ⟨hfailure, before, entity, after, made, hsplit, hlabel.symm, hmade, hfileName⟩

theorem accepted_with_shared_fileName :
    let outer : Descriptor := { name := "A_B" }
    let inner : Descriptor := { namespaceName := "A", name := "B" }
    let manifest : Manifest := { entities := [outer, inner] }
    let typeAndFile := fun entity : Descriptor =>
      (entity.attempt manifest.settings.options).map fun (schema, unit) =>
        (schema.viewType, unit.fileName)
    manifest.IsAccepted
      ∧ typeAndFile outer = .ok (("", "A_BEntity"), "Generated_A_BEntity.cs")
      ∧ typeAndFile inner = .ok (("A", "BEntity"), "Generated_A_BEntity.cs")
      ∧ manifest.generate.failures
          = [⟨"A.B", .duplicate "A.B" "Generated_A_BEntity.cs" "A_B"⟩] := by
  intro outer inner manifest typeAndFile
  refine ⟨⟨"", by decide +kernel⟩, ?_, ?_, ?_⟩
  . decide +kernel
  . decide +kernel
  . decide +kernel

end Manifest

end EntityViews
