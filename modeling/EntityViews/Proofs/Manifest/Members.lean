import EntityViews.Proofs.Manifest.Accepted
import EntityViews.Proofs.SourceUnit.Members

/-!
This module contains the members of the views that are generated for manifests. Nothing keeps the fields
that a manifest declares apart from the names that are chosen for components and views, so manifests
can be accepted and generated although a view has clashing members.
-/

namespace EntityViews

namespace Manifest

open Descriptor Verdict

theorem generate_members_iff (manifest : Manifest) :
    let options := manifest.settings.options
    let kept := keptOf (settleAll options [] manifest.entities)
    manifest.generate.units = kept.map (·.unit)
      ∧ ∀ made ∈ kept,
          made.descriptor ∈ manifest.entities
            ∧ made.descriptor.resolve options.ecs = .ok made.schema
            ∧ ((Generator.ofOptions options).generate made.schema).1 = .ok made.unit
            ∧ (made.schema.view options.ecs).memberNames
                = made.schema.backReference.toList
                    ++ (List.range made.schema.components.length).map Component.storedName
                    ++ made.schema.components.map (·.propertyName)
            ∧ (made.schema.HasDistinctMembers options.ecs
              ↔
              ∀ field ∈ made.descriptor.fields,
                field.name ≠ made.schema.viewName
                  ∧ ∀ index < made.schema.components.length,
                      field.name ≠ Component.storedName index) := by
  intro options kept
  refine ⟨manifest.generate_units, fun made h => ?_⟩
  have ⟨hmem, hresolve, hgenerate⟩ := made_of_mem_keptOf_settleAll h
  have ⟨hstored, hdistinct⟩ := hasDistinctMembers_iff_of_resolve hresolve
  refine ⟨hmem, hresolve, hgenerate, ?_, hdistinct⟩
  rw [Schema.memberNames_view, hstored]

theorem accepted_with_clashing_members :
    let entity : Descriptor := { name := "Unit", fields := [{ name := "component_0", type := "int" }] }
    let manifest : Manifest := { entities := [entity] }
    let options := manifest.settings.options
    manifest.IsAccepted
      ∧ manifest.generate.failures = []
      ∧ ∃ made, keptOf (settleAll options [] manifest.entities) = [made]
          ∧ manifest.generate.units = [made.unit]
          ∧ (made.schema.view options.ecs).memberNames = ["component_0", "component_0"]
          ∧ ¬ made.schema.HasDistinctMembers options.ecs := by
  intro entity manifest options
  have hunits : manifest.generate.units.length = 1 := by decide +kernel
  have hkept : manifest.generate.units
      = (keptOf (settleAll options [] manifest.entities)).map (·.unit) := manifest.generate_units
  rw [hkept, List.length_map, List.length_eq_one_iff] at hunits
  obtain ⟨made, hmade⟩ := hunits
  have ⟨hmem, hresolve, _⟩ :=
    made_of_mem_keptOf_settleAll (hmade ▸ List.mem_singleton_self made)
  rw [List.mem_singleton.mp hmem] at hresolve
  have ⟨_, _, hschema⟩ := exists_of_resolve_eq_ok hresolve
  have hmembers : (made.schema.view options.ecs).memberNames = ["component_0", "component_0"] := by
    rw [Schema.memberNames_view, ← hschema]
    change (Members.ofFields options.ecs.entity entity.fields).backReference.toList
      ++ (Members.ofFields options.ecs.entity entity.fields).components.map (·.fieldName)
      ++ (Members.ofFields options.ecs.entity entity.fields).components.map (·.propertyName) = _
    decide +kernel
  refine ⟨⟨"", by decide +kernel⟩, by decide +kernel, made, hmade, ?_, hmembers, ?_⟩
  . rw [hkept, hmade]
    rfl
  . intro hdistinct
    have hnodup := hdistinct.2
    rw [hmembers] at hnodup
    revert hnodup
    decide

end Manifest

end EntityViews
