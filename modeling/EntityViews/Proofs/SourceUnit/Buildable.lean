import EntityViews.Proofs.Entity.Resolve
import EntityViews.Proofs.SourceUnit.Visible

/-!
This module contains the ways in which the units of resolved schemas can fail. The names that
resolution chooses are visible, so all that can keep a unit from being built is a declared name or type
without visible characters.
-/

namespace EntityViews

theorem isInvisible_storedName (index : Nat) :
    Text.isInvisible (Component.storedName index) = false := by
  have hprefix : Text.isInvisible "component_" = false := by decide
  simp [Component.storedName, toString, hprefix]

namespace Descriptor

theorem isVisible_schemaWith_iff (descriptor : Descriptor) (access : Access) (handleType : String) :
    let schema := descriptor.schemaWith access (.ofFields handleType descriptor.fields)
    schema.IsVisible
      ↔
    (∀ name ∈ schema.backReference, Text.isInvisible name = false)
      ∧ ∀ component ∈ schema.components,
          Text.isInvisible component.type = false
            ∧ Text.isInvisible component.propertyName = false := by
  intro schema
  have hview : Text.isInvisible "Entity" = false := by decide
  have hcollection : Text.isInvisible "Entities" = false := by decide
  constructor
  . intro hvisible
    refine ⟨hvisible.backReference, ?_⟩
    intro component hcomponent
    have hparts := hvisible.components component hcomponent
    exact ⟨hparts.type, hparts.propertyName⟩
  . rintro ⟨hback, hcomponents⟩
    refine ⟨?_, ?_, hback, ?_⟩
    . simp [schema, schemaWith, EntityName.view, hview]
    . simp [schema, schemaWith, EntityName.collection, hcollection]
    . intro component hcomponent
      have ⟨htype, hproperty⟩ := hcomponents component hcomponent
      refine ⟨htype, ?_, hproperty⟩
      have ⟨index, _, hfield⟩ := List.mem_mapIdx.mp hcomponent
      rw [← hfield]
      exact isInvisible_storedName index

theorem isVisible_iff_of_resolve {descriptor : Descriptor} {ecs : Ecs} {schema : Schema}
    (h : descriptor.resolve ecs = .ok schema) :
    schema.IsVisible
      ↔
    (∀ name ∈ schema.backReference, Text.isInvisible name = false)
      ∧ ∀ component ∈ schema.components,
          Text.isInvisible component.type = false
            ∧ Text.isInvisible component.propertyName = false := by
  have ⟨access, _, heq⟩ := exists_of_resolve_eq_ok h
  rw [← heq]
  exact descriptor.isVisible_schemaWith_iff access ecs.entity

end Descriptor

namespace Generator

theorem generate_fails_iff_blank {descriptor : Descriptor} {ecs : Ecs} {schema : Schema}
    (h : descriptor.resolve ecs = .ok schema) (generator : Generator) :
    let answer := (generator.generate schema).1
    let hasBlank :=
      (∃ name, schema.backReference = some name ∧ Text.isInvisible name)
        ∨ (∃ component ∈ schema.components, Text.isInvisible component.type)
        ∨ ∃ component ∈ schema.components, Text.isInvisible component.propertyName
    ((∃ error, answer = .error (.build schema.qualifiedName error)) ↔ hasBlank)
      ∧ (¬ hasBlank →
          ∃ content, answer = .ok ⟨schema.fileName, schema.qualifiedName, content⟩) := by
  intro answer hasBlank
  have hvisible : schema.IsVisible ↔ ¬ hasBlank := by
    rw [Descriptor.isVisible_iff_of_resolve h]
    simp [hasBlank, forall_and]
  refine ⟨⟨?_, ?_⟩, ?_⟩
  . rintro ⟨error, herror⟩
    by_contra hblank
    have ⟨content, hcontent⟩ := generator.exists_generate_eq_ok (hvisible.mpr hblank)
    have heq : Except.ok _ = Except.error _ := hcontent.symm.trans herror
    cases heq
  . intro hblank
    apply generator.exists_generate_eq_error
    rw [hvisible]
    exact not_not_intro hblank
  . intro hblank
    exact generator.exists_generate_eq_ok (hvisible.mpr hblank)

theorem generate_fails_iff_blank_value_type :
    let descriptor : Descriptor :=
      { name := "Unit", fields := [{ name := "Place", type := "\t", isValue := true }] }
    let schema : Schema := {
      declaredName := "Unit"
      viewName := "UnitEntity"
      collectionName := "UnitEntities"
      components := [⟨"\t", .value, "component_0", "Place", false⟩]
    }
    let generator := Generator.ofOptions { ecs := ⟨""⟩, indent := .tab }
    descriptor.resolve {} = .ok schema
      ∧ ∃ error, (generator.generate schema).1 = .error (.build "Unit" error) := by
  intro descriptor schema generator
  have hresolve : descriptor.resolve {} = .ok schema := by decide
  have hblank : ∃ component ∈ schema.components, Text.isInvisible component.type :=
    ⟨_, List.mem_singleton_self _, by decide⟩
  exact ⟨hresolve, (generate_fails_iff_blank hresolve generator).1.mpr (.inr (.inl hblank))⟩

end Generator

end EntityViews
