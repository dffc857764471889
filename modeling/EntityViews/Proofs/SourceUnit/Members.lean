import Mathlib.Data.List.Nodup
import Mathlib.Data.List.Perm.Basic
import EntityViews.Proofs.Decl.Declared
import EntityViews.Proofs.Entity.Resolve
import EntityViews.SourceUnit.View

/-!
This module contains the members of views. A view has the fields and properties that were declared and
one field for each component that was not, and the names of the latter are chosen without a look at the
former. So a view has clashing members if and only if a declared name is one of those that are chosen.
-/

namespace EntityViews

namespace Component

-- one name ends in a digit and the other in a letter
theorem storedName_ne_view (index : Nat) (declared : String) :
    storedName index ≠ EntityName.view declared := by
  intro h
  have hlast := congrArg (fun name : String => name.toList.getLast?) h
  simp only [storedName, EntityName.view, toString, String.toList_append, List.getLast?_append,
    Nat.toList_repr] at hlast
  cases hdigits : (Nat.toDigits 10 index).getLast? with
  | none => exact Nat.toDigits_ne_nil (List.getLast?_eq_none_iff.mp hdigits)
  | some digit =>
    have hdigit : digit.isDigit = true :=
      Nat.isDigit_of_mem_toDigits (by decide) (by decide) (List.mem_of_getLast? hdigits)
    rw [hdigits] at hlast
    have heq : digit = 'y' := by simpa using hlast
    rw [heq] at hdigit
    revert hdigit
    decide

end Component

namespace Schema

def HasDistinctMembers (ecs : Ecs) (schema : Schema) : Prop :=
  schema.viewName ∉ (schema.view ecs).memberNames ∧ (schema.view ecs).memberNames.Nodup

instance (ecs : Ecs) (schema : Schema) : Decidable (schema.HasDistinctMembers ecs) := by
  unfold HasDistinctMembers
  infer_instance

theorem memberNames_view (ecs : Ecs) (schema : Schema) :
    (schema.view ecs).memberNames
      =
    schema.backReference.toList ++ schema.components.map (·.fieldName)
      ++ schema.components.map (·.propertyName) := by
  have hfields : (schema.viewFields ecs).filterMap Node.memberName?
      = schema.backReference.toList ++ schema.components.map (·.fieldName) := by
    simp [viewFields, Component.viewField, List.filterMap_append, List.filterMap_map,
      Function.comp_def, Node.memberName?]
  have hconstructor : (schema.viewConstructor ecs).filterMap Node.memberName? = [] := by
    unfold viewConstructor
    split <;> rfl
  have hproperties : (schema.components.flatMap fun component =>
      [Node.empty, component.viewProperty]).filterMap Node.memberName?
        = schema.components.map (·.propertyName) := by
    rw [List.filterMap_flatMap, List.map_eq_flatMap]
    simp [List.filterMap_cons, Component.viewProperty, Node.memberName?, Node.empty]
  change List.filterMap Node.memberName? (_ ++ _ ++ _) = _
  rw [List.filterMap_append, List.filterMap_append, hfields, hconstructor, hproperties,
    List.append_nil]

end Schema

namespace Schema

open scoped List

variable {ecs : Ecs} {schema : Schema}

-- the chosen names are different already, and so are the declared ones
theorem hasDistinctMembers_iff {names : List String} (hnames : names.Nodup)
    (hdeclared : (schema.backReference.toList
      ++ schema.components.map (·.propertyName)).Perm names)
    (hchosen : (schema.viewName :: schema.components.map (·.fieldName)).Nodup) :
    schema.HasDistinctMembers ecs
      ↔
    ∀ name ∈ names, name ≠ schema.viewName ∧ name ∉ schema.components.map (·.fieldName) := by
  have hperm : (schema.viewName :: (schema.view ecs).memberNames).Perm
      (names ++ schema.viewName :: schema.components.map (·.fieldName)) := by
    calc schema.viewName :: (schema.view ecs).memberNames
      _ ~ schema.viewName :: (schema.components.map (·.fieldName)
            ++ (schema.backReference.toList ++ schema.components.map (·.propertyName))) := by
        rw [memberNames_view, List.append_assoc]
        exact (List.perm_append_comm_assoc _ _ _).cons _
      _ ~ schema.viewName :: schema.components.map (·.fieldName) ++ names :=
        (hdeclared.append_left _).cons _
      _ ~ names ++ schema.viewName :: schema.components.map (·.fieldName) := List.perm_append_comm
  unfold HasDistinctMembers
  rw [← List.nodup_cons, hperm.nodup_iff, List.nodup_append]
  simp only [hnames, hchosen, true_and, List.mem_cons]
  constructor
  . intro h name hname
    exact ⟨h name hname _ (.inl rfl), fun hmem => h name hname name (.inr hmem) rfl⟩
  . rintro h name hname other (hview | hmem) heq
    . exact (h name hname).1 (heq.trans hview)
    . exact (h name hname).2 (heq ▸ hmem)

end Schema

theorem Descriptor.hasDistinctMembers_iff_of_resolve {descriptor : Descriptor} {ecs : Ecs}
    {schema : Schema} (h : descriptor.resolve ecs = .ok schema) :
    schema.components.map (·.fieldName)
        = (List.range schema.components.length).map Component.storedName
      ∧ (schema.HasDistinctMembers ecs
        ↔
        ∀ field ∈ descriptor.fields, field.name ≠ schema.viewName
          ∧ ∀ index < schema.components.length, field.name ≠ Component.storedName index) := by
  have ⟨_, hdistinct, heq⟩ := exists_of_resolve_eq_ok h
  have hstored : schema.components.map (·.fieldName)
      = (List.range schema.components.length).map Component.storedName := by
    rw [← heq]
    exact Members.components_ofFields_map_fieldName _ _
  have hchosen : (schema.viewName :: schema.components.map (·.fieldName)).Nodup := by
    rw [hstored, List.nodup_cons]
    refine ⟨?_, List.nodup_range.map Component.storedName_injective⟩
    intro hmem
    have ⟨index, _, hview⟩ := List.mem_map.mp hmem
    rw [← heq] at hview
    exact Component.storedName_ne_view _ _ hview
  refine ⟨hstored, ?_⟩
  rw [Schema.hasDistinctMembers_iff hdistinct.names _ hchosen, hstored]
  . rw [List.forall_mem_map]
    simp [eq_comm]
  . rw [← heq]
    exact Members.backReference_append_propertyNames_perm hdistinct

end EntityViews
