import EntityViews.Proofs.Decl.Sound
import EntityViews.Proofs.Text.Words
import EntityViews.SourceUnit.Basic

/-!
This module contains the condition under which the unit of a schema can be built. All that the check
of the declarations can find is a name or a type without visible characters.
-/

namespace EntityViews

open Node

structure Component.IsVisible (component : Component) : Prop where
  type : Text.isInvisible component.type = false
  fieldName : Text.isInvisible component.fieldName = false
  propertyName : Text.isInvisible component.propertyName = false

structure Schema.IsVisible (schema : Schema) : Prop where
  viewName : Text.isInvisible schema.viewName = false
  collectionName : Text.isInvisible schema.collectionName = false
  backReference : ∀ name ∈ schema.backReference, Text.isInvisible name = false
  components : ∀ component ∈ schema.components, component.IsVisible

@[simp]
theorem isInvisible_qualify {name : String} (h : Text.isInvisible name = false)
    (namespaceName : String) : Text.isInvisible (qualify namespaceName name) = false := by
  unfold qualify
  split
  . exact h
  . simp [toString, h]

theorem Ecs.isInvisible_entity (ecs : Ecs) : Text.isInvisible ecs.entity = false := by
  exact isInvisible_qualify (by decide) ecs.namespaceName

namespace Component

variable (ecs : Ecs) (component : Component)

@[simp]
theorem check_refType : (component.refType ecs).check = .ok () := by
  have hname : Text.isInvisible ecs.componentRef = false := isInvisible_qualify (by decide) _
  unfold refType
  rw [check_generic_eq_ok_iff]
  simp [isInvisible, hname]

@[simp]
theorem isInvisible_refType : (component.refType ecs).isInvisible = false := by
  simp only [refType, isInvisible]

@[simp]
theorem check_storageType : (component.storageType ecs).check = .ok () := by
  unfold storageType
  cases component.kind with
  | value => simp
  | reference => simp

@[simp]
theorem check_viewArgument : (component.viewArgument ecs).check = .ok () := by
  unfold viewArgument
  cases component.kind with
  | value => simp [check_wrapped_eq_ok_iff, concat, check_list_eq_ok_iff]
  | reference => simp

theorem check_viewField_eq_ok_iff :
    (component.viewField ecs).check = .ok ()
      ↔
    (component.kind = .reference → Text.isInvisible component.type = false)
      ∧ Text.isInvisible component.fieldName = false := by
  unfold viewField storageType
  rw [check_field_eq_ok_iff]
  cases component.kind with
  | value => simp [isInvisible]
  | reference => simp [isInvisible]

theorem check_viewProperty_eq_ok_iff :
    component.viewProperty.check = .ok ()
      ↔
    Text.isInvisible component.type = false ∧ Text.isInvisible component.propertyName = false := by
  unfold viewProperty
  rw [check_property_eq_ok_iff]
  simp [isInvisible, check_wrapped_eq_ok_iff, concat, check_list_eq_ok_iff,
    check_accessor_eq_ok_iff]

theorem check_accessorField_eq_ok_iff :
    component.accessorField.check = .ok () ↔ Text.isInvisible component.fieldName = false := by
  have hname : Text.isInvisible Ecs.componentAccessor = false := by decide
  unfold accessorField
  rw [check_field_eq_ok_iff]
  rw [check_generic_eq_ok_iff]
  simp [isInvisible, hname]

end Component

namespace Schema

variable (ecs : Ecs) (schema : Schema)

theorem check_viewFields_eq_ok_iff :
    (∀ node ∈ schema.viewFields ecs, node.check = .ok ())
      ↔
    (∀ name ∈ schema.backReference, Text.isInvisible name = false)
      ∧ ∀ component ∈ schema.components,
          (component.kind = .reference → Text.isInvisible component.type = false)
            ∧ Text.isInvisible component.fieldName = false := by
  unfold viewFields
  simp only [List.forall_mem_append, List.forall_mem_map, Option.mem_toList,
    Component.check_viewField_eq_ok_iff, check_field_eq_ok_iff]
  simp [isInvisible, ecs.isInvisible_entity]

theorem check_viewParameters : ∀ node ∈ schema.viewParameters ecs, node.check = .ok () := by
  unfold viewParameters
  simp only [List.forall_mem_append, List.forall_mem_map, check_parameter_eq_ok_iff, check_text,
    Component.check_storageType, and_self, implies_true]

theorem check_viewAssignments : ∀ node ∈ schema.viewAssignments, node.check = .ok () := by
  unfold viewAssignments
  simp only [List.forall_mem_append, List.forall_mem_map, check_assign, implies_true, and_self]

theorem check_viewConstructor (hview : Text.isInvisible schema.viewName = false) :
    ∀ node ∈ schema.viewConstructor ecs, node.check = .ok () := by
  unfold viewConstructor
  split
  . simp
  . rw [List.forall_mem_cons, List.forall_mem_singleton]
    refine ⟨check_empty, ?_⟩
    rw [check_callable_eq_ok_iff]
    refine ⟨by simpa [isInvisible] using hview, check_text _, by simp, ?_,
      schema.check_viewParameters ecs, by simp, by simp, schema.check_viewAssignments⟩
    rfl

theorem check_view_eq_ok_iff :
    (schema.view ecs).check = .ok ()
      ↔
    Text.isInvisible schema.viewName = false
      ∧ (∀ name ∈ schema.backReference, Text.isInvisible name = false)
      ∧ ∀ component ∈ schema.components, component.IsVisible := by
  unfold view
  rw [check_typeDecl_eq_ok_iff]
  simp only [List.forall_mem_append, List.forall_mem_flatMap, List.forall_mem_cons,
    check_viewFields_eq_ok_iff, Component.check_viewProperty_eq_ok_iff]
  constructor
  . rintro ⟨hview, _, _, ⟨⟨hback, hfields⟩, _⟩, hproperties⟩
    refine ⟨by simpa [isInvisible] using hview, hback, ?_⟩
    intro component hcomponent
    have ⟨_, hproperty, _⟩ := hproperties component hcomponent
    exact ⟨hproperty.1, (hfields component hcomponent).2, hproperty.2⟩
  . rintro ⟨hview, hback, hcomponents⟩
    refine ⟨by simpa [isInvisible] using hview, check_text _, by simp, ⟨⟨hback, ?_⟩, ?_⟩, ?_⟩
    . intro component hcomponent
      have hvisible := hcomponents component hcomponent
      exact ⟨fun _ => hvisible.type, hvisible.fieldName⟩
    . exact schema.check_viewConstructor ecs hview
    . intro component hcomponent
      have hvisible := hcomponents component hcomponent
      exact ⟨check_empty, ⟨hvisible.type, hvisible.propertyName⟩, by simp⟩

theorem check_enumeratorMethod {returns name : String} {body : List Statement}
    (hreturns : Text.isInvisible returns = false) (hname : Text.isInvisible name = false) :
    (enumeratorMethod returns name body).check = .ok () := by
  unfold enumeratorMethod
  rw [check_callable_eq_ok_iff]
  refine ⟨hname, check_text _, fun _ => ⟨hreturns, check_text _⟩, rfl, by simp, by simp, by simp, ?_⟩
  exact Statement.check_nodes body

theorem check_enumeratorConstructor : schema.enumeratorConstructor.check = .ok () := by
  unfold enumeratorConstructor
  rw [check_callable_eq_ok_iff]
  refine ⟨rfl, check_text _, by simp, rfl, ?_, by simp, by simp, Statement.check_nodes _⟩
  rw [List.forall_mem_singleton]
  rw [check_parameter_eq_ok_iff]
  exact ⟨check_text _, check_text _⟩

theorem check_returnView : (schema.returnView ecs).check = .ok () := by
  unfold returnView viewArguments
  rw [check_wrapped_eq_ok_iff]
  refine ⟨check_text _, check_text _, ?_⟩
  simp only [check_list_eq_ok_iff, List.forall_mem_append, List.forall_mem_map, check_text,
    Component.check_viewArgument, implies_true, and_self]

theorem check_enumerator_eq_ok_iff :
    (schema.enumerator ecs).check = .ok ()
      ↔
    (∀ component ∈ schema.components, Text.isInvisible component.fieldName = false)
      ∧ Text.isInvisible schema.viewName = false := by
  have hmoveNext : (enumeratorMethod "bool" "MoveNext"
      (Enumerator.moveNext schema.components)).check = .ok () :=
    check_enumeratorMethod (by decide) (by decide)
  have hreset : (enumeratorMethod "void" "Reset" Enumerator.reset).check = .ok () :=
    check_enumeratorMethod (by decide) (by decide)
  have hdispose : (enumeratorMethod "void" "Dispose" Enumerator.dispose).check = .ok () :=
    check_enumeratorMethod (by decide) (by decide)
  unfold enumerator
  rw [check_typeDecl_eq_ok_iff]
  simp only [List.forall_mem_append, List.forall_mem_map, List.forall_mem_cons,
    Component.check_accessorField_eq_ok_iff, check_generic_eq_ok_iff, check_field_eq_ok_iff,
    check_property_eq_ok_iff, check_accessor_eq_ok_iff, check_text, check_empty,
    check_returnView, check_enumeratorConstructor, hmoveNext, hreset, hdispose]
  -- besides the view, all names of an enumerator are fixed
  simp +decide [isInvisible]

theorem check_collectionFactory (hcollection : Text.isInvisible schema.collectionName = false) :
    (schema.collectionFactory ecs).check = .ok () := by
  unfold collectionFactory
  rw [check_callable_eq_ok_iff]
  refine ⟨rfl, check_text _, fun _ => ⟨hcollection, check_text _⟩, rfl, ?_, by simp, by simp, by simp⟩
  rw [List.forall_mem_singleton]
  unfold worldParameter
  rw [check_parameter_eq_ok_iff]
  exact ⟨check_text _, check_text _⟩

theorem check_typeArray (types : List String) : (typeArray types).check = .ok () := by
  unfold typeArray
  rw [check_wrapped_eq_ok_iff]
  simp only [check_list_eq_ok_iff, List.forall_mem_map, check_text, implies_true, and_self]

theorem check_collectionConstructor (hcollection : Text.isInvisible schema.collectionName = false) :
    (schema.collectionConstructor ecs).check = .ok () := by
  unfold collectionConstructor
  rw [check_callable_eq_ok_iff]
  refine ⟨hcollection, check_text _, by simp, rfl, ?_, by simp, ?_, by simp⟩
  . rw [List.forall_mem_singleton]
    unfold worldParameter
    rw [check_parameter_eq_ok_iff]
    exact ⟨check_text _, check_text _⟩
  . simp [check_typeArray]

theorem check_getEnumerator : getEnumerator.check = .ok () := by
  rfl

theorem check_collection_eq_ok_iff :
    (schema.collection ecs).check = .ok ()
      ↔
    Text.isInvisible schema.collectionName = false
      ∧ (∀ component ∈ schema.components, Text.isInvisible component.fieldName = false)
      ∧ Text.isInvisible schema.viewName = false := by
  unfold collection
  rw [check_typeDecl_eq_ok_iff]
  simp only [List.forall_mem_cons, check_text, check_empty, check_getEnumerator,
    check_enumerator_eq_ok_iff]
  constructor
  . rintro ⟨hcollection, _, _, _, _, _, _, _, _, henumerator, _⟩
    exact ⟨hcollection, henumerator⟩
  . rintro ⟨hcollection, henumerator⟩
    exact ⟨hcollection, trivial, by simp, schema.check_collectionFactory ecs hcollection, trivial,
      schema.check_collectionConstructor ecs hcollection, trivial, trivial, trivial, henumerator,
      by simp⟩

theorem check_preamble (options : Options) : ∀ node ∈ preamble options, node.check = .ok () := by
  unfold preamble usingDirective
  simp only [List.forall_mem_append, List.forall_mem_map, check_text, implies_true]
  refine ⟨⟨⟨?_, trivial⟩, ?_⟩, by simp⟩
  . split <;> simp
  . split <;> simp

theorem check_unitTree_eq_ok_iff {options : Options} {schema : Schema} :
    (schema.unitTree options).check = .ok () ↔ schema.IsVisible := by
  have hdeclarations : (∀ node ∈ [schema.view options.ecs, .empty, schema.collection options.ecs],
      node.check = .ok ()) ↔ schema.IsVisible := by
    simp only [List.forall_mem_cons, check_view_eq_ok_iff, check_collection_eq_ok_iff, check_empty]
    constructor
    . rintro ⟨⟨hview, hback, hcomponents⟩, _, ⟨hcollection, _⟩, _⟩
      exact ⟨hview, hcollection, hback, hcomponents⟩
    . intro h
      exact ⟨⟨h.viewName, h.backReference, h.components⟩, trivial,
        ⟨h.collectionName, fun component hmem => (h.components component hmem).fieldName,
          h.viewName⟩, by simp⟩
  rw [← hdeclarations]
  unfold unitTree Node.lines
  rw [check_list_eq_ok_iff]
  rw [List.forall_mem_append]
  rw [and_iff_right (check_preamble options)]
  split
  . rfl
  . rw [List.forall_mem_singleton]
    unfold namespaceBlock
    rw [check_block_eq_ok_iff]
    simp only [check_text, true_and]

end Schema

namespace Generator

variable {schema : Schema} (generator : Generator)

theorem exists_generate_eq_ok (h : schema.IsVisible) :
    ∃ content, (generator.generate schema).1
      = .ok ⟨schema.fileName, schema.qualifiedName, content⟩ := by
  unfold generate
  dsimp only
  rw [Schema.check_unitTree_eq_ok_iff.mpr h]
  exact ⟨_, rfl⟩

theorem exists_generate_eq_error (h : ¬ schema.IsVisible) :
    ∃ error, (generator.generate schema).1 = .error (.build schema.qualifiedName error) := by
  rw [← @Schema.check_unitTree_eq_ok_iff generator.options] at h
  unfold generate
  dsimp only
  cases hcheck : (schema.unitTree generator.options).check with
  | error error => exact ⟨error, rfl⟩
  | ok _ => contradiction

end Generator

end EntityViews
