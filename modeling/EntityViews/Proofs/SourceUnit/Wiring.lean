import EntityViews.Proofs.Decl.Reading
import EntityViews.SourceUnit.Collection

/-!
This module contains the wiring of generated code. The components of an entity pass through fields,
parameters, arguments and arrays of types of a view, its collection and their enumerator. Each of these
lists is written on its own, and all of them agree position by position.
-/

namespace EntityViews

open Node

structure Wiring where
  viewFields : List Variable
  viewConstructors : List Routine
  viewProperties : List Property
  arguments : List String
  enumeratorFields : List Variable
  moveNext : List (Nat × String)
  types : List String

namespace Wiring

def read? (view collection : Node) : Option Wiring := do
  let viewName ← view.typeName?
  let enumerator ← collection.members.find? (·.typeName? = some "Enumerator")
  let current ← enumerator.properties.find? (·.name = "Current")
  let arguments ← current.getter.findSome? (enclosed? s!"return new {viewName}(" ");")
  let moveNext ← enumerator.routines.find? (·.name = "MoveNext")
  let selection ← collection.routines.find? (·.kind = .constructor)
  let types ← selection.baseArguments.findSome? (enclosed? ("new Type[] " ++ openBrace) closeBrace)
  return {
    viewFields := view.fields
    viewConstructors := view.routines.filter (·.kind = .constructor)
    viewProperties := view.properties
    arguments
    enumeratorFields := enumerator.fields
    moveNext := outlines 0 moveNext.body
    types
  }

def parameters (wiring : Wiring) : List Variable :=
  wiring.viewConstructors.flatMap (·.parameters)

def assignments (wiring : Wiring) : List String :=
  (wiring.viewConstructors.flatMap (·.body)).map toText

end Wiring

namespace Component

def storedType (ecs : Ecs) (component : Component) : String :=
  match component.kind with
  | .value => s!"{ecs.componentRef}<{component.type}>"
  | .reference => component.type

def handedOver (ecs : Ecs) (component : Component) : String :=
  match component.kind with
  | .value => s!"new {ecs.componentRef}<{component.type}>({component.fieldName}, indexInCollection)"
  | .reference => s!"{component.fieldName}[indexInCollection]"

def returned (component : Component) : String :=
  match component.kind with
  | .value => s!"return ref {component.fieldName}.Value;"
  | .reference => s!"return {component.fieldName};"

def binding (component : Component) : String :=
  s!"{component.fieldName} = activeCollection.GetComponents<{component.type}>();"

end Component

namespace Wiring

def handle : String := "collections[collectionIndex].GetEntity(indexInCollection)"

structure PassesHandle (wiring : Wiring) (ecs : Ecs) (name : String) (position : Nat) : Prop where
  field : wiring.viewFields[position]? = some ⟨ecs.entity, name⟩
  parameter : wiring.parameters[position]? = some ⟨ecs.entity, "entity"⟩
  assignment : wiring.assignments[position]? = some s!"this.{name} = entity;"
  argument : wiring.arguments[position]? = some handle

structure PassesComponent (wiring : Wiring) (ecs : Ecs) (component : Component)
    (position index : Nat) : Prop where
  field : wiring.viewFields[position]? = some ⟨component.storedType ecs, component.fieldName⟩
  parameter : wiring.parameters[position]? = some ⟨component.storedType ecs, component.fieldName⟩
  assignment : wiring.assignments[position]?
    = some s!"this.{component.fieldName} = {component.fieldName};"
  argument : wiring.arguments[position]? = some (component.handedOver ecs)
  accessor : wiring.enumeratorFields[index]?
    = some ⟨s!"ComponentAccessor<{component.type}>", component.fieldName⟩
  type : wiring.types[index]? = some s!"typeof({component.type})"
  property : wiring.viewProperties[index]?
    = some ⟨component.kind = .value, component.type, component.propertyName,
        [.text component.returned]⟩

/--
The statements return true in one place, right after the bindings of the components in the same block.
-/
def Binds (wiring : Wiring) (components : List Component) : Prop :=
  ∃ before after depth,
    wiring.moveNext
        = before ++ components.map (fun component => (depth, component.binding))
            ++ (depth, "return true;") :: after
      ∧ (wiring.moveNext.map (·.2)).count "return true;" = 1

structure Agrees (wiring : Wiring) (ecs : Ecs) (schema : Schema) : Prop where
  constructors : wiring.viewConstructors.length = if wiring.parameters.isEmpty then 0 else 1
  parameters : wiring.parameters.length = wiring.arguments.length
  arguments : wiring.arguments.length
    = schema.backReference.toList.length + schema.components.length
  handle : handle ∈ wiring.arguments ↔ schema.backReference.isSome
  backReference : ∀ name ∈ schema.backReference, wiring.PassesHandle ecs name 0
  components : ∀ index component, schema.components[index]? = some component →
    wiring.PassesComponent ecs component (schema.backReference.toList.length + index) index
  bindings : wiring.Binds schema.components

end Wiring

namespace Component

variable (ecs : Ecs) (component : Component)

theorem inscribes_refType :
    (component.refType ecs).script.Inscribes (ecs.componentRef ++ "<" ++ component.type ++ ">") := by
  exact inscribes_generic (inscribes_text _) (inscribes_text _)

theorem toText_storageType : (component.storageType ecs).toText = component.storedType ecs := by
  unfold storageType storedType
  cases component.kind with
  | value => exact toText_of_inscribes (component.inscribes_refType ecs)
  | reference => exact toText_text _

theorem toText_viewArgument : (component.viewArgument ecs).toText = component.handedOver ecs := by
  unfold viewArgument handedOver
  cases component.kind with
  | value =>
    have hcall := inscribes_concat_pair (component.inscribes_refType ecs)
      (inscribes_text s!"({component.fieldName}, {Enumerator.indexInCollection})")
    have hnew := inscribes_wrapped (inscribes_text "new ") hcall (inscribes_text "")
    refine (toText_of_inscribes hnew).trans ?_
    simp [← String.toList_inj, toString, Enumerator.indexInCollection]
  | reference =>
    refine (toText_text _).trans ?_
    simp [← String.toList_inj, toString, Enumerator.indexInCollection]

theorem field?_accessorField :
    component.accessorField.field?
      =
    some ⟨s!"ComponentAccessor<{component.type}>", component.fieldName⟩ := by
  have htype := inscribes_generic (inscribes_text Ecs.componentAccessor)
    (inscribes_text component.type)
  rw [accessorField, field?, toText_of_inscribes htype, toText_text]
  rfl

theorem property?_viewProperty :
    component.viewProperty.property?
      =
    some ⟨component.kind = .value, component.type, component.propertyName,
      [.text component.returned]⟩ := by
  simp only [viewProperty, property?, getter?, List.findSome?_singleton, toText_text]
  rfl

end Component

namespace Schema

open Enumerator (collections collectionIndex indexInCollection)

variable (ecs : Ecs) (schema : Schema)

def enumeratorFields : List Variable :=
  (schema.components.map fun component =>
      ⟨s!"ComponentAccessor<{component.type}>", component.fieldName⟩)
    ++ [⟨"IReadOnlyList<IEntityCollection>", "collections"⟩, ⟨"int", "collectionIndex"⟩,
      ⟨"int", "indexInCollection"⟩]

def wiring : Wiring where
  viewFields := (schema.backReference.toList.map fun name => ⟨ecs.entity, name⟩)
    ++ schema.components.map fun component => ⟨component.storedType ecs, component.fieldName⟩
  viewConstructors :=
    if schema.isEmpty then
      []
    else
      [{ kind := .constructor
         name := schema.viewName
         parameters := parameters
         baseArguments := []
         body := schema.viewAssignments }]
  viewProperties := schema.components.map fun component =>
    ⟨component.kind = .value, component.type, component.propertyName, [.text component.returned]⟩
  arguments := (schema.backReference.toList.map fun _ => Wiring.handle)
    ++ schema.components.map (·.handedOver ecs)
  enumeratorFields := schema.enumeratorFields
  moveNext := outlines 0 (Statement.nodes (Enumerator.moveNext schema.components))
  types := schema.components.map fun component => s!"typeof({component.type})"
where
  parameters : List Variable :=
    (schema.backReference.toList.map fun _ => ⟨ecs.entity, "entity"⟩)
      ++ schema.components.map fun component => ⟨component.storedType ecs, component.fieldName⟩

theorem fields_view : (schema.view ecs).fields = (schema.wiring ecs).viewFields := by
  have hconstructor : (schema.viewConstructor ecs).filterMap field? = [] := by
    unfold viewConstructor
    split <;> rfl
  have hproperties : (schema.components.flatMap fun component =>
      [Node.empty, component.viewProperty]).filterMap field? = [] := by
    rw [List.filterMap_flatMap]
    simp [Component.viewProperty, field?, Node.empty]
  unfold view fields members
  rw [List.filterMap_append, List.filterMap_append, hconstructor, hproperties]
  simp [viewFields, wiring, Component.viewField, field?, Component.toText_storageType,
    List.filterMap_map, Function.comp_def]

theorem mapM_parameter?_viewParameters :
    (schema.viewParameters ecs).mapM parameter? = some (wiring.parameters ecs schema) := by
  apply mapM_parameter?_eq_some
  simp [viewParameters, wiring.parameters, parameter, parameter?, Component.toText_storageType,
    handleParameter, Function.comp_def]

theorem routines_view :
    (schema.view ecs).routines.filter (·.kind = .constructor)
      =
    (schema.wiring ecs).viewConstructors := by
  have hfields : (schema.viewFields ecs).filterMap routine? = [] := by
    simp [viewFields, Component.viewField, routine?, List.filterMap_map, Function.comp_def]
  have hproperties : (schema.components.flatMap fun component =>
      [Node.empty, component.viewProperty]).filterMap routine? = [] := by
    simp [List.filterMap_flatMap, Component.viewProperty, routine?, Node.empty]
  have hconstructor : (schema.viewConstructor ecs).filterMap routine?
      = (schema.wiring ecs).viewConstructors := by
    unfold viewConstructor wiring
    split
    . rfl
    . simp [List.filterMap_cons, routine?, Node.empty, mapM_parameter?_viewParameters]
  unfold view routines members
  rw [List.filterMap_append, List.filterMap_append, hfields, hconstructor, hproperties,
    List.nil_append, List.append_nil, List.filter_eq_self]
  unfold wiring
  split <;> simp

theorem properties_view : (schema.view ecs).properties = (schema.wiring ecs).viewProperties := by
  have hfields : (schema.viewFields ecs).filterMap property? = [] := by
    simp [viewFields, Component.viewField, property?, List.filterMap_map, Function.comp_def]
  have hconstructor : (schema.viewConstructor ecs).filterMap property? = [] := by
    unfold viewConstructor
    split <;> rfl
  have hproperties : (schema.components.flatMap fun component =>
      [Node.empty, component.viewProperty]).filterMap property?
        = (schema.wiring ecs).viewProperties := by
    have hempty : Node.empty.property? = none := rfl
    rw [List.filterMap_flatMap]
    simp [hempty, Component.property?_viewProperty, wiring, List.map_eq_flatMap]
  unfold view properties members
  rw [List.filterMap_append, List.filterMap_append, hfields, hconstructor, hproperties]
  rfl

theorem fields_enumerator : (schema.enumerator ecs).fields = schema.enumeratorFields := by
  have hcollections := toText_of_inscribes (inscribes_generic (inscribes_text "IReadOnlyList")
    (inscribes_text Ecs.collectionInterface))
  have hfields : (schema.components.map (·.accessorField)).filterMap field?
      = schema.components.map fun component =>
          ⟨s!"ComponentAccessor<{component.type}>", component.fieldName⟩ := by
    rw [List.filterMap_map]
    simp [Component.field?_accessorField]
  unfold enumerator fields members
  rw [List.filterMap_append, hfields]
  simp only [List.filterMap_cons, field?, hcollections, toText_text, Node.empty,
    enumeratorConstructor, enumeratorMethod]
  rfl

theorem find?_properties_enumerator :
    (schema.enumerator ecs).properties.find? (·.name = "Current")
      =
    some ⟨false, schema.viewName, "Current", [schema.returnView ecs]⟩ := by
  have hfields : (schema.components.map (·.accessorField)).filterMap property? = [] := by
    simp [List.filterMap_map, Component.accessorField, property?]
  unfold enumerator properties members
  rw [List.filterMap_append, hfields]
  simp [List.filterMap_cons, property?, getter?, Node.empty, enumeratorConstructor,
    enumeratorMethod]

theorem routines_enumerator :
    (schema.enumerator ecs).routines
      =
    [⟨.constructor, "Enumerator", [⟨schema.collectionName, "entities"⟩], [],
        Statement.nodes Enumerator.start⟩,
      ⟨.method, "MoveNext", [], [], Statement.nodes (Enumerator.moveNext schema.components)⟩,
      ⟨.method, "Reset", [], [], Statement.nodes Enumerator.reset⟩,
      ⟨.method, "Dispose", [], [], Statement.nodes Enumerator.dispose⟩] := by
  have hfields : (schema.components.map (·.accessorField)).filterMap routine? = [] := by
    simp [List.filterMap_map, Component.accessorField, routine?]
  unfold enumerator routines members
  rw [List.filterMap_append, hfields]
  simp [List.filterMap_cons, routine?, Node.empty, enumeratorConstructor, enumeratorMethod,
    Enumerator.typeName, Enumerator.entities, parameter, parameter?]

theorem enclosed?_returnView :
    (schema.returnView ecs).enclosed? s!"return new {schema.viewName}(" ");"
      =
    some (schema.wiring ecs).arguments := by
  have hhandle : s!"{collections}[{collectionIndex}].GetEntity({indexInCollection})"
      = Wiring.handle := by
    decide
  unfold returnView viewArguments
  rw [hhandle]
  simp [enclosed?, wiring, Component.toText_viewArgument, Function.comp_def]

theorem enclosed?_typeArray (types : List String) :
    (typeArray types).enclosed? ("new Type[] " ++ openBrace) closeBrace
      =
    some (types.map fun type => s!"typeof({type})") := by
  simp [typeArray, enclosed?, Function.comp_def]

theorem read?_eq_wiring :
    Wiring.read? (schema.view ecs) (schema.collection ecs) = some (schema.wiring ecs) := by
  have henumerator : (schema.collection ecs).members.find? (·.typeName? = some "Enumerator")
      = some (schema.enumerator ecs) := by
    simp [collection, members, collectionFactory, collectionConstructor, getEnumerator, enumerator,
      Node.empty, typeName?, Enumerator.typeName]
  have hselection : (schema.collection ecs).routines.find? (·.kind = .constructor)
      = some ⟨.constructor, schema.collectionName, [⟨ecs.entityWorld, "world"⟩],
          [.text "world", typeArray (schema.components.map (·.type)), typeArray schema.excluded],
          []⟩ := by
    simp [collection, routines, members, List.filterMap_cons, routine?, collectionFactory,
      collectionConstructor, getEnumerator, worldParameter, parameter, parameter?, Node.empty,
      enumerator]
  have hviewName : (schema.view ecs).typeName? = some schema.viewName := by
    simp [view, typeName?]
  have hmoveNext : (schema.enumerator ecs).routines.find? (·.name = "MoveNext")
      = some ⟨.method, "MoveNext", [], [],
          Statement.nodes (Enumerator.moveNext schema.components)⟩ := by
    rw [routines_enumerator]
    simp
  unfold Wiring.read?
  simp only [hviewName, henumerator, hselection, hmoveNext, find?_properties_enumerator, fields_view,
    routines_view, properties_view, fields_enumerator, List.findSome?_cons, enclosed?_returnView,
    enclosed?_typeArray, Option.bind_eq_bind, Option.bind_some]
  simp [wiring, enclosed?, Function.comp_def]

variable {schema}

theorem eq_nil_of_isEmpty (h : schema.isEmpty) :
    schema.backReference = none ∧ schema.components = [] := by
  unfold isEmpty at h
  rw [Bool.and_eq_true, Option.isNone_iff_eq_none, List.isEmpty_iff] at h
  exact h

variable (schema)

theorem parameters_wiring : (schema.wiring ecs).parameters = wiring.parameters ecs schema := by
  unfold Wiring.parameters wiring
  dsimp only
  split
  . next hempty =>
    have ⟨hback, hcomponents⟩ := eq_nil_of_isEmpty hempty
    simp [wiring.parameters, hback, hcomponents]
  . simp

theorem assignments_wiring :
    (schema.wiring ecs).assignments
      =
    (schema.backReference.toList.map fun name => s!"this.{name} = entity;")
      ++ schema.components.map fun component =>
        s!"this.{component.fieldName} = {component.fieldName};" := by
  have hassign (target value : String) : (Node.assign target value).toText = s!"{target} = {value};" :=
    toText_text _
  have hassignments : schema.viewAssignments.map toText
      = (schema.backReference.toList.map fun name => s!"this.{name} = entity;")
        ++ schema.components.map fun component =>
          s!"this.{component.fieldName} = {component.fieldName};" := by
    simp [viewAssignments, Function.comp_def, hassign, handleParameter, toString,
      String.append_assoc]
  rw [← hassignments]
  unfold Wiring.assignments wiring
  dsimp only
  split
  . next hempty =>
    have ⟨hback, hcomponents⟩ := eq_nil_of_isEmpty hempty
    simp [viewAssignments, hback, hcomponents]
  . simp

theorem length_viewConstructors_wiring :
    (schema.wiring ecs).viewConstructors.length
      =
    if (schema.wiring ecs).parameters.isEmpty then 0 else 1 := by
  have hempty : (wiring.parameters ecs schema).isEmpty = schema.isEmpty := by
    unfold wiring.parameters isEmpty
    cases schema.backReference <;> simp
  rw [parameters_wiring, hempty]
  unfold wiring
  split <;> rfl

theorem handle_mem_arguments_wiring :
    Wiring.handle ∈ (schema.wiring ecs).arguments ↔ schema.backReference.isSome := by
  -- what is handed over for a component starts or ends differently
  have hother (component : Component) : component.handedOver ecs ≠ Wiring.handle := by
    intro h
    have hlist := congrArg String.toList h
    unfold Component.handedOver at hlist
    cases hkind : component.kind with
    | value => simp [hkind, toString, Wiring.handle] at hlist
    | reference =>
      have hlast := congrArg List.getLast? hlist
      simp [hkind, toString, Wiring.handle] at hlast
  unfold wiring
  cases schema.backReference with
  | none => simp [hother]
  | some name => simp

theorem getElem?_passed {α : Type} (name : String → α) (pass : Component → α) {index : Nat}
    {component : Component} (h : schema.components[index]? = some component) :
    (schema.backReference.toList.map name
      ++ schema.components.map pass)[schema.backReference.toList.length + index]?
      =
    some (pass component) := by
  rw [List.getElem?_append_right (by simp)]
  simp [h]

theorem outline_assign (depth : Nat) (component : Component) :
    (Statement.assign component.fieldName
        (.components (.var Enumerator.activeCollection) component.type)).node.outline depth
      =
    [(depth, component.binding)] := by
  rw [Statement.node, assign, outline_text]
  simp [Component.binding, Term.text, Enumerator.activeCollection, ← String.toList_inj, toString]

theorem outlines_moveNext (components : List Component) :
    outlines 0 (Statement.nodes (Enumerator.moveNext components))
      =
    [(0, "while (collectionIndex < collections.Count)"),
        (1, "IEntityCollection activeCollection = collections[collectionIndex];"),
        (1, "if (++indexInCollection < activeCollection.Count)")]
      ++ components.map (fun component => (2, component.binding))
      ++ (2, "return true;")
        :: [(1, "indexInCollection = -1;"), (1, "++collectionIndex;"), (0, "return false;")] := by
  have hbindings : (Enumerator.bindAccessors components).flatMap (fun statement =>
      statement.node.outline 2) = components.map fun component => (2, component.binding) := by
    rw [Enumerator.bindAccessors, List.flatMap_map, List.map_eq_flatMap]
    simp only [outline_assign]
  simp [Enumerator.moveNext, outlines_eq_flatMap, Statement.node, assign, List.flatMap_map,
    List.flatMap_append, hbindings]
  decide

theorem binds_wiring : (schema.wiring ecs).Binds schema.components := by
  have hne (component : Component) : component.binding ≠ "return true;" := by
    intro h
    have hmem : '>' ∈ component.binding.toList := by
      simp [Component.binding, toString]
    rw [h] at hmem
    revert hmem
    decide
  have hbindings : (schema.components.map (·.binding)).count "return true;" = 0 := by
    rw [List.count_eq_zero, List.mem_map]
    rintro ⟨component, _, heq⟩
    exact hne component heq
  refine ⟨_, _, 2, outlines_moveNext schema.components, ?_⟩
  unfold wiring
  rw [outlines_moveNext]
  simp only [List.map_append, List.map_cons, List.map_nil, List.map_map, Function.comp_def,
    List.count_append, hbindings]
  decide

theorem agrees_wiring : (schema.wiring ecs).Agrees ecs schema where
  constructors := schema.length_viewConstructors_wiring ecs
  parameters := by
    rw [parameters_wiring]
    simp [wiring, wiring.parameters]
  arguments := by
    simp [wiring]
  handle := schema.handle_mem_arguments_wiring ecs
  backReference := by
    intro name hname
    have hback : schema.backReference = some name := hname
    constructor
    . simp [wiring, hback]
    . simp [parameters_wiring, wiring.parameters, hback]
    . simp [assignments_wiring, hback]
    . simp [wiring, hback]
  components := by
    intro index component hcomponent
    have hlt : index < schema.components.length := (List.getElem?_eq_some_iff.mp hcomponent).1
    constructor
    . exact schema.getElem?_passed _ _ hcomponent
    . rw [parameters_wiring]
      exact schema.getElem?_passed _ _ hcomponent
    . rw [assignments_wiring]
      exact schema.getElem?_passed _ _ hcomponent
    . exact schema.getElem?_passed _ _ hcomponent
    . unfold wiring enumeratorFields
      rw [List.getElem?_append_left (by simpa using hlt)]
      simp [hcomponent]
    . simp [wiring, hcomponent]
    . simp [wiring, hcomponent]
  bindings := schema.binds_wiring ecs

theorem exists_wiring_agrees (ecs : Ecs) (schema : Schema) :
    ∃ wiring, Wiring.read? (schema.view ecs) (schema.collection ecs) = some wiring
      ∧ wiring.Agrees ecs schema := by
  exact ⟨schema.wiring ecs, schema.read?_eq_wiring ecs, schema.agrees_wiring ecs⟩

end Schema

end EntityViews
