import EntityViews.Proofs.Decl.LineFeed
import EntityViews.Proofs.SourceUnit.Tidy

/-!
This module contains the absence of line feeds from source units. The names in a schema are all that a
unit is made of besides fixed texts, so if there are no line feeds in them then each line of the unit is a
line of its declarations.
-/

namespace EntityViews

structure Component.IsSingleLined (component : Component) : Prop where
  type : '\n' ∉ component.type.toList
  fieldName : '\n' ∉ component.fieldName.toList
  propertyName : '\n' ∉ component.propertyName.toList

structure Schema.IsSingleLined (ecs : Ecs) (schema : Schema) : Prop where
  ecs : '\n' ∉ ecs.namespaceName.toList
  namespaceName : '\n' ∉ schema.namespaceName.toList
  viewName : '\n' ∉ schema.viewName.toList
  collectionName : '\n' ∉ schema.collectionName.toList
  backReference : ∀ name ∈ schema.backReference, '\n' ∉ name.toList
  components : ∀ component ∈ schema.components, component.IsSingleLined
  excluded : ∀ type ∈ schema.excluded, '\n' ∉ type.toList

theorem lineFeed_notMem_qualify {namespaceName name : String} (h : '\n' ∉ namespaceName.toList)
    (hname : '\n' ∉ name.toList) : '\n' ∉ (qualify namespaceName name).toList := by
  unfold qualify
  split
  . exact hname
  . simp [toString, h, hname]

variable {ecs : Ecs}

namespace Component.IsSingleLined

variable {component : Component} (h : component.IsSingleLined)
include h

theorem avoidsAll_refType (hecs : '\n' ∉ ecs.namespaceName.toList) :
    (component.refType ecs).AvoidsAll ['\n'] := by
  have hname : '\n' ∉ ecs.componentRef.toList := lineFeed_notMem_qualify hecs (by decide)
  simp [Component.refType, hname, h.type]

theorem avoidsAll_storageType (hecs : '\n' ∉ ecs.namespaceName.toList) :
    (component.storageType ecs).AvoidsAll ['\n'] := by
  unfold Component.storageType
  split
  . exact h.avoidsAll_refType hecs
  . simp [h.type]

theorem avoidsAll_viewArgument (hecs : '\n' ∉ ecs.namespaceName.toList) :
    (component.viewArgument ecs).AvoidsAll ['\n'] := by
  unfold Component.viewArgument
  split
  . simp [Node.concat, h.avoidsAll_refType hecs, h.fieldName, toString,
      Enumerator.indexInCollection]
  . simp [h.fieldName, toString, Enumerator.indexInCollection]

theorem avoidsAll_viewProperty : component.viewProperty.AvoidsAll ['\n'] := by
  have hstatement : '\n' ∉ (viewProperty.statement component).toList := by
    unfold viewProperty.statement
    split
    . simp [h.fieldName, toString]
    . simp [h.fieldName, toString]
  simp [Component.viewProperty, Node.concat, inliningAttribute, h.type, h.propertyName,
    hstatement]

theorem avoidsAll_accessorField : component.accessorField.AvoidsAll ['\n'] := by
  simp [Component.accessorField, Ecs.componentAccessor, h.type, h.fieldName]

end Component.IsSingleLined

theorem avoidsAll_typeArray {types : List String} (h : ∀ type ∈ types, '\n' ∉ type.toList) :
    (typeArray types).AvoidsAll ['\n'] := by
  simpa [typeArray, ListLayout.hanging, toString] using h

theorem avoidsAll_enumeratorMethod {returns name : String} {body : List Statement}
    (hreturns : '\n' ∉ returns.toList) (hname : '\n' ∉ name.toList)
    (hbody : ∀ name ∈ Statement.namesAll body, '\n' ∉ name.toList) :
    (Schema.enumeratorMethod returns name body).AvoidsAll ['\n'] := by
  apply Node.avoidsAll_callable (by simpa using hreturns) (by simpa using hname) (by simp) (by simp)
    (by simp)
  exact Statement.avoidsAll_nodes body hbody

namespace Schema.IsSingleLined

variable {schema : Schema} (h : schema.IsSingleLined ecs)
include h

theorem avoidsAll_view : (schema.view ecs).AvoidsAll ['\n'] := by
  have hentity : '\n' ∉ ecs.entity.toList := lineFeed_notMem_qualify h.ecs (by decide)
  have hfields : ∀ node ∈ schema.viewFields ecs, node.AvoidsAll ['\n'] := by
    unfold viewFields
    rw [List.forall_mem_append, List.forall_mem_map, List.forall_mem_map]
    refine ⟨fun name hname => ?_, fun component hcomponent => ?_⟩
    . simp [hentity, h.backReference name (Option.mem_toList.mp hname)]
    . have hcomponent := h.components component hcomponent
      simp [Component.viewField, hcomponent.avoidsAll_storageType h.ecs, hcomponent.fieldName]
  have hparameters : ∀ node ∈ schema.viewParameters ecs, node.AvoidsAll ['\n'] := by
    unfold viewParameters
    rw [List.forall_mem_append, List.forall_mem_map, List.forall_mem_map]
    refine ⟨fun name hname => ?_, fun component hcomponent => ?_⟩
    . simp [Node.parameter, handleParameter, hentity]
    . have hcomponent := h.components component hcomponent
      simp [Node.parameter, hcomponent.avoidsAll_storageType h.ecs, hcomponent.fieldName]
  have hassignments : ∀ node ∈ schema.viewAssignments, node.AvoidsAll ['\n'] := by
    unfold viewAssignments
    rw [List.forall_mem_append, List.forall_mem_map, List.forall_mem_map]
    refine ⟨fun name hname => ?_, fun component hcomponent => ?_⟩
    . simp [Node.assign, handleParameter, toString, h.backReference name (Option.mem_toList.mp hname)]
    . simp [Node.assign, toString, (h.components component hcomponent).fieldName]
  have hconstructor : ∀ node ∈ schema.viewConstructor ecs, node.AvoidsAll ['\n'] := by
    unfold viewConstructor
    split
    . simp
    . rw [List.forall_mem_cons, List.forall_mem_singleton]
      refine ⟨Node.avoidsAll_empty, ?_⟩
      apply Node.avoidsAll_callable (by simp) (by simpa using h.viewName) hparameters (by simp)
        (by simp) hassignments
  unfold Schema.view
  rw [Node.avoidsAll_typeDecl]
  refine ⟨by simpa using h.viewName, by simp, ?_⟩
  rw [List.forall_mem_append, List.forall_mem_append, List.forall_mem_flatMap]
  refine ⟨⟨hfields, hconstructor⟩, ?_⟩
  intro component hcomponent
  rw [List.forall_mem_cons, List.forall_mem_singleton]
  exact ⟨Node.avoidsAll_empty, (h.components component hcomponent).avoidsAll_viewProperty⟩

theorem lineFeed_notMem_names_moveNext :
    ∀ name ∈ Statement.namesAll (Enumerator.moveNext schema.components), '\n' ∉ name.toList := by
  apply Enumerator.forall_mem_names_moveNext (motive := fun name => '\n' ∉ name.toList) (by decide)
  intro component hcomponent
  exact ⟨(h.components component hcomponent).fieldName, (h.components component hcomponent).type⟩

theorem avoidsAll_returnView : (schema.returnView ecs).AvoidsAll ['\n'] := by
  have harguments : ∀ node ∈ schema.viewArguments ecs, node.AvoidsAll ['\n'] := by
    unfold viewArguments
    rw [List.forall_mem_append, List.forall_mem_map, List.forall_mem_map]
    refine ⟨fun name hname => ?_, fun component hcomponent => ?_⟩
    . simp [toString, Enumerator.collections, Enumerator.collectionIndex,
        Enumerator.indexInCollection]
    . exact (h.components component hcomponent).avoidsAll_viewArgument h.ecs
  simpa [Schema.returnView, ListLayout.hanging, toString, h.viewName] using harguments

theorem avoidsAll_enumeratorConstructor : schema.enumeratorConstructor.AvoidsAll ['\n'] := by
  have hparameters : ∀ node ∈ [Node.parameter (.text schema.collectionName)
      (.text Enumerator.entities)], node.AvoidsAll ['\n'] := by
    simp [Node.parameter, Enumerator.entities, h.collectionName]
  have hbody : ∀ node ∈ Statement.nodes Enumerator.start, node.AvoidsAll ['\n'] := by
    apply Statement.avoidsAll_nodes
    decide +kernel
  apply Node.avoidsAll_callable (by simp) (by simp [Enumerator.typeName]) hparameters (by simp)
    (by simp) hbody

theorem avoidsAll_enumerator : (schema.enumerator ecs).AvoidsAll ['\n'] := by
  have hrestart : ∀ name ∈ Statement.namesAll Enumerator.restart, '\n' ∉ name.toList := by
    decide +kernel
  have hdispose : ∀ name ∈ Statement.namesAll Enumerator.dispose, '\n' ∉ name.toList := by
    decide +kernel
  unfold Schema.enumerator
  rw [Node.avoidsAll_typeDecl]
  refine ⟨by simp [Enumerator.typeName], by simpa using h.viewName, ?_⟩
  simp only [List.forall_mem_append, List.forall_mem_map, List.forall_mem_cons,
    List.not_mem_nil, false_implies, implies_true, and_true]
  refine ⟨fun component hcomponent => (h.components component hcomponent).avoidsAll_accessorField,
    by simp [Ecs.collectionInterface, Enumerator.collections],
    Node.avoidsAll_empty,
    by simp [Enumerator.collectionIndex],
    by simp [Enumerator.indexInCollection],
    Node.avoidsAll_empty,
    h.avoidsAll_enumeratorConstructor,
    Node.avoidsAll_empty,
    by simpa [h.viewName] using h.avoidsAll_returnView,
    Node.avoidsAll_empty,
    by simp,
    Node.avoidsAll_empty,
    avoidsAll_enumeratorMethod (by simp) (by simp) h.lineFeed_notMem_names_moveNext,
    Node.avoidsAll_empty,
    avoidsAll_enumeratorMethod (by simp) (by simp) hrestart,
    Node.avoidsAll_empty,
    avoidsAll_enumeratorMethod (by simp) (by simp) hdispose⟩

theorem avoidsAll_collection : (schema.collection ecs).AvoidsAll ['\n'] := by
  have hworld : '\n' ∉ ecs.entityWorld.toList := lineFeed_notMem_qualify h.ecs (by decide)
  have hentities : '\n' ∉ ecs.entities.toList := lineFeed_notMem_qualify h.ecs (by decide)
  have hparameters : ∀ node ∈ [worldParameter ecs], node.AvoidsAll ['\n'] := by
    simp [worldParameter, Node.parameter, hworld]
  have hfactory : (schema.collectionFactory ecs).AvoidsAll ['\n'] := by
    apply Node.avoidsAll_callable (by simpa using h.collectionName) (by simp) hparameters (by simp)
      (by simp)
    simp [toString, h.collectionName]
  have htypes : ∀ type ∈ schema.components.map (·.type), '\n' ∉ type.toList := by
    rw [List.forall_mem_map]
    exact fun component hcomponent => (h.components component hcomponent).type
  have hconstructor : (schema.collectionConstructor ecs).AvoidsAll ['\n'] := by
    apply Node.avoidsAll_callable (by simp) (by simpa using h.collectionName) hparameters (by simp)
      _ (by simp)
    simp only [Option.getD_some, List.forall_mem_cons, List.not_mem_nil, false_implies, implies_true,
      and_true]
    exact ⟨by simp, avoidsAll_typeArray htypes, avoidsAll_typeArray h.excluded⟩
  have hgetEnumerator : getEnumerator.AvoidsAll ['\n'] := by
    apply Node.avoidsAll_callable (by simp [Enumerator.typeName]) (by simp) (by simp) (by simp)
      (by simp)
    simp [toString, Enumerator.typeName]
  unfold Schema.collection
  rw [Node.avoidsAll_typeDecl]
  refine ⟨by simpa using h.collectionName, by simpa using hentities, ?_⟩
  simp only [List.forall_mem_cons, List.not_mem_nil, false_implies, implies_true, and_true]
  exact ⟨hfactory, Node.avoidsAll_empty, hconstructor, Node.avoidsAll_empty, hgetEnumerator,
    Node.avoidsAll_empty, h.avoidsAll_enumerator⟩

end Schema.IsSingleLined

namespace Schema

theorem avoidsAll_usingDirective {name : String} (h : '\n' ∉ name.toList) :
    (Node.usingDirective name).AvoidsAll ['\n'] := by
  simp [Node.usingDirective, toString, h]

theorem IsSingleLined.avoidsAll_unitTree {options : Options} {schema : Schema}
    (h : schema.IsSingleLined options.ecs) : (schema.unitTree options).AvoidsAll ['\n'] := by
  have hpreamble : ∀ node ∈ preamble options, node.AvoidsAll ['\n'] := by
    unfold preamble
    simp only [List.forall_mem_append, List.forall_mem_map, List.forall_mem_singleton]
    refine ⟨⟨⟨?_, ?_⟩, ?_⟩, Node.avoidsAll_empty⟩
    . split <;> simp
    . have hnames : ∀ name ∈ systemNamespaces, '\n' ∉ name.toList := by decide +kernel
      exact fun name hname => avoidsAll_usingDirective (hnames name hname)
    . split
      . simp
      . rw [List.forall_mem_singleton]
        exact avoidsAll_usingDirective h.ecs
  have hdeclarations : ∀ node ∈ [schema.view options.ecs, .empty, schema.collection options.ecs],
      node.AvoidsAll ['\n'] := by
    rw [List.forall_mem_cons, List.forall_mem_cons, List.forall_mem_singleton]
    exact ⟨h.avoidsAll_view, Node.avoidsAll_empty, h.avoidsAll_collection⟩
  unfold Schema.unitTree
  dsimp only
  unfold Node.lines
  rw [Node.avoidsAll_list, List.forall_mem_append]
  refine ⟨by simp [ListLayout.lines], hpreamble, ?_⟩
  split
  . exact hdeclarations
  . rw [List.forall_mem_singleton]
    unfold Node.namespaceBlock
    rw [Node.avoidsAll_block]
    exact ⟨by simp [toString, h.namespaceName], hdeclarations⟩

end Schema

end EntityViews
