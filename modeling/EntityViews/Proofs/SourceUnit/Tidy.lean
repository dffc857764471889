import EntityViews.Proofs.Decl.Statement
import EntityViews.SourceUnit.Basic

/-!
This module contains the layout of source units: all of a unit is written in tidy lines if the names in
its schema are phrases.
-/

namespace EntityViews

open Text

theorem isPhrase_qualify {namespaceName name : String}
    (hnamespace : namespaceName ≠ "" → IsPhrase namespaceName) (hname : IsPhrase name) :
    IsPhrase (qualify namespaceName name) := by
  unfold qualify
  split
  . exact hname
  . next hne =>
    have hdot : IsInline "." := by decide
    exact (hnamespace (by simpa using hne)).append_inline_append hdot hname

structure Component.HasPhrases (component : Component) : Prop where
  type : IsPhrase component.type
  fieldName : IsPhrase component.fieldName
  propertyName : IsPhrase component.propertyName

structure Schema.HasPhrases (ecs : Ecs) (schema : Schema) : Prop where
  ecs : ecs.namespaceName ≠ "" → IsPhrase ecs.namespaceName
  namespaceName : schema.namespaceName ≠ "" → IsPhrase schema.namespaceName
  viewName : IsPhrase schema.viewName
  collectionName : IsPhrase schema.collectionName
  backReference : ∀ name ∈ schema.backReference, IsPhrase name
  components : ∀ component ∈ schema.components, component.HasPhrases
  excluded : ∀ type ∈ schema.excluded, IsPhrase type

variable {indent : Indent} {ecs : Ecs}

theorem Enumerator.forall_mem_names_moveNext {motive : String → Prop} {components : List Component}
    (hvariables : ∀ name ∈ [collections, collectionIndex, indexInCollection, activeCollection,
      Ecs.collectionInterface], motive name)
    (hcomponents : ∀ component ∈ components, motive component.fieldName ∧ motive component.type) :
    ∀ name ∈ Statement.namesAll (moveNext components), motive name := by
  simp only [List.forall_mem_cons, List.not_mem_nil, false_implies, implies_true, and_true]
    at hvariables
  simp only [moveNext, bindAccessors, Statement.namesAll_eq_flatMap, Statement.names, Term.names,
    List.flatMap_cons, List.flatMap_nil, List.flatMap_append, List.flatMap_map,
    List.forall_mem_append, List.forall_mem_cons, List.forall_mem_flatMap]
  simpa [hvariables] using hcomponents

namespace Component

variable {component : Component}

theorem HasPhrases.isPhrase_refType (h : component.HasPhrases)
    (hecs : ecs.namespaceName ≠ "" → IsPhrase ecs.namespaceName) :
    (component.refType ecs).IsPhrase := by
  apply Node.IsPhrase.generic
  . exact Node.isPhrase_text (isPhrase_qualify hecs (by decide))
  . rw [List.forall_mem_singleton]
    exact Node.isPhrase_text h.type

theorem HasPhrases.isPhrase_storageType (h : component.HasPhrases)
    (hecs : ecs.namespaceName ≠ "" → IsPhrase ecs.namespaceName) :
    (component.storageType ecs).IsPhrase := by
  unfold storageType
  split
  . exact h.isPhrase_refType hecs
  . exact Node.isPhrase_text h.type

theorem HasPhrases.isPhrase_viewField (h : component.HasPhrases)
    (hecs : ecs.namespaceName ≠ "" → IsPhrase ecs.namespaceName) :
    (component.viewField ecs).IsPhrase := by
  exact .field _ (h.isPhrase_storageType hecs) (Node.isPhrase_text h.fieldName)

theorem HasPhrases.isPhrase_viewArgument (h : component.HasPhrases)
    (hecs : ecs.namespaceName ≠ "" → IsPhrase ecs.namespaceName) :
    (component.viewArgument ecs).IsPhrase := by
  have hindex : IsPhrase Enumerator.indexInCollection := by decide
  unfold viewArgument
  split
  . have hpair := h.fieldName.append_inline_append (by decide : IsInline ", ") hindex
    have hparentheses : IsPhrase ("(" ++ ")") := by decide
    have harguments := hparentheses.insert (by decide) (by decide) hpair.toIsInline
    refine .afterWord (by decide : IsPhrase "new") (.concat ?_ (by simp))
    rw [List.forall_mem_cons, List.forall_mem_singleton]
    refine ⟨h.isPhrase_refType hecs, Node.isPhrase_text ?_⟩
    simpa only [toString, String.append_assoc] using harguments
  . have hbrackets : IsPhrase ("[" ++ "]") := by decide
    have hitem := h.fieldName.append (hbrackets.insert (by decide) (by decide) hindex.toIsInline)
    apply Node.isPhrase_text
    simpa only [toString, String.append_assoc] using hitem

theorem HasPhrases.isPhrase_accessorField (h : component.HasPhrases) :
    component.accessorField.IsPhrase := by
  refine .field _ (.generic (Node.isPhrase_text (by decide)) ?_) (Node.isPhrase_text h.fieldName)
  rw [List.forall_mem_singleton]
  exact Node.isPhrase_text h.type

theorem HasPhrases.isPhrase_statement (h : component.HasPhrases) :
    IsPhrase (viewProperty.statement component) := by
  unfold viewProperty.statement
  split
  . have hreturn : IsPhrase ("return ref " ++ ".Value;") := by decide
    exact hreturn.insert (by decide) (by decide) h.fieldName.toIsInline
  . have hreturn : IsPhrase ("return " ++ ";") := by decide
    exact hreturn.insert (by decide) (by decide) h.fieldName.toIsInline

theorem HasPhrases.isTidy_viewProperty (h : component.HasPhrases) :
    component.viewProperty.IsTidy indent := by
  have hbody : ∀ node ∈ [Node.text (viewProperty.statement component)], node.IsTidy indent := by
    rw [List.forall_mem_singleton]
    exact (Node.isPhrase_text h.isPhrase_statement).isTidy
  have hattribute : IsPhrase inliningAttribute := by decide +kernel
  have haccessor := Node.isTidy_attributed hattribute (Node.isBraced_accessor .get hbody).isTidy
  apply Node.IsBraced.isTidy
  apply Node.isBraced_property _ (Node.isPhrase_text h.type) (Node.isPhrase_text h.propertyName)
  rw [List.forall_mem_singleton]
  exact haccessor

end Component

theorem continues_typeArray {types : List String} (h : ∀ type ∈ types, IsPhrase type) :
    (typeArray types).script.Continues indent := by
  have hopening : Text.Opens .curly ("new Type[] " ++ openBrace) :=
    ⟨"new Type[] ", by decide, by decide⟩
  have htypeof : IsPhrase ("typeof(" ++ ")") := by decide
  have helements : ∀ node ∈ types.map fun type => Node.text s!"typeof({type})", node.IsPhrase := by
    rw [List.forall_mem_map]
    intro type htype
    exact Node.isPhrase_text (htypeof.insert (by decide) (by decide) (h type htype).toIsInline)
  have hscript : Script.Continues indent _ :=
    Script.continues_hanging hopening (Node.isPhrase_map_script helements)
  simpa only [typeArray, Node.script, Node.scripts_eq_map] using hscript

namespace Schema

variable {schema : Schema}

theorem isPhrase_assign_this {field value : String} (hfield : IsPhrase field)
    (hvalue : IsPhrase value) : (Node.assign s!"this.{field}" value).IsPhrase := by
  have hthis : IsPhrase "this." := by decide
  exact Node.isPhrase_assign (hthis.append hfield) hvalue

theorem isTidy_enumeratorMethod {returns name : String} (hreturns : IsPhrase returns)
    (hname : IsPhrase name) {body : List Statement}
    (hbody : ∀ name ∈ Statement.namesAll body, IsPhrase name) :
    (enumeratorMethod returns name body).IsTidy indent := by
  apply Node.IsBraced.isTidy
  exact Node.isBraced_method (by simp) _ (Node.isPhrase_text hname)
    (Statement.isTidy_nodes body hbody) false (Node.isPhrase_text hreturns)

theorem isTidy_getEnumerator : getEnumerator.IsTidy indent := by
  apply Node.IsBraced.isTidy
  apply Node.isBraced_method (by simp) _ (Node.isPhrase_text (by decide)) _ false
    (Node.isPhrase_text (by decide))
  rw [List.forall_mem_singleton]
  exact (Node.isPhrase_text (by decide +kernel)).isTidy

namespace HasPhrases

variable (h : schema.HasPhrases ecs)
include h

theorem isPhrase_viewFields : ∀ node ∈ schema.viewFields ecs, node.IsPhrase := by
  unfold viewFields
  rw [List.forall_mem_append, List.forall_mem_map, List.forall_mem_map]
  refine ⟨fun name hname => ?_, fun component hcomponent => ?_⟩
  . have hentity : IsPhrase ecs.entity := isPhrase_qualify h.ecs (by decide)
    exact .field _ (Node.isPhrase_text hentity)
      (Node.isPhrase_text (h.backReference name (Option.mem_toList.mp hname)))
  . exact (h.components component hcomponent).isPhrase_viewField h.ecs

theorem isPhrase_viewParameters : ∀ node ∈ schema.viewParameters ecs, node.IsPhrase := by
  unfold viewParameters
  rw [List.forall_mem_append, List.forall_mem_map, List.forall_mem_map]
  refine ⟨fun name hname => ?_, fun component hcomponent => ?_⟩
  . have hentity : IsPhrase ecs.entity := isPhrase_qualify h.ecs (by decide)
    exact .parameter (Node.isPhrase_text hentity) (Node.isPhrase_text (by decide))
  . have hcomponent := h.components component hcomponent
    exact .parameter (hcomponent.isPhrase_storageType h.ecs) (Node.isPhrase_text hcomponent.fieldName)

theorem isPhrase_viewAssignments : ∀ node ∈ schema.viewAssignments, node.IsPhrase := by
  unfold viewAssignments
  rw [List.forall_mem_append, List.forall_mem_map, List.forall_mem_map]
  refine ⟨fun name hname => ?_, fun component hcomponent => ?_⟩
  . exact isPhrase_assign_this (h.backReference name (Option.mem_toList.mp hname)) (by decide)
  . have hname := (h.components component hcomponent).fieldName
    exact isPhrase_assign_this hname hname

theorem isTidy_viewConstructor : ∀ node ∈ schema.viewConstructor ecs, node.IsTidy indent := by
  unfold viewConstructor
  split
  . simp
  . rw [List.forall_mem_cons, List.forall_mem_singleton]
    refine ⟨Node.isTidy_empty, Node.IsBraced.isTidy ?_⟩
    exact Node.isBraced_constructor_wrapped h.isPhrase_viewParameters _
      (Node.isPhrase_text h.viewName) fun node hnode => (h.isPhrase_viewAssignments node hnode).isTidy

theorem isBraced_view : (schema.view ecs).IsBraced indent := by
  apply Node.isBraced_typeDecl _ (Node.isPhrase_text h.viewName) (by simp)
  rw [List.forall_mem_append, List.forall_mem_append, List.forall_mem_flatMap]
  refine ⟨⟨fun node hnode => (h.isPhrase_viewFields node hnode).isTidy, h.isTidy_viewConstructor⟩, ?_⟩
  intro component hcomponent
  rw [List.forall_mem_cons, List.forall_mem_singleton]
  exact ⟨Node.isTidy_empty, (h.components component hcomponent).isTidy_viewProperty⟩

theorem isPhrase_worldParameter : ∀ node ∈ [worldParameter ecs], node.IsPhrase := by
  rw [List.forall_mem_singleton]
  have hworld : IsPhrase ecs.entityWorld := isPhrase_qualify h.ecs (by decide)
  exact .parameter (Node.isPhrase_text hworld) (Node.isPhrase_text (by decide))

theorem isTidy_collectionFactory : (schema.collectionFactory ecs).IsTidy indent := by
  have hreturn : IsPhrase ("return new " ++ "(world);") := by decide
  have hbody := hreturn.insert (by decide) (by decide) h.collectionName.toIsInline
  apply Node.IsBraced.isTidy
  apply Node.isBraced_method h.isPhrase_worldParameter _ (Node.isPhrase_text (by decide)) _ true
    (Node.isPhrase_text h.collectionName)
  rw [List.forall_mem_singleton]
  exact (Node.isPhrase_text hbody).isTidy

theorem isTidy_collectionConstructor : (schema.collectionConstructor ecs).IsTidy indent := by
  have hworld : (Node.text "world").IsPhrase := Node.isPhrase_text (by decide)
  apply Node.IsBraced.isTidy
  apply Node.isBraced_constructor_base h.isPhrase_worldParameter _
    (Node.isPhrase_text h.collectionName) (by simp)
  simp only [List.forall_mem_cons, List.not_mem_nil, false_implies, implies_true, and_true]
  refine ⟨hworld.isInline.continues, continues_typeArray ?_, continues_typeArray h.excluded⟩
  rw [List.forall_mem_map]
  exact fun component hcomponent => (h.components component hcomponent).type

theorem isPhrase_viewArguments : ∀ node ∈ schema.viewArguments ecs, node.IsPhrase := by
  unfold viewArguments
  rw [List.forall_mem_append, List.forall_mem_map, List.forall_mem_map]
  refine ⟨fun name hname => ?_, fun component hcomponent => ?_⟩
  . exact Node.isPhrase_text (by decide +kernel)
  . exact (h.components component hcomponent).isPhrase_viewArgument h.ecs

theorem isTidy_returnView : (schema.returnView ecs).IsTidy indent := by
  have hreturn : IsPhrase ("return new" ++ " " ++ schema.viewName) :=
    .append_inline_append (by decide) isInline_blank h.viewName
  have hscript : Script.IsTidy indent _ := Script.isTidy_hanging hreturn isPhrase_semicolon
    (Node.isPhrase_map_script h.isPhrase_viewArguments)
  unfold Node.IsTidy returnView
  simp only [Node.script, Node.scripts_eq_map]
  exact hscript

theorem isTidy_enumeratorConstructor : schema.enumeratorConstructor.IsTidy indent := by
  have hparameters : ∀ node ∈ [Node.parameter (.text schema.collectionName)
      (.text Enumerator.entities)], node.IsPhrase := by
    rw [List.forall_mem_singleton]
    exact .parameter (Node.isPhrase_text h.collectionName) (Node.isPhrase_text (by decide))
  have hnames : ∀ name ∈ Statement.namesAll Enumerator.start, IsPhrase name := by decide +kernel
  apply Node.IsBraced.isTidy
  exact Node.isBraced_constructor_this hparameters _ (Node.isPhrase_text (by decide))
    (Statement.isTidy_nodes _ hnames) (by simp)

theorem isPhrase_of_mem_names_moveNext :
    ∀ name ∈ Statement.namesAll (Enumerator.moveNext schema.components), IsPhrase name := by
  apply Enumerator.forall_mem_names_moveNext (motive := IsPhrase) (by decide)
  intro component hcomponent
  exact ⟨(h.components component hcomponent).fieldName, (h.components component hcomponent).type⟩

theorem isTidy_current :
    (Node.property {} (.text schema.viewName) (.text "Current")
      [.accessor .get [schema.returnView ecs]]).IsTidy indent := by
  apply Node.IsBraced.isTidy
  apply Node.isBraced_property _ (Node.isPhrase_text h.viewName) (Node.isPhrase_text (by decide))
  rw [List.forall_mem_singleton]
  apply Node.IsBraced.isTidy
  apply Node.isBraced_accessor
  rw [List.forall_mem_singleton]
  exact h.isTidy_returnView

theorem isBraced_enumerator : (schema.enumerator ecs).IsBraced indent := by
  have hint : (Node.text "int").IsPhrase := Node.isPhrase_text (by decide)
  have hcollections : (Node.generic (.text "IReadOnlyList")
      [.text Ecs.collectionInterface]).IsPhrase := by
    apply Node.IsPhrase.generic (Node.isPhrase_text (by decide))
    rw [List.forall_mem_singleton]
    exact Node.isPhrase_text (by decide)
  apply Node.isBraced_typeDecl _ (Node.isPhrase_text (by decide))
  . rw [List.forall_mem_singleton]
    apply Node.IsPhrase.generic (Node.isPhrase_text (by decide))
    rw [List.forall_mem_singleton]
    exact Node.isPhrase_text h.viewName
  . simp only [List.forall_mem_append, List.forall_mem_map, List.forall_mem_cons,
      List.not_mem_nil, false_implies, implies_true, and_true]
    exact ⟨fun component hcomponent =>
        (h.components component hcomponent).isPhrase_accessorField.isTidy,
      (Node.IsPhrase.field _ hcollections (Node.isPhrase_text (by decide))).isTidy,
      Node.isTidy_empty,
      (Node.IsPhrase.field _ hint (Node.isPhrase_text (by decide))).isTidy,
      (Node.IsPhrase.field _ hint (Node.isPhrase_text (by decide))).isTidy,
      Node.isTidy_empty,
      h.isTidy_enumeratorConstructor,
      Node.isTidy_empty,
      h.isTidy_current,
      Node.isTidy_empty,
      (Node.isPhrase_text (by decide +kernel)).isTidy,
      Node.isTidy_empty,
      isTidy_enumeratorMethod (by decide) (by decide) h.isPhrase_of_mem_names_moveNext,
      Node.isTidy_empty,
      isTidy_enumeratorMethod (by decide) (by decide) (by decide +kernel),
      Node.isTidy_empty,
      isTidy_enumeratorMethod (by decide) (by decide) (by decide +kernel)⟩

theorem isBraced_collection : (schema.collection ecs).IsBraced indent := by
  have hentities : IsPhrase ecs.entities := isPhrase_qualify h.ecs (by decide)
  apply Node.isBraced_typeDecl _ (Node.isPhrase_text h.collectionName)
  . rw [List.forall_mem_singleton]
    exact Node.isPhrase_text hentities
  . simp only [List.forall_mem_cons, List.not_mem_nil, false_implies, implies_true, and_true]
    exact ⟨h.isTidy_collectionFactory, Node.isTidy_empty, h.isTidy_collectionConstructor,
      Node.isTidy_empty, isTidy_getEnumerator, Node.isTidy_empty, h.isBraced_enumerator.isTidy⟩

end HasPhrases

theorem isPhrase_usingDirective {name : String} (h : IsPhrase name) :
    (Node.usingDirective name).IsPhrase := by
  have husing : IsPhrase ("using " ++ ";") := by decide
  exact Node.isPhrase_text (husing.insert (by decide) (by decide) h.toIsInline)

theorem isTidy_preamble {options : Options}
    (h : options.ecs.namespaceName ≠ "" → IsPhrase options.ecs.namespaceName) :
    ∀ node ∈ preamble options, node.IsTidy indent := by
  unfold preamble
  simp only [List.forall_mem_append, List.forall_mem_map, List.forall_mem_singleton]
  refine ⟨⟨⟨?_, ?_⟩, ?_⟩, Node.isTidy_empty⟩
  . split
    . rw [List.forall_mem_singleton]
      exact (Node.isPhrase_text (by decide)).isTidy
    . simp
  . have hnames : ∀ name ∈ systemNamespaces, IsPhrase name := by decide +kernel
    exact fun name hname => (isPhrase_usingDirective (hnames name hname)).isTidy
  . split
    . simp
    . next hne =>
      rw [List.forall_mem_singleton]
      exact (isPhrase_usingDirective (h (by simpa using hne))).isTidy

theorem HasPhrases.isBraced_unitTree {options : Options} (h : schema.HasPhrases options.ecs) :
    (schema.unitTree options).IsBraced indent := by
  have hview : (schema.view options.ecs).IsTidy indent := h.isBraced_view.isTidy
  have hcollection : (schema.collection options.ecs).IsBraced indent := h.isBraced_collection
  have hpreamble : ∀ node ∈ preamble options, node.IsTidy indent := isTidy_preamble h.ecs
  unfold unitTree
  dsimp only
  split
  . have hfront : ∀ node ∈ preamble options ++ [schema.view options.ecs, .empty],
        node.IsTidy indent := by
      rw [List.forall_mem_append, List.forall_mem_cons, List.forall_mem_singleton]
      exact ⟨hpreamble, hview, Node.isTidy_empty⟩
    simpa using Node.isBraced_lines hfront hcollection
  . next hne =>
    have hheader : IsPhrase ("namespace" ++ " " ++ schema.namespaceName) :=
      .append_inline_append (by decide) isInline_blank (h.namespaceName (by simpa using hne))
    apply Node.isBraced_lines hpreamble
    apply Node.isBraced_block
    . exact Node.isPhrase_text hheader
    . rw [List.forall_mem_cons, List.forall_mem_cons, List.forall_mem_singleton]
      exact ⟨hview, Node.isTidy_empty, hcollection.isTidy⟩

end Schema

end EntityViews
