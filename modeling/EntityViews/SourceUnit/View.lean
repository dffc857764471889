import EntityViews.Decl.Node
import EntityViews.Entity.Schema

/-!
This module contains the declaration of views. The view of an entity is a struct that holds the
handle of the entity, if it has a back-reference, and gives access to its components.
-/

namespace EntityViews

namespace Component

def refType (ecs : Ecs) (component : Component) : Node :=
  .generic (.text ecs.componentRef) [.text component.type]

def storageType (ecs : Ecs) (component : Component) : Node :=
  match component.kind with
  | .value => component.refType ecs
  | .reference => .text component.type

def viewField (ecs : Ecs) (component : Component) : Node :=
  .field { access := .enclosingType, isReadonly := true } (component.storageType ecs)
    (.text component.fieldName)

def inliningAttribute : String := "[MethodImpl(MethodImplOptions.AggressiveInlining)]"

def viewProperty (component : Component) : Node :=
  .property { isByRef := component.kind = .value } (.text component.type)
    (.text component.propertyName)
    [.wrapped (.concat [.text inliningAttribute, .lineBreak]) (.accessor .get [.text statement])
      .empty]
where
  statement : String :=
    match component.kind with
    | .value => s!"return ref {component.fieldName}.Value;"
    | .reference => s!"return {component.fieldName};"

end Component

namespace Schema

def handleParameter : String := "entity"

def viewFields (ecs : Ecs) (schema : Schema) : List Node :=
  (schema.backReference.toList.map fun name =>
      .field { isReadonly := true } (.text ecs.entity) (.text name))
    ++ schema.components.map (·.viewField ecs)

def viewParameters (ecs : Ecs) (schema : Schema) : List Node :=
  (schema.backReference.toList.map fun _ => .parameter (.text ecs.entity) (.text handleParameter))
    ++ schema.components.map fun component =>
      .parameter (component.storageType ecs) (.text component.fieldName)

def viewAssignments (schema : Schema) : List Node :=
  (schema.backReference.toList.map fun name => .assign s!"this.{name}" handleParameter)
    ++ schema.components.map fun component =>
      .assign s!"this.{component.fieldName}" component.fieldName

def viewConstructor (ecs : Ecs) (schema : Schema) : List Node :=
  if schema.isEmpty then
    []
  else
    [.empty,
      .callable { kind := .constructor, wrapParameters := true } (.text "void")
        (.text schema.viewName) (schema.viewParameters ecs) none none schema.viewAssignments]

def view (ecs : Ecs) (schema : Schema) : Node :=
  .typeDecl { kind := .structType, access := schema.access, isReadonly := true }
    (.text schema.viewName) []
    (schema.viewFields ecs ++ schema.viewConstructor ecs
      ++ schema.components.flatMap fun component => [.empty, component.viewProperty])

end Schema

end EntityViews
