import EntityViews.Decl.Statement
import EntityViews.SourceUnit.View

/-!
This module contains the declaration of enumerators, which are nested in generated collections.

An enumerator walks the stored collections with two indices: that of the current collection and that
of the current entity in it. The latter starts at -1, so the first advance arrives at index 0. At
the end of a collection the walk goes on with the next one and binds the component accessors anew.
-/

namespace EntityViews

namespace Enumerator

def typeName : String := "Enumerator"

/-!
The names of the variables of an enumerator.
-/

def collections : String := "collections"

def collectionIndex : String := "collectionIndex"

def indexInCollection : String := "indexInCollection"

def activeCollection : String := "activeCollection"

def entities : String := "entities"

def restart : List Statement :=
  [.assign collectionIndex (.int 0), .assign indexInCollection (.int (-1))]

def start : List Statement :=
  .assign collections (.prepared (.var entities)) :: restart

def bindAccessors (components : List Component) : List Statement :=
  components.map fun component =>
    .assign component.fieldName (.components (.var activeCollection) component.type)

def moveNext (components : List Component) : List Statement :=
  [.while (.less (.var collectionIndex) (.count (.var collections)))
      [.declare Ecs.collectionInterface activeCollection
          (.item (.var collections) (.var collectionIndex)),
        .ifThen (.less (.increment indexInCollection) (.count (.var activeCollection)))
          (bindAccessors components ++ [.return (.bool true)]),
        .assign indexInCollection (.int (-1)),
        .eval (.increment collectionIndex)],
    .return (.bool false)]

def reset : List Statement := restart

def dispose : List Statement := [.call "Reset"]

end Enumerator

namespace Component

def accessorField (component : Component) : Node :=
  .field { access := .enclosingType }
    (.generic (.text Ecs.componentAccessor) [.text component.type]) (.text component.fieldName)

def viewArgument (ecs : Ecs) (component : Component) : Node :=
  match component.kind with
  | .value =>
    .wrapped (.text "new ")
      (.concat [component.refType ecs,
        .text s!"({component.fieldName}, {Enumerator.indexInCollection})"])
      .empty
  | .reference => .text s!"{component.fieldName}[{Enumerator.indexInCollection}]"

end Component

namespace Schema

open Enumerator

def viewArguments (ecs : Ecs) (schema : Schema) : List Node :=
  (schema.backReference.toList.map fun _ =>
      .text s!"{collections}[{collectionIndex}].GetEntity({indexInCollection})")
    ++ schema.components.map (·.viewArgument ecs)

def returnView (ecs : Ecs) (schema : Schema) : Node :=
  .wrapped (.text s!"return new {schema.viewName}(")
    (.list { ListLayout.hanging with newLineAfter := true } (schema.viewArguments ecs))
    (.text ");")

def enumeratorConstructor (schema : Schema) : Node :=
  .callable { kind := .constructor } (.text "void") (.text typeName)
    [.parameter (.text schema.collectionName) (.text entities)] (some []) none
    (Statement.nodes start)

def enumeratorMethod (returns name : String) (body : List Statement) : Node :=
  .callable { kind := .method } (.text returns) (.text name) [] none none (Statement.nodes body)

def enumerator (ecs : Ecs) (schema : Schema) : Node :=
  .typeDecl { kind := .structType } (.text typeName)
    [.generic (.text "IEnumerator") [.text schema.viewName]]
    (schema.components.map (·.accessorField)
      ++ [.field { access := .enclosingType }
            (.generic (.text "IReadOnlyList") [.text Ecs.collectionInterface]) (.text collections),
          .empty,
          .field { access := .enclosingType } (.text "int") (.text collectionIndex),
          .field { access := .enclosingType } (.text "int") (.text indexInCollection),
          .empty,
          schema.enumeratorConstructor,
          .empty,
          .property {} (.text schema.viewName) (.text "Current")
            [.accessor .get [schema.returnView ecs]],
          .empty,
          .text "object IEnumerator.Current => Current;",
          .empty,
          enumeratorMethod "bool" "MoveNext" (moveNext schema.components),
          .empty,
          enumeratorMethod "void" "Reset" reset,
          .empty,
          enumeratorMethod "void" "Dispose" dispose])

end Schema

end EntityViews
