import EntityViews.SourceUnit.Enumerator

/-!
This module contains the declaration of collections. The collection of an entity is a class that
selects all entities with the components of the entity and without the excluded ones.
-/

namespace EntityViews

def typeArray (types : List String) : Node :=
  .wrapped (.text ("new Type[] " ++ openBrace))
    (.list { ListLayout.hanging with newLineAfter := true }
      (types.map fun type => .text s!"typeof({type})"))
    (.text closeBrace)

namespace Schema

def worldParameter (ecs : Ecs) : Node :=
  .parameter (.text ecs.entityWorld) (.text "world")

def collectionFactory (ecs : Ecs) (schema : Schema) : Node :=
  .callable { kind := .method, isStatic := true } (.text schema.collectionName) (.text "FromWorld")
    [worldParameter ecs] none none [.text s!"return new {schema.collectionName}(world);"]

def collectionConstructor (ecs : Ecs) (schema : Schema) : Node :=
  .callable { kind := .constructor } (.text "void") (.text schema.collectionName)
    [worldParameter ecs] none
    (some [.text "world", typeArray (schema.components.map (·.type)), typeArray schema.excluded])
    []

def getEnumerator : Node :=
  .callable { kind := .method } (.text Enumerator.typeName) (.text "GetEnumerator") [] none none
    [.text s!"return new {Enumerator.typeName}(this);"]

def collection (ecs : Ecs) (schema : Schema) : Node :=
  .typeDecl { kind := .classType, access := schema.access } (.text schema.collectionName)
    [.text ecs.entities]
    [schema.collectionFactory ecs,
      .empty,
      schema.collectionConstructor ecs,
      .empty,
      getEnumerator,
      .empty,
      schema.enumerator ecs]

end Schema

end EntityViews
