import EntityViews.Entity.Name

/-!
This module contains the names of the entity component system that generated code is compiled
against.
-/

namespace EntityViews

structure Ecs where
  namespaceName : String := "Abg.Entities"
deriving DecidableEq, Repr, Inhabited

namespace Ecs

def collectionInterface : String := "IEntityCollection"

def componentAccessor : String := "ComponentAccessor"

def entity (ecs : Ecs) : String := qualify ecs.namespaceName "Entity"

def componentRef (ecs : Ecs) : String := qualify ecs.namespaceName "ComponentRef"

def entities (ecs : Ecs) : String := qualify ecs.namespaceName "Entities"

def entityWorld (ecs : Ecs) : String := qualify ecs.namespaceName "EntityWorld"

end Ecs

end EntityViews
