import EntityViews.Entity.Name

/-!
This module contains entities as they are declared.
-/

namespace EntityViews

structure Field where
  name : String
  type : String
  isValue : Bool := false
  isByRef : Bool := false
deriving DecidableEq, Repr, Inhabited

structure Descriptor where
  namespaceName : String := ""
  name : String
  access : Option String := none
  fields : List Field := []
  excluded : List String := []
deriving DecidableEq, Repr, Inhabited

def Descriptor.qualifiedName (descriptor : Descriptor) : String :=
  qualify descriptor.namespaceName descriptor.name

end EntityViews
