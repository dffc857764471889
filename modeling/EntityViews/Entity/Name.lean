import EntityViews.Text.Uppercase

/-!
This module contains the names of generated types and files, which are derived from the declared
names of entities.
-/

namespace EntityViews

namespace EntityName

/--
Drop a leading `I` that marks an interface, that is one with a capital after it.
-/
def dropMark : List Char → List Char
  | 'I' :: c :: name => if isCapital c then c :: name else 'I' :: c :: name
  | name => name

def dropEntity (name : List Char) : List Char :=
  match "Entity".toList.isSuffixOf? name with
  | some (c :: stem) => c :: stem
  | _ => name

def base (declared : String) : String :=
  String.ofList (dropEntity (dropMark declared.toList))

def view (declared : String) : String :=
  base declared ++ "Entity"

def collection (declared : String) : String :=
  base declared ++ "Entities"

end EntityName

def qualify (namespaceName name : String) : String :=
  if namespaceName.isEmpty then name else s!"{namespaceName}.{name}"

def unitFileName (namespaceName view : String) : String :=
  if namespaceName.isEmpty then
    s!"Generated_{view}.cs"
  else
    s!"Generated_{namespaceName}_{view}.cs"

end EntityViews
