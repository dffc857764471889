import EntityViews.Decl.Access
import EntityViews.Entity.Descriptor
import EntityViews.Entity.Ecs

/-!
This module contains schemas, which hold all that code generation needs to know about an entity, and
how a declared entity is resolved to one.
-/

namespace EntityViews

inductive ComponentKind where
  | value
  | reference
deriving DecidableEq, Repr

namespace ComponentKind

def keyword : ComponentKind → String
  | .value => "value"
  | .reference => "reference"

def ofIsValue (isValue : Bool) : ComponentKind :=
  if isValue then .value else .reference

end ComponentKind

structure Component where
  type : String
  kind : ComponentKind
  fieldName : String
  propertyName : String
  isByRef : Bool
deriving DecidableEq, Repr

structure Schema where
  namespaceName : String := ""
  declaredName : String
  viewName : String
  collectionName : String
  access : Access := .everywhere
  backReference : Option String := none
  components : List Component := []
  excluded : List String := []
deriving DecidableEq, Repr

namespace Schema

def qualifiedName (schema : Schema) : String :=
  qualify schema.namespaceName schema.declaredName

def fileName (schema : Schema) : String :=
  unitFileName schema.namespaceName schema.viewName

def isEmpty (schema : Schema) : Bool :=
  schema.backReference.isNone && schema.components.isEmpty

end Schema

inductive ResolveError where
  | emptyName
  | duplicateBackReference (entity first second : String)
  | duplicateField (entity field : String)
  | unknownAccess (entity : String) (error : UnknownAccess)
deriving DecidableEq, Repr

def ResolveError.message : ResolveError → String
  | .emptyName => "entity name is empty"
  | .duplicateBackReference entity first second =>
    s!"entity '{entity}' declares more than one back-reference ('{first}' and '{second}')"
  | .duplicateField entity field => s!"entity '{entity}' declares field '{field}' more than once"
  | .unknownAccess entity error => s!"entity '{entity}': {error.message}"

structure Members where
  backReference : Option String := none
  components : List Component := []
deriving DecidableEq, Repr

namespace Members

/--
Add a declared field. Fields with the type of entity handles are back-references, all others are
components, which are numbered in order.
-/
def insert (members : Members) (handleType entity : String) (field : Field) :
    Except ResolveError Members :=
  if field.type = handleType then
    match members.backReference with
    | some first => .error (.duplicateBackReference entity first field.name)
    | none => .ok { members with backReference := some field.name }
  else
    let component : Component := {
      type := field.type
      kind := .ofIsValue field.isValue
      fieldName := s!"component_{members.components.length}"
      propertyName := field.name
      isByRef := field.isByRef
    }
    .ok { members with components := members.components ++ [component] }

def insertAll (handleType entity : String) (seen : List String) (members : Members) :
    List Field → Except ResolveError Members
  | [] => .ok members
  | field :: fields =>
    if field.name ∈ seen then
      .error (.duplicateField entity field.name)
    else do
      let members ← members.insert handleType entity field
      insertAll handleType entity (field.name :: seen) members fields

end Members

namespace Descriptor

def resolveAccess (descriptor : Descriptor) : Except ResolveError Access :=
  match descriptor.access with
  | none => .ok .everywhere
  | some access =>
    match Access.ofText? access with
    | some level => .ok level
    | none => .error (.unknownAccess descriptor.qualifiedName ⟨access⟩)

def resolve (ecs : Ecs) (descriptor : Descriptor) : Except ResolveError Schema :=
  let name := Text.trim descriptor.name
  if name.isEmpty then
    .error .emptyName
  else do
    let access ← descriptor.resolveAccess
    let members ← Members.insertAll ecs.entity descriptor.qualifiedName [] {} descriptor.fields
    return {
      namespaceName := descriptor.namespaceName
      declaredName := name
      viewName := EntityName.view name
      collectionName := EntityName.collection name
      access := access
      backReference := members.backReference
      components := members.components
      excluded := descriptor.excluded
    }

end Descriptor

end EntityViews
