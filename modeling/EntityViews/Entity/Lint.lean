import EntityViews.Entity.Diagnostic
import EntityViews.Entity.Schema

/-!
This module contains the lints, which report schemas that code can be generated for but that are
probably not what was meant.
-/

namespace EntityViews

/--
The elements of a list that occur in front of themselves, in order.
-/
def repeated (seen : List String) : List String → List String
  | [] => []
  | type :: types =>
    if type ∈ seen then
      type :: repeated seen types
    else
      repeated (type :: seen) types

def distinct (seen : List String) : List String → List String
  | [] => []
  | type :: types =>
    if type ∈ seen then
      distinct seen types
    else
      type :: distinct (type :: seen) types

namespace Component

def isMismatched (component : Component) : Bool :=
  component.isByRef != (component.kind = .value)

def mismatchMessage (component : Component) : String :=
  match component.kind with
  | .value =>
    s!"'{component.propertyName}' is a value type but is not declared to return by reference"
  | .reference =>
    s!"'{component.propertyName}' is a reference type but is declared to return by reference"

end Component

namespace Schema

def componentTypes (schema : Schema) : List String :=
  schema.components.map (·.type)

def lint (schema : Schema) : List Diagnostic :=
  emptyEntity
    ++ (repeated [] schema.componentTypes).map (fun type =>
      warning "duplicate-component" s!"component type '{type}' is declared more than once")
    ++ (repeated [] schema.excluded).map (fun type =>
      warning "duplicate-exclusion" s!"type '{type}' is excluded more than once")
    ++ ((distinct [] schema.componentTypes).filter (· ∈ schema.excluded)).map (fun type =>
      warning "excluded-component"
        s!"type '{type}' is both a component and excluded, so no entity can match")
    ++ (schema.components.filter (·.isMismatched)).map (fun component =>
      ⟨.info, schema.qualifiedName, "by-ref-mismatch", component.mismatchMessage⟩)
where
  warning (code message : String) : Diagnostic :=
    ⟨.warning, schema.qualifiedName, code, message⟩
  emptyEntity : List Diagnostic :=
    if schema.isEmpty then
      [warning "empty-entity" "entity declares neither a back-reference nor any component"]
    else
      []

end Schema

end EntityViews
