import EntityViews.Command.Outcome
import EntityViews.Json.Encode
import EntityViews.Manifest.File

/-!
This module contains the command that lists the entities of a manifest.
-/

namespace EntityViews

def ComponentKind.title : ComponentKind → String
  | .value => "Value"
  | .reference => "Reference"

def Component.line (component : Component) : String :=
  s!"    {component.propertyName}: {component.type} ({component.kind.title}, {component.fieldName})"

def Schema.lines (schema : Schema) : List String :=
  [s!"  {schema.qualifiedName} -> {schema.viewName}, {schema.collectionName} ({schema.fileName})"]
    ++ (schema.backReference.toList.map fun name => s!"    {name} (entity)")
    ++ schema.components.map Component.line
    ++ (if schema.excluded.isEmpty then []
        else ["    without " ++ ", ".intercalate schema.excluded])

namespace Command

def resolveLine (ecs : Ecs) (descriptor : Descriptor) : Except String Schema :=
  (descriptor.resolve ecs).mapError fun error =>
    s!"error: {descriptor.qualifiedName}: {error.message}"

def runList (file : ManifestFile) (json : Bool) : Outcome :=
  let resolved := file.manifest.entities.map (resolveLine file.manifest.settings.ecs)
  let schemas := resolved.filterMap Except.toOption
  let notes := resolved.filterMap fun
    | .ok _ => none
    | .error line => some line
  let output :=
    if json then [(JsonValue.array (schemas.map Schema.toJson)).print 0]
    else if schemas.isEmpty then ["No entities defined"]
    else "Entities:" :: schemas.flatMap Schema.lines
  { output, notes }

end Command

end EntityViews
