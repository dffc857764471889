import EntityViews.Entity.Diagnostic
import EntityViews.Entity.Schema
import EntityViews.Json.Value

/-!
This module contains the form of schemas and diagnostics as JSON values.
-/

namespace EntityViews

def Component.toJson (component : Component) : JsonValue :=
  .object [
    ("declared_type", .string component.type),
    ("kind", .string component.kind.keyword),
    ("field_name", .string component.fieldName),
    ("property_name", .string component.propertyName),
    ("returns_by_ref", .boolean component.isByRef)]

def Schema.toJson (schema : Schema) : JsonValue :=
  .object [
    ("namespace", .string schema.namespaceName),
    ("declared_name", .string schema.declaredName),
    ("entity_name", .string schema.viewName),
    ("collection_name", .string schema.collectionName),
    ("access", .string schema.access.keyword),
    ("back_reference", .ofOption .string schema.backReference),
    ("components", .array (schema.components.map Component.toJson)),
    ("excluded", .array (schema.excluded.map .string))]

def Diagnostic.toJson (diagnostic : Diagnostic) : JsonValue :=
  .object [
    ("severity", .string diagnostic.severity.keyword),
    ("entity", .string diagnostic.entity),
    ("code", .string diagnostic.code),
    ("message", .string diagnostic.message)]

end EntityViews
