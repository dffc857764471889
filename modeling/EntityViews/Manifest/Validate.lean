import EntityViews.Manifest.Decode
import EntityViews.Manifest.Error

/-!
This module contains the validation of manifests, which checks all names in the order in which they
are declared and stops at the first error.
-/

namespace EntityViews

structure Place where
  document : String
  path : List String := []
deriving DecidableEq, Repr

namespace Place

def within (place : Place) (segment : String) : Place :=
  { place with path := place.path ++ [segment] }

def pathText (place : Place) : String :=
  ".".intercalate place.path

def describe (place : Place) (kind : String) : String :=
  if place.path.isEmpty then kind else s!"{kind} in '{place.pathText}'"

def span? (place : Place) (value : String) : Option Span :=
  valueSpan? place.document value 0

def invalid (place : Place) (message : String) (value : Option String) : ManifestError :=
  .invalid message (value.bind place.span?)

def invalidName (place : Place) (name kind : String) (fault : NameFault) : ManifestError :=
  .invalidName name (place.describe kind) fault (place.span? name)

def checkName (place : Place) (name kind : String) : Except ManifestError Unit :=
  if isReserved name then
    .error (.reservedWord name (place.describe kind) (place.span? name))
  else
    (checkIdentifier name.toList).mapError (place.invalidName name kind)

def checkNamespace (place : Place) (name kind : String) : Except ManifestError Unit :=
  (EntityViews.checkNamespace name).mapError (place.invalidName name kind)

def checkType (place : Place) (type kind : String) : Except ManifestError Unit :=
  (TypeName.check type).mapError fun fault =>
    .invalidType type (place.describe kind) fault (place.span? type)

def checkSettings (place : Place) (settings : Settings) : Except ManifestError Unit := do
  let place := place.within "generator"
  let runtime := settings.ecs.namespaceName
  if runtime.isEmpty then
    throw (place.invalid "runtime namespace cannot be empty" none)
  place.checkNamespace runtime "runtime namespace"
  if 16 < settings.indentWidth then
    throw (place.invalid s!"indent must be between 0 and 16, got {settings.indentWidth}" none)

def checkNew (place : Place) (earlier : List String) (entity : Descriptor) :
    Except ManifestError Unit :=
  if entity.qualifiedName ∈ earlier then
    .error (.duplicateEntity entity.qualifiedName (valueSpan? place.document entity.name 0)
      (valueSpan? place.document entity.name 1))
  else
    .ok ()

def checkAccess (place : Place) (entity : Descriptor) : Except ManifestError Unit :=
  match entity.access with
  | none => .ok ()
  | some access =>
    match Access.ofText? access with
    | some _ => .ok ()
    | none => .error (.unknownAccess entity.qualifiedName access (place.span? access))

def checkField (place : Place) (field : Field) : Except ManifestError Unit := do
  place.checkName field.name "field"
  place.checkType field.type "field type"

def checkEntity (place : Place) (earlier : List String) (entity : Descriptor) :
    Except ManifestError Unit := do
  place.checkName entity.name "entity"
  place.checkNamespace entity.namespaceName "namespace"
  place.checkNew earlier entity
  let place := place.within entity.name
  place.checkAccess entity
  entity.fields.forM place.checkField
  entity.excluded.forM (place.checkType · "exclude list")

def checkEntities (place : Place) (earlier : List String) :
    List Descriptor → Except ManifestError Unit
  | [] => .ok ()
  | entity :: entities => do
    place.checkEntity earlier entity
    checkEntities place (entity.qualifiedName :: earlier) entities

end Place

namespace Manifest

def validate (document : String) (manifest : Manifest) : Except ManifestError Unit := do
  let place : Place := { document }
  place.checkSettings manifest.settings
  place.checkEntities [] manifest.entities

def parse (document : String) : Except ManifestError Manifest := do
  match (Toml.Document.parse? document).bind ofTable? with
  | none => throw .malformed
  | some manifest =>
    manifest.validate document
    return manifest

end Manifest

end EntityViews
