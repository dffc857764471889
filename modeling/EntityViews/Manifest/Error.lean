import EntityViews.Decl.TypeName
import EntityViews.Text.Span

/-!
This module contains the ways in which reading a manifest can fail.
-/

namespace EntityViews

inductive ManifestError where
  | unreadable (path : String)
  | malformed
  | invalid (message : String) (span : Option Span)
  | reservedWord (name context : String) (span : Option Span)
  | invalidName (name context : String) (fault : NameFault) (span : Option Span)
  | invalidType (type context : String) (fault : TypeFault) (span : Option Span)
  | unknownAccess (entity access : String) (span : Option Span)
  | duplicateEntity (name : String) (first second : Option Span)
deriving DecidableEq, Repr

namespace ManifestError

def message : ManifestError → String
  | .unreadable path => s!"failed to read '{path}'"
  | .malformed => "failed to parse entigen.toml"
  | .invalid message _ => message
  | .reservedWord name _ _ => s!"'{name}' is a C# reserved keyword"
  | .invalidName name context _ _ => s!"invalid {context} name '{name}'"
  | .invalidType type context _ _ => s!"invalid type name '{type}' in {context}"
  | .unknownAccess entity access _ => s!"unknown access level '{access}' for entity '{entity}'"
  | .duplicateEntity name _ _ => s!"entity '{name}' is declared more than once"

def code : ManifestError → String
  | .unreadable .. => "entigen::io"
  | .malformed => "entigen::parse_error"
  | .invalid .. => "entigen::validation_error"
  | .reservedWord .. => "entigen::reserved_keyword"
  | .invalidName .. => "entigen::invalid_identifier"
  | .invalidType .. => "entigen::invalid_type"
  | .unknownAccess .. => "entigen::invalid_access"
  | .duplicateEntity .. => "entigen::duplicate_entity"

def help : ManifestError → Option String
  | .unreadable _ => some "pass --manifest to point at an existing entigen.toml"
  | .malformed => none
  | .invalid .. => none
  | .reservedWord name _ _ => some s!"rename '{name}' to something else, e.g. '{name}Value'"
  | .invalidName _ _ fault _ =>
    some (fault.message ++ ". Use only letters, numbers, and underscores, starting with a letter "
      ++ "or underscore.")
  | .invalidType _ _ fault _ =>
    some s!"{fault.message}. Use a fully-qualified type such as 'Game.Position'."
  | .unknownAccess .. =>
    some "valid access levels are: public, internal, private, protected, protected internal"
  | .duplicateEntity .. => some "remove one declaration or move it to a different namespace"

def labels (error : ManifestError) : List (String × Span) :=
  let label (text : String) (span : Option Span) : List (String × Span) :=
    span.toList.map fun span => (text, span)
  match error with
  | .unreadable _ => []
  | .malformed => []
  | .invalid message span => label message span
  | .reservedWord _ _ span => label "reserved keyword used here" span
  | .invalidName _ _ _ span => label "invalid identifier" span
  | .invalidType _ _ _ span => label "invalid type" span
  | .unknownAccess _ _ span => label "unknown access level" span
  | .duplicateEntity _ first second =>
    label "first declared here" first ++ label "declared again here" second

end ManifestError

end EntityViews
