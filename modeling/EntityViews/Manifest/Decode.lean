import EntityViews.Manifest.Basic
import EntityViews.Toml.Document

/-!
This module contains the form of manifests as TOML documents.
-/

namespace EntityViews

namespace Toml

namespace Value

def string? : Value → Option String
  | .string s => some s
  | _ => none

def boolean? : Value → Option Bool
  | .boolean b => some b
  | _ => none

def byte? : Value → Option Nat
  | .integer (some n) => if 0 ≤ n && n < 256 then some n.toNat else none
  | _ => none

def list? {α : Type} (element? : Value → Option α) : Value → Option (List α)
  | .array _ elements => elements.mapM element?
  | _ => none

/--
The entries of a record, which is written as a table of them or as an array of their values. In an
array the values stand in the order of the keys, and those that are left over are ignored.
-/
def record? (keys : List String) : Value → Option (List (String × Value))
  | .table _ entries => if entries.all (·.1 ∈ keys) then some entries else none
  | .array _ elements => some (keys.zip elements)
  | _ => none

def isUnit : Value → Bool
  | .table _ entries => entries.isEmpty
  | .array _ elements => elements.isEmpty
  | _ => false

/--
The word that names one of several choices. It may also be written as the key of a table that has no
other key and a value without elements.
-/
def choice? : Value → Option String
  | .string word => some word
  | .table _ [(word, value)] => if value.isUnit then some word else none
  | _ => none

end Value

def required {α : Type} (entries : List (String × Value)) (key : String)
    (decode? : Value → Option α) : Option α :=
  (entries.lookup key).bind decode?

def optional {α : Type} (entries : List (String × Value)) (key : String)
    (decode? : Value → Option α) (missing : α) : Option α :=
  match entries.lookup key with
  | some value => decode? value
  | none => some missing

end Toml

namespace Manifest

open Toml

def settings? (value : Value) : Option Settings := do
  let entries ← value.record? ["runtime", "indent", "header"]
  let missing : Settings := {}
  return {
    ecs := { namespaceName := ← optional entries "runtime" Value.string? missing.ecs.namespaceName }
    indentWidth := ← optional entries "indent" Value.byte? missing.indentWidth
    header := ← optional entries "header" Value.boolean? missing.header
  }

def kind? (value : Value) : Option ComponentKind := do
  let word ← value.choice?
  [ComponentKind.value, .reference].find? (·.keyword == word)

def field? (value : Value) : Option Field := do
  let entries ← value.record? ["name", "type", "kind", "by_ref"]
  let kind ← optional entries "kind" kind? .reference
  return {
    name := ← required entries "name" Value.string?
    type := ← required entries "type" Value.string?
    isValue := kind = .value
    isByRef := ← optional entries "by_ref" Value.boolean? false
  }

def entity? (value : Value) : Option Descriptor := do
  let entries ← value.record? ["name", "namespace", "access", "exclude", "fields"]
  return {
    name := ← required entries "name" Value.string?
    namespaceName := ← optional entries "namespace" Value.string? ""
    access := ← optional entries "access" (fun value => value.string?.map some) none
    excluded := ← optional entries "exclude" (Value.list? Value.string?) []
    fields := ← optional entries "fields" (Value.list? field?) []
  }

def ofTable? (table : Table) : Option Manifest := do
  let entries ← (Value.ofTable table).record? ["generator", "entities"]
  return {
    settings := ← optional entries "generator" settings? {}
    entities := ← optional entries "entities" (Value.list? entity?) []
  }

end Manifest

end EntityViews
