import EntityViews.Toml.Expression

/-!
This module contains TOML documents. The expressions of a document are gathered into one table, where
each header moves the place that the keys after it belong to.
-/

namespace EntityViews

namespace Toml

structure Document where
  root : Table := {}
  current : List String := []

namespace Document

def add (document : Document) : Expression → Option Document
  | .keyValue path value => do
    let root ← document.root.alter false (·.insert path value) document.current
    return { document with root }
  | .table path => do
    let root ← document.root.alter false (·.openTable path.key) path.parents
    return { root, current := path.toList }
  | .arrayTable path => do
    let root ← document.root.alter false (·.pushTable path.key) path.parents
    return { root, current := path.toList }

def parse? (text : String) : Option Table := do
  let text :=
    match text.toList with
    | '\uFEFF' :: text => text
    | text => text
  let expressions ← expressions? text
  let document ← expressions.foldlM add {}
  return document.root

end Document

end Toml

end EntityViews
