import EntityViews.Files.Path

/-!
This module contains the locations that paths lead to. Paths are followed from the current directory,
but they may leave it.
-/

namespace EntityViews

inductive Anchor where
  | above (levels : Nat)
  | root
deriving DecidableEq, Repr

structure Location where
  anchor : Anchor := .above 0
  names : List String := []
deriving DecidableEq, Repr

namespace Anchor

def parent : Anchor → Anchor
  | .above levels => .above (levels + 1)
  | .root => .root

end Anchor

namespace Location

def start (path : String) : Location :=
  { anchor := if path.toList.head? = some '/' then .root else .above 0 }

def parent (location : Location) : Location :=
  if location.names.isEmpty then { location with anchor := location.anchor.parent }
  else { location with names := location.names.dropLast }

def step (location : Location) (piece : String) : Location :=
  if piece = "" || piece = "." then location
  else if piece = ".." then location.parent
  else { location with names := location.names ++ [piece] }

def contains (location other : Location) : Bool :=
  match location with
  | { anchor := .root, names := [] } => true
  | { anchor := .above levels, names := [] } =>
    match other.anchor with
    | .above otherLevels => otherLevels ≤ levels
    | .root => false
  | { anchor, names } => other.anchor = anchor && names.isPrefixOf other.names

end Location

end EntityViews
