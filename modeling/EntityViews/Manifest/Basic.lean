import EntityViews.Entity.Descriptor
import EntityViews.SourceUnit.Report

/-!
This module contains manifests, which declare the entities of a project and how code is generated
for them.
-/

namespace EntityViews

structure Settings where
  ecs : Ecs := {}
  indentWidth : Nat := 4
  header : Bool := true
deriving DecidableEq, Repr

def Settings.indent (settings : Settings) : Indent :=
  .ofWidth settings.indentWidth

def Settings.options (settings : Settings) : Options where
  ecs := settings.ecs
  indent := settings.indent
  header := settings.header

structure Manifest where
  settings : Settings := {}
  entities : List Descriptor := []
deriving DecidableEq, Repr

namespace Manifest

def defaultFileName : String := "entigen.toml"

def generate (manifest : Manifest) : Report :=
  ((Generator.ofOptions manifest.settings.options).generateAll manifest.entities).1

end Manifest

end EntityViews
