import EntityViews.Decl.Check
import EntityViews.SourceUnit.Collection

/-!
This module contains source units, the files that are generated for entities: what they consist of
and how they are generated.
-/

namespace EntityViews

structure Options where
  ecs : Ecs := {}
  indent : Indent := .standard
  header : Bool := true
deriving DecidableEq, Repr

structure SourceUnit where
  fileName : String
  entity : String
  content : String
deriving DecidableEq, Repr

inductive UnitError where
  | resolve (error : ResolveError)
  | build (entity : String) (error : DeclError)
  | duplicate (entity fileName first : String)
deriving DecidableEq, Repr

def UnitError.message : UnitError → String
  | .resolve error => error.message
  | .build entity error => s!"failed to build unit for '{entity}': {error.message}"
  | .duplicate entity fileName first =>
    s!"'{entity}' would overwrite '{fileName}', already generated for '{first}'"

namespace Schema

def systemNamespaces : List String :=
  ["System", "System.Collections", "System.Collections.Generic",
    "System.Runtime.CompilerServices"]

def preamble (options : Options) : List Node :=
  (if options.header then [.text "// <auto-generated/>"] else [])
    ++ systemNamespaces.map .usingDirective
    ++ (if options.ecs.namespaceName.isEmpty then []
        else [.usingDirective options.ecs.namespaceName])
    ++ [.empty]

def unitTree (options : Options) (schema : Schema) : Node :=
  let declarations := [schema.view options.ecs, .empty, schema.collection options.ecs]
  .lines (preamble options
    ++ if schema.namespaceName.isEmpty then declarations
       else [.namespaceBlock schema.namespaceName declarations])

end Schema

structure Generator where
  options : Options
  buffer : Buffer

namespace Generator

def ofOptions (options : Options) : Generator where
  options := options
  buffer := { indent := options.indent }

def generate (generator : Generator) (schema : Schema) :
    Except UnitError SourceUnit × Generator :=
  let tree := schema.unitTree generator.options
  match tree.check with
  | .error error => (.error (.build schema.qualifiedName error), generator)
  | .ok () =>
    let buffer := (tree.render generator.buffer.clear).newLine
    let unit := {
      fileName := schema.fileName
      entity := schema.qualifiedName
      content := buffer.text
    }
    (.ok unit, { generator with buffer })

end Generator

end EntityViews
