import EntityViews.Entity.Lint
import EntityViews.SourceUnit.Basic

/-!
This module contains generation runs. A run handles each entity on its own: an entity that fails is
reported and never keeps others from being generated.
-/

namespace EntityViews

structure Failure where
  entity : String
  error : UnitError
deriving DecidableEq, Repr

structure Report where
  units : List SourceUnit := []
  failures : List Failure := []
  -- only about entities with a unit
  diagnostics : List Diagnostic := []
deriving DecidableEq, Repr

def Report.isSuccess (report : Report) : Bool :=
  report.failures.isEmpty

structure SourceError where
  message : String
  cause : Option String := none
deriving DecidableEq, Repr

structure Run where
  generator : Generator
  -- the names of files, each with the entity that it was produced for
  produced : List (String × String) := []
  report : Report := {}

namespace Run

def fail (run : Run) (entity : String) (error : UnitError) : Run :=
  { run with report.failures := run.report.failures ++ [⟨entity, error⟩] }

def add (run : Run) (entity : String) (schema : Schema) (unit : SourceUnit) : Run :=
  match run.produced.lookup unit.fileName with
  | some first => run.fail entity (.duplicate entity unit.fileName first)
  | none =>
    { run with
      produced := run.produced ++ [(unit.fileName, entity)]
      report.units := run.report.units ++ [unit]
      report.diagnostics := run.report.diagnostics ++ schema.lint }

def step (run : Run) (descriptor : Descriptor) : Run :=
  let entity := descriptor.qualifiedName
  match descriptor.resolve run.generator.options.ecs with
  | .error error => run.fail entity (.resolve error)
  | .ok schema =>
    let (outcome, generator) := run.generator.generate schema
    match outcome with
    | .error error => { run with generator }.fail entity error
    | .ok unit => { run with generator }.add entity schema unit

end Run

namespace Generator

def generateAll (generator : Generator) (descriptors : List Descriptor) : Report × Generator :=
  let run := descriptors.foldl Run.step { generator }
  (run.report, run.generator)

def run (generator : Generator) (source : Except SourceError (List Descriptor)) :
    Except SourceError Report × Generator :=
  match source with
  | .error error => (.error error, generator)
  | .ok descriptors =>
    let (report, generator) := generator.generateAll descriptors
    (.ok report, generator)

end Generator

end EntityViews
