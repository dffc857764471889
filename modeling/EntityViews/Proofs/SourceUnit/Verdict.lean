import EntityViews.Proofs.SourceUnit.Generator

/-!
This module contains the reference for generation runs. Each entity is first handled as if it were
alone. Then the entities are gone through in order, and a unit is kept unless an earlier unit that was
kept has the same file name. A run reports the units that are kept, the lints of their schemas and one
failure for each other entity.
-/

namespace EntityViews

structure Kept where
  descriptor : Descriptor
  schema : Schema
  unit : SourceUnit

abbrev Verdict := Except Failure Kept

def Kept.accept (kept : List Kept) (added : Kept) : Verdict :=
  let entity := added.descriptor.qualifiedName
  let fileName := added.unit.fileName
  match kept.find? (·.unit.fileName = fileName) with
  | some first => .error ⟨entity, .duplicate entity fileName first.descriptor.qualifiedName⟩
  | none => .ok added

namespace Descriptor

def attempt (options : Options) (descriptor : Descriptor) :
    Except UnitError (Schema × SourceUnit) :=
  match descriptor.resolve options.ecs with
  | .error error => .error (.resolve error)
  | .ok schema =>
    match ((Generator.ofOptions options).generate schema).1 with
    | .error error => .error error
    | .ok unit => .ok (schema, unit)

/--
What becomes of an entity after entities of which the given ones are kept.
-/
def settle (options : Options) (kept : List Kept) (descriptor : Descriptor) : Verdict :=
  match descriptor.attempt options with
  | .error error => .error ⟨descriptor.qualifiedName, error⟩
  | .ok (schema, unit) => Kept.accept kept ⟨descriptor, schema, unit⟩

def settleAll (options : Options) (kept : List Kept) : List Descriptor → List Verdict
  | [] => []
  | descriptor :: descriptors =>
    let verdict := descriptor.settle options kept
    verdict :: settleAll options (kept ++ verdict.toOption.toList) descriptors

end Descriptor

namespace Verdict

def failure? : Verdict → Option Failure
  | .error failure => some failure
  | .ok _ => none

def keptOf (verdicts : List Verdict) : List Kept :=
  verdicts.filterMap Except.toOption

def failuresOf (verdicts : List Verdict) : List Failure :=
  verdicts.filterMap failure?

def report (verdicts : List Verdict) : Report where
  units := (keptOf verdicts).map (·.unit)
  failures := failuresOf verdicts
  diagnostics := (keptOf verdicts).flatMap (·.schema.lint)

@[simp]
theorem keptOf_nil : keptOf [] = [] := by
  rfl

@[simp]
theorem failuresOf_nil : failuresOf [] = [] := by
  rfl

@[simp]
theorem keptOf_cons (verdict : Verdict) (verdicts : List Verdict) :
    keptOf (verdict :: verdicts) = verdict.toOption.toList ++ keptOf verdicts := by
  cases verdict <;> rfl

@[simp]
theorem failuresOf_cons (verdict : Verdict) (verdicts : List Verdict) :
    failuresOf (verdict :: verdicts) = (failure? verdict).toList ++ failuresOf verdicts := by
  cases verdict <;> rfl

@[simp]
theorem keptOf_append (first second : List Verdict) :
    keptOf (first ++ second) = keptOf first ++ keptOf second := by
  exact List.filterMap_append

@[simp]
theorem failuresOf_append (first second : List Verdict) :
    failuresOf (first ++ second) = failuresOf first ++ failuresOf second := by
  exact List.filterMap_append

theorem length_report (verdicts : List Verdict) :
    (report verdicts).units.length + (report verdicts).failures.length = verdicts.length := by
  simp only [report, List.length_map]
  induction verdicts with
  | nil => rfl
  | cons verdict verdicts ih =>
    rw [keptOf_cons, failuresOf_cons]
    cases verdict with
    | error failure =>
      simp only [Except.toOption, failure?, Option.toList_none, Option.toList_some,
        List.length_append, List.length_cons, List.length_nil]
      omega
    | ok kept =>
      simp only [Except.toOption, failure?, Option.toList_none, Option.toList_some,
        List.length_append, List.length_cons, List.length_nil]
      omega

end Verdict

namespace Run

open Descriptor Verdict

structure Reflects (options : Options) (verdicts : List Verdict) (run : Run) : Prop where
  ready : run.generator.IsReady options
  produced : run.produced
    = (keptOf verdicts).map fun kept => (kept.unit.fileName, kept.descriptor.qualifiedName)
  report : run.report = Verdict.report verdicts

variable {options : Options} {verdicts : List Verdict} {run : Run}

theorem lookup_produced (kept : List Kept) (fileName : String) :
    (kept.map fun kept => (kept.unit.fileName, kept.descriptor.qualifiedName)).lookup fileName
      =
    (kept.find? (·.unit.fileName = fileName)).map (·.descriptor.qualifiedName) := by
  induction kept with
  | nil => rfl
  | cons first kept ih =>
    rw [List.map_cons, List.lookup_cons, List.find?_cons]
    by_cases hname : first.unit.fileName = fileName
    . simp [hname]
    . have hbeq : (fileName == first.unit.fileName) = false := by
        simpa using Ne.symm hname
      simp [hname, hbeq, ih]

theorem Reflects.withGenerator (h : run.Reflects options verdicts) {generator : Generator}
    (hready : generator.IsReady options) :
    ({ run with generator } : Run).Reflects options verdicts := by
  exact ⟨hready, h.produced, h.report⟩

theorem Reflects.fail (h : run.Reflects options verdicts) (entity : String) (error : UnitError) :
    (run.fail entity error).Reflects options (verdicts ++ [.error ⟨entity, error⟩]) := by
  refine ⟨h.ready, ?_, ?_⟩
  . simpa [Run.fail, Except.toOption] using h.produced
  . simp [Run.fail, h.report, Verdict.report, Except.toOption, failure?]

theorem Reflects.add (h : run.Reflects options verdicts) (added : Kept) :
    (run.add added.descriptor.qualifiedName added.schema added.unit).Reflects options
      (verdicts ++ [added.accept (keptOf verdicts)]) := by
  have hlookup := lookup_produced (keptOf verdicts) added.unit.fileName
  rw [← h.produced] at hlookup
  unfold Run.add Kept.accept
  cases hfind : (keptOf verdicts).find? (·.unit.fileName = added.unit.fileName) with
  | some first =>
    simp only [hfind, Option.map_some] at hlookup
    simp only [hlookup, hfind]
    exact h.fail _ _
  | none =>
    simp only [hfind, Option.map_none] at hlookup
    simp only [hlookup, hfind]
    refine ⟨h.ready, ?_, ?_⟩
    . simp [h.produced, Except.toOption]
    . simp [h.report, Verdict.report, Except.toOption, failure?]

theorem Reflects.step (h : run.Reflects options verdicts) (descriptor : Descriptor) :
    (run.step descriptor).Reflects options
      (verdicts ++ [descriptor.settle options (keptOf verdicts)]) := by
  unfold Run.step settle attempt
  rw [h.ready.options_eq]
  cases descriptor.resolve options.ecs with
  | error error => exact h.fail _ _
  | ok schema =>
    dsimp only
    -- the generator that is in use writes the same unit as a new one would
    have hready := h.withGenerator (h.ready.generate_snd schema)
    rw [h.ready.generate_fst schema]
    cases ((Generator.ofOptions options).generate schema).1 with
    | error error => exact hready.fail _ _
    | ok unit => exact hready.add ⟨descriptor, schema, unit⟩

theorem Reflects.foldl (h : run.Reflects options verdicts) (descriptors : List Descriptor) :
    (descriptors.foldl Run.step run).Reflects options
      (verdicts ++ settleAll options (keptOf verdicts) descriptors) := by
  induction descriptors generalizing run verdicts with
  | nil => simpa [settleAll] using h
  | cons descriptor descriptors ih =>
    have hrest := ih (h.step descriptor)
    simpa [settleAll] using hrest

end Run

namespace Generator

open Descriptor

variable {options : Options} {generator : Generator}

theorem IsReady.reflects_foldl (h : generator.IsReady options) (descriptors : List Descriptor) :
    (descriptors.foldl Run.step { generator }).Reflects options
      (settleAll options [] descriptors) := by
  have hstart : Run.Reflects options [] { generator } := ⟨h, rfl, rfl⟩
  exact hstart.foldl descriptors

theorem IsReady.generateAll_report (h : generator.IsReady options)
    (descriptors : List Descriptor) :
    (generator.generateAll descriptors).1
      =
    Verdict.report (settleAll options [] descriptors) := by
  exact (h.reflects_foldl descriptors).report

theorem IsReady.run (h : generator.IsReady options)
    (source : Except SourceError (List Descriptor)) : (generator.run source).2.IsReady options := by
  cases source with
  | error error => exact h
  | ok descriptors => exact (h.reflects_foldl descriptors).ready

theorem IsReady.foldl_run (h : generator.IsReady options)
    (sources : List (Except SourceError (List Descriptor))) :
    (sources.foldl (fun generator source => (generator.run source).2) generator).IsReady options := by
  induction sources generalizing generator with
  | nil => exact h
  | cons source sources ih => exact ih (h.run source)

def afterRuns (options : Options) (sources : List (Except SourceError (List Descriptor))) :
    Generator :=
  sources.foldl (fun generator source => (generator.run source).2) (ofOptions options)

end Generator

theorem Kept.accept_eq_ok {kept : List Kept} {added accepted : Kept}
    (h : accept kept added = .ok accepted) : accepted = added := by
  unfold accept at h
  dsimp only at h
  split at h
  . cases h
  . exact (Except.ok.inj h).symm

namespace Descriptor

open Verdict

theorem length_settleAll (options : Options) (kept : List Kept) (descriptors : List Descriptor) :
    (settleAll options kept descriptors).length = descriptors.length := by
  induction descriptors generalizing kept with
  | nil => rfl
  | cons descriptor descriptors ih => simp [settleAll, ih]

theorem settle_eq_ok {options : Options} {kept : List Kept} {entity : Descriptor} {added : Kept}
    (h : entity.settle options kept = .ok added) :
    added.descriptor = entity ∧ entity.attempt options = .ok (added.schema, added.unit) := by
  unfold settle at h
  cases hattempt : entity.attempt options with
  | error error =>
    rw [hattempt] at h
    cases h
  | ok made =>
    rw [hattempt] at h
    rw [Kept.accept_eq_ok h]
    exact ⟨rfl, rfl⟩

theorem mem_keptOf_settleAll {options : Options} {kept : List Kept} {entities : List Descriptor}
    {added : Kept} (h : added ∈ keptOf (settleAll options kept entities)) :
    added.descriptor ∈ entities
      ∧ added.descriptor.attempt options = .ok (added.schema, added.unit) := by
  induction entities generalizing kept with
  | nil => simp [settleAll] at h
  | cons entity entities ih =>
    rw [settleAll] at h
    rw [keptOf_cons] at h
    rw [List.mem_append] at h
    rcases h with h | h
    . cases hsettle : entity.settle options kept with
      | error failure => simp [hsettle, Except.toOption] at h
      | ok first =>
        obtain ⟨hdescriptor, hattempt⟩ := settle_eq_ok hsettle
        have heq : added = first := by simpa [hsettle, Except.toOption] using h
        rw [heq, hdescriptor]
        exact ⟨List.mem_cons_self, hattempt⟩
    . obtain ⟨hmem, hattempt⟩ := ih h
      exact ⟨List.mem_cons_of_mem entity hmem, hattempt⟩

theorem attempt_eq_ok_iff {options : Options} {descriptor : Descriptor} {schema : Schema}
    {unit : SourceUnit} :
    descriptor.attempt options = .ok (schema, unit)
      ↔
    descriptor.resolve options.ecs = .ok schema
      ∧ ((Generator.ofOptions options).generate schema).1 = .ok unit := by
  unfold attempt
  cases hresolve : descriptor.resolve options.ecs with
  | error error => simp
  | ok resolved =>
    dsimp only
    constructor
    . intro h
      split at h
      . cases h
      . next hgenerate =>
        cases h
        exact ⟨rfl, hgenerate⟩
    . rintro ⟨heq, hgenerate⟩
      rw [Except.ok.inj heq, hgenerate]

theorem made_of_mem_keptOf_settleAll {options : Options} {kept : List Kept}
    {entities : List Descriptor} {made : Kept} (h : made ∈ keptOf (settleAll options kept entities)) :
    made.descriptor ∈ entities
      ∧ made.descriptor.resolve options.ecs = .ok made.schema
      ∧ ((Generator.ofOptions options).generate made.schema).1 = .ok made.unit := by
  have ⟨hmem, hattempt⟩ := mem_keptOf_settleAll h
  exact ⟨hmem, attempt_eq_ok_iff.mp hattempt⟩

theorem fileName_notMem_of_settle {options : Options} {kept : List Kept} {descriptor : Descriptor}
    {added : Kept} (h : descriptor.settle options kept = .ok added) :
    added.unit.fileName ∉ kept.map (·.unit.fileName) := by
  unfold settle at h
  split at h
  . simp at h
  . unfold Kept.accept at h
    dsimp only at h
    split at h
    . simp at h
    . next hfind =>
      rw [← Except.ok.inj h]
      simpa using hfind

theorem nodup_settleAll {options : Options} {kept : List Kept}
    (hkept : (kept.map (·.unit.fileName)).Nodup) (descriptors : List Descriptor) :
    ((kept ++ keptOf (settleAll options kept descriptors)).map (·.unit.fileName)).Nodup := by
  induction descriptors generalizing kept with
  | nil => simpa [settleAll] using hkept
  | cons descriptor descriptors ih =>
    unfold settleAll
    rw [keptOf_cons, ← List.append_assoc]
    apply ih
    cases hverdict : descriptor.settle options kept with
    | error failure => simpa [Except.toOption] using hkept
    | ok added =>
      have hnotMem := fileName_notMem_of_settle hverdict
      simp only [Except.toOption, Option.toList_some, List.map_append, List.map_singleton]
      rw [List.nodup_append]
      refine ⟨hkept, by simp, ?_⟩
      intro fileName hfileName addedName haddedName heq
      rw [heq, List.mem_singleton.mp haddedName] at hfileName
      exact hnotMem hfileName

end Descriptor

namespace Generator

open Descriptor Verdict

theorem run_eq_settleAll (options : Options)
    (earlier : List (Except SourceError (List Descriptor))) (descriptors : List Descriptor) :
    let report := Verdict.report (settleAll options [] descriptors)
    ((afterRuns options earlier).run (.ok descriptors)).1 = .ok report
      ∧ report.units.length + report.failures.length = descriptors.length
      ∧ (report.units.map (·.fileName)).Nodup := by
  have hready := (isReady_ofOptions options).foldl_run earlier
  refine ⟨?_, ?_, ?_⟩
  . exact congrArg Except.ok (hready.generateAll_report descriptors)
  . rw [length_report, length_settleAll]
  . have hnodup := @nodup_settleAll options [] List.nodup_nil descriptors
    simpa [Verdict.report, Function.comp_def] using hnodup

end Generator

end EntityViews
