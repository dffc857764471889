import Mathlib.Data.List.Perm.Basic
import EntityViews.Proofs.SourceUnit.Isolation

/-!
This module contains the independence of entities from the order they are declared in. A run in which no
two units have the same file name reports about each entity what a run over this entity alone reports,
so its report is put together from these reports, in whatever order the entities come.
-/

namespace EntityViews

def Report.join (reports : List Report) : Report where
  units := reports.flatMap (·.units)
  failures := reports.flatMap (·.failures)
  diagnostics := reports.flatMap (·.diagnostics)

def Options.fileNames (options : Options) (descriptors : List Descriptor) : List String :=
  (descriptors.filterMap fun descriptor => (descriptor.attempt options).toOption).map
    fun (_, unit) => unit.fileName

theorem Verdict.report_eq_join (verdicts : List Verdict) :
    report verdicts = .join (verdicts.map fun verdict => report [verdict]) := by
  induction verdicts with
  | nil => rfl
  | cons verdict verdicts ih =>
    simp only [Report.join, report, List.map_cons, List.flatMap_cons, Report.mk.injEq] at ih ⊢
    rw [keptOf_cons, failuresOf_cons, List.map_append, List.flatMap_append, ih.1, ih.2.1, ih.2.2]
    simp

namespace Descriptor

open Verdict

variable {options : Options}

theorem settle_of_attempt_eq_ok {descriptor : Descriptor} {schema : Schema} {unit : SourceUnit}
    (h : descriptor.attempt options = .ok (schema, unit)) {kept : List Kept}
    (hnew : unit.fileName ∉ kept.map (·.unit.fileName)) :
    descriptor.settle options kept = .ok ⟨descriptor, schema, unit⟩ := by
  have hfind : kept.find? (·.unit.fileName = unit.fileName) = none := by
    rw [List.find?_eq_none]
    intro made hmade hname
    exact hnew (List.mem_map.mpr ⟨made, hmade, of_decide_eq_true hname⟩)
  unfold settle Kept.accept
  rw [h]
  dsimp only
  rw [hfind]

theorem settle_of_attempt_eq_error {descriptor : Descriptor} {error : UnitError}
    (h : descriptor.attempt options = .error error) (kept : List Kept) :
    descriptor.settle options kept = .error ⟨descriptor.qualifiedName, error⟩ := by
  unfold settle
  rw [h]

-- what is kept of the entities in front never has the file name of one that is still to come
theorem settleAll_eq_map {kept : List Kept} {descriptors : List Descriptor}
    (h : (kept.map (·.unit.fileName) ++ options.fileNames descriptors).Nodup) :
    settleAll options kept descriptors = descriptors.map (·.settle options []) := by
  induction descriptors generalizing kept with
  | nil => rfl
  | cons descriptor descriptors ih =>
    rw [settleAll, List.map_cons]
    cases hattempt : descriptor.attempt options with
    | error error =>
      have hnames : options.fileNames (descriptor :: descriptors) = options.fileNames descriptors := by
        simp [Options.fileNames, hattempt, Except.toOption]
      rw [hnames] at h
      rw [settle_of_attempt_eq_error hattempt, settle_of_attempt_eq_error hattempt, ih]
      simpa [Except.toOption] using h
    | ok made =>
      rcases made with ⟨schema, unit⟩
      have hnames : options.fileNames (descriptor :: descriptors)
          = unit.fileName :: options.fileNames descriptors := by
        simp [Options.fileNames, hattempt, Except.toOption]
      rw [hnames] at h
      have hnew : unit.fileName ∉ kept.map (·.unit.fileName) := by
        intro hmem
        exact (List.nodup_append.mp h).2.2 _ hmem _ List.mem_cons_self rfl
      rw [settle_of_attempt_eq_ok hattempt hnew, settle_of_attempt_eq_ok hattempt (by simp), ih]
      simpa [Except.toOption] using h

end Descriptor

namespace Options

open Descriptor Verdict

variable {options : Options} {descriptors : List Descriptor}

theorem report_singleton (options : Options) (descriptor : Descriptor) :
    options.report [descriptor] = Verdict.report [descriptor.settle options []] := by
  rw [report_eq]
  rfl

theorem fileNames_eq_flatMap (options : Options) (descriptors : List Descriptor) :
    options.fileNames descriptors
      =
    (descriptors.flatMap fun descriptor => (options.report [descriptor]).units).map
      (·.fileName) := by
  unfold fileNames
  induction descriptors with
  | nil => rfl
  | cons descriptor descriptors ih =>
    rw [List.flatMap_cons, List.map_append, ← ih, report_singleton]
    cases hattempt : descriptor.attempt options with
    | error error =>
      rw [settle_of_attempt_eq_error hattempt]
      simp [hattempt, Verdict.report, Except.toOption]
    | ok made =>
      rw [settle_of_attempt_eq_ok hattempt (by simp)]
      simp [hattempt, Verdict.report, Except.toOption]

theorem report_eq_join_iff :
    options.report descriptors = .join (descriptors.map fun descriptor => options.report [descriptor])
      ↔
    (options.fileNames descriptors).Nodup := by
  constructor
  . intro h
    have hnodup := @nodup_settleAll options [] List.nodup_nil descriptors
    have hunits := congrArg Report.units h
    rw [report_units] at hunits
    simp only [Report.join, List.flatMap_map] at hunits
    rw [fileNames_eq_flatMap, ← hunits, List.map_map]
    exact hnodup
  . intro h
    rw [report_eq, settleAll_eq_map (by simpa using h), Verdict.report_eq_join, List.map_map]
    simp only [report_singleton]
    rfl

theorem length_report_singleton (options : Options) (descriptor : Descriptor) :
    (options.report [descriptor]).units.length + (options.report [descriptor]).failures.length
      =
    1 := by
  rw [report_singleton]
  exact length_report _

theorem report_of_perm {permuted : List Descriptor} (h : (options.fileNames descriptors).Nodup)
    (hperm : descriptors.Perm permuted) :
    let alone := fun descriptor => options.report [descriptor]
    options.report descriptors = .join (descriptors.map alone)
      ∧ options.report permuted = .join (permuted.map alone)
      ∧ (∀ descriptor, (alone descriptor).units.length + (alone descriptor).failures.length = 1)
      ∧ (options.report descriptors).units.Perm (options.report permuted).units
      ∧ (options.report descriptors).failures.Perm (options.report permuted).failures
      ∧ (options.report descriptors).diagnostics.Perm (options.report permuted).diagnostics := by
  intro alone
  have hnames : (options.fileNames descriptors).Perm (options.fileNames permuted) :=
    (hperm.filterMap _).map _
  have hjoin : options.report descriptors = .join (descriptors.map alone) :=
    report_eq_join_iff.mpr h
  have hjoinPermuted : options.report permuted = .join (permuted.map alone) :=
    report_eq_join_iff.mpr (hnames.nodup_iff.mp h)
  have hreports : (descriptors.map alone).Perm (permuted.map alone) := hperm.map alone
  rw [hjoin, hjoinPermuted]
  refine ⟨rfl, rfl, options.length_report_singleton, ?_, ?_, ?_⟩
  . exact hreports.flatMap_right _
  . exact hreports.flatMap_right _
  . exact hreports.flatMap_right _

theorem report_of_perm_swapped :
    let unit : Descriptor := { name := "Unit" }
    let broken : Descriptor := { name := " " }
    let other : Descriptor := { namespaceName := "Game", name := "Unit", excluded := ["int", "int"] }
    ((fileNames {} [unit, broken, other]).Nodup ∧ [unit, broken, other].Perm [other, broken, unit])
      ∧ (report {} [other, broken, unit]).units
          = (report {} [other]).units ++ (report {} [unit]).units
      ∧ (report {} [other, broken, unit]).failures = (report {} [broken]).failures
      ∧ (report {} [other, broken, unit]).diagnostics
          = (report {} [other]).diagnostics ++ (report {} [unit]).diagnostics := by
  intro unit broken other
  have hnames : (fileNames {} [unit, broken, other]).Nodup := by decide +kernel
  have hperm : [unit, broken, other].Perm [other, broken, unit] := by decide +kernel
  refine ⟨⟨hnames, hperm⟩, ?_⟩
  rw [(report_of_perm hnames hperm).2.1]
  refine ⟨?_, ?_, ?_⟩
  . have hunits : (report {} [broken]).units = [] := by decide +kernel
    simp [Report.join, hunits]
  . have hfailures : (report {} [unit]).failures = [] ∧ (report {} [other]).failures = [] := by
      decide +kernel
    simp [Report.join, hfailures]
  . have hdiagnostics : (report {} [broken]).diagnostics = [] := by decide +kernel
    simp [Report.join, hdiagnostics]

end Options

end EntityViews
