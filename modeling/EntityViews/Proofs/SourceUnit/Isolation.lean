import Mathlib.Logic.Relation
import EntityViews.Proofs.SourceUnit.Verdict

/-!
This module contains the isolation of failures in generation runs. An entity that fails can be removed
without a trace besides its own failure, and when all entities that fail are removed, one after the
other, a run without failures remains that produces the same units and the same diagnostics.
-/

namespace EntityViews

def Options.report (options : Options) (descriptors : List Descriptor) : Report :=
  ((Generator.ofOptions options).generateAll descriptors).1

/--
In a run over the entities in front of it and the entity itself, the entity adds the given failure.
-/
def Options.FailsAfter (options : Options) (before : List Descriptor) (descriptor : Descriptor)
    (failure : Failure) : Prop :=
  (options.report (before ++ [descriptor])).failures = (options.report before).failures ++ [failure]

def Options.DropsFailing (options : Options) (descriptors rest : List Descriptor) : Prop :=
  ∃ before descriptor after failure,
    options.FailsAfter before descriptor failure
      ∧ descriptors = before ++ descriptor :: after
      ∧ rest = before ++ after

namespace Descriptor

open Verdict

theorem settleAll_append (options : Options) (kept : List Kept) (first second : List Descriptor) :
    settleAll options kept (first ++ second)
      =
    settleAll options kept first
      ++ settleAll options (kept ++ keptOf (settleAll options kept first)) second := by
  induction first generalizing kept with
  | nil => simp [settleAll]
  | cons descriptor first ih =>
    rw [List.cons_append, settleAll, settleAll, ih, keptOf_cons, List.append_assoc]
    rfl

-- an entity that fails is not kept, so those after it are settled as if it were not there
theorem settleAll_cons_of_settle_eq_error {options : Options} {kept : List Kept}
    {descriptor : Descriptor} {failure : Failure}
    (h : descriptor.settle options kept = .error failure) (after : List Descriptor) :
    settleAll options kept (descriptor :: after)
      =
    .error failure :: settleAll options kept after := by
  rw [settleAll, h]
  simp [Except.toOption]

theorem exists_split_of_settleAll_eq {options : Options} {kept : List Kept}
    {descriptors : List Descriptor} {front back : List Verdict} {verdict : Verdict}
    (h : settleAll options kept descriptors = front ++ verdict :: back) :
    ∃ before descriptor after,
      descriptors = before ++ descriptor :: after
        ∧ settleAll options kept before = front
        ∧ descriptor.settle options (kept ++ keptOf front) = verdict := by
  induction descriptors generalizing kept front with
  | nil => simp [settleAll] at h
  | cons descriptor descriptors ih =>
    rw [settleAll] at h
    cases front with
    | nil =>
      rw [List.nil_append, List.cons.injEq] at h
      exact ⟨[], descriptor, descriptors, rfl, rfl, by simpa using h.1⟩
    | cons first front =>
      rw [List.cons_append, List.cons.injEq] at h
      obtain ⟨before, settled, after, hsplit, hbefore, hsettle⟩ := ih h.2
      refine ⟨descriptor :: before, settled, after, ?_, ?_, ?_⟩
      . rw [hsplit, List.cons_append]
      . rw [settleAll, hbefore, h.1]
      . rw [keptOf_cons, ← h.1, ← List.append_assoc]
        exact hsettle

end Descriptor

namespace Verdict

theorem eq_error_of_failure?_eq_some {verdict : Verdict} {failure : Failure}
    (h : failure? verdict = some failure) : verdict = .error failure := by
  cases verdict with
  | error first => rw [Option.some.inj h]
  | ok kept => simp [failure?] at h

theorem exists_split_of_failuresOf_eq {verdicts : List Verdict} {earlier later : List Failure}
    {failure : Failure} (h : failuresOf verdicts = earlier ++ failure :: later) :
    ∃ front back,
      verdicts = front ++ .error failure :: back
        ∧ failuresOf front = earlier
        ∧ failuresOf back = later := by
  have ⟨before, rest, hverdicts, hbefore, hrest⟩ := List.filterMap_eq_append_iff.mp h
  have ⟨between, verdict, back, hsplit, hbetween, hverdict, hback⟩ :=
    List.filterMap_eq_cons_iff.mp hrest
  refine ⟨before ++ between, back, ?_, ?_, hback⟩
  . rw [hverdicts, hsplit, eq_error_of_failure?_eq_some hverdict, List.append_assoc]
  . have hnone : failuresOf between = [] := List.filterMap_eq_nil_iff.mpr hbetween
    rw [failuresOf_append, hnone, List.append_nil]
    exact hbefore

theorem report_remove_error (front back : List Verdict) (failure : Failure) :
    report (front ++ back)
      =
    { report (front ++ .error failure :: back) with
        failures := failuresOf front ++ failuresOf back } := by
  simp [report, Except.toOption]

end Verdict

namespace Options

open Descriptor Verdict

theorem report_eq (options : Options) (descriptors : List Descriptor) :
    options.report descriptors = Verdict.report (settleAll options [] descriptors) := by
  exact (Generator.isReady_ofOptions options).generateAll_report descriptors

theorem report_units (options : Options) (descriptors : List Descriptor) :
    (options.report descriptors).units
      =
    (keptOf (settleAll options [] descriptors)).map (·.unit) := by
  rw [report_eq]
  rfl

theorem failsAfter_iff {options : Options} {before : List Descriptor} {descriptor : Descriptor}
    {failure : Failure} :
    options.FailsAfter before descriptor failure
      ↔
    descriptor.settle options (keptOf (settleAll options [] before)) = .error failure := by
  unfold FailsAfter
  rw [report_eq, report_eq, settleAll_append, List.nil_append, settleAll, settleAll]
  simp only [Verdict.report, failuresOf_append, List.append_cancel_left_eq]
  cases descriptor.settle options (keptOf (settleAll options [] before)) with
  | error first => simp [failure?]
  | ok kept => simp [failure?]

theorem FailsAfter.report_remove {options : Options} {before : List Descriptor}
    {descriptor : Descriptor} {failure : Failure}
    (h : options.FailsAfter before descriptor failure) (after : List Descriptor) :
    ∃ later,
      (options.report (before ++ descriptor :: after)).failures
          = (options.report before).failures ++ failure :: later
        ∧ options.report (before ++ after)
          = { options.report (before ++ descriptor :: after) with
              failures := (options.report before).failures ++ later } := by
  have hsettled := settleAll_cons_of_settle_eq_error (failsAfter_iff.mp h) after
  rw [report_eq, report_eq, report_eq, settleAll_append, settleAll_append, List.nil_append,
    hsettled]
  refine ⟨_, ?_, report_remove_error _ _ failure⟩
  simp [Verdict.report, failure?]

theorem exists_failsAfter {options : Options} {descriptors : List Descriptor}
    {earlier later : List Failure} {failure : Failure}
    (h : (options.report descriptors).failures = earlier ++ failure :: later) :
    ∃ before descriptor after,
      descriptors = before ++ descriptor :: after
        ∧ (options.report before).failures = earlier
        ∧ options.FailsAfter before descriptor failure := by
  rw [report_eq] at h
  have ⟨front, back, hverdicts, hfront, _⟩ := exists_split_of_failuresOf_eq h
  have ⟨before, descriptor, after, hsplit, hbefore, hsettle⟩ :=
    exists_split_of_settleAll_eq hverdicts
  refine ⟨before, descriptor, after, hsplit, ?_, ?_⟩
  . rw [report_eq, hbefore]
    exact hfront
  . rw [failsAfter_iff, hbefore]
    exact hsettle

theorem exists_removable {options : Options} {descriptors : List Descriptor}
    {earlier later : List Failure} {failure : Failure}
    (h : (options.report descriptors).failures = earlier ++ failure :: later) :
    ∃ before descriptor after,
      descriptors = before ++ descriptor :: after
        ∧ (options.report before).failures = earlier
        ∧ options.FailsAfter before descriptor failure
        ∧ options.report (before ++ after)
            = { options.report descriptors with failures := earlier ++ later } := by
  have ⟨before, descriptor, after, hsplit, hearlier, hfails⟩ := exists_failsAfter h
  have ⟨remaining, hfailures, hremoved⟩ := hfails.report_remove after
  refine ⟨before, descriptor, after, hsplit, hearlier, hfails, ?_⟩
  rw [hsplit, hfailures, hearlier, List.append_cancel_left_eq, List.cons.injEq] at h
  rw [hremoved, hsplit, hearlier, h.2]

theorem DropsFailing.report_eq {options : Options} {descriptors rest : List Descriptor}
    (h : options.DropsFailing descriptors rest) :
    (options.report rest).units = (options.report descriptors).units
      ∧ (options.report rest).diagnostics = (options.report descriptors).diagnostics := by
  have ⟨before, descriptor, after, failure, hfails, hsplit, hrest⟩ := h
  have ⟨_, _, hremoved⟩ := hfails.report_remove after
  rw [hrest, hsplit, hremoved]
  exact ⟨rfl, rfl⟩

theorem reflTransGen_dropsFailing_report_eq {options : Options} {descriptors rest : List Descriptor}
    (h : Relation.ReflTransGen options.DropsFailing descriptors rest) :
    (options.report rest).units = (options.report descriptors).units
      ∧ (options.report rest).diagnostics = (options.report descriptors).diagnostics := by
  induction h with
  | refl => exact ⟨rfl, rfl⟩
  | tail _ hdrop ih => exact ⟨hdrop.report_eq.1.trans ih.1, hdrop.report_eq.2.trans ih.2⟩

theorem exists_reflTransGen_dropsFailing (options : Options) (descriptors : List Descriptor) :
    ∃ rest, Relation.ReflTransGen options.DropsFailing descriptors rest
      ∧ (options.report rest).isSuccess := by
  -- each entity that is dropped takes the first failure away
  generalize hfailures : (options.report descriptors).failures = failures
  induction failures generalizing descriptors with
  | nil =>
    refine ⟨descriptors, .refl, ?_⟩
    rw [Report.isSuccess, hfailures]
    rfl
  | cons failure later ih =>
    have ⟨before, descriptor, after, hsplit, _, hfails, hremoved⟩ :=
      @exists_removable options descriptors [] later failure hfailures
    have ⟨rest, hrest, hsuccess⟩ := ih (before ++ after) (by rw [hremoved]; rfl)
    exact ⟨rest, .head ⟨before, descriptor, after, failure, hfails, hsplit, rfl⟩ hrest, hsuccess⟩

theorem report_without_failing (options : Options) (descriptors : List Descriptor) :
    (∀ earlier failure later,
      (options.report descriptors).failures = earlier ++ failure :: later →
        ∃ before descriptor after,
          descriptors = before ++ descriptor :: after
            ∧ (options.report before).failures = earlier
            ∧ options.FailsAfter before descriptor failure
            ∧ options.report (before ++ after)
                = { options.report descriptors with failures := earlier ++ later })
      ∧ (∀ rest, Relation.ReflTransGen options.DropsFailing descriptors rest →
          (options.report rest).units = (options.report descriptors).units
            ∧ (options.report rest).diagnostics = (options.report descriptors).diagnostics)
      ∧ ∃ rest, Relation.ReflTransGen options.DropsFailing descriptors rest
          ∧ (options.report rest).isSuccess := by
  refine ⟨?_, ?_, ?_⟩
  . intro earlier failure later h
    exact exists_removable h
  . intro rest h
    exact reflTransGen_dropsFailing_report_eq h
  . exact options.exists_reflTransGen_dropsFailing descriptors

end Options

end EntityViews
