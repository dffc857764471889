import Mathlib.Data.List.Nodup
import EntityViews.Command.Run
import EntityViews.Proofs.Files.Map

/-!
This module contains what is written when units are generated. Units with locations of their own are
written one after the other without undoing each other, and once all of them are in place, generating them
again writes nothing.
-/

namespace EntityViews

def SourceUnit.location (unit : SourceUnit) (directory : String) : Location :=
  .ofPath (unit.path directory)

namespace FileMap

variable {files : FileMap} {directory : String} {unit : SourceUnit} {units : List SourceUnit}

def isStale (files : FileMap) (directory : String) (unit : SourceUnit) : Bool :=
  files.contents (unit.location directory) != some unit.content

def update (files : FileMap) (directory : String) (units : List SourceUnit) : FileMap where
  contents location :=
    match units.find? (·.location directory = location) with
    | some unit => some unit.content
    | none => files.contents location
  written := files.written ++ (units.filter (files.isStale directory)).map (·.location directory)

theorem perform_isStale (files : FileMap) (directory : String) (unit : SourceUnit) :
    files.perform (unit.isStale directory) = (files.isStale directory unit, files) := by
  rfl

theorem perform_write (files : FileMap) (directory : String) (unit : SourceUnit) :
    files.perform (unit.write directory)
      =
    if files.isStale directory unit then
      (.ok .written, files.put (unit.location directory) unit.content)
    else
      (.ok .unchanged, files) := by
  unfold SourceUnit.write
  rw [perform_bind, perform_isStale]
  cases files.isStale directory unit with
  | true => rfl
  | false => rfl

theorem eq_of_not_isStale (h : files.isStale directory unit = false) :
    files.contents (unit.location directory) = some unit.content := by
  simpa [isStale] using h

theorem isStale_put (h : unit.location directory ∉ units.map (·.location directory))
    (content : String) :
    ∀ other ∈ units,
      (files.put (unit.location directory) content).isStale directory other
        = files.isStale directory other := by
  intro other hother
  unfold isStale
  rw [contents_put_of_ne]
  intro heq
  exact h (List.mem_map.mpr ⟨other, hother, heq⟩)

theorem find?_location_eq_none (h : unit.location directory ∉ units.map (·.location directory)) :
    units.find? (·.location directory = unit.location directory) = none := by
  rw [List.find?_eq_none]
  intro other hother heq
  exact h (List.mem_map.mpr ⟨other, hother, of_decide_eq_true heq⟩)

theorem update_cons_of_isStale (h : files.isStale directory unit)
    (hother : unit.location directory ∉ units.map (·.location directory)) :
    files.update directory (unit :: units)
      =
    (files.put (unit.location directory) unit.content).update directory units := by
  unfold update
  rw [List.filter_congr (isStale_put hother _)]
  congr 1
  . funext location
    by_cases hlocation : unit.location directory = location
    . rw [List.find?_cons_of_pos (by simpa using hlocation), ← hlocation,
        find?_location_eq_none hother, contents_put_self]
    . rw [List.find?_cons_of_neg (by simpa using hlocation),
        contents_put_of_ne _ (Ne.symm hlocation)]
  . simp [put, h]

theorem update_cons_of_not_isStale (h : files.isStale directory unit = false)
    (hother : unit.location directory ∉ units.map (·.location directory)) :
    files.update directory (unit :: units) = files.update directory units := by
  unfold update
  congr 1
  . funext location
    by_cases hlocation : unit.location directory = location
    . rw [List.find?_cons_of_pos (by simpa using hlocation), ← hlocation,
        find?_location_eq_none hother]
      exact (eq_of_not_isStale h).symm
    . rw [List.find?_cons_of_neg (by simpa using hlocation)]
  . simp [h]

theorem perform_writeAll (hnodup : (units.map (·.location directory)).Nodup) (files : FileMap)
    (tally : Tally) :
    files.perform (Tally.writeAll directory tally units)
      =
    (({ written := tally.written ++ (units.filter (files.isStale directory)).map (·.path directory)
        unchanged := tally.unchanged + units.countP (!files.isStale directory ·) }, none),
      files.update directory units) := by
  induction units generalizing files tally with
  | nil =>
    unfold Tally.writeAll update
    rw [perform_pure]
    simp
  | cons unit units ih =>
    rw [List.map_cons, List.nodup_cons] at hnodup
    unfold Tally.writeAll
    rw [perform_bind, perform_write]
    cases hstale : files.isStale directory unit with
    | true =>
      rw [if_pos rfl]
      dsimp only
      -- writing a unit neither updates nor outdates the later ones, whose files are other ones
      have hstales : ∀ other ∈ units,
          (files.put (unit.location directory) unit.content).isStale directory other
            = files.isStale directory other :=
        isStale_put hnodup.1 unit.content
      have hcount : units.countP
          (!(files.put (unit.location directory) unit.content).isStale directory ·)
            = units.countP (!files.isStale directory ·) :=
        List.countP_congr fun other hother => by rw [hstales other hother]
      rw [ih hnodup.2, List.filter_congr hstales, hcount, update_cons_of_isStale hstale hnodup.1]
      simp [hstale]
    | false =>
      rw [if_neg (by simp)]
      dsimp only
      rw [ih hnodup.2, update_cons_of_not_isStale hstale hnodup.1]
      simp [hstale, Nat.add_assoc, Nat.add_comm 1]

theorem contents_update_of_mem (hnodup : (units.map (·.location directory)).Nodup)
    (h : unit ∈ units) (files : FileMap) :
    (files.update directory units).contents (unit.location directory) = some unit.content := by
  unfold update
  dsimp only
  split
  . next other hfind =>
    have hlocation : other.location directory = unit.location directory := by
      simpa using List.find?_some hfind
    rw [List.inj_on_of_nodup_map hnodup (List.mem_of_find?_eq_some hfind) h hlocation]
  . next hfind =>
    rw [List.find?_eq_none] at hfind
    exact absurd (decide_eq_true rfl) (hfind unit h)

theorem contents_update_of_forall_ne {location : Location}
    (h : ∀ unit ∈ units, location ≠ unit.location directory) (files : FileMap) :
    (files.update directory units).contents location = files.contents location := by
  have hfind : units.find? (·.location directory = location) = none := by
    rw [List.find?_eq_none]
    intro unit hunit heq
    exact h unit hunit (of_decide_eq_true heq).symm
  unfold update
  dsimp only
  rw [hfind]

theorem isStale_update (hnodup : (units.map (·.location directory)).Nodup) (files : FileMap) :
    ∀ unit ∈ units, (files.update directory units).isStale directory unit = false := by
  intro unit h
  unfold isStale
  rw [contents_update_of_mem hnodup h]
  simp

theorem update_of_forall_not_isStale
    (h : ∀ unit ∈ units, files.isStale directory unit = false) :
    files.update directory units = files := by
  unfold update
  rw [List.filter_eq_nil_iff.mpr (fun unit hunit => by simp [h unit hunit])]
  rcases files with ⟨contents, written⟩
  congr 1
  . funext location
    split
    . next unit hfind =>
      have hunit := List.mem_of_find?_eq_some hfind
      have hlocation : unit.location directory = location := by
        simpa using List.find?_some hfind
      rw [← eq_of_not_isStale (h unit hunit), hlocation]
    . rfl
  . simp

end FileMap

namespace Command

open FileMap

variable {directory : String} {report : Report}

def writtenOutcome (report : Report) (directory : String) (tally : Tally) : Outcome where
  output := tally.fileLines ++ ["", tally.summary directory]
  notes := report.warningLines ++ report.failureLines
  hasFailures := !report.isSuccess

theorem perform_writeReport (hnodup : (report.units.map (·.location directory)).Nodup)
    (files : FileMap) :
    files.perform (writeReport report directory)
      =
    (writtenOutcome report directory
        { written := (report.units.filter (files.isStale directory)).map (·.path directory)
          unchanged := report.units.countP (!files.isStale directory ·) },
      files.update directory report.units) := by
  unfold writeReport
  rw [perform_bind, perform_writeAll hnodup]
  simp [writtenOutcome, perform_pure]

theorem perform_writeReport_of_forall_not_isStale
    (hnodup : (report.units.map (·.location directory)).Nodup) {files : FileMap}
    (h : ∀ unit ∈ report.units, files.isStale directory unit = false) :
    files.perform (writeReport report directory)
      =
    (writtenOutcome report directory { unchanged := report.units.length }, files) := by
  have hfilter : report.units.filter (files.isStale directory) = [] :=
    List.filter_eq_nil_iff.mpr fun unit hunit => by simp [h unit hunit]
  have hcount : report.units.countP (!files.isStale directory ·) = report.units.length :=
    List.countP_eq_length.mpr fun unit hunit => by simp [h unit hunit]
  rw [perform_writeReport hnodup, hfilter, hcount, update_of_forall_not_isStale h]
  rfl

theorem perform_load {files : FileMap} {path document : String} {manifest : Manifest}
    (hread : files.contents (.ofPath path) = some document)
    (hparse : Manifest.parse document = .ok manifest) :
    files.perform (ManifestFile.load path) = (.ok ⟨path, document, manifest⟩, files) := by
  unfold ManifestFile.load
  rw [perform_bind, perform_readText, hread]
  dsimp only
  rw [hparse]
  rfl

theorem perform_generate {files : FileMap} {path document : String} {manifest : Manifest}
    (hread : files.contents (.ofPath path) = some document)
    (hparse : Manifest.parse document = .ok manifest) (directory : String) :
    files.perform (Command.run (.generate path directory false))
      =
    files.perform (writeReport manifest.generate directory) := by
  unfold Command.run manifestPathOf
  rw [perform_bind, perform_load hread hparse]
  rfl

end Command

end EntityViews
