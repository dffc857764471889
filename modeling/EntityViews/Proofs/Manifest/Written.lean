import EntityViews.Proofs.Command.Generate
import EntityViews.Proofs.Entity.FileName
import EntityViews.Proofs.Entity.Name
import EntityViews.Proofs.Manifest.Accepted

/-!
This module contains what is written for accepted manifests. The name of a unit's file is a single piece
of a path, so all units of a run have files of their own, which hold them after the first run and are left
alone by each further one.
-/

namespace EntityViews

theorem slash_notMem_of_dottedParts {name : String}
    (h : ∀ part ∈ dottedParts name, IsName (.ofList part)) : '/' ∉ name.toList := by
  intro hmem
  rcases isIdentifierPart_or_eq_dot h '/' hmem with hpart | hdot
  . cases hpart
  . exact absurd hdot (by decide)

theorem IsName.slash_notMem_view {declared : String} (h : IsName declared) :
    '/' ∉ (EntityName.view declared).toList := by
  rw [EntityName.view, String.toList_append, List.mem_append, not_or]
  constructor
  . intro hmem
    exact h.identifier.notMem (by decide) (EntityName.toList_base_subset declared hmem)
  . decide

theorem isFileName_unitFileName {namespaceName view : String} (hnamespace : '/' ∉ namespaceName.toList)
    (hview : '/' ∉ view.toList) : Location.IsFileName (unitFileName namespaceName view) := by
  have hstem : '/' ∉ (unitStem namespaceName view).toList := by
    unfold unitStem
    split
    . exact hview
    . simp [hnamespace, hview]
  rw [unitFileName_eq]
  constructor
  . simp
  . simp [← String.toList_inj]
  . simp [← String.toList_inj]
  . simp [hstem]

theorem Descriptor.IsValid.isFileName {entity : Descriptor} (h : entity.IsValid) :
    Location.IsFileName entity.fileName := by
  apply isFileName_unitFileName
  . rcases h.namespaceName with hempty | hparts
    . simp [hempty]
    . exact slash_notMem_of_dottedParts hparts
  . exact h.name.slash_notMem_view

namespace Manifest

variable {manifest : Manifest}

theorem IsAccepted.isFileName (h : manifest.IsAccepted) {unit : SourceUnit}
    (hunit : unit ∈ manifest.generate.units) : Location.IsFileName unit.fileName := by
  have hvalid := isAccepted_iff_isValid.mp h
  rw [generate_units, List.mem_map] at hunit
  obtain ⟨made, hmade, rfl⟩ := hunit
  have ⟨hmem, hattempt⟩ := Descriptor.mem_keptOf_settleAll hmade
  have hentity := hvalid.entities _ hmem
  rw [(hentity.of_attempt_eq_ok hattempt).2.1]
  exact hentity.isFileName

theorem IsAccepted.nodup_locations (h : manifest.IsAccepted) (directory : String) :
    (manifest.generate.units.map (·.location directory)).Nodup := by
  have hnames : (manifest.generate.units.map (·.fileName)).Nodup := by
    have hkept := @Descriptor.nodup_settleAll manifest.settings.options [] List.nodup_nil
      manifest.entities
    rw [generate_units, List.map_map]
    exact hkept
  rw [List.Nodup, List.pairwise_map] at hnames ⊢
  apply hnames.imp_of_mem
  intro first second hfirst hsecond hne heq
  exact hne ((Location.IsFileName.ofPath_join_inj (h.isFileName hfirst) (h.isFileName hsecond)).mp heq)

end Manifest

namespace Command

open FileMap

theorem generate_idempotent {files : FileMap} {path document : String} {manifest : Manifest}
    (hread : files.contents (.ofPath path) = some document)
    (hparse : Manifest.parse document = .ok manifest) (directory : String) :
    let report := manifest.generate
    let stale := report.units.filter (files.isStale directory)
    ∃ after,
      files.perform (Command.run (.generate path directory false))
          = (writtenOutcome report directory
              { written := stale.map (·.path directory)
                unchanged := report.units.countP (!files.isStale directory ·) },
            after)
        ∧ (∀ unit ∈ report.units,
            after.contents (unit.location directory) = some unit.content
              ∧ after.perform (unit.isStale directory) = (false, after)
              ∧ after.perform (unit.write directory) = (.ok .unchanged, after))
        ∧ (∀ location, (∀ unit ∈ report.units, location ≠ unit.location directory) →
            after.contents location = files.contents location)
        ∧ after.written = files.written ++ stale.map (·.location directory)
        ∧ ∀ again, after.contents (.ofPath again) = some document →
            after.perform (Command.run (.generate again directory false))
              = (writtenOutcome report directory { unchanged := report.units.length }, after) := by
  intro report stale
  have hnodup := (Manifest.isAccepted_of_parse hparse).nodup_locations directory
  have hupdated := isStale_update hnodup files
  refine ⟨files.update directory report.units, ?_, ?_, ?_, rfl, ?_⟩
  . rw [perform_generate hread hparse]
    exact perform_writeReport hnodup files
  . intro unit hunit
    refine ⟨contents_update_of_mem hnodup hunit files, ?_, ?_⟩
    . rw [perform_isStale, hupdated unit hunit]
    . rw [perform_write, hupdated unit hunit]
      rfl
  . exact fun location hlocation => contents_update_of_forall_ne hlocation files
  . intro again hagain
    rw [perform_generate hagain hparse]
    exact perform_writeReport_of_forall_not_isStale hnodup hupdated

theorem generate_idempotent_over_outdated_file :
    let document := "[[entities]]\nname = \"Unit\"\n"
    let file := Location.ofPath "out/Generated_UnitEntity.cs"
    let files : FileMap :=
      { contents := fun location =>
          if location = .ofPath "entigen.toml" then some document
          else if location = file then some "outdated"
          else none }
    let generate := Command.run (.generate "entigen.toml" "out" false)
    Manifest.parse document = .ok { entities := [{ name := "Unit" }] }
      ∧ files.contents (.ofPath "entigen.toml") = some document
      ∧ ∃ after outcome,
          files.perform generate = (outcome, after)
            ∧ outcome.output
                = ["  + out/Generated_UnitEntity.cs", "",
                    "Generated: 1 written, 0 unchanged in out"]
            ∧ after.written = [file]
            ∧ after.contents file ≠ some "outdated"
            ∧ (after.perform generate).2 = after := by
  intro document file files generate
  let manifest : Manifest := { entities := [{ name := "Unit" }] }
  have hparse : Manifest.parse document = .ok manifest := by decide +kernel
  have hread : files.contents (.ofPath "entigen.toml") = some document := rfl
  have ⟨after, hrun, hunits, hothers, hwritten, hagain⟩ := generate_idempotent hread hparse "out"
  have hmanifest : after.contents (.ofPath "entigen.toml") = some document := by
    rw [hothers _ (by decide +kernel)]
    rfl
  have ⟨unit, hunit, hlocation, hcontent⟩ : ∃ unit ∈ manifest.generate.units,
      unit.location "out" = file ∧ some unit.content ≠ some "outdated" := by
    decide +kernel
  refine ⟨hparse, hread, after, _, hrun, by decide +kernel, ?_, ?_, ?_⟩
  . rw [hwritten]
    decide +kernel
  . rw [← hlocation, (hunits unit hunit).1]
    exact hcontent
  . rw [hagain "entigen.toml" hmanifest]

end Command

end EntityViews
