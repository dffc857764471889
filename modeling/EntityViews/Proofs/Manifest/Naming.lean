import EntityViews.Files.Tree
import EntityViews.Proofs.Manifest.Written

/-!
This module contains the names that are derived from those in accepted manifests. The names of types are
names again, as what is left of a declared name starts like a name, and the name of a file has nothing in
it that leads out of the directory it is put in.
-/

namespace EntityViews

theorem isIdentifierStart_of_isCapital {c : Char} (hpart : isIdentifierPart c)
    (hcapital : isCapital c = true) : isIdentifierStart c := by
  simp only [isIdentifierPart, isIdentifierStart, Char.isAlphanum, Bool.or_eq_true] at *
  rcases hpart with (halpha | hdigit) | hunderscore
  . exact .inl halpha
  . -- digits come before all capitals
    have hruns : ∀ run ∈ uppercaseRuns, 57 < run.first := by decide +kernel
    obtain ⟨run, hrun, hcontains⟩ := List.any_eq_true.mp hcapital
    have hfirst := hruns run hrun
    simp only [CodePointRun.contains, Bool.and_eq_true, decide_eq_true_eq] at hcontains
    simp only [Char.isDigit, Bool.and_eq_true, decide_eq_true_eq] at hdigit
    have hnat : c.toNat ≤ 57 := hdigit.2
    omega
  . exact .inr hunderscore

theorem IsIdentifier.append {name ending : List Char} (h : IsIdentifier name)
    (hending : ∀ c ∈ ending, isIdentifierPart c) : IsIdentifier (name ++ ending) := by
  have ⟨first, rest, hname, hfirst, hrest⟩ := h
  refine ⟨first, rest ++ ending, ?_, hfirst, ?_⟩
  . rw [hname]
    rfl
  . exact List.forall_mem_append.mpr ⟨hrest, hending⟩

namespace EntityName

theorem isIdentifier_dropMark {name : List Char} (h : IsIdentifier name) :
    IsIdentifier (dropMark name) := by
  have hparts := h.forall_mem
  unfold dropMark
  split
  . next c rest =>
    split
    . next hcapital =>
      simp only [List.forall_mem_cons] at hparts
      have ⟨_, hc, hrest⟩ := hparts
      exact ⟨c, rest, rfl, isIdentifierStart_of_isCapital hc hcapital, hrest⟩
    . exact h
  . exact h

theorem isIdentifier_dropEntity {name : List Char} (h : IsIdentifier name) :
    IsIdentifier (dropEntity name) := by
  unfold dropEntity
  split
  . next c stem hsuffix =>
    have ⟨first, rest, hname, hfirst, hrest⟩ := h
    have happend := List.isSuffixOf?_eq_some_iff_append_eq.mp hsuffix
    rw [hname] at happend
    rw [List.cons_append] at happend
    rw [List.cons.injEq] at happend
    rw [← happend.2] at hrest
    rw [← happend.1] at hfirst
    exact ⟨c, stem, rfl, hfirst, (List.forall_mem_append.mp hrest).1⟩
  . exact h

theorem isIdentifier_base {declared : String} (h : IsIdentifier declared.toList) :
    IsIdentifier (base declared).toList := by
  unfold base
  rw [String.toList_ofList]
  exact isIdentifier_dropEntity (isIdentifier_dropMark h)

-- reserved words are written in small letters
theorem isName_base_append {declared ending : String} (h : IsName declared)
    (hending : ending.toList.all isIdentifierPart) (hcapital : 'E' ∈ ending.toList) :
    IsName (base declared ++ ending) := by
  constructor
  . rw [String.toList_append]
    exact (isIdentifier_base h.identifier).append (List.all_eq_true.mp hending)
  . intro hreserved
    have hsmall : ∀ word ∈ reservedWords, 'E' ∉ word.toList := by decide +kernel
    apply hsmall _ hreserved
    rw [String.toList_append]
    exact List.mem_append_right _ hcapital

end EntityName

theorem IsName.view {declared : String} (h : IsName declared) : IsName (EntityName.view declared) := by
  apply EntityName.isName_base_append h
  . decide
  . decide

theorem IsName.collection {declared : String} (h : IsName declared) :
    IsName (EntityName.collection declared) := by
  apply EntityName.isName_base_append h
  . decide
  . decide

theorem unitStem_ne_empty (namespaceName : String) {view : String} (h : view ≠ "") :
    unitStem namespaceName view ≠ "" := by
  by_cases hnamespace : namespaceName = ""
  . rw [hnamespace]
    rw [unitStem_empty]
    exact h
  . rw [unitStem_of_ne_empty hnamespace]
    simp

def Location.child (directory : Location) (name : String) : Location :=
  { directory with names := directory.names ++ [name] }

theorem Location.IsFileName.ofPath_join {name : String} (h : IsFileName name) (directory : String) :
    ofPath (Path.join directory name) = (ofPath directory).child name := by
  rw [Location.ofPath_join directory h.slash]
  exact h.step_eq _

namespace FileTree

variable {tree : FileTree} {found : Location}

theorem eq_foldl_of_locate {location : Location} {pieces : List String}
    (h : tree.locate location pieces = some found) : found = pieces.foldl Location.step location := by
  induction pieces generalizing location with
  | nil => exact (Option.some.inj h).symm
  | cons piece pieces ih =>
    unfold locate at h
    split at h
    . exact ih h
    . cases h

theorem eq_ofPath_of_locatePath {path : String} (h : tree.locatePath path = some found) :
    found = Location.ofPath path := by
  unfold locatePath at h
  split at h
  . cases h
  . exact eq_foldl_of_locate h

end FileTree

namespace Descriptor

variable {entity : Descriptor}

theorem fileName_eq (entity : Descriptor) :
    entity.fileName
      =
    "Generated_" ++ unitStem entity.namespaceName (EntityName.view entity.name) ++ ".cs" := by
  exact unitFileName_eq _ _

structure HasSafeNames (entity : Descriptor) : Prop where
  view : IsName (EntityName.view entity.name)
  collection : IsName (EntityName.collection entity.name)
  fileName : ∃ stem : String,
    entity.fileName = "Generated_" ++ stem ++ ".cs"
      ∧ stem ≠ ""
      ∧ ∀ c ∈ stem.toList, isIdentifierPart c ∨ c = '.'
  slash : '/' ∉ entity.fileName.toList
  backslash : '\\' ∉ entity.fileName.toList
  join : ∀ directory,
    Location.ofPath (Path.join directory entity.fileName)
      = (Location.ofPath directory).child entity.fileName
  locate : ∀ (tree : FileTree) directory outer found,
    tree.locatePath directory = some outer →
    tree.locatePath (Path.join directory entity.fileName) = some found →
      found = outer.child entity.fileName
  resolved : ∀ ecs schema, entity.resolve ecs = .ok schema →
    schema.viewName = EntityName.view entity.name
      ∧ schema.collectionName = EntityName.collection entity.name
      ∧ schema.fileName = entity.fileName

namespace IsValid

variable (h : entity.IsValid)
include h

theorem forall_mem_unitStem :
    ∀ c ∈ (unitStem entity.namespaceName (EntityName.view entity.name)).toList,
      isIdentifierPart c ∨ c = '.' := by
  have hview : ∀ c ∈ (EntityName.view entity.name).toList, isIdentifierPart c ∨ c = '.' := by
    intro c hc
    exact .inl (h.name.view.identifier.forall_mem c hc)
  have hunderscore : isIdentifierPart '_' := by decide
  by_cases hne : entity.namespaceName = ""
  . rw [hne]
    rw [unitStem_empty]
    exact hview
  . have hnamespace := isIdentifierPart_or_eq_dot (h.namespaceName.resolve_left hne)
    rw [unitStem_of_ne_empty hne]
    simp only [String.toList_append, List.forall_mem_append]
    exact ⟨⟨hnamespace, by simpa using hunderscore⟩, hview⟩

theorem forall_mem_fileName : ∀ c ∈ entity.fileName.toList, isIdentifierPart c ∨ c = '.' := by
  have hfixed {text : String} (htext : text.toList.all fun c => isIdentifierPart c || c = '.') :
      ∀ c ∈ text.toList, isIdentifierPart c ∨ c = '.' := by
    simpa using htext
  have hfront := @hfixed "Generated_" (by decide)
  have hend := @hfixed ".cs" (by decide)
  rw [fileName_eq]
  simp only [String.toList_append, List.forall_mem_append]
  exact ⟨⟨hfront, h.forall_mem_unitStem⟩, hend⟩

theorem names_of_resolve {ecs : Ecs} {schema : Schema} (hresolve : entity.resolve ecs = .ok schema) :
    schema.viewName = EntityName.view entity.name
      ∧ schema.collectionName = EntityName.collection entity.name
      ∧ schema.fileName = entity.fileName := by
  have ⟨access, _, hschema⟩ := exists_of_resolve_eq_ok hresolve
  rw [← hschema]
  simp [schemaWith, Schema.fileName, fileName, h.name.trim_eq]

theorem hasSafeNames : entity.HasSafeNames := by
  have hview := h.name.view
  have hfile := h.isFileName
  constructor
  case view => exact hview
  case collection => exact h.name.collection
  case fileName =>
    have hstem := unitStem_ne_empty entity.namespaceName hview.ne_empty
    exact ⟨_, entity.fileName_eq, hstem, h.forall_mem_unitStem⟩
  case slash => exact hfile.slash
  case backslash =>
    intro hmem
    have hpart := h.forall_mem_fileName _ hmem
    revert hpart
    decide
  case join => exact hfile.ofPath_join
  case locate =>
    intro tree directory outer found houter hfound
    rw [FileTree.eq_ofPath_of_locatePath hfound]
    rw [FileTree.eq_ofPath_of_locatePath houter]
    exact hfile.ofPath_join directory
  case resolved =>
    intro ecs schema hresolve
    exact h.names_of_resolve hresolve

end IsValid

end Descriptor

namespace Manifest

variable {manifest : Manifest}

theorem IsAccepted.exists_fileName_eq (h : manifest.IsAccepted) {unit : SourceUnit}
    (hunit : unit ∈ manifest.generate.units) :
    ∃ entity ∈ manifest.entities, unit.fileName = entity.fileName := by
  have hvalid := isAccepted_iff_isValid.mp h
  rw [generate_units] at hunit
  have ⟨made, hmade, hunit⟩ := List.mem_map.mp hunit
  have ⟨hmem, hattempt⟩ := Descriptor.mem_keptOf_settleAll hmade
  rw [← hunit]
  exact ⟨made.descriptor, hmem, ((hvalid.entities _ hmem).of_attempt_eq_ok hattempt).2.1⟩

theorem derivedNames_of_isAccepted (h : manifest.IsAccepted) :
    (∀ entity ∈ manifest.entities, entity.HasSafeNames)
      ∧ ∀ unit ∈ manifest.generate.units,
          ∃ entity ∈ manifest.entities, unit.fileName = entity.fileName := by
  have hvalid := isAccepted_iff_isValid.mp h
  constructor
  . intro entity hentity
    exact (hvalid.entities entity hentity).hasSafeNames
  . intro unit hunit
    exact h.exists_fileName_eq hunit

theorem derivedNames_of_isAccepted_entity_alone :
    let entity : Descriptor := { namespaceName := "Game.Units", name := "IEntity" }
    let manifest : Manifest := { entities := [entity] }
    manifest.IsAccepted
      ∧ entity.fileName = "Generated_Game.Units_EntityEntity.cs"
      ∧ IsName "EntityEntity"
      ∧ Location.ofPath "../out/Generated_Game.Units_EntityEntity.cs"
          = ⟨.above 1, ["out", "Generated_Game.Units_EntityEntity.cs"]⟩ := by
  intro entity manifest
  have haccepted : manifest.IsAccepted := ⟨"", by decide +kernel⟩
  have hview : EntityName.view entity.name = "EntityEntity" := by decide +kernel
  have hfile : entity.fileName = "Generated_Game.Units_EntityEntity.cs" := by decide +kernel
  have hsafe := (derivedNames_of_isAccepted haccepted).1 entity (List.mem_singleton_self entity)
  have hname := hsafe.view
  have hlocation := hsafe.join "../out"
  rw [hview] at hname
  rw [hfile] at hlocation
  refine ⟨haccepted, hfile, hname, ?_⟩
  exact hlocation

end Manifest

end EntityViews
