import Mathlib.Data.Finset.Card
import Mathlib.Data.List.Infix
import EntityViews.Entity.Lint

/-!
This module contains the meaning of the lints. Each of them is about places in a list, and whether it
applies to a place can be told from the element there and the ones in front of it. None of the lints is
an error, so they never keep an entity from having a unit.
-/

namespace EntityViews

/--
The elements of a list that pass a test on the ones in front of them and themselves, in order.
-/
def filterBehind {α : Type} (test : List α → α → Bool) (list : List α) : List α :=
  ((list.inits.zip list).filter fun (earlier, element) => test earlier element).map (·.2)

section FilterBehind

variable {α : Type}

theorem filterBehind_cons (test : List α → α → Bool) (first : α) (list : List α) :
    filterBehind test (first :: list)
      =
    if test [] first then
      first :: filterBehind (fun earlier => test (first :: earlier)) list
    else
      filterBehind (fun earlier => test (first :: earlier)) list := by
  unfold filterBehind
  rw [List.inits_cons, List.zip_cons_cons, List.zip_map_left, List.filter_cons]
  cases hfirst : test [] first with
  | true => simp [hfirst, List.filter_map, Function.comp_def]
  | false => simp [hfirst, List.filter_map, Function.comp_def]

theorem filterBehind_map {β : Type} (test : List β → β → Bool) (f : α → β) (list : List α) :
    filterBehind test (list.map f)
      =
    (filterBehind (fun earlier element => test (earlier.map f) (f element)) list).map f := by
  induction list generalizing test with
  | nil => rfl
  | cons first list ih =>
    rw [List.map_cons, filterBehind_cons, filterBehind_cons, ih]
    simp only [List.map_nil, List.map_cons]
    split <;> rfl

theorem filter_filterBehind (test : List α → α → Bool) (p : α → Bool) (list : List α) :
    (filterBehind test list).filter p
      =
    filterBehind (fun earlier element => p element && test earlier element) list := by
  unfold filterBehind
  rw [List.filter_map, List.filter_filter]
  rfl

end FilterBehind

theorem repeated_eq_filterBehind (seen types : List String) :
    repeated seen types
      =
    filterBehind (fun earlier type => decide (type ∈ seen ∨ type ∈ earlier)) types := by
  induction types generalizing seen with
  | nil => rfl
  | cons first types ih =>
    rw [repeated, filterBehind_cons]
    by_cases hfirst : first ∈ seen
    . rw [if_pos hfirst, if_pos (by simp [hfirst]), ih]
      congr 2
      funext earlier type
      -- what was seen already makes no difference once more
      have habsorb : type = first → type ∈ seen := fun h => h ▸ hfirst
      grind
    . rw [if_neg hfirst, if_neg (by simp [hfirst]), ih]
      congr 1
      funext earlier type
      grind

theorem distinct_eq_filterBehind (seen types : List String) :
    distinct seen types
      =
    filterBehind (fun earlier type => decide (type ∉ seen ∧ type ∉ earlier)) types := by
  induction types generalizing seen with
  | nil => rfl
  | cons first types ih =>
    rw [distinct, filterBehind_cons]
    by_cases hfirst : first ∈ seen
    . rw [if_pos hfirst, if_neg (by simp [hfirst]), ih]
      congr 1
      funext earlier type
      grind
    . rw [if_neg hfirst, if_pos (by simp [hfirst]), ih]
      congr 2
      funext earlier type
      grind

theorem length_repeated_add_length_distinct (seen types : List String) :
    (repeated seen types).length + (distinct seen types).length = types.length := by
  induction types generalizing seen with
  | nil => rfl
  | cons first types ih =>
    unfold repeated distinct
    split
    . rw [List.length_cons, List.length_cons, ← ih seen]
      omega
    . rw [List.length_cons, List.length_cons, ← ih (first :: seen)]
      omega

theorem mem_distinct_iff {seen types : List String} {type : String} :
    type ∈ distinct seen types ↔ type ∈ types ∧ type ∉ seen := by
  induction types generalizing seen with
  | nil => simp [distinct]
  | cons first types ih =>
    unfold distinct
    split
    . grind
    . grind

theorem nodup_distinct (seen types : List String) : (distinct seen types).Nodup := by
  induction types generalizing seen with
  | nil => exact List.nodup_nil
  | cons first types ih =>
    unfold distinct
    split
    . exact ih seen
    . rw [List.nodup_cons]
      refine ⟨?_, ih (first :: seen)⟩
      rw [mem_distinct_iff]
      simp

theorem length_repeated_add_card (types : List String) :
    (repeated [] types).length + types.toFinset.card = types.length := by
  have hset : (distinct [] types).toFinset = types.toFinset := by
    ext type
    simp [mem_distinct_iff]
  rw [← length_repeated_add_length_distinct [] types]
  rw [← hset]
  rw [List.toFinset_card_of_nodup (nodup_distinct [] types)]

theorem repeated_eq_nil_iff {types : List String} : repeated [] types = [] ↔ types.Nodup := by
  have hcard := length_repeated_add_card types
  constructor
  . intro h
    rw [← Multiset.coe_nodup, ← Multiset.toFinset_card_eq_card_iff_nodup]
    simpa [h] using hcard
  . intro h
    rw [List.toFinset_card_of_nodup h] at hcard
    exact List.eq_nil_of_length_eq_zero (by omega)

theorem distinct_filter_eq_nil_iff {types others : List String} :
    (distinct [] types).filter (· ∈ others) = [] ↔ types.Disjoint others := by
  simp [List.filter_eq_nil_iff, mem_distinct_iff, List.Disjoint]

namespace Schema

/-!
What the single lints are about.
-/

def repeatedComponents (schema : Schema) : List Component :=
  filterBehind (fun earlier component => component.type ∈ earlier.map (·.type)) schema.components

def repeatedExclusions (schema : Schema) : List String :=
  filterBehind (fun earlier type => type ∈ earlier) schema.excluded

def excludedComponents (schema : Schema) : List Component :=
  filterBehind (fun earlier component =>
    component.type ∈ schema.excluded && component.type ∉ earlier.map (·.type)) schema.components

def mismatchedComponents (schema : Schema) : List Component :=
  schema.components.filter fun component => component.isByRef ≠ decide (component.kind = .value)

variable {schema : Schema}

theorem repeated_componentTypes (schema : Schema) :
    repeated [] schema.componentTypes = schema.repeatedComponents.map (·.type) := by
  rw [repeated_eq_filterBehind, componentTypes, filterBehind_map, repeatedComponents]
  simp

theorem repeated_excluded (schema : Schema) :
    repeated [] schema.excluded = schema.repeatedExclusions := by
  rw [repeated_eq_filterBehind, repeatedExclusions]
  simp

theorem filter_distinct_componentTypes (schema : Schema) :
    (distinct [] schema.componentTypes).filter (· ∈ schema.excluded)
      =
    schema.excludedComponents.map (·.type) := by
  rw [distinct_eq_filterBehind, filter_filterBehind, componentTypes, filterBehind_map,
    excludedComponents]
  simp

theorem isEmpty_iff : schema.isEmpty ↔ schema.backReference = none ∧ schema.components = [] := by
  simp [isEmpty]

theorem emptyEntity_eq (schema : Schema) :
    lint.emptyEntity schema
      =
    if schema.backReference = none ∧ schema.components = [] then
      [⟨.warning, schema.qualifiedName, "empty-entity",
        "entity declares neither a back-reference nor any component"⟩]
    else
      [] := by
  unfold lint.emptyEntity
  simp only [isEmpty_iff]
  rfl

theorem filter_isMismatched (schema : Schema) :
    schema.components.filter (·.isMismatched) = schema.mismatchedComponents := by
  apply List.filter_congr
  intro component _
  rw [Bool.eq_iff_iff]
  simp [Component.isMismatched]

theorem severity_of_mem_lint {diagnostic : Diagnostic} (h : diagnostic ∈ schema.lint) :
    diagnostic.severity ≠ .error ∧ diagnostic.code ≠ "generation-failed" := by
  unfold lint at h
  simp only [List.mem_append, List.mem_map] at h
  rcases h with (((hempty | ⟨_, _, rfl⟩) | ⟨_, _, rfl⟩) | ⟨_, _, rfl⟩) | ⟨_, _, rfl⟩
  . unfold lint.emptyEntity at hempty
    split at hempty
    . rw [List.mem_singleton.mp hempty]
      simp [lint.warning]
    . cases hempty
  . simp [lint.warning]
  . simp [lint.warning]
  . simp [lint.warning]
  . simp

theorem lint_eq_nil_iff :
    schema.lint = []
      ↔
    (schema.backReference ≠ none ∨ schema.components ≠ [])
      ∧ schema.componentTypes.Nodup
      ∧ schema.excluded.Nodup
      ∧ schema.componentTypes.Disjoint schema.excluded
      ∧ ∀ component ∈ schema.components, component.isByRef = decide (component.kind = .value) := by
  have hempty : lint.emptyEntity schema = []
      ↔ (schema.backReference ≠ none ∨ schema.components ≠ []) := by
    rw [emptyEntity_eq]
    split
    . next h => simp [h]
    . next h =>
      rw [Classical.not_and_iff_not_or_not] at h
      simp only [true_iff]
      exact h
  have hmismatched : schema.components.filter (·.isMismatched) = []
      ↔ ∀ component ∈ schema.components, component.isByRef = decide (component.kind = .value) := by
    simp [Component.isMismatched]
  unfold lint
  simp only [List.append_eq_nil_iff, List.map_eq_nil_iff, and_assoc, hempty, hmismatched,
    repeated_eq_nil_iff, distinct_filter_eq_nil_iff]

theorem lint_reports_places (schema : Schema) :
    schema.lint
        =
      (if schema.backReference = none ∧ schema.components = [] then
          [⟨.warning, schema.qualifiedName, "empty-entity",
            "entity declares neither a back-reference nor any component"⟩]
        else
          [])
        ++ schema.repeatedComponents.map (fun component =>
            ⟨.warning, schema.qualifiedName, "duplicate-component",
              s!"component type '{component.type}' is declared more than once"⟩)
        ++ schema.repeatedExclusions.map (fun type =>
            ⟨.warning, schema.qualifiedName, "duplicate-exclusion",
              s!"type '{type}' is excluded more than once"⟩)
        ++ schema.excludedComponents.map (fun component =>
            ⟨.warning, schema.qualifiedName, "excluded-component",
              s!"type '{component.type}' is both a component and excluded, so no entity can match"⟩)
        ++ schema.mismatchedComponents.map (fun component =>
            ⟨.info, schema.qualifiedName, "by-ref-mismatch", component.mismatchMessage⟩)
      ∧ schema.lint.countP (·.code = "duplicate-component") + schema.componentTypes.toFinset.card
          = schema.components.length
      ∧ schema.lint.countP (·.severity = .error) = 0
      ∧ (schema.lint = []
          ↔
        (schema.backReference ≠ none ∨ schema.components ≠ [])
          ∧ schema.componentTypes.Nodup
          ∧ schema.excluded.Nodup
          ∧ schema.componentTypes.Disjoint schema.excluded
          ∧ ∀ component ∈ schema.components,
              component.isByRef = decide (component.kind = .value)) := by
  refine ⟨?_, ?_, ?_, lint_eq_nil_iff⟩
  . unfold lint
    rw [emptyEntity_eq, repeated_componentTypes, repeated_excluded, filter_distinct_componentTypes,
      filter_isMismatched, List.map_map, List.map_map]
    rfl
  . have hcard := length_repeated_add_card schema.componentTypes
    have hempty : (lint.emptyEntity schema).countP (·.code = "duplicate-component") = 0 := by
      unfold lint.emptyEntity
      split <;> rfl
    unfold lint
    simp only [List.countP_append, List.countP_map, hempty, Function.comp_def, lint.warning]
    simpa [componentTypes] using hcard
  . rw [List.countP_eq_zero]
    intro diagnostic hmem
    simpa using (severity_of_mem_lint hmem).1

-- a type that is repeated and excluded counts for both, and is only reported once as excluded
example :
    let component (type : String) : Component := ⟨type, .reference, "", "", false⟩
    let schema : Schema := {
      declaredName := "", viewName := "", collectionName := ""
      components := ["A", "B", "A", "A"].map component
      excluded := ["B", "A", "B"]
    }
    schema.repeatedComponents.map (·.type) = ["A", "A"]
      ∧ schema.repeatedExclusions = ["B"]
      ∧ schema.excludedComponents.map (·.type) = ["A", "B"] := by
  decide

end Schema

end EntityViews
