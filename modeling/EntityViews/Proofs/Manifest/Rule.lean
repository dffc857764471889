import EntityViews.Manifest.Validate
import EntityViews.Proofs.Decl.Name

/-!
This module contains the rules on manifests, in the order in which they are checked. Validation
accepts a manifest if it keeps all rules, and otherwise reports the first rule that is violated.
-/

namespace EntityViews

structure Rule where
  holds : Prop
  error : ManifestError

namespace Rule

inductive Reported : List Rule → Except ManifestError Unit → Prop where
  | nil : Reported [] (.ok ())
  | violated {rule : Rule} {rules : List Rule} (h : ¬ rule.holds) :
      Reported (rule :: rules) (.error rule.error)
  | kept {rule : Rule} {rules : List Rule} {result : Except ManifestError Unit} (h : rule.holds)
      (hrest : Reported rules result) : Reported (rule :: rules) result

theorem Reported.eq {rules : List Rule} {first second : Except ManifestError Unit}
    (hfirst : Reported rules first) (hsecond : Reported rules second) : first = second := by
  induction hfirst with
  | nil =>
    cases hsecond
    rfl
  | violated h =>
    cases hsecond with
    | violated => rfl
    | kept hholds => contradiction
  | kept h hrest ih =>
    cases hsecond with
    | violated hviolated => contradiction
    | kept _ hrest => exact ih hrest

theorem reported_ok_iff {rules : List Rule} :
    Reported rules (.ok ()) ↔ ∀ rule ∈ rules, rule.holds := by
  induction rules with
  | nil => simpa using Reported.nil
  | cons rule rules ih =>
    rw [List.forall_mem_cons]
    rw [← ih]
    constructor
    . intro h
      cases h with
      | kept hholds hrest => exact ⟨hholds, hrest⟩
    . intro h
      exact .kept h.1 h.2

theorem reported_error_iff {rules : List Rule} {error : ManifestError} :
    Reported rules (.error error)
      ↔
    ∃ before rule after, rules = before ++ rule :: after
      ∧ (∀ earlier ∈ before, earlier.holds) ∧ ¬ rule.holds ∧ rule.error = error := by
  constructor
  . intro h
    induction rules with
    | nil => cases h
    | cons rule rules ih =>
      cases h with
      | violated hviolated => exact ⟨[], rule, rules, rfl, by simp, hviolated, rfl⟩
      | kept hholds hrest =>
        have ⟨before, found, after, hsplit, hbefore, hfound⟩ := ih hrest
        refine ⟨rule :: before, found, after, ?_, ?_, hfound⟩
        . rw [hsplit]
          rfl
        . rw [List.forall_mem_cons]
          exact ⟨hholds, hbefore⟩
  . rintro ⟨before, rule, after, rfl, hbefore, hviolated, rfl⟩
    induction before with
    | nil => exact .violated hviolated
    | cons first before ih =>
      rw [List.forall_mem_cons] at hbefore
      exact .kept hbefore.1 (ih hbefore.2)

theorem Reported.bind {first second : List Rule} {result next : Except ManifestError Unit}
    (hfirst : Reported first result)
    (hsecond : (∀ rule ∈ first, rule.holds) → Reported second next) :
    Reported (first ++ second) (result >>= fun _ => next) := by
  induction hfirst with
  | nil => exact hsecond (by simp)
  | violated h => exact .violated h
  | kept h hrest ih =>
    apply Reported.kept h
    apply ih
    intro hrules
    apply hsecond
    rw [List.forall_mem_cons]
    exact ⟨h, hrules⟩

theorem reported_singleton {rule : Rule} {result : Except ManifestError Unit}
    (hkept : rule.holds → result = .ok ()) (hviolated : ¬ rule.holds → result = .error rule.error) :
    Reported [rule] result := by
  by_cases h : rule.holds
  . rw [hkept h]
    exact .kept h .nil
  . rw [hviolated h]
    exact .violated h

theorem reported_ite {rule : Rule} {violated : Prop} [Decidable violated]
    (h : violated ↔ ¬ rule.holds) :
    Reported [rule] (if violated then .error rule.error else .ok ()) := by
  apply reported_singleton
  . intro hholds
    rw [if_neg]
    intro hviolated
    exact h.mp hviolated hholds
  . intro hviolated
    rw [if_pos (h.mpr hviolated)]

theorem reported_forM {α : Type} {elements : List α} {rules : α → List Rule}
    {check : α → Except ManifestError Unit}
    (h : ∀ element ∈ elements, Reported (rules element) (check element)) :
    Reported (elements.flatMap rules) (elements.forM check) := by
  induction elements with
  | nil => exact .nil
  | cons element elements ih =>
    rw [List.forall_mem_cons] at h
    rw [List.flatMap_cons]
    apply h.1.bind
    intro _
    exact ih h.2

end Rule

def TypeName.fault (type : String) : TypeFault :=
  match TypeName.check type with
  | .error fault => fault
  | .ok () => .notDotted

namespace Place

/-!
The rules on single declarations. Each of them is checked at the place of the declaration.
-/

def nameRule (place : Place) (name kind : String) : Rule where
  holds := IsName name
  error :=
    if name ∈ reservedWords then
      .reservedWord name (place.describe kind) (place.span? name)
    else
      place.invalidName name kind (.ofIdentifier name.toList)

def namespaceRules (place : Place) (name kind : String) : List Rule :=
  if name = "" then
    []
  else
    (dottedParts name).flatMap fun part => [{
      holds := IsName (String.ofList part)
      error := place.invalidName name kind (.ofSegment part)
    }]

def typeRule (place : Place) (type kind : String) : Rule where
  holds := TypeName.check type = .ok ()
  error := .invalidType type (place.describe kind) (TypeName.fault type) (place.span? type)

def runtimeRule (place : Place) (settings : Settings) : Rule where
  holds := settings.ecs.namespaceName ≠ ""
  error := place.invalid "runtime namespace cannot be empty" none

def indentRule (place : Place) (settings : Settings) : Rule where
  holds := settings.indentWidth ≤ 16
  error := place.invalid s!"indent must be between 0 and 16, got {settings.indentWidth}" none

def settingsRules (place : Place) (settings : Settings) : List Rule :=
  let place := place.within "generator"
  [place.runtimeRule settings]
    ++ place.namespaceRules settings.ecs.namespaceName "runtime namespace"
    ++ [place.indentRule settings]

def newRule (place : Place) (earlier : List Descriptor) (entity : Descriptor) : Rule where
  holds := ∀ other ∈ earlier,
    (other.namespaceName, other.name) ≠ (entity.namespaceName, entity.name)
  error := .duplicateEntity entity.qualifiedName (valueSpan? place.document entity.name 0)
    (valueSpan? place.document entity.name 1)

def accessRules (place : Place) (entity : Descriptor) : List Rule :=
  entity.access.toList.map fun access => {
    holds := ∃ level : Access, Text.words access = Text.words level.keyword
    error := .unknownAccess entity.qualifiedName access (place.span? access)
  }

def fieldRules (place : Place) (field : Field) : List Rule :=
  [place.nameRule field.name "field", place.typeRule field.type "field type"]

def entityRules (place : Place) (earlier : List Descriptor) (entity : Descriptor) : List Rule :=
  let inner := place.within entity.name
  [place.nameRule entity.name "entity"]
    ++ place.namespaceRules entity.namespaceName "namespace"
    ++ [place.newRule earlier entity]
    ++ inner.accessRules entity
    ++ entity.fields.flatMap inner.fieldRules
    ++ entity.excluded.flatMap fun type => [inner.typeRule type "exclude list"]

def entitiesRules (place : Place) (earlier : List Descriptor) : List Descriptor → List Rule
  | [] => []
  | entity :: entities =>
    place.entityRules earlier entity ++ place.entitiesRules (entity :: earlier) entities

end Place

def Manifest.rules (document : String) (manifest : Manifest) : List Rule :=
  let place : Place := { document }
  place.settingsRules manifest.settings ++ place.entitiesRules [] manifest.entities

end EntityViews
