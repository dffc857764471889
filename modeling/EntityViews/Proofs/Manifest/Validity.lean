import EntityViews.Proofs.Manifest.Rule

/-!
This module contains the meaning of validation. A manifest is accepted if and only if it is valid, and
for any other manifest the error is that of the first rule that is violated.
-/

namespace EntityViews

open Rule

structure Field.IsValid (field : Field) : Prop where
  name : IsName field.name
  type : TypeName.check field.type = .ok ()

structure Descriptor.IsValid (entity : Descriptor) : Prop where
  name : IsName entity.name
  namespaceName :
    entity.namespaceName = "" ∨ ∀ part ∈ dottedParts entity.namespaceName, IsName (.ofList part)
  access : ∀ access ∈ entity.access,
    ∃ level : Access, Text.words access = Text.words level.keyword
  fields : ∀ field ∈ entity.fields, field.IsValid
  excluded : ∀ type ∈ entity.excluded, TypeName.check type = .ok ()

structure Settings.IsValid (settings : Settings) : Prop where
  runtime_ne_empty : settings.ecs.namespaceName ≠ ""
  runtime : ∀ part ∈ dottedParts settings.ecs.namespaceName, IsName (.ofList part)
  indentWidth_le : settings.indentWidth ≤ 16

structure Manifest.IsValid (manifest : Manifest) : Prop where
  settings : manifest.settings.IsValid
  entities : ∀ entity ∈ manifest.entities, entity.IsValid
  distinct : (manifest.entities.map fun entity => (entity.namespaceName, entity.name)).Nodup

namespace Place

/-!
What is reported for the single checks.
-/

theorem reported_checkName (place : Place) (name kind : String) :
    Reported [place.nameRule name kind] (place.checkName name kind) := by
  unfold checkName
  apply reported_singleton
  . intro h
    have ⟨hreserved, hidentifier⟩ := isName_iff.mp h
    rw [hreserved]
    rw [checkIdentifier_of_isIdentifier hidentifier]
    rfl
  . intro h
    simp only [nameRule, isName_iff] at *
    cases hreserved : isReserved name with
    | true =>
      have hmem : name ∈ reservedWords := by simpa [isReserved] using hreserved
      simp [hmem]
    | false =>
      have hmem : name ∉ reservedWords := by simpa [isReserved] using hreserved
      have hidentifier : ¬ IsIdentifier name.toList := fun hidentifier => h ⟨hreserved, hidentifier⟩
      rw [checkIdentifier_of_not_isIdentifier hidentifier]
      simp [hmem, Except.mapError]

theorem mapError_forM {α ε δ : Type} (f : ε → δ) (check : α → Except ε Unit) (elements : List α) :
    (elements.forM check).mapError f = elements.forM fun element => (check element).mapError f := by
  induction elements with
  | nil => rfl
  | cons element elements ih =>
    change (check element >>= fun _ => elements.forM check).mapError f
      = (check element).mapError f >>= fun _ => elements.forM fun element => (check element).mapError f
    rw [← ih]
    cases check element <;> rfl

theorem reported_checkNamespace (place : Place) (name kind : String) :
    Reported (place.namespaceRules name kind) (place.checkNamespace name kind) := by
  unfold namespaceRules checkNamespace EntityViews.checkNamespace
  by_cases hempty : name = ""
  . rw [if_pos hempty]
    rw [if_pos (by simp [hempty])]
    exact .nil
  . rw [if_neg hempty]
    rw [if_neg (by simpa using hempty)]
    rw [mapError_forM]
    apply reported_forM
    intro part _
    apply reported_singleton
    . intro h
      rw [checkNamespacePart_of_isName h]
      rfl
    . intro h
      rw [checkNamespacePart_of_not_isName h]
      rfl

theorem reported_checkType (place : Place) (type kind : String) :
    Reported [place.typeRule type kind] (place.checkType type kind) := by
  unfold checkType
  apply reported_singleton
  . intro h
    simp only [typeRule] at h
    rw [h]
    rfl
  . intro h
    simp only [typeRule, TypeName.fault] at *
    cases hcheck : TypeName.check type with
    | ok _ => contradiction
    | error fault => rfl

theorem checkSettings_eq_bind (place : Place) (settings : Settings) :
    place.checkSettings settings
      =
    (if settings.ecs.namespaceName.isEmpty then
      .error ((place.within "generator").runtimeRule settings).error
    else
      .ok ()) >>= fun _ =>
    (place.within "generator").checkNamespace settings.ecs.namespaceName "runtime namespace"
      >>= fun _ =>
    if 16 < settings.indentWidth then
      .error ((place.within "generator").indentRule settings).error
    else
      .ok () := by
  unfold checkSettings
  dsimp only
  cases settings.ecs.namespaceName.isEmpty with
  | true => rfl
  | false => rfl

theorem reported_checkSettings (place : Place) (settings : Settings) :
    Reported (place.settingsRules settings) (place.checkSettings settings) := by
  unfold settingsRules
  dsimp only
  rw [checkSettings_eq_bind]
  rw [List.append_assoc]
  apply Reported.bind
  . apply reported_ite
    simp [runtimeRule]
  . intro _
    apply (Place.reported_checkNamespace _ _ _).bind
    intro _
    apply reported_ite
    simp [indentRule]

-- names without dots can be found again in qualified names
theorem reported_checkNew (place : Place) {earlier : List Descriptor}
    (hearlier : ∀ other ∈ earlier, IsName other.name) {entity : Descriptor}
    (hname : IsName entity.name) :
    Reported [place.newRule earlier entity]
      (place.checkNew (earlier.map Descriptor.qualifiedName) entity) := by
  unfold checkNew
  apply reported_ite
  simp only [newRule, ne_eq, Classical.not_forall, Classical.not_not, List.mem_map,
    Prod.mk.injEq]
  apply exists_congr
  intro other
  constructor
  . rintro ⟨hother, heq⟩
    refine ⟨hother, ?_⟩
    rw [← qualify_inj (hearlier other hother).notMem_dot hname.notMem_dot]
    exact heq
  . rintro ⟨hother, hnamespace, heq⟩
    refine ⟨hother, ?_⟩
    unfold Descriptor.qualifiedName
    rw [hnamespace]
    rw [heq]

theorem reported_checkAccess (place : Place) (entity : Descriptor) :
    Reported (place.accessRules entity) (place.checkAccess entity) := by
  unfold accessRules checkAccess
  cases entity.access with
  | none => exact .nil
  | some access =>
    apply reported_singleton
    . intro h
      have hsome := Access.isSome_ofText?_iff.mpr h
      have ⟨level, hlevel⟩ := Option.isSome_iff_exists.mp hsome
      simp [hlevel]
    . intro h
      have hnone := mt Access.isSome_ofText?_iff.mp h
      rw [Option.not_isSome_iff_eq_none] at hnone
      simp [hnone]

theorem reported_checkField (place : Place) (field : Field) :
    Reported (place.fieldRules field) (place.checkField field) := by
  apply (place.reported_checkName field.name "field").bind
  intro _
  exact place.reported_checkType field.type "field type"

theorem reported_checkEntity (place : Place) {earlier : List Descriptor}
    (hearlier : ∀ other ∈ earlier, IsName other.name) (entity : Descriptor) :
    Reported (place.entityRules earlier entity)
      (place.checkEntity (earlier.map Descriptor.qualifiedName) entity) := by
  unfold entityRules checkEntity
  simp only [List.append_assoc]
  apply (place.reported_checkName entity.name "entity").bind
  intro hname
  apply (place.reported_checkNamespace entity.namespaceName "namespace").bind
  intro _
  apply (place.reported_checkNew hearlier (hname (place.nameRule entity.name "entity") (by simp))).bind
  intro _
  apply (Place.reported_checkAccess _ entity).bind
  intro _
  apply Reported.bind
  . apply reported_forM
    intro field _
    exact Place.reported_checkField _ field
  . intro _
    apply reported_forM
    intro type _
    exact Place.reported_checkType _ type "exclude list"

theorem reported_checkEntities (place : Place) {earlier : List Descriptor}
    (hearlier : ∀ other ∈ earlier, IsName other.name) (entities : List Descriptor) :
    Reported (place.entitiesRules earlier entities)
      (place.checkEntities (earlier.map Descriptor.qualifiedName) entities) := by
  induction entities generalizing earlier with
  | nil => exact .nil
  | cons entity entities ih =>
    unfold entitiesRules checkEntities
    apply (place.reported_checkEntity hearlier entity).bind
    intro hrules
    apply ih
    rw [List.forall_mem_cons]
    refine ⟨?_, hearlier⟩
    -- the entities after this one are only reached if its name is one
    exact hrules (place.nameRule entity.name "entity") (by simp [entityRules])

end Place

theorem Manifest.reported_validate (document : String) (manifest : Manifest) :
    Reported (manifest.rules document) (manifest.validate document) := by
  unfold rules validate
  dsimp only
  apply (Place.reported_checkSettings _ _).bind
  intro _
  exact Place.reported_checkEntities _ (by simp) manifest.entities

namespace Place

/-!
What it means that all rules are kept.
-/

theorem forall_namespaceRules_holds (place : Place) (name kind : String) :
    (∀ rule ∈ place.namespaceRules name kind, rule.holds)
      ↔
    name = "" ∨ ∀ part ∈ dottedParts name, IsName (.ofList part) := by
  unfold namespaceRules
  by_cases hempty : name = ""
  . simp [hempty]
  . rw [if_neg hempty]
    simp only [List.forall_mem_flatMap, List.forall_mem_singleton, hempty, false_or]

theorem forall_settingsRules_holds (place : Place) (settings : Settings) :
    (∀ rule ∈ place.settingsRules settings, rule.holds) ↔ settings.IsValid := by
  unfold settingsRules
  simp only [List.forall_mem_append, List.forall_mem_singleton, forall_namespaceRules_holds]
  constructor
  . rintro ⟨⟨hne, hruntime⟩, hindent⟩
    exact ⟨hne, hruntime.resolve_left hne, hindent⟩
  . intro h
    exact ⟨⟨h.runtime_ne_empty, .inr h.runtime⟩, h.indentWidth_le⟩

theorem forall_fieldRules_holds (place : Place) (field : Field) :
    (∀ rule ∈ place.fieldRules field, rule.holds) ↔ field.IsValid := by
  simp only [fieldRules, List.forall_mem_cons, List.not_mem_nil, false_implies, implies_true,
    and_true]
  constructor
  . intro h
    exact ⟨h.1, h.2⟩
  . intro h
    exact ⟨h.name, h.type⟩

theorem forall_entityRules_holds (place : Place) (earlier : List Descriptor)
    (entity : Descriptor) :
    (∀ rule ∈ place.entityRules earlier entity, rule.holds)
      ↔
    entity.IsValid ∧ (place.newRule earlier entity).holds := by
  unfold entityRules accessRules
  simp only [List.forall_mem_append, List.forall_mem_singleton, List.forall_mem_flatMap,
    List.forall_mem_map, forall_namespaceRules_holds, forall_fieldRules_holds,
    Option.mem_toList]
  constructor
  . rintro ⟨⟨⟨⟨⟨hname, hnamespace⟩, hnew⟩, haccess⟩, hfields⟩, hexcluded⟩
    exact ⟨⟨hname, hnamespace, haccess, hfields, hexcluded⟩, hnew⟩
  . rintro ⟨h, hnew⟩
    exact ⟨⟨⟨⟨⟨h.name, h.namespaceName⟩, hnew⟩, h.access⟩, h.fields⟩, h.excluded⟩

theorem forall_entitiesRules_holds (place : Place) (earlier entities : List Descriptor) :
    (∀ rule ∈ place.entitiesRules earlier entities, rule.holds)
      ↔
    (∀ entity ∈ entities, entity.IsValid)
      ∧ entities.Pairwise (fun first second =>
          (first.namespaceName, first.name) ≠ (second.namespaceName, second.name))
      ∧ ∀ entity ∈ entities, (place.newRule earlier entity).holds := by
  induction entities generalizing earlier with
  | nil => simp [entitiesRules]
  | cons entity entities ih =>
    unfold entitiesRules
    rw [List.forall_mem_append]
    rw [forall_entityRules_holds]
    rw [ih]
    simp only [List.pairwise_cons, newRule, List.mem_cons]
    grind

end Place

namespace Manifest

theorem forall_rules_holds (document : String) (manifest : Manifest) :
    (∀ rule ∈ manifest.rules document, rule.holds) ↔ manifest.IsValid := by
  unfold rules
  dsimp only
  rw [List.forall_mem_append]
  rw [Place.forall_settingsRules_holds]
  rw [Place.forall_entitiesRules_holds]
  constructor
  . rintro ⟨hsettings, hentities, hdistinct, _⟩
    refine ⟨hsettings, hentities, ?_⟩
    rw [List.Nodup, List.pairwise_map]
    exact hdistinct
  . intro h
    have hdistinct := h.distinct
    rw [List.Nodup, List.pairwise_map] at hdistinct
    refine ⟨h.settings, h.entities, hdistinct, ?_⟩
    simp [Place.newRule]

theorem validate_eq_ok_iff {document : String} {manifest : Manifest} :
    manifest.validate document = .ok () ↔ manifest.IsValid := by
  have hreported := manifest.reported_validate document
  rw [← forall_rules_holds document]
  rw [← reported_ok_iff]
  constructor
  . intro h
    rw [h] at hreported
    exact hreported
  . intro h
    exact hreported.eq h

theorem validate_reports_first_violated (document : String) (manifest : Manifest) :
    (manifest.validate document = .ok () ↔ manifest.IsValid)
      ∧ ∀ error,
          manifest.validate document = .error error
            ↔
          ∃ before rule after, manifest.rules document = before ++ rule :: after
            ∧ (∀ earlier ∈ before, earlier.holds) ∧ ¬ rule.holds ∧ rule.error = error := by
  refine ⟨validate_eq_ok_iff, ?_⟩
  intro error
  have hreported := manifest.reported_validate document
  rw [← reported_error_iff]
  constructor
  . intro h
    rw [h] at hreported
    exact hreported
  . intro h
    exact hreported.eq h

end Manifest

end EntityViews
