import EntityViews.Proofs.Manifest.Validity
import EntityViews.Proofs.Text.Span

/-!
This module contains the labels of errors about manifests. Whatever is labelled in a document is the
text that the error blames, which is declared in the manifest and breaks one of the rules.
-/

namespace EntityViews

open Rule String

def Descriptor.names (entity : Descriptor) : List String :=
  entity.name :: entity.fields.map (·.name)

def Descriptor.types (entity : Descriptor) : List String :=
  entity.fields.map (·.type) ++ entity.excluded

def Manifest.namespaces (manifest : Manifest) : List String :=
  manifest.settings.ecs.namespaceName :: manifest.entities.map (·.namespaceName)

inductive Manifest.Blames (manifest : Manifest) : ManifestError → String → Prop where
  | reservedWord {entity : Descriptor} {name context : String} {span : Option Span}
      (hentity : entity ∈ manifest.entities) (hname : name ∈ entity.names)
      (hreserved : name ∈ reservedWords) :
      Blames manifest (.reservedWord name context span) name
  | invalidName {entity : Descriptor} {name context : String} {fault : NameFault}
      {span : Option Span} (hentity : entity ∈ manifest.entities) (hname : name ∈ entity.names)
      (hidentifier : ¬ IsIdentifier name.toList) :
      Blames manifest (.invalidName name context fault span) name
  | invalidNamespace {name context : String} {fault : NameFault} {span : Option Span}
      {part : List Char} (hname : name ∈ manifest.namespaces) (hpart : part ∈ dottedParts name)
      (hinvalid : ¬ IsName (.ofList part)) :
      Blames manifest (.invalidName name context fault span) name
  | invalidType {entity : Descriptor} {type context : String} {fault : TypeFault}
      {span : Option Span} (hentity : entity ∈ manifest.entities) (htype : type ∈ entity.types)
      (hfault : TypeName.check type = .error fault) :
      Blames manifest (.invalidType type context fault span) type
  | unknownAccess {entity : Descriptor} {access : String} {span : Option Span}
      (hentity : entity ∈ manifest.entities) (haccess : entity.access = some access)
      (hunknown : ∀ level : Access, Text.words access ≠ Text.words level.keyword) :
      Blames manifest (.unknownAccess entity.qualifiedName access span) access
  | duplicateEntity {before after : List Descriptor} {entity other : Descriptor}
      {first second : Option Span} (hentities : manifest.entities = before ++ entity :: after)
      (hother : other ∈ before) (hnamespace : other.namespaceName = entity.namespaceName)
      (hname : other.name = entity.name) :
      Blames manifest (.duplicateEntity entity.qualifiedName first second) entity.name

def Manifest.Labels (manifest : Manifest) (document : String) (error : ManifestError) : Prop :=
  ∀ label ∈ error.labels, ∃ text, manifest.Blames error text ∧ label.2.CutsOut document text

namespace Place

variable {place : Place} {manifest : Manifest} {entity : Descriptor}

theorem cutsOut_of_mem_toList {document text message : String} {n : Nat} {label : String × Span}
    (h : label ∈ (valueSpan? document text n).toList.map fun span => (message, span)) :
    label.2.CutsOut document text := by
  obtain ⟨span, hspan, rfl⟩ := List.mem_map.mp h
  exact valueSpan?_cutsOut (Option.mem_toList.mp hspan)

theorem labels_nameRule (hentity : entity ∈ manifest.entities) {name : String}
    (hname : name ∈ entity.names) (kind : String) (h : ¬ (place.nameRule name kind).holds) :
    manifest.Labels place.document (place.nameRule name kind).error := by
  have hinvalid : ¬ IsName name := h
  by_cases hreserved : name ∈ reservedWords
  . simp only [nameRule, if_pos hreserved]
    intro label hlabel
    exact ⟨name, .reservedWord hentity hname hreserved, cutsOut_of_mem_toList hlabel⟩
  . simp only [nameRule, if_neg hreserved]
    intro label hlabel
    have hidentifier : ¬ IsIdentifier name.toList := fun hidentifier =>
      hinvalid ⟨hidentifier, hreserved⟩
    exact ⟨name, .invalidName hentity hname hidentifier, cutsOut_of_mem_toList hlabel⟩

theorem labels_namespaceRules {name : String} (hname : name ∈ manifest.namespaces) (kind : String) :
    ∀ rule ∈ place.namespaceRules name kind, ¬ rule.holds →
      manifest.Labels place.document rule.error := by
  unfold namespaceRules
  split
  . simp
  . simp only [List.forall_mem_flatMap, List.forall_mem_singleton]
    intro part hpart hinvalid label hlabel
    exact ⟨name, .invalidNamespace hname hpart hinvalid, cutsOut_of_mem_toList hlabel⟩

theorem labels_typeRule (hentity : entity ∈ manifest.entities) {type : String}
    (htype : type ∈ entity.types) (kind : String) (h : ¬ (place.typeRule type kind).holds) :
    manifest.Labels place.document (place.typeRule type kind).error := by
  have hfault : TypeName.check type = .error (TypeName.fault type) := by
    unfold TypeName.fault
    cases hcheck : TypeName.check type with
    | error fault => rfl
    | ok _ => exact absurd hcheck h
  intro label hlabel
  exact ⟨type, .invalidType hentity htype hfault, cutsOut_of_mem_toList hlabel⟩

theorem labels_accessRules (hentity : entity ∈ manifest.entities) :
    ∀ rule ∈ place.accessRules entity, ¬ rule.holds →
      manifest.Labels place.document rule.error := by
  unfold accessRules
  rw [List.forall_mem_map]
  intro access haccess hunknown label hlabel
  rw [Option.mem_toList] at haccess
  simp only [not_exists] at hunknown
  exact ⟨access, .unknownAccess hentity haccess hunknown, cutsOut_of_mem_toList hlabel⟩

theorem labels_newRule {before after earlier : List Descriptor}
    (hentities : manifest.entities = before ++ entity :: after)
    (hearlier : ∀ other ∈ earlier, other ∈ before) (h : ¬ (place.newRule earlier entity).holds) :
    manifest.Labels place.document (place.newRule earlier entity).error := by
  simp only [newRule, ne_eq, Prod.mk.injEq, not_forall, Classical.not_not] at h
  obtain ⟨other, hother, hnamespace, hname⟩ := h
  intro label hlabel
  refine ⟨entity.name, .duplicateEntity hentities (hearlier other hother) hnamespace hname, ?_⟩
  rcases List.mem_append.mp hlabel with hfirst | hsecond
  . exact cutsOut_of_mem_toList hfirst
  . exact cutsOut_of_mem_toList hsecond

theorem labels_fieldRules (hentity : entity ∈ manifest.entities) {field : Field}
    (hfield : field ∈ entity.fields) :
    ∀ rule ∈ place.fieldRules field, ¬ rule.holds → manifest.Labels place.document rule.error := by
  simp only [fieldRules, List.forall_mem_cons, List.not_mem_nil, false_implies, implies_true,
    and_true]
  constructor
  . apply labels_nameRule hentity
    exact List.mem_cons_of_mem _ (List.mem_map_of_mem hfield)
  . apply labels_typeRule hentity
    exact List.mem_append_left _ (List.mem_map_of_mem hfield)

theorem labels_entityRules {before after earlier : List Descriptor}
    (hentities : manifest.entities = before ++ entity :: after)
    (hearlier : ∀ other ∈ earlier, other ∈ before) :
    ∀ rule ∈ place.entityRules earlier entity, ¬ rule.holds →
      manifest.Labels place.document rule.error := by
  have hentity : entity ∈ manifest.entities := by
    rw [hentities]
    exact List.mem_append_right _ List.mem_cons_self
  have hnamespace : entity.namespaceName ∈ manifest.namespaces :=
    List.mem_cons_of_mem _ (List.mem_map_of_mem hentity)
  unfold entityRules
  simp only [List.forall_mem_append, List.forall_mem_singleton, List.forall_mem_flatMap]
  refine ⟨⟨⟨⟨⟨?_, ?_⟩, ?_⟩, ?_⟩, ?_⟩, ?_⟩
  . exact labels_nameRule hentity List.mem_cons_self "entity"
  . exact labels_namespaceRules hnamespace "namespace"
  . exact labels_newRule hentities hearlier
  . exact @labels_accessRules (place.within entity.name) manifest entity hentity
  . intro field hfield
    exact @labels_fieldRules (place.within entity.name) manifest entity hentity field hfield
  . intro type htype
    apply @labels_typeRule (place.within entity.name) manifest entity hentity
    exact List.mem_append_right _ htype

theorem labels_entitiesRules {before earlier entities : List Descriptor}
    (hentities : manifest.entities = before ++ entities)
    (hearlier : ∀ other ∈ earlier, other ∈ before) :
    ∀ rule ∈ place.entitiesRules earlier entities, ¬ rule.holds →
      manifest.Labels place.document rule.error := by
  induction entities generalizing before earlier with
  | nil => simp [entitiesRules]
  | cons entity entities ih =>
    rw [entitiesRules, List.forall_mem_append]
    refine ⟨labels_entityRules hentities hearlier, ?_⟩
    apply @ih (before ++ [entity]) (entity :: earlier)
    . rw [hentities, List.append_assoc]
      rfl
    . grind

theorem labels_settingsRules (place : Place) (manifest : Manifest) :
    ∀ rule ∈ place.settingsRules manifest.settings, ¬ rule.holds →
      manifest.Labels place.document rule.error := by
  have hruntime : manifest.settings.ecs.namespaceName ∈ manifest.namespaces := List.mem_cons_self
  unfold settingsRules
  simp only [List.forall_mem_append, List.forall_mem_singleton]
  refine ⟨⟨?_, ?_⟩, ?_⟩
  . intro _ label hlabel
    cases hlabel
  . exact @labels_namespaceRules (place.within "generator") manifest _ hruntime "runtime namespace"
  . intro _ label hlabel
    cases hlabel

end Place

namespace Manifest

theorem labels_of_validate_eq_error {document : String} {manifest : Manifest}
    {error : ManifestError} (h : manifest.validate document = .error error) :
    manifest.Labels document error := by
  have hreported := manifest.reported_validate document
  rw [h, reported_error_iff] at hreported
  obtain ⟨before, rule, after, hrules, _, hviolated, rfl⟩ := hreported
  have hall : ∀ rule ∈ manifest.rules document, ¬ rule.holds →
      manifest.Labels document rule.error := by
    unfold rules
    dsimp only
    rw [List.forall_mem_append]
    exact ⟨Place.labels_settingsRules { document } manifest,
      @Place.labels_entitiesRules { document } manifest [] [] manifest.entities rfl (by simp)⟩
  exact hall rule (by simp [hrules]) hviolated

theorem exists_of_parse_eq_error {document : String} {error : ManifestError}
    (h : parse document = .error error) :
    error = .malformed
      ∨ ∃ manifest, (Toml.Document.parse? document).bind ofTable? = some manifest
          ∧ manifest.validate document = .error error := by
  unfold parse at h
  cases hread : (Toml.Document.parse? document).bind ofTable? with
  | none =>
    rw [hread] at h
    exact .inl (Except.error.inj h).symm
  | some manifest =>
    rw [hread] at h
    cases hvalidate : manifest.validate document with
    | ok _ =>
      simp only [hvalidate] at h
      cases h
    | error first =>
      simp only [hvalidate] at h
      cases h
      exact .inr ⟨manifest, rfl, hvalidate⟩

theorem valueSpan?_and_labels_cutOut (document : String) :
    (∀ value n, valueSpan? document value n = none
        ↔
      value = "" ∨ ¬ ∃ before after, document = before ++ value ++ after)
      ∧ (∀ value n span, valueSpan? document value n = some span → span.CutsOut document value)
      ∧ (∀ value, value ≠ "" →
          ∃ quotes, Finds (quoted value) document.toList quotes
            ∧ (quotes.Pairwise fun front later => utf8Len front < utf8Len later)
            ∧ ∀ n front, quotes[n]? = some front →
                valueSpan? document value n = some ⟨utf8Len front + 1, value.utf8ByteSize⟩)
      ∧ ∀ error, parse document = .error error → ∀ label ∈ error.labels,
          ∃ manifest text, (Toml.Document.parse? document).bind ofTable? = some manifest
            ∧ manifest.Blames error text
            ∧ label.2.CutsOut document text := by
  refine ⟨fun _ _ => valueSpan?_eq_none_iff, fun _ _ _ => valueSpan?_cutsOut, ?_, ?_⟩
  . intro value hvalue
    have ⟨quotes, hquotes⟩ := exists_finds (quoted_ne_nil value) document.toList
    refine ⟨quotes, hquotes, hquotes.pairwise_lt (quoted_ne_nil value), ?_⟩
    intro n front hfront
    exact valueSpan?_of_getElem?_eq_some hvalue hquotes hfront
  . intro error herror label hlabel
    rcases exists_of_parse_eq_error herror with rfl | ⟨manifest, hread, hvalidate⟩
    . cases hlabel
    . have ⟨text, hblames, hcuts⟩ := labels_of_validate_eq_error hvalidate label hlabel
      exact ⟨manifest, text, hread, hblames, hcuts⟩

end Manifest

end EntityViews
