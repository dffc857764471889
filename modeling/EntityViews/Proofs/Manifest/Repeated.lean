import Mathlib.Data.List.Nodup
import EntityViews.Proofs.Manifest.NameTable
import EntityViews.Proofs.Toml.Place

/-!
This module contains manifests that declare an entity twice. The error that reports this labels the first
two values that are spelled like the name of the entity, whatever they are the names of.
-/

namespace EntityViews

open Rule Toml

theorem getElem?_append_cons_eq_some_iff {α : Type} {front back : List α} {a : α} {n : Nat}
    (h : a ∉ front) (hn : n ≤ front.length) :
    (front ++ a :: back)[n]? = some a ↔ front.length = n := by
  constructor
  . intro hsome
    by_contra hne
    rw [List.getElem?_append_left (by omega)] at hsome
    exact h (List.mem_of_getElem? hsome)
  . rintro rfl
    simp

theorem Settings.isValid_default : ({} : Settings).IsValid := by
  have hempty : Manifest.validate "" {} = .ok () := by decide +kernel
  exact (Manifest.validate_eq_ok_iff.mp hempty).settings

theorem QualifiedName.isValid_of_validate {entity : QualifiedName}
    (h : Manifest.validate "" { entities := [entity.descriptor] } = .ok ()) :
    entity.descriptor.IsValid := by
  exact (Manifest.validate_eq_ok_iff.mp h).entities _ List.mem_cons_self

namespace Place

theorem entitiesRules_append (place : Place) (earlier first second : List Descriptor) :
    place.entitiesRules earlier (first ++ second)
      =
    place.entitiesRules earlier first ++ place.entitiesRules (first.reverse ++ earlier) second := by
  induction first generalizing earlier with
  | nil => rfl
  | cons entity first ih =>
    rw [List.cons_append, entitiesRules, entitiesRules, ih]
    simp

end Place

namespace Manifest

theorem validate_of_repeated {manifest : Manifest} {before after : List Descriptor}
    {entity : Descriptor} (hentities : manifest.entities = before ++ entity :: after)
    (hsettings : manifest.settings.IsValid) (hbefore : ∀ other ∈ before, other.IsValid)
    (hentity : entity.IsValid)
    (hdistinct : (before.map fun entity => (entity.namespaceName, entity.name)).Nodup)
    (hrepeated : (entity.namespaceName, entity.name)
      ∈ before.map fun entity => (entity.namespaceName, entity.name)) (document : String) :
    manifest.validate document
      =
    .error (.duplicateEntity entity.qualifiedName (valueSpan? document entity.name 0)
      (valueSpan? document entity.name 1)) := by
  let place : Place := { document }
  have hearlier : ∀ rule ∈ place.entitiesRules [] before, rule.holds := by
    rw [Place.forall_entitiesRules_holds]
    rw [List.Nodup, List.pairwise_map] at hdistinct
    exact ⟨hbefore, hdistinct, by simp [Place.newRule]⟩
  have hviolated : ¬ (place.newRule (before.reverse ++ []) entity).holds := by
    obtain ⟨other, hother, heq⟩ := List.mem_map.mp hrepeated
    intro hnew
    exact hnew other (by simpa using hother) heq
  apply (manifest.reported_validate document).eq
  unfold rules
  dsimp only
  rw [hentities, Place.entitiesRules_append, Place.entitiesRules, Place.entityRules]
  simp only [List.append_assoc]
  -- all rules in front of the violated one are kept
  apply (reported_ok_iff.mpr ((Place.forall_settingsRules_holds _ _).mpr hsettings)).bind
  intro _
  apply (reported_ok_iff.mpr hearlier).bind
  intro _
  apply (reported_ok_iff.mpr (List.forall_mem_singleton.mpr hentity.name)).bind
  intro _
  apply (reported_ok_iff.mpr ((Place.forall_namespaceRules_holds _ _ _).mpr
    hentity.namespaceName)).bind
  intro _
  exact .violated hviolated

section Places

def written (entities : List QualifiedName) : List String :=
  entities.flatMap fun entity => [entity.name, entity.namespaceName]

def spansOf (name : String) (entities : List QualifiedName) : List Span :=
  Toml.Line.spansOf name 0 (entities.flatMap QualifiedName.lines)

def nameSpan (before : List QualifiedName) (entity : QualifiedName) : Span where
  offset := (nameDocument before ++ "[[entities]]\nname = \"").utf8ByteSize
  length := entity.name.utf8ByteSize

theorem values_lines (entities : List QualifiedName) :
    Toml.Line.values (entities.flatMap QualifiedName.lines) = written entities := by
  unfold written
  induction entities with
  | nil => rfl
  | cons entity entities ih =>
    rw [List.flatMap_cons, List.flatMap_cons, ← ih]
    rfl

theorem length_spansOf (name : String) (entities : List QualifiedName) :
    (spansOf name entities).length = (written entities).count name := by
  rw [spansOf, Toml.Line.length_spansOf, values_lines]

theorem count_written_pos {entity : QualifiedName} {entities : List QualifiedName}
    (h : entity ∈ entities) : 0 < (written entities).count entity.name := by
  rw [List.count_pos_iff]
  exact List.mem_flatMap.mpr ⟨entity, h, List.mem_cons_self⟩

theorem nameSpan_eq (before : List QualifiedName) (entity : QualifiedName) :
    nameSpan before entity
      =
    ⟨(nameDocument before).utf8ByteSize + (Toml.Line.arrayTable "entities").text.utf8ByteSize
      + "name".utf8ByteSize + 4, entity.name.utf8ByteSize⟩ := by
  have hheader : (Toml.Line.arrayTable "entities").text.utf8ByteSize = 13 := by decide
  have hkey : "name".utf8ByteSize = 4 := by decide
  have hlead : "[[entities]]\nname = \"".utf8ByteSize = 21 := by decide
  rw [nameSpan, String.utf8ByteSize_append, hheader, hkey, hlead]

theorem exists_spansOf_eq (before : List QualifiedName) (entity : QualifiedName)
    (after : List QualifiedName) :
    ∃ later, spansOf entity.name (before ++ entity :: after)
      = spansOf entity.name before ++ nameSpan before entity :: later := by
  unfold spansOf
  rw [List.flatMap_append, Toml.Line.spansOf_append, List.flatMap_cons, QualifiedName.lines,
    List.cons_append, Toml.Line.spansOf, List.cons_append, Toml.Line.spansOf, if_pos rfl, Nat.zero_add,
    nameSpan_eq]
  exact ⟨_, rfl⟩

theorem nameSpan_notMem_spansOf (before : List QualifiedName) (entity : QualifiedName)
    (name : String) : nameSpan before entity ∉ spansOf name before := by
  intro hmem
  have hlt := Toml.Line.offset_lt_of_mem_spansOf hmem
  simp only [nameSpan, nameDocument, String.utf8ByteSize_append] at hlt
  omega

-- a name has as many places in front of its own as it is written before
theorem getElem?_spansOf_eq_iff {before after : List QualifiedName} {entity : QualifiedName} {n : Nat}
    (hn : n ≤ (written before).count entity.name) :
    (spansOf entity.name (before ++ entity :: after))[n]? = some (nameSpan before entity)
      ↔
    (written before).count entity.name = n := by
  have ⟨later, hlater⟩ := exists_spansOf_eq before entity after
  rw [← length_spansOf] at hn ⊢
  rw [hlater, getElem?_append_cons_eq_some_iff (nameSpan_notMem_spansOf before entity _) hn]

end Places

section Parse

variable {before between after : List QualifiedName} {entity : QualifiedName}

theorem parse_eq_error_of_repeated {entities : List QualifiedName}
    (hvalid : ∀ other ∈ entities, other.descriptor.IsValid)
    (hentities : entities = before ++ entity :: after) (hnew : before.Nodup)
    (hrepeated : entity ∈ before) :
    parse (nameDocument entities)
      =
    .error (.duplicateEntity entity.descriptor.qualifiedName
      (valueSpan? (nameDocument entities) entity.name 0)
      (valueSpan? (nameDocument entities) entity.name 1)) := by
  let manifest : Manifest := { entities := entities.map QualifiedName.descriptor }
  have hmem : entity ∈ entities := by
    rw [hentities]
    exact List.mem_append_right before List.mem_cons_self
  have hsplit : manifest.entities = before.map QualifiedName.descriptor
      ++ entity.descriptor :: after.map QualifiedName.descriptor := by
    simp [manifest, hentities]
  have hbefore : ∀ other ∈ before.map QualifiedName.descriptor, other.IsValid := by
    rw [List.forall_mem_map]
    intro other hother
    apply hvalid
    rw [hentities]
    exact List.mem_append_left _ hother
  have hdistinct : ((before.map QualifiedName.descriptor).map fun entity =>
      (entity.namespaceName, entity.name)).Nodup := by
    rw [List.map_map]
    refine List.Nodup.map ?_ hnew
    intro first second heq
    exact QualifiedName.ext (Prod.mk.inj heq).1 (Prod.mk.inj heq).2
  have herror := validate_of_repeated hsplit Settings.isValid_default hbefore (hvalid entity hmem)
    hdistinct (List.mem_map_of_mem (List.mem_map_of_mem hrepeated)) (nameDocument entities)
  unfold parse
  rw [ofTable?_nameDocument hvalid (List.ne_nil_of_mem hmem)]
  dsimp only
  rw [herror]
  rfl

theorem valueSpan?_nameDocument {entities : List QualifiedName}
    (hvalid : ∀ other ∈ entities, other.descriptor.IsValid) (hentity : entity ∈ entities) {n : Nat}
    {span : Span} (hspan : (spansOf entity.name entities)[n]? = some span) :
    valueSpan? (nameDocument entities) entity.name n = some span := by
  have hname := hvalid entity hentity
  exact Toml.Line.valueSpan?_document (isPlain_of_mem_lines hvalid) (QualifiedName.isPlain_name hname)
    hname.name.ne_empty hspan

theorem exists_spansOf_eq_cons_cons (hrepeated : entity ∈ before) :
    ∃ first second later,
      spansOf entity.name (before ++ entity :: after) = first :: second :: later := by
  have ⟨later, hlater⟩ := exists_spansOf_eq before entity after
  have hcount : 0 < (spansOf entity.name before).length := by
    rw [length_spansOf]
    exact count_written_pos hrepeated
  obtain ⟨first, others, hothers⟩ := List.exists_cons_of_length_pos hcount
  rw [hothers, List.cons_append] at hlater
  cases others with
  | nil => exact ⟨_, _, _, hlater⟩
  | cons second others => exact ⟨_, _, _, hlater⟩

-- the labels count all texts that are spelled like the name, whatever they are the names of
theorem parse_nameDocument_of_repeated
    (hvalid : ∀ other ∈ before ++ entity :: between ++ entity :: after, other.descriptor.IsValid)
    (hnew : (before ++ entity :: between).Nodup) :
    ∃ first second later,
      spansOf entity.name (before ++ entity :: between ++ entity :: after) = first :: second :: later
        ∧ parse (nameDocument (before ++ entity :: between ++ entity :: after))
            = .error (.duplicateEntity entity.descriptor.qualifiedName (some first) (some second))
        ∧ (first = nameSpan before entity ↔ entity.name ∉ written before)
        ∧ (second = nameSpan (before ++ entity :: between) entity
            ↔ (written (before ++ entity :: between)).count entity.name = 1) := by
  have hrepeated : entity ∈ before ++ entity :: between := by simp
  have hmem : entity ∈ before ++ entity :: between ++ entity :: after := by simp
  have ⟨first, second, later, hspans⟩ := @exists_spansOf_eq_cons_cons _ after entity hrepeated
  refine ⟨first, second, later, hspans, ?_, ?_, ?_⟩
  . have hfirst := @valueSpan?_nameDocument _ _ hvalid hmem 0 first (by rw [hspans]; rfl)
    have hsecond := @valueSpan?_nameDocument _ _ hvalid hmem 1 second (by rw [hspans]; rfl)
    rw [parse_eq_error_of_repeated hvalid rfl hnew hrepeated, hfirst, hsecond]
  . have hfirst := @getElem?_spansOf_eq_iff before (between ++ entity :: after) entity 0
      (Nat.zero_le _)
    rw [← List.cons_append, ← List.append_assoc, hspans, List.getElem?_cons_zero, Option.some_inj,
      List.count_eq_zero] at hfirst
    exact hfirst
  . have hsecond := @getElem?_spansOf_eq_iff (before ++ entity :: between) after entity 1
      (count_written_pos hrepeated)
    rw [hspans, List.getElem?_cons_succ, List.getElem?_cons_zero, Option.some_inj] at hsecond
    exact hsecond

theorem parse_nameDocument_of_repeated_behind_other_name :
    let entity : QualifiedName := { namespaceName := "Game", name := "IA" }
    let other : QualifiedName := { namespaceName := "Editor", name := "IB" }
    (∀ declared ∈ [entity, other, entity], declared.descriptor.IsValid)
      ∧ [entity, other].Nodup
      ∧ parse (nameDocument [entity, other, entity])
          = .error (.duplicateEntity "Game.IA" (some (nameSpan [] entity))
              (some (nameSpan [entity, other] entity))) := by
  intro entity other
  have hnew : [entity, other].Nodup := by decide
  have hentity : entity.descriptor.IsValid :=
    QualifiedName.isValid_of_validate (by decide +kernel)
  have hother : other.descriptor.IsValid :=
    QualifiedName.isValid_of_validate (by decide +kernel)
  have hvalid : ∀ declared ∈ [entity, other, entity], declared.descriptor.IsValid := by
    simp [hentity, hother]
  have ⟨first, second, _, _, hparse, hfirst, hsecond⟩ :=
    @parse_nameDocument_of_repeated [] [other] [] entity hvalid hnew
  rw [hfirst.mpr (by decide), hsecond.mpr (by decide)] at hparse
  exact ⟨hvalid, hnew, hparse⟩

theorem parse_labels_same_name_of_other_namespace :
    let entity : QualifiedName := { namespaceName := "Game", name := "IA" }
    let other : QualifiedName := { namespaceName := "Editor", name := "IA" }
    (∀ declared ∈ [entity, other, entity], declared.descriptor.IsValid)
      ∧ [entity, other].Nodup
      ∧ parse (nameDocument [entity, other, entity])
          = .error (.duplicateEntity "Game.IA" (some (nameSpan [] entity))
              (some (nameSpan [entity] other)))
      ∧ nameSpan [entity] other ≠ nameSpan [entity, other] entity := by
  intro entity other
  have hnew : [entity, other].Nodup := by decide
  have hentity : entity.descriptor.IsValid :=
    QualifiedName.isValid_of_validate (by decide +kernel)
  have hother : other.descriptor.IsValid :=
    QualifiedName.isValid_of_validate (by decide +kernel)
  have hvalid : ∀ declared ∈ [entity, other, entity], declared.descriptor.IsValid := by
    simp [hentity, hother]
  have hfirst : valueSpan? (nameDocument [entity, other, entity]) entity.name 0
      = some (nameSpan [] entity) :=
    valueSpan?_nameDocument hvalid List.mem_cons_self (by decide +kernel)
  have hsecond : valueSpan? (nameDocument [entity, other, entity]) entity.name 1
      = some (nameSpan [entity] other) :=
    valueSpan?_nameDocument hvalid List.mem_cons_self (by decide +kernel)
  have hparse := @parse_eq_error_of_repeated [entity, other] [] entity _ hvalid rfl hnew
    List.mem_cons_self
  rw [hfirst, hsecond] at hparse
  exact ⟨hvalid, hnew, hparse, by decide +kernel⟩

end Parse

end Manifest

end EntityViews
