import EntityViews.Proofs.Entity.Resolvable
import EntityViews.Proofs.Manifest.Validity
import EntityViews.Proofs.SourceUnit.Buildable
import EntityViews.Proofs.SourceUnit.Isolation

/-!
This module contains what can be relied on in manifests that are accepted. Their names and types are
visible, so all that keeps one of their entities from having a unit is fields that clash.
-/

namespace EntityViews

def Manifest.IsAccepted (manifest : Manifest) : Prop :=
  ∃ document, manifest.validate document = .ok ()

namespace Manifest

theorem isAccepted_iff_isValid {manifest : Manifest} : manifest.IsAccepted ↔ manifest.IsValid := by
  unfold IsAccepted
  simp only [validate_eq_ok_iff, exists_const]

theorem generate_units (manifest : Manifest) :
    manifest.generate.units
      =
    (Verdict.keptOf (Descriptor.settleAll manifest.settings.options [] manifest.entities)).map
      (·.unit) := by
  exact manifest.settings.options.report_units manifest.entities

theorem isAccepted_of_parse {document : String} {manifest : Manifest}
    (h : parse document = .ok manifest) : manifest.IsAccepted := by
  unfold parse at h
  cases hread : (Toml.Document.parse? document).bind ofTable? with
  | none =>
    rw [hread] at h
    cases h
  | some read =>
    rw [hread] at h
    cases hvalidate : read.validate document with
    | error error =>
      simp only [hvalidate] at h
      cases h
    | ok _ =>
      simp only [hvalidate] at h
      cases h
      exact ⟨document, hvalidate⟩

end Manifest

theorem IsName.isInvisible {name : String} (h : IsName name) : Text.isInvisible name = false := by
  have ⟨first, rest, hname, _⟩ := h.identifier
  have hfirst : isBlank first = false := by
    apply isBlank_of_isIdentifierPart
    apply h.identifier.forall_mem
    rw [hname]
    simp
  unfold Text.isInvisible
  rw [hname]
  simp [hfirst]

theorem TypeName.isInvisible_of_check {type : String} (h : TypeName.check type = .ok ()) :
    Text.isInvisible type = false := by
  rw [← Bool.not_eq_true]
  intro hinvisible
  unfold TypeName.check at h
  rw [Text.trim_of_isInvisible hinvisible] at h
  cases h

namespace Descriptor

def fileName (descriptor : Descriptor) : String :=
  unitFileName descriptor.namespaceName (EntityName.view descriptor.name)

namespace IsValid

variable {entity : Descriptor}

theorem exists_resolve_eq (h : entity.IsValid) (ecs : Ecs) :
    ∃ access,
      entity.resolve ecs
        =
      (Members.insertAll ecs.entity entity.qualifiedName [] {} entity.fields).map
        (entity.schemaWith access) := by
  have ⟨access, haccess⟩ := HasAccess.exists_resolveAccess_eq_ok h.access
  refine ⟨access, ?_⟩
  apply resolve_eq_map _ haccess
  rw [h.name.trim_eq]
  exact h.name.ne_empty

theorem isVisible_schemaWith (h : entity.IsValid) (access : Access) (handleType : String) :
    (entity.schemaWith access (.ofFields handleType entity.fields)).IsVisible := by
  apply (entity.isVisible_schemaWith_iff access handleType).mpr
  constructor
  . intro name hname
    have ⟨field, hfind, heq⟩ := Option.map_eq_some_iff.mp hname
    rw [← heq]
    exact (h.fields field (List.mem_of_find?_eq_some hfind)).name.isInvisible
  . intro component hcomponent
    have ⟨index, hindex, heq⟩ := List.mem_mapIdx.mp hcomponent
    have hfield := h.fields _ (List.mem_of_mem_filter (List.getElem_mem hindex))
    rw [← heq]
    exact ⟨TypeName.isInvisible_of_check hfield.type, hfield.name.isInvisible⟩

theorem attempt_of_insertAll_eq_ok (h : entity.IsValid) {options : Options} {members : Members}
    (hinsert : Members.insertAll options.ecs.entity entity.qualifiedName [] {} entity.fields
      = .ok members) :
    ∃ schema unit, entity.attempt options = .ok (schema, unit)
      ∧ unit.fileName = entity.fileName ∧ unit.entity = entity.qualifiedName := by
  have ⟨access, hresolve⟩ := h.exists_resolve_eq options.ecs
  have ⟨_, hmembers⟩ := Members.insertAll_eq_ok_iff.mp hinsert
  have hvisible := h.isVisible_schemaWith access options.ecs.entity
  rw [hmembers] at hvisible
  have ⟨content, hgenerate⟩ := (Generator.ofOptions options).exists_generate_eq_ok hvisible
  unfold attempt
  rw [hresolve]
  rw [hinsert]
  simp only [Except.map]
  rw [hgenerate]
  refine ⟨_, _, rfl, ?_, ?_⟩
  . simp [Schema.fileName, schemaWith, fileName, h.name.trim_eq]
  . simp [Schema.qualifiedName, schemaWith, qualifiedName, h.name.trim_eq]

theorem attempt_of_insertAll_eq_error (h : entity.IsValid) {options : Options}
    {clash : ResolveError}
    (hinsert : Members.insertAll options.ecs.entity entity.qualifiedName [] {} entity.fields
      = .error clash) :
    entity.attempt options = .error (.resolve clash) := by
  have ⟨access, hresolve⟩ := h.exists_resolve_eq options.ecs
  unfold attempt
  rw [hresolve]
  rw [hinsert]
  rfl

theorem attempt_eq_error_iff (h : entity.IsValid) {options : Options} {error : UnitError} :
    entity.attempt options = .error error
      ↔
    ∃ before field after clash, entity.fields = before ++ field :: after
      ∧ Field.AreDistinct options.ecs.entity before
      ∧ field.Clashes options.ecs.entity entity.qualifiedName before clash
      ∧ .resolve clash = error := by
  constructor
  . intro herror
    cases hinsert : Members.insertAll options.ecs.entity entity.qualifiedName [] {}
      entity.fields with
    | error clash =>
      rw [h.attempt_of_insertAll_eq_error hinsert] at herror
      have ⟨before, field, after, hfields, hbefore, hclash⟩ :=
        Members.insertAll_eq_error_iff.mp hinsert
      exact ⟨before, field, after, clash, hfields, hbefore, hclash, Except.error.inj herror⟩
    | ok members =>
      have ⟨_, _, hattempt, _⟩ := h.attempt_of_insertAll_eq_ok hinsert
      rw [hattempt] at herror
      cases herror
  . rintro ⟨before, field, after, clash, hfields, hbefore, hclash, rfl⟩
    apply h.attempt_of_insertAll_eq_error
    rw [Members.insertAll_eq_error_iff]
    exact ⟨before, field, after, hfields, hbefore, hclash⟩

theorem of_attempt_eq_ok (h : entity.IsValid) {options : Options} {schema : Schema}
    {unit : SourceUnit} (hattempt : entity.attempt options = .ok (schema, unit)) :
    Field.AreDistinct options.ecs.entity entity.fields
      ∧ unit.fileName = entity.fileName ∧ unit.entity = entity.qualifiedName := by
  cases hinsert : Members.insertAll options.ecs.entity entity.qualifiedName [] {}
    entity.fields with
  | error clash =>
    rw [h.attempt_of_insertAll_eq_error hinsert] at hattempt
    cases hattempt
  | ok members =>
    have ⟨_, _, hmade, hnames⟩ := h.attempt_of_insertAll_eq_ok hinsert
    rw [hmade] at hattempt
    cases hattempt
    exact ⟨(Members.insertAll_eq_ok_iff.mp hinsert).1, hnames⟩

end IsValid

end Descriptor

end EntityViews
