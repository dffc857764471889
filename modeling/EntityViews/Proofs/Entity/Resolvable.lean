import EntityViews.Proofs.Decl.Name
import EntityViews.Proofs.Entity.Resolve

/-!
This module contains the outcome of resolution. A declared entity has a schema if and only if its
name is visible, its access level is one and its fields go together. Otherwise the first of these that
is not the case is reported.
-/

namespace EntityViews

structure Schema.HasFields (handleType : String) (fields : List Field) (schema : Schema) :
    Prop where
  backReference : schema.backReference.toList
    = (fields.filter (·.type = handleType)).map (·.name)
  components : schema.components = (fields.filter (·.type ≠ handleType)).mapIdx Component.ofField
  fieldNames : (schema.components.map (·.fieldName)).Nodup
  length : schema.backReference.toList.length + schema.components.length = fields.length

namespace Descriptor

def HasAccess (descriptor : Descriptor) : Prop :=
  ∀ given ∈ descriptor.access, ∃ level : Access, Text.words given = Text.words level.keyword

structure IsResolvable (ecs : Ecs) (descriptor : Descriptor) : Prop where
  name : Text.isInvisible descriptor.name = false
  access : descriptor.HasAccess
  fields : Field.AreDistinct ecs.entity descriptor.fields

/--
What is wrong with a declared entity. The name comes before the access level, and the access level
before the first field that does not go together with those in front of it.
-/
inductive Rejects (ecs : Ecs) (descriptor : Descriptor) : ResolveError → Prop where
  | name (hname : Text.isInvisible descriptor.name) : Rejects ecs descriptor .emptyName
  | access {given : String} (hname : Text.isInvisible descriptor.name = false)
      (hgiven : descriptor.access = some given)
      (haccess : ∀ level : Access, Text.words given ≠ Text.words level.keyword) :
      Rejects ecs descriptor (.unknownAccess descriptor.qualifiedName ⟨given⟩)
  | field {before after : List Field} {field : Field} {error : ResolveError}
      (hname : Text.isInvisible descriptor.name = false) (haccess : descriptor.HasAccess)
      (hfields : descriptor.fields = before ++ field :: after)
      (hbefore : Field.AreDistinct ecs.entity before)
      (hclash : field.Clashes ecs.entity descriptor.qualifiedName before error) :
      Rejects ecs descriptor error

variable {descriptor : Descriptor} {ecs : Ecs}

theorem HasAccess.exists_resolveAccess_eq_ok (h : descriptor.HasAccess) :
    ∃ access, descriptor.resolveAccess = .ok access := by
  unfold HasAccess at h
  unfold resolveAccess
  cases hgiven : descriptor.access with
  | none => exact ⟨.everywhere, rfl⟩
  | some given =>
    rw [hgiven] at h
    have hsome := Access.isSome_ofText?_iff.mpr (h given rfl)
    have ⟨access, heq⟩ := Option.isSome_iff_exists.mp hsome
    exact ⟨access, by simp [heq]⟩

theorem resolveAccess_eq_error {given : String} (hgiven : descriptor.access = some given)
    (h : ∀ level : Access, Text.words given ≠ Text.words level.keyword) :
    descriptor.resolveAccess = .error (.unknownAccess descriptor.qualifiedName ⟨given⟩) := by
  have hnone : ¬ (Access.ofText? given).isSome := by
    rw [Access.isSome_ofText?_iff]
    rintro ⟨level, hlevel⟩
    exact h level hlevel
  rw [Option.not_isSome_iff_eq_none] at hnone
  unfold resolveAccess
  simp [hgiven, hnone]

theorem hasAccess_or_exists_given (descriptor : Descriptor) :
    descriptor.HasAccess
      ∨ ∃ given, descriptor.access = some given
          ∧ ∀ level : Access, Text.words given ≠ Text.words level.keyword := by
  by_cases h : descriptor.HasAccess
  . exact .inl h
  . right
    simpa [HasAccess] using h

theorem isResolvable_or_exists_rejects (ecs : Ecs) (descriptor : Descriptor) :
    descriptor.IsResolvable ecs ∨ ∃ error, descriptor.Rejects ecs error := by
  cases hname : Text.isInvisible descriptor.name with
  | true => exact .inr ⟨_, .name hname⟩
  | false =>
    rcases descriptor.hasAccess_or_exists_given with haccess | ⟨given, hgiven, haccess⟩
    . rcases Field.areDistinct_or_exists_clashes ecs.entity descriptor.qualifiedName
        descriptor.fields with hfields | ⟨_, _, _, _, hfields, hbefore, hclash⟩
      . exact .inl ⟨hname, haccess, hfields⟩
      . exact .inr ⟨_, .field hname haccess hfields hbefore hclash⟩
    . exact .inr ⟨_, .access hname hgiven haccess⟩

theorem trim_name_ne_empty (h : Text.isInvisible descriptor.name = false) :
    Text.trim descriptor.name ≠ "" := by
  intro hempty
  rw [Text.trim_eq_empty_iff, h] at hempty
  cases hempty

theorem IsResolvable.exists_resolve_eq (h : descriptor.IsResolvable ecs) :
    ∃ access, descriptor.resolve ecs
      = .ok (descriptor.schemaWith access (.ofFields ecs.entity descriptor.fields)) := by
  have ⟨access, haccess⟩ := h.access.exists_resolveAccess_eq_ok
  refine ⟨access, ?_⟩
  rw [resolve_eq_map (trim_name_ne_empty h.name) haccess]
  rw [Members.insertAll_of_areDistinct h.fields]
  rfl

theorem Rejects.resolve_eq {error : ResolveError} (h : descriptor.Rejects ecs error) :
    descriptor.resolve ecs = .error error := by
  cases h with
  | name hname => simp [resolve, Text.trim_of_isInvisible hname]
  | access hname hgiven haccess =>
    unfold resolve
    rw [resolveAccess_eq_error hgiven haccess]
    dsimp only
    rw [if_neg (by simpa using trim_name_ne_empty hname)]
    rfl
  | field hname haccess hfields hbefore hclash =>
    obtain ⟨level, hlevel⟩ := haccess.exists_resolveAccess_eq_ok
    rw [resolve_eq_map (trim_name_ne_empty hname) hlevel]
    rw [hfields]
    rw [Members.insertAll_of_clashes hbefore hclash]
    rfl

theorem hasFields_schemaWith {handleType : String}
    (h : Field.AreDistinct handleType descriptor.fields) (access : Access) :
    (descriptor.schemaWith access (.ofFields handleType descriptor.fields)).HasFields handleType
      descriptor.fields := by
  have hnames := Members.backReference_append_propertyNames_perm h
  refine ⟨Members.toList_backReference_ofFields h, rfl, ?_, ?_⟩
  . dsimp only [schemaWith]
    rw [Members.components_ofFields_map_fieldName]
    exact List.nodup_range.map Component.storedName_injective
  . simpa [schemaWith] using hnames.length_eq

theorem resolve_reports_first_rejection (ecs : Ecs) (descriptor : Descriptor) :
    ((∃ schema, descriptor.resolve ecs = .ok schema) ↔ descriptor.IsResolvable ecs)
      ∧ (∀ schema, descriptor.resolve ecs = .ok schema →
          schema.HasFields ecs.entity descriptor.fields)
      ∧ ∀ error, descriptor.resolve ecs = .error error ↔ descriptor.Rejects ecs error := by
  rcases isResolvable_or_exists_rejects ecs descriptor with h | ⟨error, h⟩
  . have ⟨access, hresolve⟩ := h.exists_resolve_eq
    refine ⟨⟨fun _ => h, fun _ => ⟨_, hresolve⟩⟩, ?_, fun error => ⟨?_, ?_⟩⟩
    . intro schema hschema
      rw [hresolve, Except.ok.injEq] at hschema
      rw [← hschema]
      exact hasFields_schemaWith h.fields access
    . rw [hresolve]
      simp
    . intro hrejects
      rw [hrejects.resolve_eq] at hresolve
      cases hresolve
  . have hresolve := h.resolve_eq
    refine ⟨⟨?_, ?_⟩, ?_, fun other => ⟨?_, ?_⟩⟩
    . rw [hresolve]
      simp
    . intro hresolvable
      have ⟨_, heq⟩ := hresolvable.exists_resolve_eq
      rw [hresolve] at heq
      cases heq
    . rw [hresolve]
      simp
    . intro hother
      rw [hresolve, Except.error.injEq] at hother
      exact hother ▸ h
    . exact fun hother => hother.resolve_eq

theorem resolve_reports_first_rejection_handle_between :
    let position : Field := { name := "Position", type := "Vec3", isValue := true, isByRef := true }
    let owner : Field := { name := "Owner", type := "Abg.Entities.Entity" }
    let health : Field := { name := "Health", type := "int" }
    let descriptor : Descriptor := {
      name := " Unit"
      access := some "protected  internal"
      fields := [position, owner, health]
    }
    ∃ schema, descriptor.resolve {} = .ok schema
      ∧ schema.backReference = some "Owner"
      ∧ schema.components
          = [⟨"Vec3", .value, "component_0", "Position", true⟩,
              ⟨"int", .reference, "component_1", "Health", false⟩] := by
  intro position owner health descriptor
  have hresolvable : descriptor.IsResolvable {} := by
    refine ⟨by decide, ?_, by decide, by decide⟩
    intro given hgiven
    cases hgiven
    exact ⟨.derivedTypesOrAssembly, by decide⟩
  have ⟨schema, hschema⟩ := (resolve_reports_first_rejection {} descriptor).1.mpr hresolvable
  have hfields := (resolve_reports_first_rejection {} descriptor).2.1 schema hschema
  refine ⟨schema, hschema, ?_, hfields.components.trans (by decide)⟩
  rw [← Option.toList_eq_singleton_iff]
  exact hfields.backReference.trans (by decide)

end Descriptor

end EntityViews
