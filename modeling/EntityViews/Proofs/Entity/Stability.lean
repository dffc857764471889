import Mathlib.Data.List.Forall2
import Mathlib.Logic.Relation
import EntityViews.Proofs.Entity.Resolvable

/-!
This module contains the stability of components. They are numbered among themselves, so an edit of a
declared entity only affects them if it affects the fields that declare them: fields that are appended
keep what is in front of them, and fields in another order only change their numbers.
-/

namespace EntityViews

/--
The second list of fields is the first one, with the field that has the type of entity handles added,
taken out or put elsewhere, where it may have another name.
-/
inductive Field.HandleMoves (handleType : String) : List Field → List Field → Prop where
  | insert {before after : List Field} {handle : Field}
      (hnone : ∀ field ∈ before ++ after, field.type ≠ handleType)
      (htype : handle.type = handleType)
      (hfresh : handle.name ∉ (before ++ after).map (·.name)) :
      HandleMoves handleType (before ++ after) (before ++ handle :: after)
  | remove {before after : List Field} {handle : Field} (htype : handle.type = handleType) :
      HandleMoves handleType (before ++ handle :: after) (before ++ after)
  | move {before after front back : List Field} {handle moved : Field}
      (htype : handle.type = handleType) (hmoved : moved.type = handleType)
      (hfresh : moved.name ∉ (before ++ after).map (·.name))
      (hothers : before ++ after = front ++ back) :
      HandleMoves handleType (before ++ handle :: after) (front ++ moved :: back)

/--
An edit of a declared entity that has nothing to do with the fields that declare components.
-/
inductive Descriptor.Edits (ecs : Ecs) (descriptor : Descriptor) : Descriptor → Prop where
  | namespaceName (given : String) : Edits ecs descriptor { descriptor with namespaceName := given }
  | name {given : String} (hgiven : Text.isInvisible given = false) :
      Edits ecs descriptor { descriptor with name := given }
  | access {given : Option String} (hgiven : HasAccess { descriptor with access := given }) :
      Edits ecs descriptor { descriptor with access := given }
  | excluded (given : List String) : Edits ecs descriptor { descriptor with excluded := given }
  | handle {fields : List Field} (hmoves : Field.HandleMoves ecs.entity descriptor.fields fields) :
      Edits ecs descriptor { descriptor with fields }

namespace Field

variable {handleType : String} {before after fields others : List Field} {handle : Field}

def declaring (handleType : String) (fields : List Field) : List Field :=
  fields.filter (·.type ≠ handleType)

theorem declaring_insert (htype : handle.type = handleType) :
    declaring handleType (before ++ handle :: after) = declaring handleType (before ++ after) := by
  simp [declaring, htype]

theorem AreDistinct.perm (h : AreDistinct handleType fields) (hperm : fields.Perm others) :
    AreDistinct handleType others := by
  refine ⟨(hperm.map _).nodup_iff.mp h.names, ?_⟩
  rw [← hperm.countP_eq]
  exact h.handles

theorem AreDistinct.insert (h : AreDistinct handleType (before ++ after))
    (hnone : ∀ field ∈ before ++ after, field.type ≠ handleType)
    (hfresh : handle.name ∉ (before ++ after).map (·.name)) :
    AreDistinct handleType (before ++ handle :: after) := by
  have hlast : AreDistinct handleType ((before ++ after) ++ [handle]) := by
    rw [areDistinct_concat_iff]
    refine ⟨h, hfresh, ?_⟩
    intro _
    rw [List.find?_eq_none]
    intro field hfield
    simpa using hnone field hfield
  apply hlast.perm
  rw [List.append_assoc]
  exact (List.perm_append_singleton handle after).append_left before

theorem AreDistinct.remove (h : AreDistinct handleType (before ++ handle :: after)) :
    AreDistinct handleType (before ++ after) := by
  exact h.sublist ((List.sublist_cons_self handle after).append_left before)

-- the handle that is taken out was the only one
theorem AreDistinct.forall_ne_of_remove (h : AreDistinct handleType (before ++ handle :: after))
    (htype : handle.type = handleType) : ∀ field ∈ before ++ after, field.type ≠ handleType := by
  have hfront : AreDistinct handleType (handle :: (before ++ after)) := h.perm List.perm_middle
  have hhandles := hfront.handles
  rw [List.countP_cons_of_pos (by simpa using htype)] at hhandles
  have hzero : (before ++ after).countP (·.type = handleType) = 0 := by omega
  rw [List.countP_eq_zero] at hzero
  intro field hfield
  simpa using hzero field hfield

theorem AreDistinct.append (h : AreDistinct handleType fields)
    (hnone : ∀ field ∈ others, field.type ≠ handleType)
    (hnames : ((fields ++ others).map (·.name)).Nodup) :
    AreDistinct handleType (fields ++ others) := by
  refine ⟨hnames, ?_⟩
  have hzero : others.countP (·.type = handleType) = 0 := by
    simpa [List.countP_eq_zero] using hnone
  rw [List.countP_append, hzero]
  exact h.handles

theorem HandleMoves.preserves (hmoves : HandleMoves handleType fields others)
    (h : AreDistinct handleType fields) :
    AreDistinct handleType others ∧ declaring handleType others = declaring handleType fields := by
  cases hmoves with
  | insert hnone htype hfresh => exact ⟨h.insert hnone hfresh, declaring_insert htype⟩
  | remove htype => exact ⟨h.remove, (declaring_insert htype).symm⟩
  | move htype hmoved hfresh hothers =>
    have hremoved := h.remove
    have hnone := h.forall_ne_of_remove htype
    rw [hothers] at hremoved hnone hfresh
    refine ⟨hremoved.insert hnone hfresh, ?_⟩
    rw [declaring_insert hmoved, declaring_insert htype, hothers]

end Field

namespace Component

def renumber (index : Nat) (component : Component) : Component :=
  { component with fieldName := storedName index }

def IsDeclaredBy (field : Field) (component : Component) : Prop :=
  ∃ index, ofField index field = component

theorem forall₂_isDeclaredBy (fields : List Field) :
    List.Forall₂ IsDeclaredBy fields (fields.mapIdx ofField) := by
  rw [List.forall₂_iff_get]
  refine ⟨by simp, ?_⟩
  intro index hindex _
  exact ⟨index, by simp⟩

theorem map_propertyName_of_forall₂ {fields : List Field} {components : List Component}
    (h : List.Forall₂ IsDeclaredBy fields components) :
    components.map (·.propertyName) = fields.map (·.name) := by
  induction h with
  | nil => rfl
  | cons hdeclared _ ih =>
    obtain ⟨index, rfl⟩ := hdeclared
    rw [List.map_cons, List.map_cons, ih]
    rfl

theorem mapIdx_ofField_of_forall₂ {fields : List Field} {components : List Component}
    (h : List.Forall₂ IsDeclaredBy fields components) :
    fields.mapIdx ofField = components.mapIdx renumber := by
  rw [List.forall₂_iff_get] at h
  apply List.ext_getElem
  . simp [h.1]
  . intro index hindex _
    simp only [List.length_mapIdx] at hindex
    obtain ⟨place, hplace⟩ := h.2 index hindex (h.1 ▸ hindex)
    simp only [List.get_eq_getElem] at hplace
    simp only [List.getElem_mapIdx, ← hplace]
    rfl

-- components stay with their fields when these are reordered
theorem exists_perm_mapIdx_ofField {fields others : List Field} (h : others.Perm fields) :
    ∃ components : List Component, components.Perm (fields.mapIdx ofField)
      ∧ components.map (·.propertyName) = others.map (·.name)
      ∧ others.mapIdx ofField = components.mapIdx renumber := by
  have ⟨components, hdeclared, hperm⟩ := List.perm_comp_forall₂ h (forall₂_isDeclaredBy fields)
  exact ⟨components, hperm, map_propertyName_of_forall₂ hdeclared,
    mapIdx_ofField_of_forall₂ hdeclared⟩

end Component

namespace Descriptor

variable {ecs : Ecs} {descriptor edited : Descriptor} {schema : Schema}

theorem isResolvable_of_resolve_eq_ok (h : descriptor.resolve ecs = .ok schema) :
    descriptor.IsResolvable ecs := by
  rcases isResolvable_or_exists_rejects ecs descriptor with hresolvable | ⟨error, hrejects⟩
  . exact hresolvable
  . rw [hrejects.resolve_eq] at h
    cases h

theorem components_of_resolve_eq_ok (h : descriptor.resolve ecs = .ok schema) :
    schema.components = (Field.declaring ecs.entity descriptor.fields).mapIdx Component.ofField := by
  have ⟨_, _, hschema⟩ := exists_of_resolve_eq_ok h
  rw [← hschema]
  rfl

theorem IsResolvable.exists_components (h : descriptor.IsResolvable ecs) :
    ∃ schema, descriptor.resolve ecs = .ok schema
      ∧ schema.components
          = (Field.declaring ecs.entity descriptor.fields).mapIdx Component.ofField := by
  have ⟨access, hresolve⟩ := h.exists_resolve_eq
  exact ⟨_, hresolve, rfl⟩

theorem Edits.preserves (hedits : descriptor.Edits ecs edited) (h : descriptor.IsResolvable ecs) :
    edited.IsResolvable ecs
      ∧ Field.declaring ecs.entity edited.fields = Field.declaring ecs.entity descriptor.fields := by
  cases hedits with
  | namespaceName given => exact ⟨⟨h.name, h.access, h.fields⟩, rfl⟩
  | name hgiven => exact ⟨⟨hgiven, h.access, h.fields⟩, rfl⟩
  | access hgiven => exact ⟨⟨h.name, hgiven, h.fields⟩, rfl⟩
  | excluded given => exact ⟨⟨h.name, h.access, h.fields⟩, rfl⟩
  | handle hmoves =>
    have ⟨hfields, hdeclaring⟩ := hmoves.preserves h.fields
    exact ⟨⟨h.name, h.access, hfields⟩, hdeclaring⟩

theorem preserves_of_reflTransGen (hedits : Relation.ReflTransGen (Edits ecs) descriptor edited)
    (h : descriptor.IsResolvable ecs) :
    edited.IsResolvable ecs
      ∧ Field.declaring ecs.entity edited.fields = Field.declaring ecs.entity descriptor.fields := by
  induction hedits with
  | refl => exact ⟨h, rfl⟩
  | tail _ hedit ih =>
    have ⟨hresolvable, hdeclaring⟩ := hedit.preserves ih.1
    exact ⟨hresolvable, hdeclaring.trans ih.2⟩

theorem resolve_components_stable (hresolve : descriptor.resolve ecs = .ok schema) :
    schema.components.map (·.fieldName)
        = (List.range schema.components.length).map Component.storedName
      ∧ (∀ edited, Relation.ReflTransGen (Edits ecs) descriptor edited →
          ∃ other, edited.resolve ecs = .ok other ∧ other.components = schema.components)
      ∧ (∀ added : List Field, (∀ field ∈ added, field.type ≠ ecs.entity) →
          ((descriptor.fields ++ added).map (·.name)).Nodup →
          ∃ other,
            { descriptor with fields := descriptor.fields ++ added }.resolve ecs = .ok other
              ∧ schema.components <+: other.components
              ∧ other.components.length = schema.components.length + added.length)
      ∧ ∀ fields : List Field, fields.Perm descriptor.fields →
          ∃ other, { descriptor with fields }.resolve ecs = .ok other
            ∧ ∃ reordered : List Component, reordered.Perm schema.components
                ∧ reordered.map (·.propertyName)
                    = (fields.filter (·.type ≠ ecs.entity)).map (·.name)
                ∧ other.components = reordered.mapIdx Component.renumber := by
  have h := isResolvable_of_resolve_eq_ok hresolve
  have hcomponents := components_of_resolve_eq_ok hresolve
  refine ⟨?_, ?_, ?_, ?_⟩
  . rw [hcomponents]
    exact Members.components_ofFields_map_fieldName ecs.entity descriptor.fields
  . intro edited hedits
    have ⟨hresolvable, hdeclaring⟩ := preserves_of_reflTransGen hedits h
    have ⟨other, hother, heq⟩ := hresolvable.exists_components
    refine ⟨other, hother, ?_⟩
    rw [heq, hdeclaring, hcomponents]
  . intro added hadded hnames
    have hresolvable : IsResolvable ecs { descriptor with fields := descriptor.fields ++ added } :=
      ⟨h.name, h.access, h.fields.append hadded hnames⟩
    have ⟨other, hother, heq⟩ := hresolvable.exists_components
    have hall : Field.declaring ecs.entity added = added := by
      simpa [Field.declaring] using hadded
    have hdeclaring : Field.declaring ecs.entity (descriptor.fields ++ added)
        = Field.declaring ecs.entity descriptor.fields ++ added := by
      rw [← hall]
      simp [Field.declaring]
    refine ⟨other, hother, ?_, ?_⟩
    . rw [heq, hdeclaring, hcomponents, List.mapIdx_append]
      exact List.prefix_append _ _
    . rw [heq, hdeclaring, hcomponents]
      simp
  . intro fields hperm
    have hresolvable : IsResolvable ecs { descriptor with fields } :=
      ⟨h.name, h.access, h.fields.perm hperm.symm⟩
    have ⟨other, hother, heq⟩ := hresolvable.exists_components
    have ⟨reordered, hreordered, hnames, hrenumbered⟩ :=
      Component.exists_perm_mapIdx_ofField (hperm.filter (·.type ≠ ecs.entity))
    refine ⟨other, hother, reordered, ?_, hnames, heq.trans hrenumbered⟩
    rw [hcomponents]
    exact hreordered

theorem resolve_components_stable_handle_between :
    let position : Field := { name := "Position", type := "Vec3", isValue := true, isByRef := true }
    let owner : Field := { name := "Owner", type := "Abg.Entities.Entity" }
    let health : Field := { name := "Health", type := "int" }
    let unit : Descriptor := { name := "Unit", fields := [position, owner, health] }
    let squad : Descriptor := {
      name := "Squad"
      access := some "internal"
      fields := [position, health, { owner with name := "Handle" }]
    }
    ∃ schema, unit.resolve {} = .ok schema
      ∧ (∃ other, squad.resolve {} = .ok other ∧ other.components = schema.components)
      ∧ ∃ other, { unit with fields := [health, owner, position] }.resolve {} = .ok other
          ∧ ∃ reordered : List Component, reordered.Perm schema.components
              ∧ reordered.map (·.propertyName) = ["Health", "Position"]
              ∧ other.components = reordered.mapIdx Component.renumber := by
  intro position owner health unit squad
  have hresolvable : unit.IsResolvable {} :=
    ⟨by decide, by simp [unit, HasAccess], by decide, by decide⟩
  obtain ⟨schema, hschema, _⟩ := hresolvable.exists_components
  obtain ⟨_, hedits, _, hperm⟩ := resolve_components_stable hschema
  have hname : Edits {} unit { unit with name := "Squad" } := .name (by decide)
  have haccess : HasAccess { unit with name := "Squad", access := some "internal" } := by
    intro given hgiven
    cases hgiven
    exact ⟨.assembly, rfl⟩
  have hmoves : Field.HandleMoves "Abg.Entities.Entity" ([position] ++ owner :: [health])
      ([position, health] ++ { owner with name := "Handle" } :: []) :=
    .move rfl rfl (by decide) rfl
  have hsquad : Relation.ReflTransGen (Edits {}) unit squad :=
    .tail (.tail (.single hname) (.access haccess)) (.handle hmoves)
  refine ⟨schema, hschema, hedits squad hsquad, ?_⟩
  obtain ⟨other, hother, reordered, hreordered, hnames, hcomponents⟩ :=
    hperm [health, owner, position] (by decide)
  exact ⟨other, hother, reordered, hreordered, hnames.trans (by decide), hcomponents⟩

end Descriptor

end EntityViews
