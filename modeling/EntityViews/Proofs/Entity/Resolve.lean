import Mathlib.Data.List.Induction
import Mathlib.Data.List.Nodup
import Mathlib.Data.List.Perm.Basic
import EntityViews.Entity.Schema

/-!
This module contains the resolution of declared fields. Fields are resolved if and only if their
names are distinct and at most one of them has the type of entity handles. Otherwise the error is about
the first field that does not go together with those in front of it.
-/

namespace EntityViews

@[mk_iff]
structure Field.AreDistinct (handleType : String) (fields : List Field) : Prop where
  names : (fields.map (·.name)).Nodup
  handles : fields.countP (·.type = handleType) ≤ 1

/--
A field does not go together with fields that are declared earlier. A repeated name comes before a
second back-reference.
-/
inductive Field.Clashes (handleType entity : String) (earlier : List Field) (field : Field) :
    ResolveError → Prop where
  | name (hname : field.name ∈ earlier.map (·.name)) :
      Clashes handleType entity earlier field (.duplicateField entity field.name)
  | handle {first : Field} (hname : field.name ∉ earlier.map (·.name))
      (hfirst : earlier.find? (·.type = handleType) = some first) (htype : field.type = handleType) :
      Clashes handleType entity earlier field
        (.duplicateBackReference entity first.name field.name)

def Component.ofField (index : Nat) (field : Field) : Component where
  type := field.type
  kind := .ofIsValue field.isValue
  fieldName := s!"component_{index}"
  propertyName := field.name
  isByRef := field.isByRef

def Component.storedName (index : Nat) : String := s!"component_{index}"

theorem Component.storedName_injective : Function.Injective storedName := by
  intro first second h
  have hrepr : first.repr = second.repr := by
    simpa [storedName, toString] using h
  have hdigits := congrArg String.toList hrepr
  rw [Nat.toList_repr, Nat.toList_repr] at hdigits
  rw [← @Nat.ofDigitChars_ten_toDigits first, hdigits, Nat.ofDigitChars_ten_toDigits]

def Members.ofFields (handleType : String) (fields : List Field) : Members where
  backReference := (fields.find? (·.type = handleType)).map (·.name)
  components := (fields.filter (·.type ≠ handleType)).mapIdx Component.ofField

namespace Field

variable {handleType entity : String} {earlier : List Field} {field : Field}

theorem areDistinct_nil (handleType : String) : AreDistinct handleType [] := by
  exact ⟨by simp, by simp⟩

theorem AreDistinct.sublist {fields others : List Field} (h : AreDistinct handleType fields)
    (hsublist : others.Sublist fields) : AreDistinct handleType others := by
  refine ⟨h.names.sublist (hsublist.map _), ?_⟩
  exact Nat.le_trans hsublist.countP_le h.handles

theorem countP_concat_le_one_iff {α : Type} {p : α → Bool} {front : List α} {last : α} :
    (front ++ [last]).countP p ≤ 1 ↔ front.countP p ≤ 1 ∧ (p last → front.find? p = none) := by
  rw [List.find?_eq_none]
  rw [← List.countP_eq_zero]
  rw [List.countP_append]
  rw [List.countP_singleton]
  split
  . next hlast =>
    simp only [hlast, true_implies]
    omega
  . next hlast =>
    simp [hlast]

theorem areDistinct_concat_iff :
    AreDistinct handleType (earlier ++ [field])
      ↔
    AreDistinct handleType earlier
      ∧ field.name ∉ earlier.map (·.name)
      ∧ (field.type = handleType → earlier.find? (·.type = handleType) = none) := by
  simp only [areDistinct_iff]
  rw [countP_concat_le_one_iff]
  rw [decide_eq_true_iff]
  rw [List.map_append]
  rw [List.map_singleton]
  rw [← List.concat_eq_append]
  rw [List.nodup_concat]
  constructor
  . rintro ⟨⟨hname, hnames⟩, hhandles, hfirst⟩
    exact ⟨⟨hnames, hhandles⟩, hname, hfirst⟩
  . rintro ⟨⟨hnames, hhandles⟩, hname, hfirst⟩
    exact ⟨⟨hname, hnames⟩, hhandles, hfirst⟩

theorem AreDistinct.concat_or_clashes (h : AreDistinct handleType earlier) (entity : String)
    (field : Field) :
    AreDistinct handleType (earlier ++ [field])
      ∨ ∃ error, field.Clashes handleType entity earlier error := by
  by_cases hname : field.name ∈ earlier.map (·.name)
  . right
    exact ⟨_, .name hname⟩
  . cases hfirst : earlier.find? (·.type = handleType) with
    | none =>
      left
      rw [areDistinct_concat_iff]
      exact ⟨h, hname, fun _ => hfirst⟩
    | some first =>
      by_cases htype : field.type = handleType
      . right
        exact ⟨_, .handle hname hfirst htype⟩
      . left
        rw [areDistinct_concat_iff]
        exact ⟨h, hname, fun heq => absurd heq htype⟩

theorem areDistinct_or_exists_clashes (handleType entity : String) (fields : List Field) :
    AreDistinct handleType fields
      ∨ ∃ before field after error, fields = before ++ field :: after
          ∧ AreDistinct handleType before
          ∧ field.Clashes handleType entity before error := by
  -- from the end, since fields only clash with those in front of them
  induction fields using List.reverseRecOn with
  | nil => exact .inl (areDistinct_nil handleType)
  | append_singleton fields last ih =>
    rcases ih with hdistinct | ⟨before, field, after, error, hsplit, hbefore, hclash⟩
    . cases hdistinct.concat_or_clashes entity last with
      | inl hall => exact .inl hall
      | inr hclash =>
        have ⟨error, hclash⟩ := hclash
        exact .inr ⟨fields, last, [], error, rfl, hdistinct, hclash⟩
    . right
      refine ⟨before, field, after ++ [last], error, ?_, hbefore, hclash⟩
      rw [hsplit]
      simp

theorem Clashes.not_areDistinct {error : ResolveError}
    (h : field.Clashes handleType entity earlier error) (later : List Field) :
    ¬ AreDistinct handleType (earlier ++ field :: later) := by
  intro hdistinct
  have hfront : AreDistinct handleType (earlier ++ [field]) := hdistinct.sublist (by simp)
  rw [areDistinct_concat_iff] at hfront
  cases h with
  | name hname => exact hfront.2.1 hname
  | handle _ hfirst htype =>
    rw [hfront.2.2 htype] at hfirst
    simp at hfirst

end Field

namespace Members

variable {handleType entity : String} {seen : List String} {earlier : List Field} {field : Field}

theorem insert_ofFields (h : field.type = handleType → earlier.find? (·.type = handleType) = none) :
    (ofFields handleType earlier).insert handleType entity field
      =
    .ok (ofFields handleType (earlier ++ [field])) := by
  unfold insert
  split
  . next htype =>
    simp [ofFields, h htype, htype]
  . next htype =>
    simp [ofFields, htype, List.find?_append, List.filter_append, List.mapIdx_concat,
      Component.ofField]

theorem insertAll_cons_of_areDistinct (hseen : ∀ name, name ∈ seen ↔ name ∈ earlier.map (·.name))
    (h : Field.AreDistinct handleType (earlier ++ [field])) (later : List Field) :
    insertAll handleType entity seen (ofFields handleType earlier) (field :: later)
      =
    insertAll handleType entity (field.name :: seen) (ofFields handleType (earlier ++ [field]))
      later := by
  rw [Field.areDistinct_concat_iff] at h
  rw [insertAll]
  rw [if_neg (by rw [hseen]; exact h.2.1)]
  rw [insert_ofFields h.2.2]
  rfl

theorem insertAll_cons_of_clashes (hseen : ∀ name, name ∈ seen ↔ name ∈ earlier.map (·.name))
    {error : ResolveError} (h : field.Clashes handleType entity earlier error)
    (later : List Field) :
    insertAll handleType entity seen (ofFields handleType earlier) (field :: later)
      =
    .error error := by
  rw [insertAll]
  cases h with
  | name hname => rw [if_pos ((hseen _).mpr hname)]
  | handle hname hfirst htype =>
    rw [if_neg (by rw [hseen]; exact hname)]
    simp [insert, ofFields, hfirst, htype]
    rfl

-- the fields in front of the ones to insert are in the members already, so `earlier` grows
theorem insertAll_append (entity : String)
    (hseen : ∀ name, name ∈ seen ↔ name ∈ earlier.map (·.name)) (before : List Field)
    (h : Field.AreDistinct handleType (earlier ++ before)) (later : List Field) :
    ∃ seenThen, (∀ name, name ∈ seenThen ↔ name ∈ (earlier ++ before).map (·.name))
      ∧ insertAll handleType entity seen (ofFields handleType earlier) (before ++ later)
          = insertAll handleType entity seenThen (ofFields handleType (earlier ++ before)) later := by
  induction before generalizing seen earlier with
  | nil =>
    refine ⟨seen, ?_, ?_⟩
    . simpa using hseen
    . simp
  | cons field before ih =>
    have hfront : Field.AreDistinct handleType (earlier ++ [field]) :=
      h.sublist (by simp)
    have hnext : ∀ name, name ∈ field.name :: seen ↔ name ∈ (earlier ++ [field]).map (·.name) := by
      intro name
      rw [List.mem_cons]
      rw [hseen]
      simp [or_comm]
    rw [List.append_cons] at h
    have ⟨seenThen, hseenThen, heq⟩ := ih hnext h
    rw [List.append_cons earlier]
    rw [List.cons_append]
    rw [insertAll_cons_of_areDistinct hseen hfront]
    exact ⟨seenThen, hseenThen, heq⟩

theorem insertAll_of_areDistinct {fields : List Field} (h : Field.AreDistinct handleType fields)
    (entity : String) :
    insertAll handleType entity [] {} fields = .ok (ofFields handleType fields) := by
  have ⟨_, _, heq⟩ := @insertAll_append handleType [] [] entity (by simp) fields h []
  rw [List.append_nil] at heq
  exact heq

theorem insertAll_of_clashes {before : List Field} (h : Field.AreDistinct handleType before)
    {error : ResolveError} (hclash : field.Clashes handleType entity before error)
    (after : List Field) :
    insertAll handleType entity [] {} (before ++ field :: after) = .error error := by
  have ⟨_, hseenThen, heq⟩ :=
    @insertAll_append handleType [] [] entity (by simp) before h (field :: after)
  rw [insertAll_cons_of_clashes hseenThen hclash] at heq
  exact heq

theorem insertAll_eq_ok_iff {fields : List Field} {members : Members} :
    insertAll handleType entity [] {} fields = .ok members
      ↔
    Field.AreDistinct handleType fields ∧ ofFields handleType fields = members := by
  rcases Field.areDistinct_or_exists_clashes handleType entity fields with
    hdistinct | ⟨before, field, after, error, hsplit, hbefore, hclash⟩
  . rw [insertAll_of_areDistinct hdistinct]
    simp [hdistinct]
  . rw [hsplit]
    rw [insertAll_of_clashes hbefore hclash]
    simp [hclash.not_areDistinct]

theorem insertAll_eq_error_iff {fields : List Field} {error : ResolveError} :
    insertAll handleType entity [] {} fields = .error error
      ↔
    ∃ before field after, fields = before ++ field :: after
      ∧ Field.AreDistinct handleType before
      ∧ field.Clashes handleType entity before error := by
  constructor
  . intro h
    rcases Field.areDistinct_or_exists_clashes handleType entity fields with
      hdistinct | ⟨before, field, after, first, hsplit, hbefore, hclash⟩
    . rw [insertAll_of_areDistinct hdistinct] at h
      simp at h
    . rw [hsplit] at h
      rw [insertAll_of_clashes hbefore hclash] at h
      rw [← Except.error.inj h]
      exact ⟨before, field, after, hsplit, hbefore, hclash⟩
  . rintro ⟨before, field, after, rfl, hbefore, hclash⟩
    exact insertAll_of_clashes hbefore hclash after

theorem components_ofFields_map_fieldName (handleType : String) (fields : List Field) :
    (ofFields handleType fields).components.map (·.fieldName)
      =
    (List.range (ofFields handleType fields).components.length).map Component.storedName := by
  apply List.ext_getElem
  . simp
  . intro index hindex hindexOther
    simp [ofFields, Component.ofField, Component.storedName]

theorem components_ofFields_map_propertyName (handleType : String) (fields : List Field) :
    (ofFields handleType fields).components.map (·.propertyName)
      =
    (fields.filter (·.type ≠ handleType)).map (·.name) := by
  apply List.ext_getElem
  . simp [ofFields]
  . intro index hindex hindexOther
    simp [ofFields, Component.ofField]

-- at most one field is a back-reference, so the first one is all of them
theorem toList_find?_of_countP_le_one {α : Type} {p : α → Bool} {list : List α}
    (h : list.countP p ≤ 1) : (list.find? p).toList = list.filter p := by
  rw [List.countP_eq_length_filter] at h
  rw [← List.head?_filter]
  cases hfilter : list.filter p with
  | nil => rfl
  | cons first rest =>
    rw [hfilter, List.length_cons] at h
    have hrest : rest = [] := List.eq_nil_of_length_eq_zero (by omega)
    rw [hrest]
    rfl

theorem toList_backReference_ofFields {fields : List Field}
    (h : Field.AreDistinct handleType fields) :
    (ofFields handleType fields).backReference.toList
      =
    (fields.filter (·.type = handleType)).map (·.name) := by
  rw [← toList_find?_of_countP_le_one h.handles]
  exact Option.toList_map

theorem backReference_append_propertyNames_perm {fields : List Field}
    (h : Field.AreDistinct handleType fields) :
    ((ofFields handleType fields).backReference.toList
      ++ (ofFields handleType fields).components.map (·.propertyName)).Perm
        (fields.map (·.name)) := by
  have hnot : fields.filter (·.type ≠ handleType)
      = fields.filter (fun field => !decide (field.type = handleType)) := by
    simp
  rw [toList_backReference_ofFields h, components_ofFields_map_propertyName, hnot,
    ← List.map_append]
  exact (List.filter_append_perm (fun field : Field => decide (field.type = handleType))
    fields).map (·.name)

end Members

namespace Descriptor

def schemaWith (descriptor : Descriptor) (access : Access) (members : Members) : Schema where
  namespaceName := descriptor.namespaceName
  declaredName := Text.trim descriptor.name
  viewName := EntityName.view (Text.trim descriptor.name)
  collectionName := EntityName.collection (Text.trim descriptor.name)
  access := access
  backReference := members.backReference
  components := members.components
  excluded := descriptor.excluded

theorem resolve_eq_map {descriptor : Descriptor} {access : Access}
    (hname : Text.trim descriptor.name ≠ "") (haccess : descriptor.resolveAccess = .ok access)
    (ecs : Ecs) :
    descriptor.resolve ecs
      =
    (Members.insertAll ecs.entity descriptor.qualifiedName [] {} descriptor.fields).map
      (descriptor.schemaWith access) := by
  unfold resolve
  dsimp only
  rw [if_neg (by simpa using hname)]
  rw [haccess]
  change (Members.insertAll _ _ _ _ _ >>= _) = _
  cases Members.insertAll ecs.entity descriptor.qualifiedName [] {} descriptor.fields <;> rfl

theorem exists_of_resolve_eq_ok {descriptor : Descriptor} {ecs : Ecs} {schema : Schema}
    (h : descriptor.resolve ecs = .ok schema) :
    ∃ access, Field.AreDistinct ecs.entity descriptor.fields
      ∧ descriptor.schemaWith access (.ofFields ecs.entity descriptor.fields) = schema := by
  by_cases hname : Text.trim descriptor.name = ""
  . simp [resolve, hname] at h
  . cases haccess : descriptor.resolveAccess with
    | error error =>
      simp only [resolve, haccess] at h
      split at h <;> cases h
    | ok access =>
      rw [resolve_eq_map hname haccess] at h
      cases hinsert : Members.insertAll ecs.entity descriptor.qualifiedName [] {}
        descriptor.fields with
      | error error =>
        rw [hinsert] at h
        cases h
      | ok members =>
        rw [hinsert] at h
        have ⟨hdistinct, hmembers⟩ := Members.insertAll_eq_ok_iff.mp hinsert
        rw [hmembers]
        exact ⟨access, hdistinct, Except.ok.inj h⟩

end Descriptor

end EntityViews
