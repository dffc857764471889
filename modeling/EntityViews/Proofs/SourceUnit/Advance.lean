import Mathlib.Algebra.Group.Int.Defs
import EntityViews.Proofs.Decl.Execution
import EntityViews.Proofs.SourceUnit.Members
import EntityViews.Proofs.Storage.Walk
import EntityViews.SourceUnit.Enumerator

/-!
This module contains what the statements of enumerators do. The loop of an advance follows the search of
cursors from one stored collection to the next one, and an accessor is bound to the stored collection that
the search ends in.
-/

namespace EntityViews

open Enumerator Statement

variable {Stored : Type}

namespace Schema

structure HasAccessorNames (schema : Schema) : Prop where
  nodup : (schema.components.map (·.fieldName)).Nodup
  free : ∀ component ∈ schema.components,
    component.fieldName ∉ [collections, collectionIndex, indexInCollection, activeCollection]

theorem HasAccessorNames.notMem {schema : Schema} (h : schema.HasAccessorNames) {name : String}
    (hname : name ∈ [collections, collectionIndex, indexInCollection, activeCollection]) :
    name ∉ schema.components.map (·.fieldName) := by
  intro hmem
  have ⟨component, hcomponent, heq⟩ := List.mem_map.mp hmem
  apply h.free component hcomponent
  rw [heq]
  exact hname

end Schema

theorem Component.storedName_notMem_fixed (index : Nat) :
    storedName index ∉ [collections, collectionIndex, indexInCollection, activeCollection] := by
  simp [storedName, collections, collectionIndex, indexInCollection, activeCollection,
    ← String.toList_inj, toString]

theorem Descriptor.hasAccessorNames_of_resolve {descriptor : Descriptor} {ecs : Ecs}
    {schema : Schema} (h : descriptor.resolve ecs = .ok schema) : schema.HasAccessorNames := by
  have ⟨hstored, _⟩ := hasDistinctMembers_iff_of_resolve h
  constructor
  . rw [hstored]
    exact List.nodup_range.map Component.storedName_injective
  . intro component hmem
    have hname : component.fieldName ∈ schema.components.map (·.fieldName) :=
      List.mem_map_of_mem hmem
    rw [hstored, List.mem_map] at hname
    have ⟨index, _, heq⟩ := hname
    rw [← heq]
    exact Component.storedName_notMem_fixed index

namespace Object

def bind (object : Object Stored) (stored : Stored) (components : List Component) :
    Object Stored :=
  components.foldl (fun object component =>
    Function.update object component.fieldName (some (.components stored component.type))) object

theorem bind_of_notMem {object : Object Stored} {stored : Stored} {components : List Component}
    {name : String} (h : name ∉ components.map (·.fieldName)) :
    object.bind stored components name = object name := by
  induction components generalizing object with
  | nil => rfl
  | cons component components ih =>
    rw [List.map_cons, List.mem_cons, not_or] at h
    have hrest := @ih (Function.update object component.fieldName
      (some (.components stored component.type))) h.2
    rw [Function.update_of_ne h.1] at hrest
    exact hrest

theorem bind_of_mem {object : Object Stored} {stored : Stored} {components : List Component}
    (hnodup : (components.map (·.fieldName)).Nodup) {component : Component}
    (h : component ∈ components) :
    object.bind stored components component.fieldName
      =
    some (.components stored component.type) := by
  induction components generalizing object with
  | nil => cases h
  | cons first components ih =>
    rw [List.map_cons, List.nodup_cons] at hnodup
    cases List.mem_cons.mp h with
    | inl heq =>
      have hrest := @bind_of_notMem _ (Function.update object first.fieldName
        (some (.components stored first.type))) stored _ _ hnodup.1
      rw [Function.update_self] at hrest
      rw [heq]
      exact hrest
    | inr hmem => exact ih hnodup.2 hmem

theorem isSome_update {object : Object Stored} {name : String} (h : (object name).isSome)
    (other : String) (value : Term.Value Stored) :
    (Function.update object other (some value) name).isSome := by
  rw [Function.update_apply]
  split
  . rfl
  . exact h

structure Tracks (prepared : Prepared Stored) (components : List Component)
    (object : Object Stored) (cursor : Cursor) : Prop where
  collections : object collections = some (.list prepared.collections)
  collectionIndex : object collectionIndex = some (.int (.ofInt cursor.collection))
  indexInCollection : object indexInCollection = some (.int (.ofInt cursor.index))
  accessors : ∀ component ∈ components, (object component.fieldName).isSome

namespace Tracks

variable {prepared : Prepared Stored} {components : List Component} {object : Object Stored}
  {cursor : Cursor}

theorem update_collectionIndex (h : object.Tracks prepared components cursor) (index : Nat) :
    Tracks prepared components
      (Function.update object Enumerator.collectionIndex (some (.int (.ofInt index))))
      { cursor with collection := index } where
  collections := by
    rw [Function.update_of_ne (by decide)]
    exact h.collections
  collectionIndex := Function.update_self _ _ _
  indexInCollection := by
    rw [Function.update_of_ne (by decide)]
    exact h.indexInCollection
  accessors := fun component hmem => isSome_update (h.accessors component hmem) _ _

theorem update_indexInCollection (h : object.Tracks prepared components cursor) (index : Int) :
    Tracks prepared components
      (Function.update object Enumerator.indexInCollection (some (.int (.ofInt index))))
      { cursor with index } where
  collections := by
    rw [Function.update_of_ne (by decide)]
    exact h.collections
  collectionIndex := by
    rw [Function.update_of_ne (by decide)]
    exact h.collectionIndex
  indexInCollection := Function.update_self _ _ _
  accessors := fun component hmem => isSome_update (h.accessors component hmem) _ _

theorem bind {schema : Schema} (hnames : schema.HasAccessorNames)
    (h : object.Tracks prepared schema.components cursor) (stored : Stored) :
    Tracks prepared schema.components (object.bind stored schema.components) cursor where
  collections := by
    rw [bind_of_notMem (hnames.notMem (by simp))]
    exact h.collections
  collectionIndex := by
    rw [bind_of_notMem (hnames.notMem (by simp))]
    exact h.collectionIndex
  indexInCollection := by
    rw [bind_of_notMem (hnames.notMem (by simp))]
    exact h.indexInCollection
  accessors := by
    intro component hmem
    rw [bind_of_mem hnames.nodup hmem]
    rfl

end Tracks

def IsBoundAt (prepared : Prepared Stored) (components : List Component) (object : Object Stored)
    (cursor : Cursor) : Prop :=
  ∃ stored, prepared.collections[cursor.collection]? = some stored
    ∧ ∀ component ∈ components,
        object component.fieldName = some (.components stored component.type)

end Object

theorem ofInt_lt_ofNat_iff {value : Int} (hge : -1 ≤ value) {n : Nat} (hlt : value < 2 ^ 31)
    (hn : n < 2 ^ 31) : Int32.ofInt value < Int32.ofNat n ↔ value < n := by
  rw [Int32.lt_iff_toInt_lt, Int32.toInt_ofInt_of_le (by omega) hlt, Int32.toInt_ofNat_of_lt hn]

namespace Enumerator

variable {prepared : Prepared Stored} {components : List Component} {object : Object Stored}
  {cursor : Cursor} {stored : Stored}

theorem eval_hasCollection (h : object.Tracks prepared components cursor)
    (hle : cursor.collection ≤ prepared.collections.length) :
    (Term.less (.var collectionIndex) (.count (.var collections))).eval prepared ⟨object, []⟩
      =
    some (.bool (cursor.collection < prepared.collections.length), ⟨object, []⟩) := by
  have hlength := prepared.length_lt
  have hiff := @ofInt_lt_ofNat_iff cursor.collection (by omega) _ (by omega) hlength
  simp [Term.eval, Frame.read, h.collections, h.collectionIndex, hiff]

theorem eval_activeCollection (h : object.Tracks prepared components cursor)
    (hstored : prepared.collections[cursor.collection]? = some stored) :
    (Term.item (.var collections) (.var collectionIndex)).eval prepared ⟨object, []⟩
      =
    some (.stored stored, ⟨object, []⟩) := by
  have hlt := (List.getElem?_eq_some_iff.mp hstored).1
  have hlength := prepared.length_lt
  have hindex : (Int32.ofInt cursor.collection).toInt = cursor.collection :=
    Int32.toInt_ofInt_of_le (by omega) (by omega)
  simp [Term.eval, Frame.read, h.collections, h.collectionIndex, hindex, Int.toNat?, hstored]

def visiting (object : Object Stored) (stored : Stored) : Frame Stored :=
  ⟨object, [(activeCollection, .stored stored)]⟩

theorem read_visiting_self :
    (visiting object stored).read activeCollection = some (.stored stored) := by
  simp [Frame.read, visiting]

theorem read_visiting_of_ne {name : String} (h : name ≠ activeCollection) (stored : Stored) :
    (visiting object stored).read name = object name := by
  exact Frame.read_of_notMem (by simpa using h)

theorem assign_visiting_of_ne {name : String} (h : name ≠ activeCollection)
    (hdeclared : (object name).isSome) (stored : Stored) (value : Term.Value Stored) :
    (visiting object stored).assign name value
      =
    some (visiting (Function.update object name (some value)) stored) := by
  exact Frame.assign_of_notMem (by simpa using h) hdeclared value

theorem leave_visiting (outer : Object Stored) :
    (visiting object stored).leave ⟨outer, []⟩ = ⟨object, []⟩ := by
  rfl

theorem leave_visiting_visiting (outer : Object Stored) :
    (visiting object stored).leave (visiting outer stored) = visiting object stored := by
  rfl

theorem eval_hasEntity (h : object.Tracks prepared components cursor) (hge : -1 ≤ cursor.index)
    (hlt : cursor.index < prepared.count stored) (hcount : prepared.count stored < 2 ^ 31) :
    (Term.less (.increment indexInCollection) (.count (.var activeCollection))).eval prepared
        (visiting object stored)
      =
    some (.bool (cursor.index + 1 < prepared.count stored),
      visiting (Function.update object indexInCollection
        (some (.int (.ofInt (cursor.index + 1))))) stored) := by
  have hiff := @ofInt_lt_ofNat_iff (cursor.index + 1) (by omega) _ (by omega) hcount
  have hnext : Int32.ofInt cursor.index + 1 = Int32.ofInt (cursor.index + 1) := by
    rw [Int32.ofInt_add]
    rfl
  have hne : indexInCollection ≠ activeCollection := by decide
  have hread := (read_visiting_of_ne hne stored).trans h.indexInCollection
  have hassign := assign_visiting_of_ne hne (Option.isSome_of_eq_some h.indexInCollection) stored
  rw [← hnext] at hiff ⊢
  simp [Term.eval, hread, hassign, read_visiting_self, hiff]

theorem eval_next (h : object.Tracks prepared components cursor) :
    (Term.increment collectionIndex).eval prepared (visiting object stored)
      =
    some (.int (.ofInt (cursor.collection + 1 : Nat)),
      visiting (Function.update object collectionIndex
        (some (.int (.ofInt (cursor.collection + 1 : Nat))))) stored) := by
  have hnext : Int32.ofInt cursor.collection + 1 = Int32.ofInt (cursor.collection + 1 : Nat) := by
    rw [Int.natCast_add, Int32.ofInt_add]
    rfl
  have hne : collectionIndex ≠ activeCollection := by decide
  have hread := (read_visiting_of_ne hne stored).trans h.collectionIndex
  have hassign := assign_visiting_of_ne hne (Option.isSome_of_eq_some h.collectionIndex) stored
  rw [← hnext]
  simp [Term.eval, hread, hassign]

def visit (components : List Component) : List Statement :=
  [.declare Ecs.collectionInterface activeCollection (.item (.var collections) (.var collectionIndex)),
    .ifThen (.less (.increment indexInCollection) (.count (.var activeCollection)))
      (bindAccessors components ++ [.return (.bool true)]),
    .assign indexInCollection (.int (-1)),
    .eval (.increment collectionIndex)]

theorem moveNext_eq (components : List Component) :
    moveNext components
      =
    [.while (.less (.var collectionIndex) (.count (.var collections))) (visit components),
      .return (.bool false)] := by
  rfl

variable {methods : String → Option (List Statement)} {schema : Schema}

theorem executes_bindAccessors (hfree : activeCollection ∉ components.map (·.fieldName))
    (hdeclared : ∀ component ∈ components, (object component.fieldName).isSome)
    {statements : List Statement} {returned : Option (Term.Value Stored)} {after : Frame Stored}
    (hrest : Executes prepared methods statements (visiting (object.bind stored components) stored)
      returned after) :
    Executes prepared methods (bindAccessors components ++ statements) (visiting object stored)
      returned after := by
  induction components generalizing object with
  | nil => exact hrest
  | cons component components ih =>
    rw [List.map_cons, List.mem_cons, not_or] at hfree
    rw [List.forall_mem_cons] at hdeclared
    have heval : (Term.components (.var activeCollection) component.type).eval prepared
        (visiting object stored) = some (.components stored component.type, visiting object stored) := by
      simp [Term.eval, read_visiting_self]
    have hassign := assign_visiting_of_ne (Ne.symm hfree.1) hdeclared.1 stored
      (.components stored component.type)
    rw [bindAccessors, List.map_cons, List.cons_append]
    apply Executes.assign heval hassign
    exact ih hfree.2 (fun other hmem => Object.isSome_update (hdeclared.2 other hmem) _ _) hrest

theorem executes_visit_of_lt (hnames : schema.HasAccessorNames)
    (h : object.Tracks prepared schema.components cursor)
    (hstored : prepared.collections[cursor.collection]? = some stored)
    (hge : -1 ≤ cursor.index) (hlt : cursor.index + 1 < prepared.count stored) :
    ∃ after, Executes prepared methods (visit schema.components) ⟨object, []⟩ (some (.bool true))
        (visiting after stored)
      ∧ after.Tracks prepared schema.components { cursor with index := cursor.index + 1 }
      ∧ ∀ component ∈ schema.components,
          after component.fieldName = some (.components stored component.type) := by
  have hcount := prepared.count_lt stored (List.mem_of_getElem? hstored)
  have hadvanced := h.update_indexInCollection (cursor.index + 1)
  have hcondition := eval_hasEntity h hge (by omega) hcount
  rw [decide_eq_true hlt] at hcondition
  refine ⟨_, ?_, hadvanced.bind hnames stored, fun component hmem =>
    Object.bind_of_mem hnames.nodup hmem⟩
  unfold visit
  apply Executes.declare (eval_activeCollection h hstored) rfl
  rw [← leave_visiting_visiting]
  apply Executes.ifReturned hcondition
  apply executes_bindAccessors (hnames.notMem (by simp)) hadvanced.accessors
  exact .return rfl

theorem executes_visit_of_last (h : object.Tracks prepared components cursor)
    (hstored : prepared.collections[cursor.collection]? = some stored)
    (hge : -1 ≤ cursor.index) (hlast : cursor.index + 1 = prepared.count stored) :
    ∃ after, Executes prepared methods (visit components) ⟨object, []⟩ none (visiting after stored)
      ∧ after.Tracks prepared components ⟨cursor.collection + 1, -1⟩ := by
  have hcount := prepared.count_lt stored (List.mem_of_getElem? hstored)
  have hadvanced := h.update_indexInCollection (cursor.index + 1)
  have hcondition := eval_hasEntity h hge (by omega) hcount
  rw [decide_eq_false (by omega)] at hcondition
  have hrestarted := hadvanced.update_indexInCollection (-1)
  have hassign := assign_visiting_of_ne (by decide)
    (Option.isSome_of_eq_some hadvanced.indexInCollection) stored
  refine ⟨_, ?_, hrestarted.update_collectionIndex (cursor.collection + 1)⟩
  unfold visit
  apply Executes.declare (eval_activeCollection h hstored) rfl
  apply Executes.ifFalse hcondition
  apply Executes.assign rfl (hassign _)
  apply Executes.eval (eval_next hrestarted)
  exact .nil

-- the induction is on the stored collections that are still to be visited
theorem executes_moveNext_of_drop (hnames : schema.HasAccessorNames) {rest : List Stored}
    (h : object.Tracks prepared schema.components cursor) (hbounds : cursor.InBounds prepared.counts)
    (hrest : prepared.collections.drop cursor.collection = rest) :
    let found := cursor.seek (rest.map prepared.count)
    ∃ after, Executes prepared methods (moveNext schema.components) ⟨object, []⟩
          (some (.bool found.1)) ⟨after, []⟩
      ∧ after.Tracks prepared schema.components found.2
      ∧ (found.1 → after.IsBoundAt prepared schema.components found.2) := by
  rw [moveNext_eq]
  induction rest generalizing object cursor with
  | nil =>
    have hle := hbounds.collection_le
    rw [Prepared.counts, List.length_map] at hle
    have hcondition := eval_hasCollection h hle
    rw [List.drop_eq_nil_iff] at hrest
    rw [decide_eq_false (by omega)] at hcondition
    exact ⟨object, .whileFalse hcondition (.return rfl), h, by simp [Cursor.seek]⟩
  | cons stored rest ih =>
    have hstored : prepared.collections[cursor.collection]? = some stored := by
      rw [← List.head?_drop, hrest]
      rfl
    have hlt : cursor.collection < prepared.collections.length :=
      (List.getElem?_eq_some_iff.mp hstored).1
    have hcondition := eval_hasCollection h (Nat.le_of_lt hlt)
    rw [decide_eq_true hlt] at hcondition
    have hindex : cursor.index < prepared.count stored := by
      simpa [Prepared.counts, hstored] using hbounds.index_lt
    have hge := hbounds.index_ge
    rw [List.map_cons]
    by_cases hentity : cursor.index + 1 < prepared.count stored
    . have ⟨after, hvisit, htracks, hbound⟩ := @executes_visit_of_lt _ _ _ _ _ methods _ hnames h
        hstored hge hentity
      rw [Cursor.seek_cons_of_lt (by omega)]
      refine ⟨after, ?_, htracks, fun _ => ⟨stored, hstored, hbound⟩⟩
      change Executes _ _ _ _ _ ((visiting after stored).leave ⟨object, []⟩)
      exact .whileReturned hcondition hvisit
    . have ⟨between, hvisit, hbetween⟩ := @executes_visit_of_last _ _ _ _ _ _ methods h hstored hge
        (by omega)
      have hnext : prepared.collections.drop (cursor.collection + 1) = rest := by
        rw [← List.tail_drop, hrest]
        rfl
      have hboundsNext : Cursor.InBounds prepared.counts ⟨cursor.collection + 1, -1⟩ := by
        apply Cursor.inBounds_of_le
        rw [Prepared.counts, List.length_map]
        exact hlt
      rw [Cursor.seek_cons_of_le (by omega)]
      have ⟨after, hagain, htracks, hbound⟩ := ih hbetween hboundsNext hnext
      rw [← leave_visiting object] at hagain
      exact ⟨after, .whilePassed hcondition hvisit hagain, htracks, hbound⟩

theorem executes_moveNext (hnames : schema.HasAccessorNames)
    (h : object.Tracks prepared schema.components cursor)
    (hbounds : cursor.InBounds prepared.counts) :
    let found := cursor.moveNext prepared.counts
    ∃ after, Executes prepared methods (moveNext schema.components) ⟨object, []⟩
          (some (.bool found.1)) ⟨after, []⟩
      ∧ after.Tracks prepared schema.components found.2
      ∧ (found.1 → after.IsBoundAt prepared schema.components found.2) := by
  unfold Cursor.moveNext Prepared.counts
  rw [← List.map_drop]
  exact executes_moveNext_of_drop hnames h hbounds rfl

theorem executes_restart {locals : List (String × Term.Value Stored)}
    (hlocals : collectionIndex ∉ locals.map (·.1) ∧ indexInCollection ∉ locals.map (·.1))
    (h : object.Tracks prepared components cursor) :
    ∃ after, Executes prepared methods restart ⟨object, locals⟩ none ⟨after, locals⟩
      ∧ after.Tracks prepared components Cursor.start := by
  have hcollection := h.update_collectionIndex 0
  have hassign := Frame.assign_of_notMem hlocals.1 (Option.isSome_of_eq_some h.collectionIndex)
  have hassignIndex := Frame.assign_of_notMem hlocals.2
    (Option.isSome_of_eq_some hcollection.indexInCollection)
  refine ⟨_, ?_, hcollection.update_indexInCollection (-1)⟩
  unfold restart
  apply Executes.assign rfl (hassign _)
  apply Executes.assign rfl (hassignIndex _)
  exact .nil

end Enumerator

end EntityViews
