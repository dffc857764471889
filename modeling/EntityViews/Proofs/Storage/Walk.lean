import Mathlib.Data.List.DropRight
import EntityViews.Storage.Cursor

/-!
This module contains the walk of cursors. The places of all entities, in the order in which they are
stored, form one list, and a cursor is nothing but the number of its advances over this list since it
was in front of the first entity.
-/

namespace EntityViews

namespace Position

def Before (first second : Position) : Prop :=
  first.collection < second.collection
    ∨ (first.collection = second.collection ∧ first.index < second.index)

def allFrom (collection : Nat) : List Nat → List Position
  | [] => []
  | count :: counts =>
    (List.range count).map (Position.mk collection) ++ allFrom (collection + 1) counts

def all (counts : List Nat) : List Position :=
  allFrom 0 counts

theorem mem_allFrom {collection : Nat} {counts : List Nat} {place : Position} :
    place ∈ allFrom collection counts
      ↔
    collection ≤ place.collection
      ∧ ∃ count, counts[place.collection - collection]? = some count ∧ place.index < count := by
  induction counts generalizing collection with
  | nil => simp [allFrom]
  | cons count counts ih =>
    rcases place with ⟨found, index⟩
    rw [allFrom]
    rw [List.mem_append]
    rw [ih]
    simp only [List.mem_map, List.mem_range, mk.injEq]
    constructor
    . rintro (⟨found, hfound, rfl, rfl⟩ | ⟨hle, hcount⟩)
      . simpa using hfound
      . have hsub : found - collection = found - (collection + 1) + 1 := by omega
        rw [hsub]
        exact ⟨by omega, by simpa using hcount⟩
    . rintro ⟨hle, hcount⟩
      cases Nat.eq_or_lt_of_le hle with
      | inl heq =>
        left
        rw [← heq] at hcount
        exact ⟨index, by simpa using hcount, heq, rfl⟩
      | inr hlt =>
        right
        have hsub : found - collection = found - (collection + 1) + 1 := by omega
        rw [hsub] at hcount
        exact ⟨by omega, by simpa using hcount⟩

theorem mem_all {counts : List Nat} {place : Position} :
    place ∈ all counts
      ↔
    ∃ count, counts[place.collection]? = some count ∧ place.index < count := by
  unfold all
  rw [mem_allFrom]
  simp

theorem pairwise_allFrom (collection : Nat) (counts : List Nat) :
    (allFrom collection counts).Pairwise Before := by
  induction counts generalizing collection with
  | nil => exact .nil
  | cons count counts ih =>
    rw [allFrom]
    rw [List.pairwise_append]
    refine ⟨?_, ih (collection + 1), ?_⟩
    . rw [List.pairwise_map]
      apply List.pairwise_lt_range.imp
      intro first second hlt
      right
      exact ⟨rfl, hlt⟩
    . intro first hfirst second hsecond
      left
      rw [mem_allFrom] at hsecond
      rw [List.mem_map] at hfirst
      have ⟨index, _, heq⟩ := hfirst
      rw [← heq]
      exact hsecond.1

-- the places after a place begin in its own collection, at the next index
theorem drop_allFrom {collection : Nat} {counts : List Nat} {k : Nat} {place : Position}
    (h : (allFrom collection counts)[k]? = some place) :
    (allFrom collection counts).drop (k + 1)
      =
    (allFrom place.collection (counts.drop (place.collection - collection))).drop
      (place.index + 1) := by
  induction counts generalizing collection k with
  | nil => simp [allFrom] at h
  | cons count counts ih =>
    rw [allFrom] at h
    by_cases hk : k < count
    . rw [List.getElem?_append_left (by simpa using hk)] at h
      simp only [List.getElem?_map, List.getElem?_range hk, Option.map_some,
        Option.some.injEq] at h
      rw [← h]
      simp
    . have hlength : ((List.range count).map (Position.mk collection)).length = count := by simp
      rw [List.getElem?_append_right (by omega)] at h
      rw [hlength] at h
      have hle := (mem_allFrom.mp (List.mem_of_getElem? h)).1
      have hsub : place.collection - collection = place.collection - (collection + 1) + 1 := by
        omega
      rw [hsub]
      rw [List.drop_succ_cons]
      rw [← ih h]
      rw [allFrom]
      rw [List.drop_append]
      rw [List.drop_eq_nil_of_le (by omega)]
      rw [hlength]
      rw [List.nil_append]
      congr 1
      omega

end Position

namespace Cursor

def afterAdvances (counts : List Nat) : Nat → Cursor
  | 0 => start
  | k + 1 =>
    match (Position.all counts)[k]? with
    | some place => ⟨place.collection, place.index⟩
    | none => ⟨counts.length, -1⟩

inductive Operation where
  | moveNext
  | step
  | next
  | current
  | reset
  | dispose
deriving DecidableEq, Repr

namespace Operation

def isAdvance : Operation → Bool
  | .moveNext | .step | .next => true
  | _ => false

def isReset : Operation → Bool
  | .reset | .dispose => true
  | _ => false

def advances (operations : List Operation) : Nat :=
  (operations.rtakeWhile (!·.isReset)).countP isAdvance

def perform (counts : List Nat) (cursor : Cursor) : Operation → Cursor
  | .moveNext => (cursor.moveNext counts).2
  | .step => (cursor.step counts).2
  | .next => (cursor.next counts).2
  | .current => cursor
  | .reset => cursor.reset
  | .dispose => cursor.dispose

end Operation

def afterOperations (counts : List Nat) (operations : List Operation) : Cursor :=
  operations.foldl (Operation.perform counts) start

-- the entities of the first collection in front of the cursor are `passed`
theorem seek_eq (counts : List Nat) (collection passed : Nat) (h : passed ≤ counts.headD 0) :
    seek ⟨collection, passed - 1⟩ counts
      =
    match (Position.allFrom collection counts)[passed]? with
    | some place => (true, ⟨place.collection, place.index⟩)
    | none => (false, ⟨collection + counts.length, -1⟩) := by
  induction counts generalizing collection passed with
  | nil =>
    have hpassed : passed = 0 := by simpa using h
    rw [hpassed]
    rfl
  | cons count counts ih =>
    rw [List.headD_cons] at h
    have hindex : (passed : Int) - 1 + 1 = passed := by omega
    unfold seek
    simp only [hindex, Int.toNat_natCast]
    rw [Position.allFrom]
    split
    . next hlt =>
      rw [List.getElem?_append_left (by simpa using hlt)]
      simp [hlt]
    . next hge =>
      -- all entities of the first collection are passed, so the walk goes on in the next one
      have hpassed : passed = count := by omega
      have hnext := ih (collection + 1) 0 (Nat.zero_le _)
      have hstart : ((0 : Nat) : Int) - 1 = -1 := rfl
      rw [List.getElem?_append_right (by simp [hpassed])]
      rw [hstart] at hnext
      rw [hnext]
      simp [hpassed, Nat.add_assoc, Nat.add_comm 1]

theorem getElem?_all_succ {counts : List Nat} {k : Nat} {place : Position}
    (h : (Position.all counts)[k]? = some place) :
    (Position.all counts)[k + 1]?
      =
    (Position.allFrom place.collection (counts.drop place.collection))[place.index + 1]? := by
  have hdrop := Position.drop_allFrom h
  rw [Nat.sub_zero] at hdrop
  rw [← List.head?_drop]
  rw [← List.head?_drop]
  rw [← hdrop]
  rfl

theorem moveNext_of_getElem?_all {counts : List Nat} {k : Nat} {place : Position}
    (h : (Position.all counts)[k]? = some place) :
    moveNext counts ⟨place.collection, place.index⟩
      =
    match (Position.all counts)[k + 1]? with
    | some next => (true, ⟨next.collection, next.index⟩)
    | none => (false, ⟨counts.length, -1⟩) := by
  have ⟨count, hcount, hindex⟩ := Position.mem_all.mp (List.mem_of_getElem? h)
  have hlt : place.collection < counts.length := by
    rw [List.getElem?_eq_some_iff] at hcount
    exact hcount.1
  have hpassed : place.index + 1 ≤ (counts.drop place.collection).headD 0 := by
    rw [List.headD_eq_head?_getD]
    rw [List.head?_drop]
    rw [hcount]
    exact hindex
  have hseek := seek_eq _ place.collection _ hpassed
  have hlast : ((place.index + 1 : Nat) : Int) - 1 = place.index := by omega
  have hend : place.collection + (counts.drop place.collection).length = counts.length := by
    rw [List.length_drop]
    omega
  rw [← getElem?_all_succ h] at hseek
  rw [hlast] at hseek
  rw [hend] at hseek
  exact hseek

theorem moveNext_afterAdvances (counts : List Nat) (k : Nat) :
    (afterAdvances counts k).moveNext counts
      =
    ((Position.all counts)[k]?.isSome, afterAdvances counts (k + 1)) := by
  cases k with
  | zero =>
    have hseek := seek_eq counts 0 0 (Nat.zero_le _)
    simp only [afterAdvances]
    change seek ⟨0, -1⟩ counts = _
    change seek ⟨0, -1⟩ counts = _ at hseek
    rw [hseek]
    rw [Position.all]
    cases (Position.allFrom 0 counts)[0]? with
    | none => simp
    | some place => rfl
  | succ k =>
    cases hplace : (Position.all counts)[k]? with
    | none =>
      have hnext : (Position.all counts)[k + 1]? = none := by
        rw [List.getElem?_eq_none_iff] at *
        omega
      unfold moveNext
      simp only [afterAdvances, hplace, hnext]
      rw [List.drop_length]
      rfl
    | some place =>
      simp only [afterAdvances, hplace]
      rw [moveNext_of_getElem?_all hplace]
      cases (Position.all counts)[k + 1]? with
      | none => rfl
      | some next => rfl

theorem current_afterAdvances (counts : List Nat) (k : Nat) :
    (afterAdvances counts k).current counts
      =
    if k = 0 then none else (Position.all counts)[k - 1]? := by
  cases k with
  | zero => rfl
  | succ k =>
    simp only [afterAdvances]
    rw [if_neg (by omega)]
    rw [Nat.add_sub_cancel]
    cases hplace : (Position.all counts)[k]? with
    | none => rfl
    | some place =>
      have ⟨count, hcount, hindex⟩ := Position.mem_all.mp (List.mem_of_getElem? hplace)
      simp [current, hcount, hindex]

theorem step_afterAdvances (counts : List Nat) (k : Nat) :
    (afterAdvances counts k).step counts
      =
    ((Position.all counts)[k]?, afterAdvances counts (k + 1)) := by
  unfold step
  rw [moveNext_afterAdvances]
  simp only [afterAdvances]
  cases (Position.all counts)[k]? with
  | none => rfl
  | some place => simp

theorem next_afterAdvances (counts : List Nat) (k : Nat) :
    (afterAdvances counts k).next counts
      =
    ((Position.all counts)[k]?, afterAdvances counts (k + 1)) := by
  have hcurrent := current_afterAdvances counts (k + 1)
  rw [if_neg (by omega)] at hcurrent
  rw [Nat.add_sub_cancel] at hcurrent
  unfold next
  rw [moveNext_afterAdvances]
  cases hplace : (Position.all counts)[k]? with
  | none => rfl
  | some place =>
    rw [hplace] at hcurrent
    simp [hcurrent]

namespace Operation

theorem advances_concat (operations : List Operation) (operation : Operation) :
    advances (operations ++ [operation])
      =
    if operation.isReset then
      0
    else
      advances operations + if operation.isAdvance then 1 else 0 := by
  unfold advances
  rw [List.rtakeWhile_concat]
  cases operation.isReset with
  | true => rfl
  | false => simp [List.countP_append, List.countP_cons]

theorem perform_afterAdvances (counts : List Nat) (operations : List Operation)
    (operation : Operation) :
    perform counts (afterAdvances counts (advances operations)) operation
      =
    afterAdvances counts (advances (operations ++ [operation])) := by
  rw [advances_concat]
  cases operation with
  | moveNext => exact congrArg Prod.snd (moveNext_afterAdvances counts _)
  | step => exact congrArg Prod.snd (step_afterAdvances counts _)
  | next => exact congrArg Prod.snd (next_afterAdvances counts _)
  | current => rfl
  | reset => rfl
  | dispose => rfl

end Operation

theorem afterOperations_eq_afterAdvances (counts : List Nat) (operations : List Operation) :
    afterOperations counts operations = afterAdvances counts (Operation.advances operations) := by
  induction operations using List.reverseRecOn with
  | nil => rfl
  | append_singleton operations operation ih =>
    unfold afterOperations at *
    rw [List.foldl_concat]
    rw [ih]
    exact Operation.perform_afterAdvances counts operations operation

structure InBounds (counts : List Nat) (cursor : Cursor) : Prop where
  collection_le : cursor.collection ≤ counts.length
  index_ge : -1 ≤ cursor.index
  index_lt : cursor.index < counts.getD cursor.collection 0

theorem inBounds_of_le {counts : List Nat} {collection : Nat} (h : collection ≤ counts.length) :
    InBounds counts ⟨collection, -1⟩ where
  collection_le := h
  index_ge := Int.le_refl _
  index_lt := by
    change -1 < (_ : Int)
    omega

theorem inBounds_afterAdvances (counts : List Nat) (k : Nat) :
    (afterAdvances counts k).InBounds counts := by
  cases k with
  | zero => exact inBounds_of_le (Nat.zero_le _)
  | succ k =>
    cases hplace : (Position.all counts)[k]? with
    | none =>
      simp only [afterAdvances, hplace]
      exact inBounds_of_le (Nat.le_refl _)
    | some place =>
      have ⟨count, hcount, hindex⟩ := Position.mem_all.mp (List.mem_of_getElem? hplace)
      have hlt := (List.getElem?_eq_some_iff.mp hcount).1
      simp only [afterAdvances, hplace]
      refine ⟨Nat.le_of_lt hlt, Int.le_trans (by decide) (Int.natCast_nonneg place.index), ?_⟩
      rw [List.getD_eq_getElem?_getD, hcount]
      exact Int.ofNat_lt.mpr hindex

theorem seek_cons_of_lt {cursor : Cursor} {count : Nat} (h : (cursor.index + 1).toNat < count)
    (counts : List Nat) :
    cursor.seek (count :: counts) = (true, { cursor with index := cursor.index + 1 }) := by
  exact if_pos h

theorem seek_cons_of_le {cursor : Cursor} {count : Nat} (h : count ≤ (cursor.index + 1).toNat)
    (counts : List Nat) :
    cursor.seek (count :: counts) = seek ⟨cursor.collection + 1, -1⟩ counts := by
  exact if_neg (Nat.not_lt.mpr h)

theorem perform_afterOperations (counts : List Nat) (operations : List Operation)
    (operation : Operation) :
    operation.perform counts (afterOperations counts operations)
      =
    afterOperations counts (operations ++ [operation]) := by
  unfold afterOperations
  rw [List.foldl_concat]

theorem inBounds_afterOperations (counts : List Nat) (operations : List Operation) :
    (afterOperations counts operations).InBounds counts := by
  rw [afterOperations_eq_afterAdvances]
  exact inBounds_afterAdvances counts _

theorem afterOperations_walks_all (counts : List Nat) (operations : List Operation) :
    let places := Position.all counts
    let cursor := afterOperations counts operations
    let k := Operation.advances operations
    (places.Pairwise Position.Before
        ∧ ∀ place, place ∈ places
            ↔ ∃ count, counts[place.collection]? = some count ∧ place.index < count)
      ∧ (cursor.moveNext counts).1 = places[k]?.isSome
      ∧ (cursor.step counts).1 = places[k]?
      ∧ (cursor.next counts).1 = places[k]?
      ∧ cursor.current counts = if k = 0 then none else places[k - 1]? := by
  intro places cursor k
  have hcursor : cursor = afterAdvances counts k := afterOperations_eq_afterAdvances _ _
  rw [hcursor]
  refine ⟨⟨?_, ?_⟩, ?_, ?_, ?_, ?_⟩
  . exact Position.pairwise_allFrom 0 counts
  . intro place
    exact Position.mem_all
  . rw [moveNext_afterAdvances]
  . rw [step_afterAdvances]
  . rw [next_afterAdvances]
  . exact current_afterAdvances counts k

end Cursor

end EntityViews
