import EntityViews.Proofs.Storage.Walk

/-!
This module contains the places that a cursor still has in front of it. However a cursor was moved so
far, these are the places behind its own one in the storage, and all ways to go on with the walk
deliver them from the first one on.
-/

namespace EntityViews

namespace Position

instance (first second : Position) : Decidable (first.Before second) :=
  inferInstanceAs (Decidable (_ ∨ _))

theorem Before.asymm {first second : Position} (h : first.Before second) :
    ¬ second.Before first := by
  unfold Before at *
  omega

theorem not_before_self (place : Position) : ¬ place.Before place := by
  unfold Before
  omega

theorem filter_before {places : List Position} (h : places.Pairwise Before) {k : Nat}
    {place : Position} (hplace : places[k]? = some place) :
    places.filter (place.Before ·) = places.drop (k + 1) := by
  induction places generalizing k with
  | nil => simp at hplace
  | cons first places ih =>
    rw [List.pairwise_cons] at h
    cases k with
    | zero =>
      rw [List.getElem?_cons_zero, Option.some.injEq] at hplace
      rw [← hplace]
      rw [List.filter_cons_of_neg (by simpa using first.not_before_self)]
      apply List.filter_eq_self.mpr
      intro other hother
      exact decide_eq_true (h.1 other hother)
    | succ k =>
      rw [List.getElem?_cons_succ] at hplace
      have hbefore := h.1 place (List.mem_of_getElem? hplace)
      rw [List.filter_cons_of_neg (by simpa using hbefore.asymm)]
      exact ih h.2 hplace

theorem length_allFrom (collection : Nat) (counts : List Nat) :
    (allFrom collection counts).length = counts.foldr (· + ·) 0 := by
  induction counts generalizing collection with
  | nil => rfl
  | cons count counts ih => simp [allFrom, ih]

end Position

namespace Cursor

def IsBefore (cursor : Cursor) (place : Position) : Prop :=
  cursor.collection < place.collection
    ∨ (cursor.collection = place.collection ∧ cursor.index < place.index)

instance (cursor : Cursor) (place : Position) : Decidable (cursor.IsBefore place) :=
  inferInstanceAs (Decidable (_ ∨ _))

def rest (counts : List Nat) (cursor : Cursor) : List Position :=
  (Position.all counts).filter cursor.IsBefore

structure IsExhausted (counts : List Nat) (cursor : Cursor) : Prop where
  rest : cursor.rest counts = []
  current : cursor.current counts = none

inductive Call where
  | single (operation : Operation)
  | nth (n : Nat)
  | count
deriving DecidableEq, Repr

def Call.perform (counts : List Nat) (cursor : Cursor) : Call → Cursor
  | .single operation => operation.perform counts cursor
  | .nth n => (cursor.nth counts n).2
  | .count => (cursor.count counts).2

def afterCalls (counts : List Nat) (calls : List Call) : Cursor :=
  calls.foldl (Call.perform counts) start

/--
The outcome of an advance by `n + 1` places over the given ones. It tells the place that the cursor
is at then, and there is none if there are not so many places.
-/
structure Delivers (counts : List Nat) (places : List Position) (n : Nat)
    (outcome : Option Position × Cursor) : Prop where
  place : outcome.1 = places[n]?
  rest : outcome.2.rest counts = places.drop (n + 1)
  current : outcome.2.current counts = outcome.1
  isExhausted : places.length ≤ n → outcome.2.IsExhausted counts

theorem rest_start (counts : List Nat) : start.rest counts = Position.all counts := by
  apply List.filter_eq_self.mpr
  intro place _
  apply decide_eq_true
  change 0 < place.collection ∨ (0 = place.collection ∧ (-1 : Int) < place.index)
  omega

theorem rest_of_length_le (counts : List Nat) : rest counts ⟨counts.length, -1⟩ = [] := by
  apply List.filter_eq_nil_iff.mpr
  intro place hplace
  have ⟨count, hcount, _⟩ := Position.mem_all.mp hplace
  have hlt := (List.getElem?_eq_some_iff.mp hcount).1
  rw [decide_eq_true_iff]
  change ¬ (counts.length < place.collection ∨ (counts.length = place.collection ∧ _))
  omega

theorem rest_of_getElem?_all {counts : List Nat} {k : Nat} {place : Position}
    (h : (Position.all counts)[k]? = some place) :
    rest counts ⟨place.collection, place.index⟩ = (Position.all counts).drop (k + 1) := by
  unfold Position.all at *
  rw [← Position.filter_before (Position.pairwise_allFrom 0 counts) h]
  apply List.filter_congr
  intro other _
  rw [decide_eq_decide]
  unfold IsBefore Position.Before
  dsimp only
  omega

theorem rest_afterAdvances (counts : List Nat) (k : Nat) :
    (afterAdvances counts k).rest counts = (Position.all counts).drop k := by
  cases k with
  | zero => exact rest_start counts
  | succ k =>
    simp only [afterAdvances]
    cases hplace : (Position.all counts)[k]? with
    | none =>
      rw [List.getElem?_eq_none_iff] at hplace
      rw [List.drop_eq_nil_of_le (by omega)]
      exact rest_of_length_le counts
    | some place => exact rest_of_getElem?_all hplace

theorem afterAdvances_succ_of_le {counts : List Nat} {k : Nat}
    (h : (Position.all counts).length ≤ k) :
    afterAdvances counts (k + 1) = ⟨counts.length, -1⟩ := by
  simp only [afterAdvances]
  rw [List.getElem?_eq_none_iff.mpr h]

theorem nth_afterAdvances (counts : List Nat) (k n : Nat) :
    (afterAdvances counts k).nth counts n
      =
    ((Position.all counts)[k + n]?, afterAdvances counts (k + n + 1)) := by
  induction n generalizing k with
  | zero => exact next_afterAdvances counts k
  | succ n ih =>
    unfold nth
    rw [next_afterAdvances]
    cases hplace : (Position.all counts)[k]? with
    | some place =>
      dsimp only
      rw [ih]
      rw [Nat.add_right_comm k 1 n]
      rfl
    | none =>
      rw [List.getElem?_eq_none_iff] at hplace
      dsimp only
      rw [List.getElem?_eq_none_iff.mpr (by omega)]
      rw [afterAdvances_succ_of_le hplace]
      rw [afterAdvances_succ_of_le (by omega)]

theorem remaining_afterAdvances (counts : List Nat) (k : Nat) :
    (afterAdvances counts k).remaining counts = (Position.all counts).length - k := by
  cases k with
  | zero =>
    rw [Position.all]
    rw [Position.length_allFrom]
    cases counts with
    | nil => rfl
    | cons count counts => rfl
  | succ k =>
    simp only [afterAdvances]
    cases hplace : (Position.all counts)[k]? with
    | none =>
      rw [List.getElem?_eq_none_iff] at hplace
      rw [Nat.sub_eq_zero_of_le (by omega)]
      unfold remaining
      rw [List.drop_length]
    | some place =>
      obtain ⟨count, hcount, hindex⟩ := Position.mem_all.mp (List.mem_of_getElem? hplace)
      have hdrop : (Position.all counts).drop (k + 1) = _ := Position.drop_allFrom hplace
      have hlength := congrArg List.length hdrop
      obtain ⟨hlt, hget⟩ := List.getElem?_eq_some_iff.mp hcount
      rw [List.length_drop] at hlength
      rw [hlength]
      rw [Nat.sub_zero]
      rw [List.drop_eq_getElem_cons hlt]
      rw [List.length_drop]
      rw [Position.length_allFrom]
      simp only [remaining]
      rw [List.drop_eq_getElem_cons hlt]
      simp only [List.foldr_cons]
      omega

theorem count_go_afterAdvances (counts : List Nat) {k limit : Nat}
    (h : (Position.all counts).length - k < limit) (passed : Nat) :
    count.go counts limit passed (afterAdvances counts k)
      =
    (passed + ((Position.all counts).length - k), ⟨counts.length, -1⟩) := by
  induction limit generalizing k passed with
  | zero => omega
  | succ limit ih =>
    unfold count.go
    rw [next_afterAdvances]
    cases hplace : (Position.all counts)[k]? with
    | none =>
      rw [List.getElem?_eq_none_iff] at hplace
      dsimp only
      rw [afterAdvances_succ_of_le hplace]
      rw [Nat.sub_eq_zero_of_le hplace]
      rfl
    | some place =>
      have hlt := (List.getElem?_eq_some_iff.mp hplace).1
      dsimp only
      rw [ih (by omega)]
      rw [Prod.mk.injEq]
      exact ⟨by omega, rfl⟩

-- the limit is one more than the number of places, so the last advance is the one that fails
theorem count_afterAdvances (counts : List Nat) (k : Nat) :
    (afterAdvances counts k).count counts
      =
    ((Position.all counts).length - k, ⟨counts.length, -1⟩) := by
  unfold count
  rw [remaining_afterAdvances]
  rw [count_go_afterAdvances counts (Nat.lt_succ_self _)]
  rw [Nat.zero_add]

theorem exists_perform_afterAdvances (counts : List Nat) (k : Nat) (call : Call) :
    ∃ next, call.perform counts (afterAdvances counts k) = afterAdvances counts next := by
  cases call with
  | single operation =>
    cases operation with
    | moveNext => exact ⟨k + 1, congrArg Prod.snd (moveNext_afterAdvances counts k)⟩
    | step => exact ⟨k + 1, congrArg Prod.snd (step_afterAdvances counts k)⟩
    | next => exact ⟨k + 1, congrArg Prod.snd (next_afterAdvances counts k)⟩
    | current => exact ⟨k, rfl⟩
    | reset => exact ⟨0, rfl⟩
    | dispose => exact ⟨0, rfl⟩
  | nth n => exact ⟨k + n + 1, congrArg Prod.snd (nth_afterAdvances counts k n)⟩
  | count =>
    refine ⟨(Position.all counts).length + 1, ?_⟩
    rw [afterAdvances_succ_of_le (Nat.le_refl _)]
    exact congrArg Prod.snd (count_afterAdvances counts k)

theorem exists_afterCalls_eq (counts : List Nat) (calls : List Call) :
    ∃ k, afterCalls counts calls = afterAdvances counts k := by
  induction calls using List.reverseRecOn with
  | nil => exact ⟨0, rfl⟩
  | append_singleton calls call ih =>
    have ⟨k, hk⟩ := ih
    unfold afterCalls at *
    rw [List.foldl_concat]
    rw [hk]
    exact exists_perform_afterAdvances counts k call

theorem isExhausted_end (counts : List Nat) : IsExhausted counts ⟨counts.length, -1⟩ := by
  exact ⟨rest_of_length_le counts, rfl⟩

theorem delivers_afterAdvances (counts : List Nat) (k n : Nat) :
    Delivers counts ((Position.all counts).drop k) n
      ((Position.all counts)[k + n]?, afterAdvances counts (k + n + 1)) := by
  refine ⟨?_, ?_, ?_, ?_⟩
  . rw [List.getElem?_drop]
  . rw [rest_afterAdvances]
    rw [List.drop_drop]
    rfl
  . rw [current_afterAdvances]
    rfl
  . intro h
    rw [List.length_drop] at h
    rw [afterAdvances_succ_of_le (by omega)]
    exact isExhausted_end counts

theorem afterCalls_delivers_rest (counts : List Nat) (calls : List Call) :
    let cursor := afterCalls counts calls
    let rest := cursor.rest counts
    Delivers counts rest 0 (cursor.step counts)
      ∧ cursor.next counts = cursor.step counts
      ∧ cursor.moveNext counts = (!rest.isEmpty, (cursor.step counts).2)
      ∧ (∀ n, Delivers counts rest n (cursor.nth counts n))
      ∧ (cursor.count counts).1 = rest.length
      ∧ (cursor.count counts).2.IsExhausted counts
      ∧ ∀ call : Call, (call.perform counts cursor).reset.rest counts = Position.all counts := by
  have ⟨k, hk⟩ := exists_afterCalls_eq counts calls
  dsimp only
  rw [hk]
  rw [rest_afterAdvances]
  refine ⟨?_, ?_, ?_, ?_, ?_, ?_, ?_⟩
  . rw [step_afterAdvances]
    exact delivers_afterAdvances counts k 0
  . rw [step_afterAdvances]
    exact next_afterAdvances counts k
  . rw [step_afterAdvances]
    rw [moveNext_afterAdvances]
    rw [← List.head?_drop]
    cases (Position.all counts).drop k <;> rfl
  . intro n
    rw [nth_afterAdvances]
    exact delivers_afterAdvances counts k n
  . rw [count_afterAdvances]
    rw [List.length_drop]
  . rw [count_afterAdvances]
    exact isExhausted_end counts
  . intro call
    exact rest_start counts

end Cursor

end EntityViews
