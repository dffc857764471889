import Mathlib.Logic.Relation
import EntityViews.Proofs.Storage.Rest

/-!
This module contains the range that the numbers of a cursor stay in. An advance is a loop over the
collections, and here it is made on a machine that gives up when a signed number gets too great, when a
negative number is taken for an unsigned one or when the loop goes on for too long. None of this happens
to a cursor in use, so the machine advances it as if there were no limits.
-/

namespace EntityViews

namespace Cursor

inductive Pass where
  | exhausted
  | arrived (cursor : Cursor)
  | again (cursor : Cursor)
  | overflow
  | negative
deriving DecidableEq, Repr

/--
A pass on a machine with signed numbers up to `limit`.
-/
def pass (limit : Nat) (counts : List Nat) (cursor : Cursor) : Pass :=
  match counts[cursor.collection]? with
  | none => .exhausted
  | some count =>
    let index := cursor.index + 1
    if (limit : Int) < index then .overflow
    else if index < 0 then .negative
    else if index.toNat < count then .arrived { cursor with index }
    else .again ⟨cursor.collection + 1, -1⟩

/--
The outcome of an advance that takes at most the given number of passes. The last one, which finds an
entity or no collection, counts as well.
-/
def advance? (limit : Nat) (counts : List Nat) : Nat → Cursor → Option (Bool × Cursor)
  | 0, _ => none
  | passes + 1, cursor =>
    match cursor.pass limit counts with
    | .exhausted => some (false, cursor)
    | .arrived next => some (true, next)
    | .again next => advance? limit counts passes next
    | .overflow => none
    | .negative => none

def Loops (limit : Nat) (counts : List Nat) : Cursor → Cursor → Prop :=
  Relation.ReflTransGen fun cursor next => cursor.pass limit counts = .again next

variable {limit : Nat} {counts : List Nat} {cursor next : Cursor}

theorem inBounds_afterCalls (counts : List Nat) (calls : List Call) :
    (afterCalls counts calls).InBounds counts := by
  have ⟨k, hk⟩ := exists_afterCalls_eq counts calls
  rw [hk]
  exact inBounds_afterAdvances counts k

theorem InBounds.exists_count (h : cursor.InBounds counts) (hindex : 0 ≤ cursor.index) :
    ∃ count, counts[cursor.collection]? = some count ∧ cursor.index < count := by
  have hlt := h.index_lt
  rw [List.getD_eq_getElem?_getD] at hlt
  cases hcount : counts[cursor.collection]? with
  | none =>
    rw [hcount] at hlt
    rw [Option.getD_none] at hlt
    omega
  | some count =>
    rw [hcount] at hlt
    exact ⟨count, rfl, hlt⟩

section

variable (hcounts : ∀ count ∈ counts, count ≤ limit)
include hcounts

-- the index is less than the number of entities, so adding one to it leaves it within the limit
theorem InBounds.pass_of_getElem? (h : cursor.InBounds counts) {count : Nat}
    (hcount : counts[cursor.collection]? = some count) :
    cursor.pass limit counts
      =
    if (cursor.index + 1).toNat < count then
      .arrived { cursor with index := cursor.index + 1 }
    else
      .again ⟨cursor.collection + 1, -1⟩ := by
  have hge := h.index_ge
  have hlt := h.index_lt
  have hle := hcounts count (List.mem_of_getElem? hcount)
  rw [List.getD_eq_getElem?_getD] at hlt
  rw [hcount] at hlt
  rw [Option.getD_some] at hlt
  unfold pass
  rw [hcount]
  dsimp only
  rw [if_neg (by omega)]
  rw [if_neg (by omega)]

theorem InBounds.pass_cases (h : cursor.InBounds counts) :
    (cursor.pass limit counts = .exhausted ∧ cursor.moveNext counts = (false, cursor))
      ∨ (∃ next, cursor.pass limit counts = .arrived next ∧ cursor.moveNext counts = (true, next))
      ∨ ∃ next, cursor.pass limit counts = .again next
          ∧ next.InBounds counts
          ∧ next.collection = cursor.collection + 1
          ∧ cursor.moveNext counts = next.moveNext counts := by
  cases hcount : counts[cursor.collection]? with
  | none =>
    left
    unfold pass moveNext
    rw [hcount]
    rw [List.getElem?_eq_none_iff] at hcount
    rw [List.drop_eq_nil_of_le hcount]
    exact ⟨rfl, rfl⟩
  | some count =>
    have ⟨hlt, hget⟩ := List.getElem?_eq_some_iff.mp hcount
    have hdrop : counts.drop cursor.collection = count :: counts.drop (cursor.collection + 1) := by
      rw [List.drop_eq_getElem_cons hlt]
      rw [hget]
    right
    rw [h.pass_of_getElem? hcounts hcount]
    unfold moveNext
    rw [hdrop]
    by_cases hindex : (cursor.index + 1).toNat < count
    . left
      rw [if_pos hindex]
      exact ⟨_, rfl, seek_cons_of_lt hindex _⟩
    . right
      rw [if_neg hindex]
      exact ⟨_, rfl, inBounds_of_le hlt, rfl, seek_cons_of_le (Nat.not_lt.mp hindex) _⟩

theorem InBounds.pass_ne_fault (h : cursor.InBounds counts) :
    cursor.pass limit counts ≠ .overflow ∧ cursor.pass limit counts ≠ .negative := by
  rcases h.pass_cases hcounts with ⟨hpass, _⟩ | ⟨next, hpass, _⟩ | ⟨next, hpass, _⟩
  . simp [hpass]
  . simp [hpass]
  . simp [hpass]

theorem InBounds.of_loops (h : cursor.InBounds counts) (hloops : cursor.Loops limit counts next) :
    next.InBounds counts := by
  induction hloops with
  | refl => exact h
  | tail _ hagain ih =>
    rcases ih.pass_cases hcounts with ⟨hpass, _⟩ | ⟨_, hpass, _⟩ | ⟨_, hpass, hnext, _⟩
    . rw [hpass] at hagain
      cases hagain
    . rw [hpass] at hagain
      cases hagain
    . rw [hpass] at hagain
      cases hagain
      exact hnext

-- each pass but the last one leaves a collection behind
theorem InBounds.advance?_eq (h : cursor.InBounds counts) {passes : Nat}
    (hpasses : counts.length - cursor.collection < passes) :
    cursor.advance? limit counts passes = some (cursor.moveNext counts) := by
  induction passes generalizing cursor with
  | zero => omega
  | succ passes ih =>
    unfold advance?
    rcases h.pass_cases hcounts with ⟨hpass, hmove⟩ | ⟨next, hpass, hmove⟩
      | ⟨next, hpass, hnext, hcollection, hmove⟩
    . rw [hpass]
      rw [hmove]
    . rw [hpass]
      rw [hmove]
    . have hle := hnext.collection_le
      rw [hpass]
      rw [hmove]
      apply ih hnext
      omega

theorem afterCalls_stays_in_range (calls : List Call) :
    let cursor := afterCalls counts calls
    cursor.collection ≤ counts.length
      ∧ -1 ≤ cursor.index
      ∧ (0 ≤ cursor.index →
          ∃ count, counts[cursor.collection]? = some count ∧ cursor.index < count)
      ∧ (∀ head, cursor.Loops limit counts head →
          head.InBounds counts
            ∧ head.pass limit counts ≠ .overflow
            ∧ head.pass limit counts ≠ .negative)
      ∧ cursor.advance? limit counts (counts.length - cursor.collection + 1)
          = some (cursor.moveNext counts) := by
  intro cursor
  have h : cursor.InBounds counts := inBounds_afterCalls counts calls
  refine ⟨h.collection_le, h.index_ge, h.exists_count, ?_, ?_⟩
  . intro head hloops
    have hhead := h.of_loops hcounts hloops
    exact ⟨hhead, hhead.pass_ne_fault hcounts⟩
  . apply h.advance?_eq hcounts
    exact Nat.lt_succ_self _

end

theorem afterCalls_stays_in_range_last_entity :
    let counts := [2, 0, 0]
    let cursor := afterCalls counts [.single .step, .nth 0]
    (∀ count ∈ counts, count ≤ 2)
      ∧ cursor = ⟨0, 1⟩
      ∧ cursor.advance? 2 counts (counts.length - cursor.collection + 1)
          = some (cursor.moveNext counts)
      ∧ cursor.advance? 2 counts (counts.length - cursor.collection) = none
      ∧ cursor.pass 1 counts = .overflow := by
  intro counts cursor
  have hcounts : ∀ count ∈ counts, count ≤ 2 := by decide
  have hrange := afterCalls_stays_in_range hcounts [.single .step, .nth 0]
  exact ⟨hcounts, by decide, hrange.2.2.2.2, by decide, by decide⟩

end Cursor

end EntityViews
