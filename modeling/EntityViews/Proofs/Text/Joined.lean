import Mathlib.Data.List.Basic

/-!
This module contains the laws of lists that are joined with a separator in between. They are used for
texts as well as for scripts.
-/

namespace EntityViews

namespace Joined

variable {α : Type} {separator : List α} {parts : List (List α)}

@[elab_as_elim]
theorem intercalate_induction {motive : List α → Prop} (hne : parts ≠ [])
    (hjoin : ∀ first second, motive first → motive second → motive (first ++ separator ++ second))
    (hparts : ∀ part ∈ parts, motive part) : motive (separator.intercalate parts) := by
  induction parts with
  | nil => contradiction
  | cons first parts ih =>
    rw [List.forall_mem_cons] at hparts
    cases parts with
    | nil =>
      rw [List.intercalate_singleton]
      exact hparts.1
    | cons next parts =>
      rw [List.intercalate_cons_cons]
      exact hjoin first _ hparts.1 (ih (by simp) hparts.2)

theorem intercalate_append_of_ne_nil (separator : List α) {first second : List (List α)}
    (hfirst : first ≠ []) (hsecond : second ≠ []) :
    separator.intercalate (first ++ second)
      =
    separator.intercalate first ++ separator ++ separator.intercalate second := by
  induction first with
  | nil => contradiction
  | cons part first ih =>
    cases first with
    | nil =>
      rw [List.singleton_append]
      rw [List.intercalate_cons_of_ne_nil hsecond]
      rw [List.intercalate_singleton]
    | cons next first =>
      rw [List.cons_append]
      rw [List.intercalate_cons_of_ne_nil (by simp)]
      rw [ih (by simp)]
      rw [List.intercalate_cons_cons]
      simp only [List.append_assoc]

theorem intercalate_concat (separator : List α) (hne : parts ≠ []) (last : List α) :
    separator.intercalate (parts ++ [last])
      =
    separator.intercalate parts ++ separator ++ last := by
  rw [intercalate_append_of_ne_nil separator hne (by simp)]
  rw [List.intercalate_singleton]

theorem intercalate_append (separator : List α) (hne : parts ≠ []) :
    separator.intercalate parts ++ separator = parts.flatMap (· ++ separator) := by
  induction parts with
  | nil => contradiction
  | cons part parts ih =>
    cases parts with
    | nil => simp
    | cons next parts =>
      rw [List.intercalate_cons_cons]
      rw [List.flatMap_cons]
      rw [← ih (by simp)]
      simp only [List.append_assoc]

theorem count_intercalate [BEq α] (a : α) (separator : List α) (parts : List (List α)) :
    (separator.intercalate parts).count a
      =
    parts.flatten.count a + (parts.length - 1) * separator.count a := by
  induction parts with
  | nil => simp
  | cons part parts ih =>
    cases parts with
    | nil => simp
    | cons next parts =>
      rw [List.intercalate_cons_cons]
      rw [List.flatten_cons]
      simp only [List.count_append, ih, List.length_cons, Nat.add_sub_cancel, Nat.add_mul]
      omega

theorem append_flatMap (separator : List α) (parts : List (List α)) :
    separator ++ parts.flatMap (· ++ separator) = parts.flatMap (separator ++ ·) ++ separator := by
  induction parts with
  | nil => simp
  | cons part parts ih => simp [ih]

theorem exists_intercalate_concat_eq (separator : List α) (parts : List (List α))
    (last : List α) : ∃ front, separator.intercalate (parts ++ [last]) = front ++ last := by
  by_cases hne : parts = []
  . rw [hne]
    exact ⟨[], List.intercalate_singleton⟩
  . exact ⟨_, intercalate_concat separator hne last⟩

theorem append_cons_inj {a : α} {first second rest other : List α} (hfirst : a ∉ first)
    (hsecond : a ∉ second) (h : first ++ a :: rest = second ++ a :: other) :
    first = second ∧ rest = other := by
  rw [List.append_eq_append_iff] at h
  rcases h with ⟨between, rfl, hrest⟩ | ⟨between, rfl, hrest⟩
  . cases between with
    | nil => simpa [eq_comm] using hrest
    | cons b between =>
      rw [List.cons_append, List.cons.injEq] at hrest
      simp [hrest.1] at hsecond
  . cases between with
    | nil => simpa [eq_comm] using hrest
    | cons b between =>
      rw [List.cons_append, List.cons.injEq] at hrest
      simp [hrest.1] at hfirst

end Joined

end EntityViews
