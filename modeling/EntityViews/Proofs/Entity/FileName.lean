import Mathlib.Data.List.Basic
import EntityViews.Entity.Schema

/-!
This module contains the laws of the names of files. The name of a file is made of a namespace and the
name of a view with an underscore between them. Names may have underscores themselves, so different
types can share the name of a file, and this module tells which ones do.
-/

namespace EntityViews

def unitStem (namespaceName view : String) : String :=
  if namespaceName.isEmpty then view else namespaceName ++ "_" ++ view

/--
Two types, given by their namespaces and names, of which the first has a part in front of its name that
the second has at the end of its namespace.
-/
inductive Overlaps : String × String → String × String → Prop where
  | outermost {part : String} (hpart : part ≠ "") (view : String) :
      Overlaps ("", part ++ "_" ++ view) (part, view)
  | nested {namespaceName : String} (hnamespace : namespaceName ≠ "") (part view : String) :
      Overlaps (namespaceName, part ++ "_" ++ view) (namespaceName ++ "_" ++ part, view)

theorem unitFileName_eq (namespaceName view : String) :
    unitFileName namespaceName view = "Generated_" ++ unitStem namespaceName view ++ ".cs" := by
  unfold unitFileName unitStem
  split
  . rfl
  . simp [toString, String.append_assoc]

theorem append_cons_eq_append_cons_iff {α : Type} {a : α} {first second name other : List α} :
    first ++ a :: name = second ++ a :: other
      ↔
    (first = second ∧ name = other)
      ∨ (∃ part, second = first ++ a :: part ∧ name = part ++ a :: other)
      ∨ ∃ part, first = second ++ a :: part ∧ other = part ++ a :: name := by
  constructor
  . intro h
    rw [List.append_eq_append_iff] at h
    -- the longer of the two fronts goes on with the separator that ends the shorter one
    rcases h with ⟨between, hsecond, hrest⟩ | ⟨between, hfirst, hrest⟩
    . cases between with
      | nil =>
        left
        simpa [eq_comm] using And.intro hsecond hrest
      | cons b part =>
        rw [List.cons_append, List.cons.injEq] at hrest
        right
        left
        exact ⟨part, by rw [hsecond, hrest.1], hrest.2⟩
    . cases between with
      | nil =>
        left
        simpa [eq_comm] using And.intro hfirst hrest
      | cons b part =>
        rw [List.cons_append, List.cons.injEq] at hrest
        right
        right
        exact ⟨part, by rw [hfirst, hrest.1], hrest.2⟩
  . rintro (⟨rfl, rfl⟩ | ⟨part, rfl, rfl⟩ | ⟨part, rfl, rfl⟩)
    . rfl
    . simp
    . simp

theorem append_underscore_eq_iff {first second name other : String} :
    first ++ "_" ++ name = second ++ "_" ++ other
      ↔
    (first = second ∧ name = other)
      ∨ (∃ part, second = first ++ "_" ++ part ∧ name = part ++ "_" ++ other)
      ∨ ∃ part, first = second ++ "_" ++ part ∧ other = part ++ "_" ++ name := by
  have hlists := @append_cons_eq_append_cons_iff _ '_' first.toList second.toList name.toList
    other.toList
  have hexists {p : List Char → Prop} : (∃ part, p part) ↔ ∃ part : String, p part.toList := by
    constructor
    . rintro ⟨part, h⟩
      exact ⟨String.ofList part, by rwa [String.toList_ofList]⟩
    . rintro ⟨part, h⟩
      exact ⟨part.toList, h⟩
  rw [hexists, hexists] at hlists
  simpa [← String.toList_inj] using hlists

theorem unitStem_empty (view : String) : unitStem "" view = view := by
  rfl

theorem unitStem_of_ne_empty {namespaceName : String} (h : namespaceName ≠ "") (view : String) :
    unitStem namespaceName view = namespaceName ++ "_" ++ view := by
  unfold unitStem
  rw [if_neg (by simpa using h)]

theorem Overlaps.unitStem_eq {type other : String × String} (h : Overlaps type other) :
    unitStem type.1 type.2 = unitStem other.1 other.2 := by
  cases h with
  | outermost hpart view =>
    rw [unitStem_empty, unitStem_of_ne_empty hpart]
  | nested hnamespace part view =>
    rw [unitStem_of_ne_empty hnamespace, unitStem_of_ne_empty (by simp)]
    simp only [String.append_assoc]

theorem eq_or_overlaps_of_unitStem_eq {type other : String × String}
    (h : unitStem type.1 type.2 = unitStem other.1 other.2) :
    type = other ∨ Overlaps type other ∨ Overlaps other type := by
  rcases type with ⟨namespaceName, view⟩
  rcases other with ⟨second, name⟩
  dsimp only at h
  by_cases hnamespace : namespaceName = ""
  . rw [hnamespace, unitStem_empty] at h
    by_cases hsecond : second = ""
    . rw [hsecond, unitStem_empty] at h
      left
      rw [hnamespace, hsecond, h]
    . rw [unitStem_of_ne_empty hsecond] at h
      right
      left
      rw [hnamespace, h]
      exact .outermost hsecond name
  . rw [unitStem_of_ne_empty hnamespace] at h
    by_cases hsecond : second = ""
    . rw [hsecond, unitStem_empty] at h
      right
      right
      rw [hsecond, ← h]
      exact .outermost hnamespace view
    . rw [unitStem_of_ne_empty hsecond, append_underscore_eq_iff] at h
      rcases h with ⟨rfl, rfl⟩ | ⟨part, rfl, rfl⟩ | ⟨part, rfl, rfl⟩
      . exact .inl rfl
      . exact .inr (.inl (.nested hnamespace part name))
      . exact .inr (.inr (.nested hsecond part view))

theorem unitFileName_eq_unitFileName_iff {type other : String × String} :
    unitFileName type.1 type.2 = unitFileName other.1 other.2
      ↔
    type = other ∨ Overlaps type other ∨ Overlaps other type := by
  rw [unitFileName_eq, unitFileName_eq, String.append_left_inj, String.append_right_inj]
  constructor
  . exact eq_or_overlaps_of_unitStem_eq
  . rintro (rfl | h | h)
    . rfl
    . exact h.unitStem_eq
    . exact h.unitStem_eq.symm

end EntityViews
