import Mathlib.Data.List.Basic
import EntityViews.Entity.Name

/-!
This module contains the laws of the names that are derived from the declared names of entities.
-/

namespace EntityViews

namespace EntityName

theorem view_eq_view_iff {first second : String} :
    view first = view second ↔ base first = base second := by
  exact String.append_left_inj "Entity"

theorem collection_eq_collection_iff {first second : String} :
    collection first = collection second ↔ base first = base second := by
  exact String.append_left_inj "Entities"

-- the names end in different characters
theorem view_ne_collection (first second : String) : view first ≠ collection second := by
  intro h
  have hlast := congrArg (fun name : String => name.toList.getLast?) h
  simp [view, collection, List.getLast?_append] at hlast

theorem subset_dropMark (name : List Char) : dropMark name ⊆ name := by
  unfold dropMark
  split
  . split
    . exact List.subset_cons_self _ _
    . exact List.Subset.refl _
  . exact List.Subset.refl _

theorem subset_dropEntity (name : List Char) : dropEntity name ⊆ name := by
  unfold dropEntity
  split
  . next c stem hsuffix =>
    rw [← List.isSuffixOf?_eq_some_iff_append_eq.mp hsuffix]
    exact List.subset_append_left _ _
  . exact List.Subset.refl _

-- a base name is a part of the declared name, so it has no other characters
theorem toList_base_subset (declared : String) : (base declared).toList ⊆ declared.toList := by
  unfold base
  rw [String.toList_ofList]
  exact List.Subset.trans (subset_dropEntity _) (subset_dropMark _)

end EntityName

theorem qualify_right_inj (namespaceName : String) {first second : String} :
    qualify namespaceName first = qualify namespaceName second ↔ first = second := by
  unfold qualify
  split
  . exact Iff.rfl
  . simp [toString]

end EntityViews
