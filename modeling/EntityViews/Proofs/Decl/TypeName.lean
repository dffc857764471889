import EntityViews.Decl.TypeName

/-!
This module contains the laws of checked type names: a name that passes the check is not empty, has no
blank characters around it and consists of the characters of names and of type arguments.
-/

namespace EntityViews

namespace TypeName

theorem of_checkCharacters {depth : Nat} {name : List Char}
    (h : checkCharacters depth name = .ok ()) :
    ∀ c ∈ name, c ∈ ['<', '>', ',', ' ', '.'] ∨ isIdentifierPart c := by
  fun_induction checkCharacters depth name with
  | case1 => simp
  | case2 => cases h
  | case3 depth name ih =>
    rw [List.forall_mem_cons]
    exact ⟨.inl (by decide), ih h⟩
  | case4 => cases h
  | case5 name depth ih =>
    rw [List.forall_mem_cons]
    exact ⟨.inl (by decide), ih h⟩
  | case6 depth c name _ _ hc ih =>
    rw [List.forall_mem_cons]
    refine ⟨?_, ih h⟩
    simp only [Bool.or_eq_true, Bool.and_eq_true, decide_eq_true_eq] at hc
    rcases hc with (⟨_, rfl | rfl⟩ | rfl) | hc
    . exact .inl (by decide)
    . exact .inl (by decide)
    . exact .inl (by decide)
    . exact .inr hc
  | case7 => cases h

theorem check_eq_ok_iff {name : String} :
    check name = .ok ()
      ↔
    name ≠ "" ∧ Text.trim name = name
      ∧ checkCharacters 0 name.toList = .ok ()
      ∧ (∀ word ∈ words name, (checkIdentifier word.toList).isOk)
      ∧ [] ∉ dottedParts name := by
  unfold check
  dsimp only
  by_cases htrim : Text.trim name = name
  . rw [htrim]
    by_cases hempty : name = ""
    . simp [hempty]
    . rw [if_neg (by simpa using hempty), if_neg (by simp)]
      cases hcharacters : checkCharacters 0 name.toList with
      | error fault => simp [bind, Except.bind]
      | ok _ => simp [bind, Except.bind, hempty]
  . have hdiffers : (Text.trim name != name) = true := by simpa using htrim
    rw [if_pos hdiffers]
    split <;> simp [htrim]

theorem of_check {type : String} (h : check type = .ok ()) :
    type ≠ "" ∧ Text.trim type = type ∧ checkCharacters 0 type.toList = .ok () := by
  have ⟨hvisible, htrim, hcharacters, _⟩ := check_eq_ok_iff.mp h
  exact ⟨hvisible, htrim, hcharacters⟩

end TypeName

end EntityViews
