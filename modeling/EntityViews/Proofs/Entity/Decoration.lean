import EntityViews.Proofs.Entity.Name

/-!
This module contains the decorations of declared names, which are an `I` in front that marks an interface
and an `Entity` behind. What is left without them is the name that generated names are built on, so the
generated names of two entities coincide if and only if nothing but decorations tells the entities apart.
-/

namespace EntityViews

namespace EntityName

structure Decoration where
  isMarked : Bool := false
  isSuffixed : Bool := false
deriving DecidableEq, Repr

namespace Decoration

def mark (decoration : Decoration) : String :=
  if decoration.isMarked then "I" else ""

def suffix (decoration : Decoration) : String :=
  if decoration.isSuffixed then "Entity" else ""

def around (decoration : Decoration) (name : String) : String :=
  decoration.mark ++ name ++ decoration.suffix

-- the four ways to decorate a name add different numbers of characters to it
theorem eq_of_length_eq {first second : Decoration}
    (h : first.mark.length + first.suffix.length = second.mark.length + second.suffix.length) :
    first = second := by
  rcases first with ⟨firstMarked, firstSuffixed⟩
  rcases second with ⟨secondMarked, secondSuffixed⟩
  revert firstMarked firstSuffixed secondMarked secondSuffixed
  decide

theorem around_inj {first second : Decoration} {name : String}
    (h : first.around name = second.around name) : first = second := by
  apply eq_of_length_eq
  have hlength := congrArg String.length h
  simp only [around, String.length_append] at hlength
  omega

end Decoration

def HasMark (declared : String) : Prop :=
  ∃ c rest, isCapital c = true ∧ declared.toList = 'I' :: c :: rest

theorem dropMark_of_isCapital {c : Char} (h : isCapital c = true) (rest : List Char) :
    dropMark ('I' :: c :: rest) = c :: rest := by
  exact if_pos h

theorem dropMark_of_not_hasMark {declared : String} (h : ¬ HasMark declared) :
    dropMark declared.toList = declared.toList := by
  unfold dropMark
  split
  . next c rest hdeclared =>
    rw [if_neg]
    . exact hdeclared.symm
    . intro hcapital
      exact h ⟨c, rest, hcapital, hdeclared⟩
  . rfl

theorem dropEntity_append {stem : List Char} (h : stem ≠ []) :
    dropEntity (stem ++ "Entity".toList) = stem := by
  have hsuffix : "Entity".toList.isSuffixOf? (stem ++ "Entity".toList) = some stem :=
    List.isSuffixOf?_eq_some_iff_append_eq.mpr rfl
  unfold dropEntity
  rw [hsuffix]
  cases stem with
  | nil => contradiction
  | cons c stem => rfl

theorem dropEntity_of_forall_ne {name : List Char}
    (h : ∀ stem, stem ≠ [] → name ≠ stem ++ "Entity".toList) : dropEntity name = name := by
  unfold dropEntity
  split
  . next c stem hsuffix =>
    have hname := List.isSuffixOf?_eq_some_iff_append_eq.mp hsuffix
    exact absurd hname.symm (h (c :: stem) (List.cons_ne_nil c stem))
  . rfl

def unmarked (declared : String) : String :=
  String.ofList (dropMark declared.toList)

def unsuffixed (name : String) : String :=
  String.ofList (dropEntity name.toList)

theorem base_eq_unsuffixed (declared : String) : base declared = unsuffixed (unmarked declared) := by
  unfold base unsuffixed unmarked
  rw [String.toList_ofList]

theorem exists_mark (declared : String) :
    ∃ isMarked : Bool,
      declared = (if isMarked then "I" else "") ++ unmarked declared
        ∧ (isMarked = true ↔ HasMark declared)
        ∧ (declared ≠ "" → unmarked declared ≠ "") := by
  unfold unmarked
  by_cases hmark : HasMark declared
  . have ⟨c, rest, hcapital, hdeclared⟩ := hmark
    rw [hdeclared]
    rw [dropMark_of_isCapital hcapital]
    refine ⟨true, ?_, by simp [hmark], by simp⟩
    rw [← String.toList_inj]
    rw [hdeclared]
    simp
  . rw [dropMark_of_not_hasMark hmark]
    rw [String.ofList_toList]
    exact ⟨false, by simp, by simp [hmark], id⟩

theorem exists_suffix (name : String) :
    ∃ isSuffixed : Bool,
      name = unsuffixed name ++ (if isSuffixed then "Entity" else "")
        ∧ (isSuffixed = true ↔ ∃ stem, stem ≠ "" ∧ name = stem ++ "Entity")
        ∧ (name ≠ "" → unsuffixed name ≠ "") := by
  unfold unsuffixed
  by_cases hsuffix : ∃ stem, stem ≠ "" ∧ name = stem ++ "Entity"
  . have ⟨stem, hstem, hname⟩ := hsuffix
    have hdrop : dropEntity name.toList = stem.toList := by
      rw [hname]
      rw [String.toList_append]
      apply dropEntity_append
      simpa using hstem
    rw [hdrop]
    rw [String.ofList_toList]
    exact ⟨true, by simpa using hname, by simp [hsuffix], fun _ => hstem⟩
  . have hdrop : dropEntity name.toList = name.toList := by
      apply dropEntity_of_forall_ne
      intro stem hstem hname
      apply hsuffix
      refine ⟨String.ofList stem, by simpa using hstem, ?_⟩
      rw [← String.toList_inj]
      simpa using hname
    rw [hdrop]
    rw [String.ofList_toList]
    exact ⟨false, by simp, by simp [hsuffix], id⟩

theorem exists_decoration (declared : String) :
    ∃ decoration : Decoration,
      declared = decoration.around (base declared)
        ∧ (decoration.isMarked = true ↔ HasMark declared)
        ∧ (decoration.isSuffixed = true
            ↔ ∃ stem, stem ≠ "" ∧ declared = decoration.mark ++ stem ++ "Entity")
        ∧ (declared ≠ "" → base declared ≠ "") := by
  have ⟨isMarked, hmark, hmarked, hunmarked⟩ := exists_mark declared
  have ⟨isSuffixed, hsuffix, hsuffixed, hunsuffixed⟩ := exists_suffix (unmarked declared)
  rw [← base_eq_unsuffixed] at hsuffix hunsuffixed
  refine ⟨⟨isMarked, isSuffixed⟩, ?_, hmarked, ?_, fun h => hunsuffixed (hunmarked h)⟩
  . unfold Decoration.around Decoration.mark Decoration.suffix
    rw [String.append_assoc]
    rw [← hsuffix]
    exact hmark
  . rw [hsuffixed]
    apply exists_congr
    intro stem
    apply and_congr_right
    intro _
    unfold Decoration.mark
    nth_rewrite 2 [hmark]
    rw [String.append_assoc]
    rw [String.append_right_inj]

theorem base_undecorates :
    (∀ declared, declared ≠ "" →
        base declared ≠ ""
          ∧ (base declared).toList <:+: declared.toList
          ∧ ∃ decoration : Decoration,
              declared = decoration.around (base declared)
                ∧ (∀ other : Decoration,
                    declared = other.around (base declared) → other = decoration)
                ∧ (decoration.isMarked = true ↔ HasMark declared)
                ∧ (decoration.isSuffixed = true
                    ↔ ∃ stem, stem ≠ "" ∧ declared = decoration.mark ++ stem ++ "Entity"))
      ∧ ∀ first second,
          (view first = view second ↔ collection first = collection second)
            ∧ (collection first = collection second ↔ base first = base second)
            ∧ (base first = base second →
                ∃ decoration other : Decoration,
                  first = decoration.around (base first) ∧ second = other.around (base first)) := by
  constructor
  . intro declared hne
    have ⟨decoration, hdeclared, hmarked, hsuffixed, hbase⟩ := exists_decoration declared
    refine ⟨hbase hne, ?_, decoration, hdeclared, ?_, hmarked, hsuffixed⟩
    . refine ⟨decoration.mark.toList, decoration.suffix.toList, ?_⟩
      rw [← String.toList_append]
      rw [← String.toList_append]
      exact congrArg String.toList hdeclared.symm
    . intro other hother
      apply Decoration.around_inj
      rw [← hother]
      exact hdeclared
  . intro first second
    have ⟨decoration, hfirst, _⟩ := exists_decoration first
    have ⟨other, hsecond, _⟩ := exists_decoration second
    refine ⟨?_, collection_eq_collection_iff, ?_⟩
    . rw [view_eq_view_iff]
      rw [collection_eq_collection_iff]
    . intro hbase
      rw [← hbase] at hsecond
      exact ⟨decoration, other, hfirst, hsecond⟩

theorem base_undecorates_suffix_alone :
    "IEntity" ≠ ""
      ∧ base "IEntity" = "Entity"
      ∧ ∃ decoration : Decoration,
          "IEntity" = decoration.around (base "IEntity") ∧ decoration = { isMarked := true } := by
  have hne : "IEntity" ≠ "" := by decide
  have hbase : base "IEntity" = "Entity" := by decide +kernel
  have ⟨_, _, decoration, hdeclared, hunique, _⟩ := base_undecorates.1 "IEntity" hne
  refine ⟨hne, hbase, decoration, hdeclared, ?_⟩
  symm
  apply hunique
  rw [hbase]
  decide

end EntityName

end EntityViews
