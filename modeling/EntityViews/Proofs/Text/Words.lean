import Mathlib.Data.List.TakeWhile
import EntityViews.Text.Blank

/-!
This module contains the laws of words. The words of a text are what is between its blank characters,
so words that are put together with blanks in between are found again, and trimming leaves a text
without blank characters as it is.
-/

namespace EntityViews

namespace Text

theorem splitOnP_intercalate {α : Type} {p : α → Bool} {separator : α} (hseparator : p separator)
    {parts : List (List α)} (hparts : ∀ part ∈ parts, ∀ a ∈ part, p a = false)
    (hne : parts ≠ []) : ([separator].intercalate parts).splitOnP p = parts := by
  induction parts with
  | nil => contradiction
  | cons part parts ih =>
    rw [List.forall_mem_cons] at hparts
    cases parts with
    | nil =>
      rw [List.intercalate_singleton]
      rw [List.splitOnP_eq_singleton hparts.1]
    | cons next parts =>
      rw [List.intercalate_cons_cons]
      rw [List.append_assoc]
      rw [List.singleton_append]
      rw [List.splitOnP_append_cons_of_forall_mem hparts.1 separator hseparator]
      rw [ih hparts.2 (by simp)]

theorem forall_mem_splitOnP {α : Type} (p : α → Bool) (text : List α) :
    ∀ part ∈ text.splitOnP p, ∀ a ∈ part, a ∈ text ∧ p a = false := by
  induction text with
  | nil => simp [List.splitOnP_nil]
  | cons a text ih =>
    have hlater : ∀ part ∈ text.splitOnP p, ∀ b ∈ part, b ∈ a :: text ∧ p b = false := by
      intro part hpart b hb
      exact (ih part hpart b hb).imp_left (List.mem_cons_of_mem a)
    rw [List.splitOnP_cons_eq_if_modifyHead]
    split
    . rw [List.forall_mem_cons]
      exact ⟨by simp, hlater⟩
    . next ha =>
      cases hsplit : text.splitOnP p with
      | nil => exact absurd hsplit (List.splitOnP_ne_nil p text)
      | cons part parts =>
        rw [hsplit] at hlater
        rw [List.forall_mem_cons] at hlater
        rw [List.modifyHead_cons]
        rw [List.forall_mem_cons]
        refine ⟨?_, hlater.2⟩
        rw [List.forall_mem_cons]
        exact ⟨⟨List.mem_cons_self, by simpa using ha⟩, hlater.1⟩

def IsWord (word : String) : Prop :=
  word ≠ "" ∧ ∀ c ∈ word.toList, isBlank c = false

theorem isWord_of_mem_words {text word : String} (h : word ∈ words text) : IsWord word := by
  unfold words at h
  simp only [List.mem_map, List.mem_filter, Bool.not_eq_true', List.isEmpty_eq_false_iff] at h
  have ⟨characters, ⟨hmem, hne⟩, heq⟩ := h
  rw [← heq]
  refine ⟨?_, ?_⟩
  . simpa using hne
  . rw [String.toList_ofList]
    intro c hc
    exact (forall_mem_splitOnP isBlank text.toList characters hmem c hc).2

theorem words_intercalate {parts : List String} (h : ∀ part ∈ parts, IsWord part) :
    words (" ".intercalate parts) = parts := by
  cases parts with
  | nil => decide
  | cons part parts =>
    have hblank : ∀ characters ∈ (part :: parts).map String.toList, ∀ c ∈ characters,
        isBlank c = false := by
      intro characters hmem
      have ⟨word, hword, heq⟩ := List.mem_map.mp hmem
      rw [← heq]
      exact (h word hword).2
    unfold words
    rw [String.toList_intercalate]
    change ((([' '].intercalate _).splitOnP isBlank).filter _).map _ = _
    rw [splitOnP_intercalate (by decide) hblank (by simp)]
    rw [List.filter_eq_self.mpr]
    . simp [Function.comp_def]
    . intro characters hmem
      have ⟨word, hword, heq⟩ := List.mem_map.mp hmem
      have hne := (h word hword).1
      rw [← heq]
      simpa using hne

theorem dropWhile_isBlank_eq_self {characters : List Char}
    (h : ∀ c ∈ characters.head?, isBlank c = false) : characters.dropWhile isBlank = characters := by
  cases characters with
  | nil => rfl
  | cons c characters =>
    rw [List.dropWhile_cons_of_neg (by simp [h c rfl])]

theorem isBlank_of_dropWhile_eq_self {characters : List Char}
    (h : characters.dropWhile isBlank = characters) :
    ∀ c ∈ characters.head?, isBlank c = false := by
  intro c hc
  have hhead := List.head?_dropWhile_not isBlank characters
  rw [h, hc] at hhead
  exact hhead

-- nothing is dropped at either end, since the length is the same before and after
theorem isBlank_of_trim_eq_self {text : String} (h : trim text = text) :
    (∀ c ∈ text.toList.head?, isBlank c = false)
      ∧ ∀ c ∈ text.toList.getLast?, isBlank c = false := by
  have hlist := congrArg String.toList h
  simp only [trim, trimStart, trimEnd, String.toList_ofList] at hlist
  have hlength := congrArg List.length hlist
  have hstart := List.length_dropWhile_le isBlank text.toList
  have hend := List.length_dropWhile_le isBlank (text.toList.dropWhile isBlank).reverse
  rw [List.length_reverse] at hlength hend
  have hfirst : text.toList.dropWhile isBlank = text.toList :=
    (List.dropWhile_suffix isBlank).eq_of_length (by omega)
  rw [hfirst] at hlist
  have hlast : text.toList.reverse.dropWhile isBlank = text.toList.reverse := by
    rw [← List.reverse_inj, List.reverse_reverse]
    exact hlist
  refine ⟨isBlank_of_dropWhile_eq_self hfirst, ?_⟩
  rw [← List.head?_reverse]
  exact isBlank_of_dropWhile_eq_self hlast

theorem trim_of_isInvisible {text : String} (h : isInvisible text) : trim text = "" := by
  have hdrop : text.toList.dropWhile isBlank = [] := by
    rw [List.dropWhile_eq_nil_iff]
    exact List.all_eq_true.mp h
  unfold trim trimStart
  rw [hdrop]
  rfl

@[simp]
theorem isInvisible_append (first second : String) :
    isInvisible (first ++ second) = (isInvisible first && isInvisible second) := by
  unfold isInvisible
  rw [String.toList_append]
  rw [List.all_append]

@[simp]
theorem isInvisible_trimEnd (text : String) : isInvisible (trimEnd text) = isInvisible text := by
  have hdrop (characters : List Char) :
      (characters.dropWhile isBlank).all isBlank = characters.all isBlank := by
    induction characters with
    | nil => rfl
    | cons c characters ih => cases h : isBlank c <;> simp [h, ih]
  simp [isInvisible, trimEnd, hdrop]

theorem trim_ofList_append {front word back : List Char} (hfront : ∀ c ∈ front, isBlank c)
    (hback : ∀ c ∈ back, isBlank c) (hfirst : ∀ c ∈ word.head?, isBlank c = false)
    (hlast : ∀ c ∈ word.getLast?, isBlank c = false) :
    trim (String.ofList (front ++ word ++ back)) = String.ofList word := by
  unfold trim trimStart trimEnd
  rw [String.toList_ofList, String.toList_ofList, List.append_assoc,
    List.dropWhile_append_of_pos hfront]
  cases word with
  | nil =>
    rw [List.nil_append, List.dropWhile_eq_nil_iff.mpr hback]
    rfl
  | cons c word =>
    have hstart : (c :: word ++ back).dropWhile isBlank = c :: word ++ back :=
      dropWhile_isBlank_eq_self hfirst
    rw [hstart, List.reverse_append, List.dropWhile_append_of_pos (by simpa using hback),
      dropWhile_isBlank_eq_self]
    . rw [List.reverse_reverse]
    . rw [List.head?_reverse]
      exact hlast

theorem exists_append_trim (text : String) :
    ∃ front back, text.toList = front ++ (trim text).toList ++ back
      ∧ (∀ c ∈ front, isBlank c)
      ∧ ∀ c ∈ back, isBlank c := by
  unfold trim trimStart trimEnd
  simp only [String.toList_ofList]
  generalize hvisible : text.toList.dropWhile isBlank = visible
  refine ⟨text.toList.takeWhile isBlank, (visible.reverse.takeWhile isBlank).reverse, ?_, ?_, ?_⟩
  . rw [List.append_assoc, ← List.reverse_append, List.takeWhile_append_dropWhile,
      List.reverse_reverse, ← hvisible, List.takeWhile_append_dropWhile]
  . intro c hc
    exact List.mem_takeWhile_imp hc
  . intro c hc
    exact List.mem_takeWhile_imp (List.mem_reverse.mp hc)

theorem trim_eq_empty_iff {text : String} : trim text = "" ↔ isInvisible text := by
  constructor
  . intro h
    have ⟨front, back, htext, hfront, hback⟩ := exists_append_trim text
    rw [h, String.toList_empty, List.append_nil] at htext
    unfold isInvisible
    rw [htext, List.all_append, Bool.and_eq_true, List.all_eq_true, List.all_eq_true]
    exact ⟨hfront, hback⟩
  . exact trim_of_isInvisible

theorem trim_eq_self_of_edges {text : String} (hfirst : ∀ c ∈ text.toList.head?, isBlank c = false)
    (hlast : ∀ c ∈ text.toList.getLast?, isBlank c = false) : trim text = text := by
  have htrim : trim (String.ofList ([] ++ text.toList ++ [])) = String.ofList text.toList :=
    trim_ofList_append (by simp) (by simp) hfirst hlast
  simpa using htrim

theorem trim_eq_self {text : String} (h : ∀ c ∈ text.toList, isBlank c = false) :
    trim text = text := by
  apply trim_eq_self_of_edges
  . exact fun c hc => h c (List.mem_of_mem_head? hc)
  . exact fun c hc => h c (List.mem_of_mem_getLast? hc)

end Text

end EntityViews
