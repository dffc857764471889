import EntityViews.Proofs.Text.Span
import EntityViews.Proofs.Toml.Line

/-!
This module contains the places of the values in documents that are written line by line. Nothing but
the values is between double quotes, so a search for a quoted text finds the values that are equal to it.
-/

namespace EntityViews

open String (utf8Len)

theorem startsNowhere_quoted {first : List Char} (h : '"' ∉ first) (value : String)
    (rest : List Char) : StartsNowhere (quoted value) first rest := by
  rintro front back rfl hback hstart
  obtain ⟨c, back, rfl⟩ := List.exists_cons_of_ne_nil hback
  rw [quoted, List.cons_append, List.cons_append, List.cons_prefix_cons] at hstart
  apply h
  rw [hstart.1]
  exact List.mem_append_right front List.mem_cons_self

namespace Toml

theorem quote_notMem {value : List Char} (h : ∀ c ∈ value, isPlain c) : '"' ∉ value := by
  intro hmem
  cases h '"' hmem

theorem newline_notMem {value : List Char} (h : ∀ c ∈ value, isPlain c) : '\n' ∉ value := by
  intro hmem
  cases h '\n' hmem

theorem IsBareKey.quote_notMem {key : List Char} (h : IsBareKey key) : '"' ∉ key := by
  intro hmem
  cases h.forall_mem '"' hmem

section Quoted

variable {value held : String}

theorem utf8Len_quoted (value : String) : utf8Len (quoted value) = value.utf8ByteSize + 2 := by
  simp only [quoted, List.cons_append, String.utf8Len_cons, String.utf8Len_append,
    String.utf8Len_toList]
  rfl

theorem quoted_append (value : String) (rest : List Char) :
    quoted value ++ rest = '"' :: (value.toList ++ '"' :: rest) := by
  simp [quoted]

theorem takeWhile_append_quote {value : List Char} (h : ∀ c ∈ value, isPlain c) (rest : List Char) :
    (value ++ '"' :: rest).takeWhile (· ≠ '"') = value := by
  rw [List.takeWhile_append_of_pos, List.takeWhile_cons_of_neg (by simp), List.append_nil]
  intro c hc
  rw [decide_eq_true_eq]
  rintro rfl
  exact quote_notMem h hc

theorem not_quoted_isPrefix_of_ne (hvalue : ∀ c ∈ value.toList, isPlain c)
    (hheld : ∀ c ∈ held.toList, isPlain c) (hne : held ≠ value) (rest : List Char) :
    ¬ quoted value <+: '"' :: (held.toList ++ '"' :: rest) := by
  rintro ⟨others, hsplit⟩
  rw [quoted_append, List.cons.injEq] at hsplit
  -- both values end at the first quote behind their start
  have htake := congrArg (List.takeWhile (· ≠ '"')) hsplit.2
  rw [takeWhile_append_quote hvalue, takeWhile_append_quote hheld] at htake
  exact hne (String.toList_inj.mp htake.symm)

theorem not_quoted_isPrefix_of_newline (hvalue : ∀ c ∈ value.toList, isPlain c) (rest : List Char) :
    ¬ quoted value <+: '"' :: '\n' :: rest := by
  rintro ⟨others, hsplit⟩
  rw [quoted_append, List.cons.injEq] at hsplit
  have hnewline := newline_notMem hvalue
  cases hlist : value.toList with
  | nil => simp [hlist] at hsplit
  | cons c value =>
    rw [hlist] at hsplit hnewline
    simp [(List.cons.inj hsplit.2).1] at hnewline

-- neither of the two quotes around another value starts the pattern
theorem occurrences_quoted_of_ne (hvalue : ∀ c ∈ value.toList, isPlain c)
    (hheld : ∀ c ∈ held.toList, isPlain c) (hne : held ≠ value) (rest : List Char) (offset : Nat) :
    occurrences (quoted value) 0 offset (quoted held ++ '\n' :: rest)
      =
    occurrences (quoted value) 0 (offset + utf8Len (quoted held)) ('\n' :: rest) := by
  rw [quoted_append]
  rw [occurrences_cons_of_not_isPrefix (not_quoted_isPrefix_of_ne hvalue hheld hne _)]
  rw [occurrences_append_of_startsNowhere (startsNowhere_quoted (quote_notMem hheld) _ _)]
  rw [occurrences_cons_of_not_isPrefix (not_quoted_isPrefix_of_newline hvalue rest)]
  rw [utf8Len_quoted, String.utf8Len_toList]
  congr 1
  rw [show '"'.utf8Size = 1 from rfl]
  omega

end Quoted

namespace Line

def values : List Line → List String
  | [] => []
  | .arrayTable _ :: lines => values lines
  | .string _ value :: lines => value :: values lines

def spansOf (value : String) (offset : Nat) : List Line → List Span
  | [] => []
  | .arrayTable key :: lines =>
    spansOf value (offset + (arrayTable key).text.utf8ByteSize) lines
  | .string key held :: lines =>
    let later := spansOf value (offset + (string key held).text.utf8ByteSize) lines
    if held = value then ⟨offset + key.utf8ByteSize + 4, value.utf8ByteSize⟩ :: later else later

theorem utf8ByteSize_text_string (key value : String) :
    (Line.string key value).text.utf8ByteSize = key.utf8ByteSize + 4 + value.utf8ByteSize + 2 := by
  simp only [text, String.utf8ByteSize_append]
  rfl

section Places

variable {value : String} {lines : List Line}

theorem spansOf_append (value : String) (offset : Nat) (first second : List Line) :
    spansOf value offset (first ++ second)
      =
    spansOf value offset first
      ++ spansOf value (offset + (document first).utf8ByteSize) second := by
  induction first generalizing offset with
  | nil => simp [spansOf, document]
  | cons line first ih =>
    rw [document_cons, String.utf8ByteSize_append, ← Nat.add_assoc]
    cases line with
    | arrayTable key => simp only [List.cons_append, spansOf, ih]
    | string key held =>
      simp only [List.cons_append, spansOf, ih]
      split <;> rfl

theorem length_spansOf (value : String) (offset : Nat) (lines : List Line) :
    (spansOf value offset lines).length = (values lines).count value := by
  induction lines generalizing offset with
  | nil => rfl
  | cons line lines ih =>
    cases line with
    | arrayTable key => exact ih _
    | string key held =>
      by_cases hheld : held = value
      . simp [spansOf, values, hheld, ih]
      . simp [spansOf, values, hheld, ih]

theorem offset_lt_of_mem_spansOf {offset : Nat} {span : Span}
    (h : span ∈ spansOf value offset lines) :
    span.offset < offset + (document lines).utf8ByteSize := by
  induction lines generalizing offset with
  | nil => cases h
  | cons line lines ih =>
    rw [document_cons, String.utf8ByteSize_append, ← Nat.add_assoc]
    cases line with
    | arrayTable key => exact ih h
    | string key held =>
      simp only [spansOf] at h
      by_cases hheld : held = value
      . rw [if_pos hheld] at h
        rcases List.mem_cons.mp h with rfl | hlater
        . rw [utf8ByteSize_text_string]
          dsimp only
          omega
        . exact ih hlater
      . rw [if_neg hheld] at h
        exact ih h

theorem occurrences_document (hlines : ∀ line ∈ lines, line.IsPlain)
    (hvalue : ∀ c ∈ value.toList, isPlain c) (offset : Nat) :
    (occurrences (quoted value) 0 offset (document lines).toList).map
        (fun quote => ⟨quote + 1, value.utf8ByteSize⟩)
      =
    spansOf value offset lines := by
  induction lines generalizing offset with
  | nil => rfl
  | cons line lines ih =>
    rw [List.forall_mem_cons] at hlines
    rw [document_cons, String.toList_append]
    cases line with
    | arrayTable key =>
      have hquote : '"' ∉ (arrayTable key).text.toList := by
        simp [toList_text_arrayTable, IsBareKey.quote_notMem hlines.1]
      rw [occurrences_append_of_startsNowhere (startsNowhere_quoted hquote _ _)]
      rw [String.utf8Len_toList]
      exact ih hlines.2 _
    | string key held =>
      have hquote : '"' ∉ key.toList ++ [' ', '=', ' '] := by
        simp [IsBareKey.quote_notMem hlines.1.1]
      have htext : (Line.string key held).text.toList ++ (document lines).toList
          = (key.toList ++ [' ', '=', ' ']) ++ (quoted held ++ '\n' :: (document lines).toList) := by
        simp [toList_text_string, quoted]
      have hrest (offset : Nat) : (occurrences (quoted value) 0 offset
          ('\n' :: (document lines).toList)).map (fun quote => ⟨quote + 1, value.utf8ByteSize⟩)
            = spansOf value (offset + 1) lines := by
        rw [occurrences_cons_of_not_isPrefix (by simp [quoted])]
        exact ih hlines.2 _
      have hlead (rest : List Char) :
          occurrences (quoted value) 0 offset ((key.toList ++ [' ', '=', ' ']) ++ rest)
            = occurrences (quoted value) 0 (offset + key.utf8ByteSize + 3) rest := by
        rw [occurrences_append_of_startsNowhere (startsNowhere_quoted hquote _ _)]
        rw [String.utf8Len_append, String.utf8Len_toList]
        rfl
      rw [htext, hlead]
      simp only [spansOf, utf8ByteSize_text_string]
      by_cases hheld : held = value
      . rw [hheld, if_pos rfl, occurrences_pattern (quoted_ne_nil value), List.map_cons, hrest,
          utf8Len_quoted]
        congr 2
        omega
      . rw [if_neg hheld, occurrences_quoted_of_ne hvalue hlines.1.2 hheld, hrest, utf8Len_quoted]
        congr 1
        omega

theorem valueSpan?_document (hlines : ∀ line ∈ lines, line.IsPlain)
    (hvalue : ∀ c ∈ value.toList, isPlain c) (hne : value ≠ "") {n : Nat} {span : Span}
    (hspan : (spansOf value 0 lines)[n]? = some span) :
    valueSpan? (document lines) value n = some span := by
  rw [← occurrences_document hlines hvalue, List.getElem?_map, Option.map_eq_some_iff] at hspan
  obtain ⟨quote, hquote, rfl⟩ := hspan
  exact valueSpan?_of_occurrences hne hquote

end Places

end Line

end Toml

end EntityViews
