import Mathlib.Data.String.Basic
import EntityViews.Text.Span

/-!
This module contains the search for the place where a value is written. What is found is compared with
the texts in front of the occurrences of a pattern: each of them is the shortest one behind the
occurrence before it.
-/

namespace EntityViews

open String (utf8Len)

/--
The texts in front of the occurrences of a pattern, which are taken from the left and do not overlap.
-/
inductive Finds (pattern : List Char) : List Char → List (List Char) → Prop where
  | nothing {text : List Char} (h : ¬ pattern <:+: text) : Finds pattern text []
  | next {before rest : List Char} {fronts : List (List Char)}
      (hfirst : ∀ front, front ++ pattern <+: before ++ pattern ++ rest →
        before.length ≤ front.length)
      (hrest : Finds pattern rest fronts) :
      Finds pattern (before ++ pattern ++ rest) (before :: fronts.map (before ++ pattern ++ ·))

structure Span.CutsOut (span : Span) (document text : String) : Prop where
  length_eq : span.length = text.utf8ByteSize
  end_le : span.offset + span.length ≤ document.utf8ByteSize
  bytes_eq : document.toByteArray.extract span.offset (span.offset + span.length) = text.toByteArray

theorem Span.cutsOut_append (before text after : String) :
    Span.CutsOut ⟨before.utf8ByteSize, text.utf8ByteSize⟩ (before ++ text ++ after) text := by
  refine ⟨rfl, ?_, ?_⟩
  . simp only [String.utf8ByteSize_append]
    omega
  . have hsize : (before ++ text).toByteArray.size = before.utf8ByteSize + text.utf8ByteSize := by
      rw [String.toByteArray_append, ByteArray.size_append, String.size_toByteArray,
        String.size_toByteArray]
    dsimp only
    rw [String.toByteArray_append, ← hsize, ByteArray.extract_append_size_left]
    rw [String.toByteArray_append]
    apply ByteArray.extract_append_eq_right
    . rw [String.size_toByteArray]
    . rw [ByteArray.size_append]

section Occurrences

variable {pattern text : List Char}

theorem occurrences_skip (pattern : List Char) (count offset : Nat) (text : List Char) :
    occurrences pattern count offset text
      =
    occurrences pattern 0 (offset + utf8Len (text.take count)) (text.drop count) := by
  induction text generalizing count offset with
  | nil => cases count <;> rfl
  | cons c text ih =>
    cases count with
    | zero => rfl
    | succ count =>
      rw [occurrences, ih]
      simp only [List.take_succ_cons, List.drop_succ_cons, String.utf8Len_cons]
      congr 1
      omega

theorem occurrences_cons_of_not_isPrefix {c : Char} (h : ¬ pattern <+: c :: text) (offset : Nat) :
    occurrences pattern 0 offset (c :: text) = occurrences pattern 0 (offset + c.utf8Size) text := by
  rw [← List.isPrefixOf_iff_prefix] at h
  rw [occurrences, if_neg h]

def StartsNowhere (pattern first rest : List Char) : Prop :=
  ∀ front back, first = front ++ back → back ≠ [] → ¬ pattern <+: back ++ rest

theorem occurrences_append_of_startsNowhere {first rest : List Char}
    (h : StartsNowhere pattern first rest) (offset : Nat) :
    occurrences pattern 0 offset (first ++ rest)
      =
    occurrences pattern 0 (offset + utf8Len first) rest := by
  induction first generalizing offset with
  | nil => rfl
  | cons c first ih =>
    have hc : ¬ pattern <+: c :: (first ++ rest) := h [] (c :: first) rfl (by simp)
    rw [List.cons_append, occurrences_cons_of_not_isPrefix hc, ih]
    . simp only [String.utf8Len_cons]
      congr 1
      omega
    . intro front back hsplit
      exact h (c :: front) back (by rw [hsplit, List.cons_append])

theorem occurrences_pattern (hpattern : pattern ≠ []) (rest : List Char) (offset : Nat) :
    occurrences pattern 0 offset (pattern ++ rest)
      =
    offset :: occurrences pattern 0 (offset + utf8Len pattern) rest := by
  obtain ⟨c, others, rfl⟩ := List.exists_cons_of_ne_nil hpattern
  have hstart : (c :: others).isPrefixOf (c :: others ++ rest) = true := by
    rw [List.isPrefixOf_iff_prefix]
    exact List.prefix_append _ _
  rw [List.cons_append] at hstart ⊢
  rw [occurrences, if_pos hstart, occurrences_skip]
  simp only [List.length_cons, Nat.add_sub_cancel, List.take_left, List.drop_left,
    String.utf8Len_cons]
  congr 2
  omega

theorem startsNowhere_of_not_isInfix (h : ¬ pattern <:+: text) : StartsNowhere pattern text [] := by
  rintro front back rfl _ ⟨rest, hrest⟩
  apply h
  rw [List.append_nil] at hrest
  exact ⟨front, rest, by rw [← hrest, List.append_assoc]⟩

theorem Finds.occurrences_eq (hpattern : pattern ≠ []) {fronts : List (List Char)}
    (h : Finds pattern text fronts) (offset : Nat) :
    occurrences pattern 0 offset text = fronts.map fun front => offset + utf8Len front := by
  induction h generalizing offset with
  | @nothing text h =>
    have hnone := occurrences_append_of_startsNowhere (startsNowhere_of_not_isInfix h) offset
    rw [List.append_nil] at hnone
    rw [hnone]
    rfl
  | @next before rest fronts hfirst _ ih =>
    have hbefore : StartsNowhere pattern before (pattern ++ rest) := by
      rintro front back rfl hback ⟨others, hstart⟩
      have hlength := hfirst front ⟨others, by simp [← hstart]⟩
      rw [List.length_append] at hlength
      exact hback (List.eq_nil_of_length_eq_zero (by omega))
    rw [List.append_assoc, occurrences_append_of_startsNowhere hbefore,
      occurrences_pattern hpattern, ih]
    simp [String.utf8Len_append, Nat.add_assoc, Function.comp_def]

theorem exists_first (h : pattern <:+: text) :
    ∃ before rest, text = before ++ pattern ++ rest
      ∧ ∀ front, front ++ pattern <+: text → before.length ≤ front.length := by
  induction text with
  | nil =>
    have hnil : pattern = [] := by simpa using h
    exact ⟨[], [], by simp [hnil], by simp⟩
  | cons c text ih =>
    by_cases hstart : pattern <+: c :: text
    . have ⟨rest, hrest⟩ := hstart
      exact ⟨[], rest, by simp [hrest], by simp⟩
    . have ⟨before, rest, hsplit, hfirst⟩ := ih ((List.infix_cons_iff.mp h).resolve_left hstart)
      refine ⟨c :: before, rest, by simp [hsplit], ?_⟩
      intro front hfront
      cases front with
      | nil => exact absurd hfront hstart
      | cons d front =>
        rw [List.cons_append, List.cons_prefix_cons] at hfront
        simpa using hfirst front hfront.2

theorem exists_finds (hpattern : pattern ≠ []) (text : List Char) :
    ∃ fronts, Finds pattern text fronts := by
  by_cases h : pattern <:+: text
  . have ⟨before, rest, hsplit, hfirst⟩ := exists_first h
    have hpositive : 0 < pattern.length := List.length_pos_iff.mpr hpattern
    have hshorter : rest.length < text.length := by
      simp only [hsplit, List.length_append]
      omega
    have ⟨fronts, hfronts⟩ := exists_finds hpattern rest
    rw [hsplit] at hfirst ⊢
    exact ⟨_, .next hfirst hfronts⟩
  . exact ⟨[], .nothing h⟩
termination_by text.length

theorem Finds.isPrefix {fronts : List (List Char)} (h : Finds pattern text fronts) :
    ∀ front ∈ fronts, front ++ pattern <+: text := by
  induction h with
  | nothing => simp
  | @next before rest fronts _ _ ih =>
    rw [List.forall_mem_cons, List.forall_mem_map]
    refine ⟨List.prefix_append _ _, ?_⟩
    intro front hfront
    rw [List.append_assoc, List.prefix_append_right_inj]
    exact ih front hfront

theorem Finds.eq_nil_iff {fronts : List (List Char)} (h : Finds pattern text fronts) :
    fronts = [] ↔ ¬ pattern <:+: text := by
  cases h with
  | nothing hnone => simpa using hnone
  | next => simp

theorem utf8Len_pos (hpattern : pattern ≠ []) : 0 < utf8Len pattern := by
  obtain ⟨c, others, rfl⟩ := List.exists_cons_of_ne_nil hpattern
  have := c.utf8Size_pos
  rw [String.utf8Len_cons]
  omega

theorem Finds.pairwise_lt (hpattern : pattern ≠ []) {fronts : List (List Char)}
    (h : Finds pattern text fronts) :
    fronts.Pairwise fun front later => utf8Len front < utf8Len later := by
  induction h with
  | nothing => exact List.Pairwise.nil
  | @next before rest fronts _ _ ih =>
    rw [List.pairwise_cons, List.pairwise_map]
    constructor
    . intro later hlater
      obtain ⟨front, _, rfl⟩ := List.mem_map.mp hlater
      have := utf8Len_pos hpattern
      simp only [String.utf8Len_append]
      omega
    . apply ih.imp
      intro front later hlt
      simpa [String.utf8Len_append] using hlt

end Occurrences

section ValueSpan

variable {document value : String} {n : Nat}

def quoted (value : String) : List Char :=
  '"' :: value.toList ++ ['"']

theorem quoted_ne_nil (value : String) : quoted value ≠ [] := by
  simp [quoted]

theorem valueSpan?_empty (document : String) (n : Nat) : valueSpan? document "" n = none := by
  rfl

theorem valueSpan?_of_occurrences (hvalue : value ≠ "") {offset : Nat}
    (h : (occurrences (quoted value) 0 0 document.toList)[n]? = some offset) :
    valueSpan? document value n = some ⟨offset + 1, value.utf8ByteSize⟩ := by
  unfold quoted at h
  unfold valueSpan?
  rw [if_neg (by simpa using hvalue)]
  dsimp only
  rw [h]

theorem valueSpan?_of_finds (hvalue : value ≠ "") {quotes fronts : List (List Char)}
    (hquotes : Finds (quoted value) document.toList quotes)
    (hfronts : Finds value.toList document.toList fronts) :
    valueSpan? document value n
      =
    (quotes[n]?.map fun front => ⟨utf8Len front + 1, value.utf8ByteSize⟩).or
      (fronts.head?.map fun front => ⟨utf8Len front, value.utf8ByteSize⟩) := by
  have hlist : value.toList ≠ [] := by simpa using hvalue
  have hoccurrences := hquotes.occurrences_eq (quoted_ne_nil value) 0
  unfold quoted at hoccurrences
  unfold valueSpan?
  rw [if_neg (by simpa using hvalue)]
  dsimp only
  rw [hoccurrences, hfronts.occurrences_eq hlist]
  cases hfound : quotes[n]? with
  | none => simp [hfound, Function.comp_def]
  | some front => simp [hfound]

theorem eq_append_of_isPrefix {front : List Char} (h : front ++ value.toList <+: document.toList) :
    ∃ after, document = String.ofList front ++ value ++ after := by
  have ⟨after, hafter⟩ := h
  refine ⟨String.ofList after, ?_⟩
  rw [← String.toList_inj, ← hafter]
  simp

theorem cutsOut_of_isPrefix {front : List Char} (h : front ++ value.toList <+: document.toList) :
    Span.CutsOut ⟨utf8Len front, value.utf8ByteSize⟩ document value := by
  obtain ⟨after, rfl⟩ := eq_append_of_isPrefix h
  rw [← String.utf8ByteSize_ofList]
  exact Span.cutsOut_append _ _ _

theorem cutsOut_of_isPrefix_quoted {front : List Char}
    (h : front ++ quoted value <+: document.toList) :
    Span.CutsOut ⟨utf8Len front + 1, value.utf8ByteSize⟩ document value := by
  have hquote : utf8Len front + 1 = utf8Len (front ++ ['"']) := by
    rw [String.utf8Len_append]
    rfl
  rw [hquote]
  apply cutsOut_of_isPrefix
  have ⟨after, hafter⟩ := h
  exact ⟨'"' :: after, by simp [← hafter, quoted]⟩

theorem isInfix_toList_iff :
    value.toList <:+: document.toList ↔ ∃ before after, document = before ++ value ++ after := by
  constructor
  . rintro ⟨before, after, hsplit⟩
    refine ⟨String.ofList before, String.ofList after, ?_⟩
    rw [← String.toList_inj, ← hsplit]
    simp
  . rintro ⟨before, after, rfl⟩
    exact ⟨before.toList, after.toList, by simp⟩

theorem isInfix_of_quoted (h : quoted value <:+: document.toList) :
    value.toList <:+: document.toList := by
  have hvalue : value.toList <:+: quoted value := ⟨['"'], ['"'], rfl⟩
  exact hvalue.trans h

theorem valueSpan?_cutsOut {span : Span} (h : valueSpan? document value n = some span) :
    span.CutsOut document value := by
  by_cases hvalue : value = ""
  . rw [hvalue, valueSpan?_empty] at h
    cases h
  . have hlist : value.toList ≠ [] := by simpa using hvalue
    have ⟨quotes, hquotes⟩ := exists_finds (quoted_ne_nil value) document.toList
    have ⟨fronts, hfronts⟩ := exists_finds hlist document.toList
    rw [valueSpan?_of_finds hvalue hquotes hfronts] at h
    cases hfound : quotes[n]? with
    | some front =>
      rw [hfound] at h
      cases h
      exact cutsOut_of_isPrefix_quoted (hquotes.isPrefix front (List.mem_of_getElem? hfound))
    | none =>
      rw [hfound, Option.map_none, Option.none_or, Option.map_eq_some_iff] at h
      obtain ⟨front, hhead, rfl⟩ := h
      exact cutsOut_of_isPrefix (hfronts.isPrefix front (List.mem_of_mem_head? hhead))

theorem valueSpan?_eq_none_iff :
    valueSpan? document value n = none
      ↔
    value = "" ∨ ¬ ∃ before after, document = before ++ value ++ after := by
  rw [← isInfix_toList_iff]
  by_cases hvalue : value = ""
  . simp [hvalue, valueSpan?_empty]
  . have hlist : value.toList ≠ [] := by simpa using hvalue
    have ⟨quotes, hquotes⟩ := exists_finds (quoted_ne_nil value) document.toList
    have ⟨fronts, hfronts⟩ := exists_finds hlist document.toList
    rw [valueSpan?_of_finds hvalue hquotes hfronts, ← hfronts.eq_nil_iff]
    simp only [Option.or_eq_none_iff, Option.map_eq_none_iff, List.head?_eq_none_iff, hvalue,
      false_or, and_iff_right_iff_imp]
    intro hnil
    -- without the value there are no quoted occurrences of it either
    have hquoted : quotes = [] := by
      rw [hquotes.eq_nil_iff]
      intro hinfix
      exact hfronts.eq_nil_iff.mp hnil (isInfix_of_quoted hinfix)
    rw [hquoted, List.getElem?_nil]

theorem valueSpan?_of_getElem?_eq_some (hvalue : value ≠ "") {quotes : List (List Char)}
    (hquotes : Finds (quoted value) document.toList quotes) {front : List Char}
    (hfront : quotes[n]? = some front) :
    valueSpan? document value n = some ⟨utf8Len front + 1, value.utf8ByteSize⟩ := by
  apply valueSpan?_of_occurrences hvalue
  rw [hquotes.occurrences_eq (quoted_ne_nil value), List.getElem?_map, hfront]
  simp

end ValueSpan

end EntityViews
