import Mathlib.Data.List.Basic
import EntityViews.Toml.Document

/-!
This module contains documents that are written line by line, where each line is the header of a table
in an array or gives a string to a key. Reading such a document gives back its lines.
-/

namespace EntityViews

namespace Toml

inductive Line where
  | arrayTable (key : String)
  | string (key value : String)

structure IsBareKey (key : List Char) : Prop where
  ne_nil : key ≠ []
  forall_mem : ∀ c ∈ key, isKeyCharacter c

def isPlain (c : Char) : Bool :=
  isPrintable c && c ≠ '"' && c ≠ '\\'

namespace Line

def text : Line → String
  | .arrayTable key => s!"[[{key}]]\n"
  | .string key value => s!"{key} = \"{value}\"\n"

def expression : Line → Expression
  | .arrayTable key => .arrayTable { key }
  | .string key value => .keyValue { key } (.string value)

def IsPlain : Line → Prop
  | .arrayTable key => IsBareKey key.toList
  | .string key value => IsBareKey key.toList ∧ ∀ c ∈ value.toList, isPlain c

end Line

section Strings

variable {value rest : List Char}

theorem basic?_append (h : ∀ c ∈ value, isPlain c) (rest : List Char) :
    Quoted.basic? false .outside (value ++ '"' :: rest) = some (value, rest) := by
  induction value with
  | nil => simp [Quoted.basic?]
  | cons c value ih =>
    rw [List.forall_mem_cons] at h
    have hc : isPrintable c ∧ c ≠ '"' ∧ c ≠ '\\' := by
      simpa [isPlain, and_assoc] using h.1
    unfold Quoted.basic?
    simp [hc, ih h.2, Quoted.push]

theorem string?_append (h : ∀ c ∈ value, isPlain c) (hrest : rest.head? ≠ some '"') :
    Quoted.string? ('"' :: value ++ '"' :: rest) = some (String.ofList value, rest) := by
  have hline : Quoted.line? ('"' :: value ++ '"' :: rest) = some (String.ofList value, rest) := by
    simp [Quoted.line?, basic?_append h]
  unfold Quoted.string?
  split
  . next text heq =>
    -- neither an empty value nor the first character of another one makes three quotes
    cases value with
    | nil => simp_all
    | cons c value =>
      rw [List.forall_mem_cons] at h
      have hc : c = '"' := by simp_all
      rw [hc] at h
      cases h.1
  . next heq => cases heq
  . exact hline

theorem value?_append (nesting : Nat) (h : ∀ c ∈ value, isPlain c) (hrest : rest.head? ≠ some '"') :
    value? nesting ('"' :: value ++ '"' :: rest) = some (.string (String.ofList value), rest) := by
  unfold value?
  rw [string?_append h hrest]

end Strings

section Keys

variable {key rest : List Char}

def startsExpression (c : Char) : Bool :=
  c = '[' || isKeyCharacter c

theorem startsExpression_of_isKeyCharacter {c : Char} (h : isKeyCharacter c) :
    startsExpression c := by
  simp [startsExpression, h]

theorem isBlank_eq_false_of_startsExpression {c : Char} (h : startsExpression c) :
    isBlank c = false := by
  rw [← Bool.not_eq_true]
  intro hblank
  simp only [isBlank, Bool.or_eq_true, decide_eq_true_eq] at hblank
  rcases hblank with rfl | rfl <;> cases h

theorem isBareKey_of_all (hne : key ≠ []) (h : key.all isKeyCharacter) : IsBareKey key where
  ne_nil := hne
  forall_mem := List.all_eq_true.mp h

theorem IsBareKey.exists_cons (h : IsBareKey key) :
    ∃ first others, key = first :: others ∧ isKeyCharacter first := by
  obtain ⟨first, others, rfl⟩ := List.exists_cons_of_ne_nil h.ne_nil
  exact ⟨first, others, rfl, h.forall_mem first List.mem_cons_self⟩

theorem IsBareKey.skipBlanks_append (h : IsBareKey key) (rest : List Char) :
    skipBlanks (key ++ rest) = key ++ rest := by
  obtain ⟨first, others, rfl, hfirst⟩ := h.exists_cons
  have hblank := isBlank_eq_false_of_startsExpression (startsExpression_of_isKeyCharacter hfirst)
  simp [skipBlanks, hblank]

theorem IsBareKey.key?_append (h : IsBareKey key) {c : Char} (hc : isKeyCharacter c = false)
    (rest : List Char) : key? (key ++ c :: rest) = some (String.ofList key, c :: rest) := by
  have htake : (key ++ c :: rest).takeWhile isKeyCharacter = key := by
    rw [List.takeWhile_append_of_pos h.forall_mem, List.takeWhile_cons_of_neg (by simp [hc])]
    exact List.append_nil key
  have hdrop : (key ++ c :: rest).dropWhile isKeyCharacter = c :: rest := by
    rw [List.dropWhile_append_of_pos h.forall_mem, List.dropWhile_cons_of_neg (by simp [hc])]
  have hline : Quoted.line? (key ++ c :: rest) = none := by
    obtain ⟨first, others, rfl, hfirst⟩ := h.exists_cons
    unfold Quoted.line?
    split
    . next heq =>
      rw [(List.cons.inj heq).1] at hfirst
      cases hfirst
    . next heq =>
      rw [(List.cons.inj heq).1] at hfirst
      cases hfirst
    . rfl
  unfold key?
  rw [hline]
  simp [htake, hdrop, h.ne_nil]

theorem IsBareKey.keyPath?_append (h : IsBareKey key) {c : Char} (hc : isKeyCharacter c = false)
    {rest : List Char} (hdot : (skipBlanks (c :: rest)).head? ≠ some '.') :
    keyPath? (key ++ c :: rest) = some ({ key := String.ofList key }, skipBlanks (c :: rest)) := by
  unfold keyPath?
  dsimp only
  rw [h.skipBlanks_append, h.key?_append hc]
  simp only [Option.bind_eq_bind, Option.bind_some]
  split
  . next heq =>
    rw [heq] at hdot
    exact absurd rfl hdot
  . rfl

end Keys

section Expressions

variable {key value : String}

theorem keyValue?_string (hkey : IsBareKey key.toList) (hvalue : ∀ c ∈ value.toList, isPlain c)
    {rest : List Char} (hrest : rest.head? ≠ some '"') (nesting : Nat) :
    keyValue? skipBlanks (value? nesting)
        (key.toList ++ ' ' :: '=' :: ' ' :: '"' :: value.toList ++ '"' :: rest)
      =
    some (({ key }, .string value), rest) := by
  have hequals (text : List Char) : skipBlanks (' ' :: '=' :: text) = '=' :: text := by
    simp [skipBlanks, isBlank]
  have hnone (text : List Char) : skipBlanks ('=' :: text) = '=' :: text := by
    simp [skipBlanks, isBlank]
  have hquote (text : List Char) : skipBlanks (' ' :: '"' :: text) = '"' :: text := by
    simp [skipBlanks, isBlank]
  have hpath (text : List Char) :
      keyPath? (key.toList ++ ' ' :: '=' :: text) = some ({ key }, '=' :: text) := by
    rw [hkey.keyPath?_append rfl (by simp [hequals]), hequals, String.ofList_toList]
  unfold keyValue?
  rw [List.append_assoc]
  simp only [List.cons_append, hpath, hnone, hquote, Option.bind_eq_bind, Option.bind_some]
  rw [← List.cons_append, value?_append nesting hvalue hrest, String.ofList_toList]
  rfl

theorem expression?_arrayTable (h : IsBareKey key.toList) (rest : List Char) :
    expression? ('[' :: '[' :: key.toList ++ ']' :: ']' :: rest)
      =
    some (.arrayTable { key }, rest) := by
  have hbrackets : skipBlanks (']' :: ']' :: rest) = ']' :: ']' :: rest := by
    simp [skipBlanks, isBlank]
  have hpath : keyPath? (key.toList ++ ']' :: ']' :: rest) = some ({ key }, ']' :: ']' :: rest) := by
    rw [h.keyPath?_append rfl (by simp [hbrackets]), hbrackets, String.ofList_toList]
  simp only [List.cons_append]
  simp [expression?, hpath]

theorem expression?_string (hkey : IsBareKey key.toList) (hvalue : ∀ c ∈ value.toList, isPlain c)
    {rest : List Char} (hrest : rest.head? ≠ some '"') :
    expression? (key.toList ++ ' ' :: '=' :: ' ' :: '"' :: value.toList ++ '"' :: rest)
      =
    some (.keyValue { key } (.string value), rest) := by
  have hread := keyValue?_string hkey hvalue hrest maxNesting
  obtain ⟨first, others, hsplit, hfirst⟩ := hkey.exists_cons
  rw [hsplit] at hread ⊢
  unfold expression?
  split
  . next heq =>
    rw [(List.cons.inj heq).1] at hfirst
    cases hfirst
  . next heq =>
    rw [(List.cons.inj heq).1] at hfirst
    cases hfirst
  . rw [hread]
    rfl

end Expressions

section Lines

variable {line : Line} {rest : List Char}

theorem skip_cons_of_startsExpression {c : Char} (h : startsExpression c) (text : List Char) :
    skip (c :: text) = c :: text := by
  have hblank := isBlank_eq_false_of_startsExpression h
  unfold skip skipTrivia
  split
  . next heq => cases heq
  . next heq =>
    rw [(List.cons.inj heq).1] at h
    cases h
  . next heq =>
    rw [(List.cons.inj heq).1] at h
    cases h
  . next heq =>
    obtain ⟨rfl, rfl⟩ := List.cons.inj heq
    have hcomment : c ≠ '#' := by
      rintro rfl
      cases h
    simp [hblank, hcomment]

namespace Line

theorem toList_text_arrayTable (key : String) :
    (Line.arrayTable key).text.toList = '[' :: '[' :: key.toList ++ [']', ']', '\n'] := by
  simp [text, toString]

theorem toList_text_string (key value : String) :
    (Line.string key value).text.toList
      =
    key.toList ++ ' ' :: '=' :: ' ' :: '"' :: value.toList ++ ['"', '\n'] := by
  simp [text, toString]

theorem IsPlain.expression?_append (h : line.IsPlain) (rest : List Char) :
    expression? (line.text.toList ++ rest) = some (line.expression, '\n' :: rest) := by
  cases line with
  | arrayTable key =>
    rw [toList_text_arrayTable, List.append_assoc]
    exact expression?_arrayTable h ('\n' :: rest)
  | string key value =>
    rw [toList_text_string, List.append_assoc]
    exact expression?_string h.1 h.2 (by simp)

theorem IsPlain.exists_cons (h : line.IsPlain) :
    ∃ first others, line.text.toList = first :: others ∧ startsExpression first := by
  cases line with
  | arrayTable key => exact ⟨_, _, toList_text_arrayTable key, rfl⟩
  | string key value =>
    obtain ⟨first, others, hkey, hfirst⟩ := IsBareKey.exists_cons h.1
    rw [toList_text_string, hkey]
    exact ⟨_, _, rfl, startsExpression_of_isKeyCharacter hfirst⟩

theorem endLine?_newline (rest : List Char) : endLine? ('\n' :: rest) = some rest := by
  simp [endLine?, skipBlanks, isBlank, skipComment, newline?]

theorem IsPlain.expressions?_append (h : line.IsPlain) (rest : List Char) :
    expressions? (line.text.toList ++ rest) = (expressions? rest).map (line.expression :: ·) := by
  have hread := h.expression?_append rest
  obtain ⟨first, others, hsplit, hfirst⟩ := h.exists_cons
  rw [hsplit, List.cons_append] at hread ⊢
  rw [expressions?, skip_cons_of_startsExpression hfirst]
  simp only [hread, Option.bind_eq_bind, Option.bind_some, endLine?_newline]
  have hshorter : rest.length < (first :: (others ++ rest)).length := by
    simp only [List.length_cons, List.length_append]
    omega
  rw [if_pos hshorter]
  cases expressions? rest <;> rfl

def document (lines : List Line) : String :=
  String.join (lines.map text)

theorem document_cons (line : Line) (lines : List Line) :
    document (line :: lines) = line.text ++ document lines := by
  simp [document]

theorem expressions?_document {lines : List Line} (h : ∀ line ∈ lines, line.IsPlain) :
    expressions? (document lines).toList = some (lines.map expression) := by
  induction lines with
  | nil => simp [document, expressions?, skip, skipTrivia]
  | cons line lines ih =>
    rw [List.forall_mem_cons] at h
    rw [document_cons, String.toList_append, h.1.expressions?_append, ih h.2]
    rfl

theorem head?_document {lines : List Line} (h : ∀ line ∈ lines, line.IsPlain) :
    ∀ c ∈ (document lines).toList.head?, startsExpression c := by
  cases lines with
  | nil => simp [document]
  | cons line lines =>
    obtain ⟨first, others, hsplit, hfirst⟩ := (h line List.mem_cons_self).exists_cons
    rw [document_cons, String.toList_append, hsplit]
    simpa using hfirst

theorem parse?_document {lines : List Line} (h : ∀ line ∈ lines, line.IsPlain) :
    Document.parse? (document lines)
      =
    ((lines.map expression).foldlM Document.add {}).map (·.root) := by
  unfold Document.parse?
  dsimp only
  split
  . next text heq =>
    -- no expression starts with a byte order mark
    cases head?_document h '\uFEFF' (by simp [heq])
  . rw [expressions?_document h, Option.bind_eq_bind, Option.bind_some]
    cases (lines.map expression).foldlM Document.add {} <;> rfl

end Line

end Lines

end Toml

end EntityViews
