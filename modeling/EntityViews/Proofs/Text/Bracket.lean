import Mathlib.Data.List.Basic
import Mathlib.Tactic.MkIffOfInductiveProp
import EntityViews.Text.Blank

/-!
This module contains nested texts, that is texts in which each closing bracket matches the innermost
one that is open and no bracket stays open. Nested texts can be put anywhere without a change to the
brackets around them, so they can be put together and into each other.
-/

namespace EntityViews

inductive Bracket where
  | round
  | square
  | curly
deriving DecidableEq, Repr

namespace Bracket

def opening : Bracket → Char
  | .round => '('
  | .square => '['
  | .curly => '{'

def closing : Bracket → Char
  | .round => ')'
  | .square => ']'
  | .curly => '}'

def ofOpening? (c : Char) : Option Bracket :=
  [round, square, curly].find? (·.opening = c)

def ofClosing? (c : Char) : Option Bracket :=
  [round, square, curly].find? (·.closing = c)

@[simp]
theorem ofOpening?_opening (bracket : Bracket) : ofOpening? bracket.opening = some bracket := by
  cases bracket <;> decide

@[simp]
theorem ofOpening?_closing (bracket : Bracket) : ofOpening? bracket.closing = none := by
  cases bracket <;> decide

@[simp]
theorem ofClosing?_closing (bracket : Bracket) : ofClosing? bracket.closing = some bracket := by
  cases bracket <;> decide

def characters : List Char := ['(', ')', '[', ']', '{', '}']

theorem of_notMem_characters {c : Char} (h : c ∉ characters) :
    ofOpening? c = none ∧ ofClosing? c = none := by
  refine ⟨List.find?_eq_none.mpr ?_, List.find?_eq_none.mpr ?_⟩
  . intro bracket _ heq
    rw [← of_decide_eq_true heq] at h
    revert h
    cases bracket <;> decide
  . intro bracket _ heq
    rw [← of_decide_eq_true heq] at h
    revert h
    cases bracket <;> decide

end Bracket

namespace Text

section

variable {α : Type} (kind : α → Bracket) (mark : Bracket → α)

/--
The brackets that are open after a character when the given ones are open before it, innermost first,
where open brackets are kept as marks of some kind. There is no answer if the character closes a
bracket that is not the innermost one.
-/
def openAfter? (opened : List α) (c : Char) : Option (List α) :=
  match Bracket.ofOpening? c with
  | some bracket => some (mark bracket :: opened)
  | none =>
    match Bracket.ofClosing? c with
    | none => some opened
    | some bracket =>
      match opened with
      | [] => none
      | innermost :: outer => if kind innermost = bracket then some outer else none

def openAfterAll? (opened : List α) (text : List Char) : Option (List α) :=
  text.foldlM (openAfter? kind mark) opened

end

def IsNested (text : String) : Prop :=
  openAfterAll? id id [] text.toList = some []

instance (text : String) : Decidable (IsNested text) :=
  inferInstanceAs (Decidable (openAfterAll? id id [] text.toList = some []))

section

variable {α : Type} {kind : α → Bracket} {mark : Bracket → α} {opened : List α}

theorem openAfterAll?_append (opened : List α) (first second : List Char) :
    openAfterAll? kind mark opened (first ++ second)
      =
    (openAfterAll? kind mark opened first).bind (openAfterAll? kind mark · second) := by
  exact List.foldlM_append

theorem openAfter?_opening (opened : List α) (bracket : Bracket) :
    openAfter? kind mark opened bracket.opening = some (mark bracket :: opened) := by
  simp [openAfter?]

theorem openAfter?_closing {innermost : α} {bracket : Bracket} (h : kind innermost = bracket)
    (outer : List α) :
    openAfter? kind mark (innermost :: outer) bracket.closing = some outer := by
  simp [openAfter?, h]

theorem openAfter?_append_outer {c : Char} {next : List α}
    (h : openAfter? kind mark opened c = some next) (outer : List α) :
    openAfter? kind mark (opened ++ outer) c = some (next ++ outer) := by
  unfold openAfter? at *
  cases hopening : Bracket.ofOpening? c with
  | some bracket =>
    simp only [hopening, Option.some.injEq] at h
    rw [← h]
    rfl
  | none =>
    simp only [hopening] at h
    cases hclosing : Bracket.ofClosing? c with
    | none =>
      simp only [hclosing, Option.some.injEq] at h
      rw [← h]
    | some bracket =>
      simp only [hclosing] at h
      cases opened with
      | nil => cases h
      | cons innermost rest =>
        simp only [Option.ite_none_right_eq_some, Option.some.injEq] at h
        rw [← h.2]
        simp [h.1]

theorem openAfterAll?_append_outer {text : List Char} {next : List α}
    (h : openAfterAll? kind mark opened text = some next) (outer : List α) :
    openAfterAll? kind mark (opened ++ outer) text = some (next ++ outer) := by
  induction text generalizing opened with
  | nil =>
    cases h
    rfl
  | cons c text ih =>
    unfold openAfterAll? at h
    rw [List.foldlM_cons, Option.bind_eq_bind, Option.bind_eq_some_iff] at h
    have ⟨between, hfirst, hrest⟩ := h
    unfold openAfterAll?
    rw [List.foldlM_cons, openAfter?_append_outer hfirst]
    exact ih hrest

variable {β : Type} {otherKind : β → Bracket} {otherMark : Bracket → β} {change : α → β}

theorem openAfter?_map (hkind : ∀ a, otherKind (change a) = kind a)
    (hmark : ∀ bracket, change (mark bracket) = otherMark bracket) (opened : List α) (c : Char) :
    openAfter? otherKind otherMark (opened.map change) c
      =
    (openAfter? kind mark opened c).map (List.map change) := by
  unfold openAfter?
  cases Bracket.ofOpening? c with
  | some bracket => simp [hmark]
  | none =>
    cases Bracket.ofClosing? c with
    | none => rfl
    | some bracket =>
      cases opened with
      | nil => rfl
      | cons innermost outer =>
        simp only [List.map_cons, hkind]
        split <;> rfl

theorem openAfterAll?_map (hkind : ∀ a, otherKind (change a) = kind a)
    (hmark : ∀ bracket, change (mark bracket) = otherMark bracket) (opened : List α)
    (text : List Char) :
    openAfterAll? otherKind otherMark (opened.map change) text
      =
    (openAfterAll? kind mark opened text).map (List.map change) := by
  induction text generalizing opened with
  | nil => rfl
  | cons c text ih =>
    unfold openAfterAll?
    rw [List.foldlM_cons, List.foldlM_cons, openAfter?_map hkind hmark]
    cases openAfter? kind mark opened c with
    | none => rfl
    | some next => exact ih next

theorem openAfterAll?_of_forall_notMem {text : List Char}
    (h : ∀ c ∈ text, c ∉ Bracket.characters) (opened : List α) :
    openAfterAll? kind mark opened text = some opened := by
  induction text with
  | nil => rfl
  | cons c text ih =>
    rw [List.forall_mem_cons] at h
    have ⟨hopening, hclosing⟩ := Bracket.of_notMem_characters h.1
    unfold openAfterAll? openAfter?
    rw [List.foldlM_cons, hopening, hclosing]
    exact ih h.2

theorem openAfterAll?_of_openAfterAll?_nil (hmark : ∀ bracket, kind (mark bracket) = bracket)
    {text : List Char} {brackets : List Bracket}
    (h : openAfterAll? id id [] text = some brackets) (opened : List α) :
    openAfterAll? kind mark opened text = some (brackets.map mark ++ opened) := by
  have hmap := @openAfterAll?_map _ id id _ kind mark mark hmark (fun _ => rfl) [] text
  rw [h] at hmap
  exact openAfterAll?_append_outer hmap opened

end

theorem IsNested.openAfterAll?_eq {α : Type} {kind : α → Bracket} {mark : Bracket → α}
    (hmark : ∀ bracket, kind (mark bracket) = bracket) {text : String} (h : IsNested text)
    (opened : List α) : openAfterAll? kind mark opened text.toList = some opened := by
  exact openAfterAll?_of_openAfterAll?_nil hmark h opened

@[mk_iff]
structure IsInline (text : String) : Prop where
  nested : IsNested text
  lineFeed : '\n' ∉ text.toList

@[mk_iff]
structure IsPhrase (text : String) : Prop extends IsInline text where
  first : ∃ c ∈ text.toList.head?, isBlank c = false ∧ Bracket.ofClosing? c = none
  last : ∃ c ∈ text.toList.getLast?, isBlank c = false

instance (text : String) : Decidable (IsInline text) :=
  decidable_of_iff _ (isInline_iff text).symm

-- the instances are given, as an instance that is found may go through all characters there are
instance (text : String) : Decidable (IsPhrase text) :=
  haveI : Decidable (∃ c ∈ text.toList.head?, isBlank c = false ∧ Bracket.ofClosing? c = none) :=
    Option.decidableExistsMem _
  haveI : Decidable (∃ c ∈ text.toList.getLast?, isBlank c = false) :=
    Option.decidableExistsMem _
  decidable_of_iff _ (isPhrase_iff text).symm

variable {text first second : String}

theorem IsNested.insert (h : IsNested (first ++ second)) (htext : IsNested text) :
    IsNested (first ++ text ++ second) := by
  unfold IsNested at *
  rw [String.toList_append, openAfterAll?_append] at h
  rw [String.toList_append, String.toList_append, openAfterAll?_append, openAfterAll?_append]
  cases hfirst : openAfterAll? id id [] first.toList with
  | none =>
    rw [hfirst] at h
    cases h
  | some opened =>
    rw [hfirst] at h
    rw [Option.bind_some, IsNested.openAfterAll?_eq (fun _ => rfl) htext]
    exact h

theorem IsNested.append (hfirst : IsNested first) (hsecond : IsNested second) :
    IsNested (first ++ second) := by
  have hinsert := @insert second first "" (by simpa using hfirst) hsecond
  simpa using hinsert

theorem isInline_empty : IsInline "" := by
  decide

theorem isInline_blank : IsInline " " := by
  decide

theorem isPhrase_semicolon : IsPhrase ";" := by
  decide

namespace IsInline

theorem insert (h : IsInline (first ++ second)) (htext : IsInline text) :
    IsInline (first ++ text ++ second) := by
  refine ⟨h.nested.insert htext.nested, ?_⟩
  have hlineFeed := h.lineFeed
  simp only [String.toList_append, List.mem_append, not_or] at *
  exact ⟨⟨hlineFeed.1, htext.lineFeed⟩, hlineFeed.2⟩

theorem append (hfirst : IsInline first) (hsecond : IsInline second) :
    IsInline (first ++ second) := by
  have hinsert := @insert second first "" (by simpa using hfirst) hsecond
  simpa using hinsert

end IsInline

namespace IsPhrase

theorem ne_empty (h : IsPhrase text) : text ≠ "" := by
  rintro rfl
  have ⟨_, hmem, _⟩ := h.first
  simp at hmem

theorem exists_eq_cons (h : IsPhrase text) :
    ∃ c rest, text.toList = c :: rest ∧ isBlank c = false ∧ Bracket.ofClosing? c = none := by
  have ⟨c, hmem, hc⟩ := h.first
  have ⟨rest, heq⟩ := List.head?_eq_some_iff.mp hmem
  exact ⟨c, rest, heq, hc⟩

theorem insert (h : IsPhrase (first ++ second)) (hfirst : first ≠ "") (hsecond : second ≠ "")
    (htext : IsInline text) : IsPhrase (first ++ text ++ second) := by
  have hhead := h.first
  have hlast := h.last
  rw [String.toList_append, List.head?_append_of_ne_nil _ (by simpa using hfirst)] at hhead
  rw [String.toList_append, List.getLast?_append_of_ne_nil _ (by simpa using hsecond)] at hlast
  refine ⟨h.toIsInline.insert htext, ?_, ?_⟩
  . rw [String.toList_append, String.toList_append, List.append_assoc,
      List.head?_append_of_ne_nil _ (by simpa using hfirst)]
    exact hhead
  . rw [String.toList_append, List.getLast?_append_of_ne_nil _ (by simpa using hsecond)]
    exact hlast

theorem append (hfirst : IsPhrase first) (hsecond : IsPhrase second) :
    IsPhrase (first ++ second) := by
  refine ⟨hfirst.toIsInline.append hsecond.toIsInline, ?_, ?_⟩
  . rw [String.toList_append, List.head?_append_of_ne_nil _ (by simpa using hfirst.ne_empty)]
    exact hfirst.first
  . rw [String.toList_append, List.getLast?_append_of_ne_nil _ (by simpa using hsecond.ne_empty)]
    exact hsecond.last

theorem append_inline_append (hfirst : IsPhrase first) (htext : IsInline text)
    (hsecond : IsPhrase second) : IsPhrase (first ++ text ++ second) := by
  exact (hfirst.append hsecond).insert hfirst.ne_empty hsecond.ne_empty htext

-- the brackets in front of the last character are those that are open after it if it opens another
theorem ofOpening?_last (h : IsPhrase text) :
    ∃ c ∈ text.toList.getLast?, isBlank c = false ∧ Bracket.ofOpening? c = none := by
  have ⟨c, hmem, hblank⟩ := h.last
  refine ⟨c, hmem, hblank, ?_⟩
  have ⟨front, heq⟩ := List.getLast?_eq_some_iff.mp hmem
  have hnested := h.nested
  unfold IsNested at hnested
  rw [heq, openAfterAll?_append, Option.bind_eq_some_iff] at hnested
  have ⟨opened, _, hlast⟩ := hnested
  cases hopening : Bracket.ofOpening? c with
  | none => rfl
  | some bracket => simp [openAfterAll?, openAfter?, hopening] at hlast

end IsPhrase

theorem isNested_of_forall_notMem (h : ∀ c ∈ text.toList, c ∉ Bracket.characters) :
    IsNested text := by
  exact openAfterAll?_of_forall_notMem h []

theorem isPhrase_of_forall_notMem (hall : ∀ c ∈ text.toList, c ∉ Bracket.characters ∧ c ≠ '\n')
    (hfirst : ∃ c ∈ text.toList.head?, isBlank c = false)
    (hlast : ∃ c ∈ text.toList.getLast?, isBlank c = false) : IsPhrase text := by
  refine ⟨⟨isNested_of_forall_notMem fun c hc => (hall c hc).1, ?_⟩, ?_, hlast⟩
  . exact fun hmem => (hall _ hmem).2 rfl
  . have ⟨c, hmem, hblank⟩ := hfirst
    have hc := hall c (List.mem_of_head? hmem)
    exact ⟨c, hmem, hblank, (Bracket.of_notMem_characters hc.1).2⟩

end Text

end EntityViews
