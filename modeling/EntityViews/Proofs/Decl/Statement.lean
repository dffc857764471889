import EntityViews.Decl.Statement
import EntityViews.Proofs.Decl.Name
import EntityViews.Proofs.Decl.Tidy

/-!
This module contains the layout of statements: they are written in tidy lines if the names in them are
phrases.
-/

namespace EntityViews

theorem Bracket.notMem_characters_of_isIdentifierPart {c : Char} (h : isIdentifierPart c) :
    c ∉ characters := by
  intro hmem
  have hall : characters.all (!isIdentifierPart ·) := by decide
  have hpart := List.all_eq_true.mp hall c hmem
  rw [h] at hpart
  contradiction

namespace Text

variable {text : String}

theorem isPhrase_of_forall_isIdentifierPart (hne : text ≠ "")
    (h : ∀ c ∈ text.toList, isIdentifierPart c) : IsPhrase text := by
  have hlist : text.toList ≠ [] := by simpa using hne
  apply isPhrase_of_forall_notMem
  . intro c hc
    refine ⟨Bracket.notMem_characters_of_isIdentifierPart (h c hc), ?_⟩
    rintro rfl
    exact absurd (h _ hc) (by decide)
  . refine ⟨text.toList.head hlist, List.head?_eq_some_head hlist, ?_⟩
    exact isBlank_of_isIdentifierPart (h _ (List.head_mem hlist))
  . refine ⟨text.toList.getLast hlist, List.getLast?_eq_some_getLast hlist, ?_⟩
    exact isBlank_of_isIdentifierPart (h _ (List.getLast_mem hlist))

theorem isPhrase_toString_nat (n : Nat) : IsPhrase (toString n) := by
  have hdigits : (toString n).toList = Nat.toDigits 10 n := n.toList_repr
  apply isPhrase_of_forall_isIdentifierPart
  . intro hempty
    rw [hempty] at hdigits
    exact Nat.toDigits_ne_nil hdigits.symm
  . intro c hc
    rw [hdigits] at hc
    have hdigit : c.isDigit := Nat.isDigit_of_mem_toDigits (by decide) (by decide) hc
    simp [isIdentifierPart, Char.isAlphanum, hdigit]

theorem isPhrase_toString_int (n : Int) : IsPhrase (toString n) := by
  cases n with
  | ofNat n => exact isPhrase_toString_nat n
  | negSucc n => exact IsPhrase.append (by decide) (isPhrase_toString_nat (n + 1))

end Text

namespace Term

def names : Term → List String
  | .var name => [name]
  | .int _ => []
  | .bool _ => []
  | .increment name => [name]
  | .less left right => left.names ++ right.names
  | .count collection => collection.names
  | .item collection index => collection.names ++ index.names
  | .prepared entities => entities.names
  | .components collection type => collection.names ++ [type]

theorem isPhrase_text {term : Term} (h : ∀ name ∈ term.names, Text.IsPhrase name) :
    Text.IsPhrase term.text := by
  induction term with
  | var name => exact h name (List.mem_singleton_self name)
  | int value => exact Text.isPhrase_toString_int value
  | bool value => cases value <;> decide
  | increment name =>
    rw [names, List.forall_mem_singleton] at h
    exact Text.IsPhrase.append (by decide) h
  | less left right ihleft ihright =>
    rw [names, List.forall_mem_append] at h
    exact (ihleft h.1).append_inline_append (by decide) (ihright h.2)
  | count collection ih =>
    exact (ih h).append (by decide)
  | item collection index ihcollection ihindex =>
    rw [names, List.forall_mem_append] at h
    have hindex : Text.IsPhrase ("[" ++ index.text ++ "]") :=
      .insert (by decide) (by decide) (by decide) (ihindex h.2).toIsInline
    have hall := (ihcollection h.1).append hindex
    rw [← String.append_assoc, ← String.append_assoc] at hall
    exact hall
  | prepared entities ih =>
    exact (ih h).append (by decide)
  | components collection type ih =>
    rw [names, List.forall_mem_append, List.forall_mem_singleton] at h
    exact (((ih h.1).append (by decide)).append h.2).append (by decide)

end Term

namespace Statement

mutual

def names : Statement → List String
  | .declare type name value => type :: name :: value.names
  | .assign target value => target :: value.names
  | .eval term => term.names
  | .call method => [method]
  | .return value => value.names
  | .ifThen condition body => condition.names ++ namesAll body
  | .while condition body => condition.names ++ namesAll body

def namesAll : List Statement → List String
  | [] => []
  | statement :: statements => names statement ++ namesAll statements

end

@[simp]
theorem namesAll_eq_flatMap (statements : List Statement) :
    namesAll statements = statements.flatMap names := by
  induction statements with
  | nil => rfl
  | cons statement statements ih => simp [namesAll, ih]

variable {indent : Indent}

open Text

mutual

theorem isTidy_node : (statement : Statement) →
    (∀ name ∈ statement.names, Text.IsPhrase name) → statement.node.IsTidy indent
  | .declare type name value, h => by
    rw [names, List.forall_mem_cons, List.forall_mem_cons] at h
    have ⟨htype, hname, hvalue⟩ := h
    have hvariable := htype.append_inline_append isInline_blank hname
    exact (Node.isPhrase_assign hvariable (Term.isPhrase_text hvalue)).isTidy
  | .assign target value, h => by
    rw [names, List.forall_mem_cons] at h
    exact (Node.isPhrase_assign h.1 (Term.isPhrase_text h.2)).isTidy
  | .eval term, h => by
    have hall := (Term.isPhrase_text h).append isPhrase_semicolon
    exact (Node.isPhrase_text hall).isTidy
  | .call method, h => by
    rw [names, List.forall_mem_singleton] at h
    exact (Node.isPhrase_text (h.append (by decide))).isTidy
  | .return value, h => by
    have hall := Text.IsPhrase.insert (by decide : Text.IsPhrase ("return " ++ ";")) (by decide)
      (by decide) (Term.isPhrase_text h).toIsInline
    exact (Node.isPhrase_text hall).isTidy
  | .ifThen condition body, h => by
    rw [names, List.forall_mem_append] at h
    have hheader := Text.IsPhrase.insert (by decide : Text.IsPhrase ("if (" ++ ")")) (by decide)
      (by decide) (Term.isPhrase_text h.1).toIsInline
    exact (Node.isBraced_block (Node.isPhrase_text hheader) (isTidy_nodes body h.2)).isTidy
  | .while condition body, h => by
    rw [names, List.forall_mem_append] at h
    have hheader := Text.IsPhrase.insert (by decide : Text.IsPhrase ("while (" ++ ")")) (by decide)
      (by decide) (Term.isPhrase_text h.1).toIsInline
    exact (Node.isBraced_block (Node.isPhrase_text hheader) (isTidy_nodes body h.2)).isTidy

theorem isTidy_nodes : (statements : List Statement) →
    (∀ name ∈ namesAll statements, Text.IsPhrase name) →
      ∀ node ∈ nodes statements, node.IsTidy indent
  | [], h => by
    simp
  | statement :: statements, h => by
    rw [namesAll, List.forall_mem_append] at h
    rw [nodes, List.forall_mem_cons]
    exact ⟨isTidy_node statement h.1, isTidy_nodes statements h.2⟩

end

end Statement

end EntityViews
