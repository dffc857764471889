import EntityViews.Proofs.Decl.Page
import EntityViews.Proofs.Decl.Statement

/-!
This module contains the characters that declarations avoid. A node has none of them anywhere if its parts
have none, and statements have no line feeds besides those between them if the names in them have none.
-/

namespace EntityViews

@[simp]
theorem Text.avoids_singleton {c : Char} {text : String} :
    Text.Avoids [c] text ↔ c ∉ text.toList := by
  simp [Text.Avoids]

namespace Node

def AvoidsAll (chars : List Char) (node : Node) : Prop :=
  ∀ part ∈ node.visited, part.Avoids chars

section

variable {chars : List Char}

@[simp]
theorem avoidsAll_text {content : String} :
    (text content).AvoidsAll chars ↔ Text.Avoids chars content := by
  simp [AvoidsAll, visited, Avoids]

@[simp]
theorem avoidsAll_empty : empty.AvoidsAll chars := by
  simp [empty, Text.avoids_empty]

@[simp]
theorem avoidsAll_lineBreak : lineBreak.AvoidsAll chars := by
  simp [AvoidsAll, visited, Avoids]

@[simp]
theorem avoidsAll_list {layout : ListLayout} {elements : List Node} :
    (list layout elements).AvoidsAll chars
      ↔
    (∀ delimiter ∈ layout.delimiter, Text.Avoids chars delimiter)
      ∧ ∀ element ∈ elements, element.AvoidsAll chars := by
  simp only [AvoidsAll, visited, visitedAll_eq_flatMap, List.forall_mem_cons,
    List.forall_mem_flatMap, Avoids]

@[simp]
theorem avoidsAll_block {header : Node} {body : List Node} :
    (block header body).AvoidsAll chars
      ↔
    header.AvoidsAll chars ∧ ∀ element ∈ body, element.AvoidsAll chars := by
  simp only [AvoidsAll, visited, visitedAll_eq_flatMap, List.cons_append, List.forall_mem_cons,
    List.forall_mem_flatMap, List.forall_mem_append, Avoids, true_and]

@[simp]
theorem avoidsAll_generic {name : Node} {arguments : List Node} :
    (generic name arguments).AvoidsAll chars
      ↔
    name.AvoidsAll chars ∧ ∀ argument ∈ arguments, argument.AvoidsAll chars := by
  simp only [AvoidsAll, visited, visitedAll_eq_flatMap, List.cons_append, List.forall_mem_cons,
    List.forall_mem_flatMap, List.forall_mem_append, Avoids, true_and]

@[simp]
theorem avoidsAll_typeDecl {head : TypeHead} {name : Node} {bases members : List Node} :
    (typeDecl head name bases members).AvoidsAll chars
      ↔
    name.AvoidsAll chars ∧ (∀ base ∈ bases, base.AvoidsAll chars)
      ∧ ∀ member ∈ members, member.AvoidsAll chars := by
  simp only [AvoidsAll, visited, visitedAll_eq_flatMap, List.cons_append, List.forall_mem_cons,
    List.forall_mem_flatMap, List.forall_mem_append, Avoids, true_and, and_assoc]

@[simp]
theorem avoidsAll_field {head : FieldHead} {type name : Node} :
    (field head type name).AvoidsAll chars ↔ type.AvoidsAll chars ∧ name.AvoidsAll chars := by
  simp only [AvoidsAll, visited, List.cons_append, List.forall_mem_cons, List.forall_mem_append,
    Avoids, true_and]

@[simp]
theorem avoidsAll_property {head : PropertyHead} {type name : Node} {accessors : List Node} :
    (property head type name accessors).AvoidsAll chars
      ↔
    type.AvoidsAll chars ∧ name.AvoidsAll chars
      ∧ ∀ accessor ∈ accessors, accessor.AvoidsAll chars := by
  simp only [AvoidsAll, visited, visitedAll_eq_flatMap, List.cons_append, List.forall_mem_cons,
    List.forall_mem_flatMap, List.forall_mem_append, Avoids, true_and, and_assoc]

@[simp]
theorem avoidsAll_accessor {kind : AccessorKind} {body : List Node} :
    (accessor kind body).AvoidsAll chars ↔ ∀ element ∈ body, element.AvoidsAll chars := by
  simp only [AvoidsAll, visited, visitedAll_eq_flatMap, List.forall_mem_cons,
    List.forall_mem_flatMap, Avoids, true_and]

@[simp]
theorem avoidsAll_wrapped {before core after : Node} :
    (wrapped before core after).AvoidsAll chars
      ↔
    before.AvoidsAll chars ∧ core.AvoidsAll chars ∧ after.AvoidsAll chars := by
  simp only [AvoidsAll, visited, List.cons_append, List.forall_mem_cons, List.forall_mem_append,
    Avoids, true_and, and_assoc]

theorem avoidsAll_callable {head : CallableHead} {returns name : Node} {parameters : List Node}
    {thisArguments baseArguments : Option (List Node)} {body : List Node}
    (hreturns : returns.AvoidsAll chars) (hname : name.AvoidsAll chars)
    (hparameters : ∀ parameter ∈ parameters, parameter.AvoidsAll chars)
    (hthis : ∀ argument ∈ thisArguments.getD [], argument.AvoidsAll chars)
    (hbase : ∀ argument ∈ baseArguments.getD [], argument.AvoidsAll chars)
    (hbody : ∀ element ∈ body, element.AvoidsAll chars) :
    (callable head returns name parameters thisArguments baseArguments body).AvoidsAll chars := by
  unfold AvoidsAll at *
  simp only [visited, visitedAll_eq_flatMap, visitedForwarded_eq_flatMap, List.cons_append,
    List.forall_mem_cons, List.forall_mem_flatMap, List.forall_mem_append, Avoids, true_and]
  refine ⟨?_, hbody⟩
  split
  . simp only [List.forall_mem_append, List.forall_mem_flatMap]
    exact ⟨⟨hreturns, hname⟩, hparameters⟩
  . split
    . exact hname
    . simp only [List.forall_mem_append, List.forall_mem_flatMap]
      exact ⟨⟨⟨hname, hparameters⟩, hthis⟩, hbase⟩
  . exact hname

end

end Node

theorem Term.lineFeed_notMem_text {term : Term} (h : ∀ name ∈ term.names, '\n' ∉ name.toList) :
    '\n' ∉ term.text.toList := by
  induction term with
  | var name => exact h name (List.mem_singleton_self name)
  | int value => exact (Text.isPhrase_toString_int value).lineFeed
  | bool value => cases value <;> decide
  | increment name =>
    rw [names, List.forall_mem_singleton] at h
    simp [text, toString, h]
  | less left right ihleft ihright =>
    rw [names, List.forall_mem_append] at h
    simp [text, toString, ihleft h.1, ihright h.2]
  | count collection ih => simp [text, toString, ih h]
  | item collection index ihcollection ihindex =>
    rw [names, List.forall_mem_append] at h
    simp [text, toString, ihcollection h.1, ihindex h.2]
  | prepared entities ih => simp [text, toString, ih h]
  | components collection type ih =>
    rw [names, List.forall_mem_append, List.forall_mem_singleton] at h
    simp [text, toString, ih h.1, h.2]

namespace Statement

mutual

theorem avoidsAll_node : (statement : Statement) →
    (∀ name ∈ statement.names, '\n' ∉ name.toList) → statement.node.AvoidsAll ['\n']
  | .declare type name value, h => by
    rw [names, List.forall_mem_cons, List.forall_mem_cons] at h
    simp [node, toString, h.1, h.2.1, Term.lineFeed_notMem_text h.2.2]
  | .assign target value, h => by
    rw [names, List.forall_mem_cons] at h
    simp [node, Node.assign, toString, h.1, Term.lineFeed_notMem_text h.2]
  | .eval term, h => by
    simp [node, toString, Term.lineFeed_notMem_text h]
  | .call method, h => by
    rw [names, List.forall_mem_singleton] at h
    simp [node, toString, h]
  | .return value, h => by
    simp [node, toString, Term.lineFeed_notMem_text h]
  | .ifThen condition body, h => by
    rw [names, List.forall_mem_append] at h
    rw [node, Node.avoidsAll_block]
    exact ⟨by simp [toString, Term.lineFeed_notMem_text h.1], avoidsAll_nodes body h.2⟩
  | .while condition body, h => by
    rw [names, List.forall_mem_append] at h
    rw [node, Node.avoidsAll_block]
    exact ⟨by simp [toString, Term.lineFeed_notMem_text h.1], avoidsAll_nodes body h.2⟩

theorem avoidsAll_nodes : (statements : List Statement) →
    (∀ name ∈ namesAll statements, '\n' ∉ name.toList) →
      ∀ node ∈ nodes statements, node.AvoidsAll ['\n']
  | [], h => by
    simp
  | statement :: statements, h => by
    rw [namesAll, List.forall_mem_append] at h
    rw [nodes, List.forall_mem_cons]
    exact ⟨avoidsAll_node statement h.1, avoidsAll_nodes statements h.2⟩

end

end Statement

end EntityViews
