import EntityViews.Decl.Check
import EntityViews.Decl.Statement

/-!
This module contains the conditions under which declarations pass their check: for each kind of node,
what has to hold of the node itself and that its parts pass as well.
-/

namespace EntityViews

theorem bind_eq_ok_iff {ε : Type} {first second : Except ε Unit} :
    (first >>= fun _ => second) = .ok () ↔ first = .ok () ∧ second = .ok () := by
  cases first with
  | error error => simp [bind, Except.bind]
  | ok _ => simp [bind, Except.bind]

namespace Node

attribute [local simp] check checkAll checkForwarded

theorem rejectIf_eq_ok_iff {condition : Bool} {error : DeclError} :
    rejectIf condition error = .ok () ↔ condition = false := by
  cases condition with
  | true => simp [rejectIf]
  | false => simp [rejectIf]

theorem rejectBlank_eq_ok_iff {kind : String} {node : Node} :
    rejectBlank kind node = .ok () ↔ node.isInvisible = false := by
  exact rejectIf_eq_ok_iff

@[simp]
theorem check_text (content : String) : (text content).check = .ok () := by
  simp

@[simp]
theorem check_lineBreak : lineBreak.check = .ok () := by
  simp

theorem checkAll_eq_ok_iff {nodes : List Node} :
    checkAll nodes = .ok () ↔ ∀ node ∈ nodes, node.check = .ok () := by
  induction nodes with
  | nil => simp
  | cons node nodes ih =>
    unfold checkAll
    rw [bind_eq_ok_iff]
    rw [ih]
    rw [List.forall_mem_cons]

theorem checkForwarded_eq_ok_iff {forwarded : Option (List Node)} :
    checkForwarded forwarded = .ok ()
      ↔
    ∀ arguments ∈ forwarded, ∀ node ∈ arguments, node.check = .ok () := by
  cases forwarded with
  | none => simp
  | some arguments =>
    unfold checkForwarded
    rw [checkAll_eq_ok_iff]
    simp

theorem check_list_eq_ok_iff {layout : ListLayout} {elements : List Node} :
    (list layout elements).check = .ok () ↔ ∀ element ∈ elements, element.check = .ok () := by
  simp [checkAll_eq_ok_iff]

@[simp]
theorem check_empty : Node.empty.check = .ok () := by
  exact check_text ""

@[simp]
theorem check_assign (target value : String) : (assign target value).check = .ok () := by
  exact check_text _

theorem check_parameter_eq_ok_iff {type name : Node} :
    (parameter type name).check = .ok () ↔ type.check = .ok () ∧ name.check = .ok () := by
  unfold parameter
  rw [check_list_eq_ok_iff]
  rw [List.forall_mem_cons, List.forall_mem_singleton]

theorem check_block_eq_ok_iff {header : Node} {body : List Node} :
    (block header body).check = .ok ()
      ↔
    header.check = .ok () ∧ ∀ element ∈ body, element.check = .ok () := by
  simp [bind_eq_ok_iff, checkAll_eq_ok_iff]

theorem check_generic_eq_ok_iff {name : Node} {arguments : List Node} :
    (generic name arguments).check = .ok ()
      ↔
    name.isInvisible = false ∧ name.check = .ok ()
      ∧ arguments.isEmpty = false ∧ ∀ argument ∈ arguments, argument.check = .ok () := by
  simp [bind_eq_ok_iff, rejectBlank_eq_ok_iff, rejectIf_eq_ok_iff, checkAll_eq_ok_iff]

theorem check_typeDecl_eq_ok_iff {head : TypeHead} {name : Node} {bases members : List Node} :
    (typeDecl head name bases members).check = .ok ()
      ↔
    name.isInvisible = false ∧ name.check = .ok ()
      ∧ (∀ base ∈ bases, base.check = .ok ()) ∧ ∀ member ∈ members, member.check = .ok () := by
  simp [bind_eq_ok_iff, rejectBlank_eq_ok_iff, checkAll_eq_ok_iff]

theorem check_field_eq_ok_iff {head : FieldHead} {type name : Node} :
    (field head type name).check = .ok ()
      ↔
    type.isInvisible = false ∧ type.check = .ok ()
      ∧ name.isInvisible = false ∧ name.check = .ok () := by
  simp [bind_eq_ok_iff, rejectBlank_eq_ok_iff]

theorem check_property_eq_ok_iff {head : PropertyHead} {type name : Node}
    {accessors : List Node} :
    (property head type name accessors).check = .ok ()
      ↔
    type.isInvisible = false ∧ type.check = .ok ()
      ∧ name.isInvisible = false ∧ name.check = .ok ()
      ∧ accessors.isEmpty = false ∧ ∀ accessor ∈ accessors, accessor.check = .ok () := by
  simp [bind_eq_ok_iff, rejectBlank_eq_ok_iff, rejectIf_eq_ok_iff, checkAll_eq_ok_iff]

theorem check_accessor_eq_ok_iff {kind : AccessorKind} {body : List Node} :
    (accessor kind body).check = .ok () ↔ ∀ element ∈ body, element.check = .ok () := by
  simp [checkAll_eq_ok_iff]

theorem check_callable_eq_ok_iff {head : CallableHead} {returns name : Node}
    {parameters : List Node} {thisArguments baseArguments : Option (List Node)}
    {body : List Node} :
    (callable head returns name parameters thisArguments baseArguments body).check = .ok ()
      ↔
    name.isInvisible = false ∧ name.check = .ok ()
      ∧ (head.kind = .method → returns.isInvisible = false ∧ returns.check = .ok ())
      ∧ checkHead head name (!parameters.isEmpty) thisArguments.isSome baseArguments.isSome = .ok ()
      ∧ (∀ parameter ∈ parameters, parameter.check = .ok ())
      ∧ (∀ arguments ∈ thisArguments, ∀ node ∈ arguments, node.check = .ok ())
      ∧ (∀ arguments ∈ baseArguments, ∀ node ∈ arguments, node.check = .ok ())
      ∧ ∀ element ∈ body, element.check = .ok () := by
  cases hkind : head.kind with
  | method =>
    simp [hkind, bind_eq_ok_iff, rejectBlank_eq_ok_iff, checkAll_eq_ok_iff,
      checkForwarded_eq_ok_iff, and_assoc]
  | constructor =>
    simp [hkind, bind_eq_ok_iff, rejectBlank_eq_ok_iff, checkAll_eq_ok_iff,
      checkForwarded_eq_ok_iff]
  | destructor =>
    simp [hkind, bind_eq_ok_iff, rejectBlank_eq_ok_iff, checkAll_eq_ok_iff,
      checkForwarded_eq_ok_iff]

theorem check_wrapped_eq_ok_iff {before core after : Node} :
    (wrapped before core after).check = .ok ()
      ↔
    before.check = .ok () ∧ after.check = .ok () ∧ core.check = .ok () := by
  simp [bind_eq_ok_iff]

end Node

namespace Statement

mutual

@[simp]
theorem check_node : ∀ statement : Statement, statement.node.check = .ok ()
  | .declare .. => by simp only [node, Node.check_text]
  | .assign .. => by simp only [node, Node.assign, Node.check_text]
  | .eval _ => by simp only [node, Node.check_text]
  | .call _ => by simp only [node, Node.check_text]
  | .return _ => by simp only [node, Node.check_text]
  | .ifThen condition body => by
    simp only [node, Node.check_block_eq_ok_iff, Node.check_text, true_and]
    exact check_nodes body
  | .while condition body => by
    simp only [node, Node.check_block_eq_ok_iff, Node.check_text, true_and]
    exact check_nodes body

theorem check_nodes : ∀ statements : List Statement,
    ∀ element ∈ nodes statements, element.check = .ok ()
  | [] => by simp
  | statement :: statements => by
    rw [nodes, List.forall_mem_cons]
    exact ⟨check_node statement, check_nodes statements⟩

end

end Statement

end EntityViews
