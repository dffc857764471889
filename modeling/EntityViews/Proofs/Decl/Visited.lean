import EntityViews.Decl.Render

/-!
This module contains induction on declarations, with hypotheses about all parts of a node, and the
list of all nodes that are written when a node is. The script of each of them is a piece of the script
of the node.
-/

namespace EntityViews

namespace Node

open Script

@[induction_eliminator]
theorem induct {motive : Node → Prop}
    (text : ∀ content, motive (.text content))
    (lineBreak : motive .lineBreak)
    (list : ∀ layout elements, (∀ node ∈ elements, motive node) → motive (.list layout elements))
    (block : ∀ header body, motive header → (∀ node ∈ body, motive node) →
      motive (.block header body))
    (generic : ∀ name arguments, motive name → (∀ node ∈ arguments, motive node) →
      motive (.generic name arguments))
    (typeDecl : ∀ head name bases members, motive name → (∀ node ∈ bases, motive node) →
      (∀ node ∈ members, motive node) → motive (.typeDecl head name bases members))
    (field : ∀ head type name, motive type → motive name → motive (.field head type name))
    (property : ∀ head type name accessors, motive type → motive name →
      (∀ node ∈ accessors, motive node) → motive (.property head type name accessors))
    (accessor : ∀ kind body, (∀ node ∈ body, motive node) → motive (.accessor kind body))
    (callable : ∀ head returns name parameters thisArguments baseArguments body,
      motive returns → motive name → (∀ node ∈ parameters, motive node) →
      (∀ arguments ∈ thisArguments, ∀ node ∈ arguments, motive node) →
      (∀ arguments ∈ baseArguments, ∀ node ∈ arguments, motive node) →
      (∀ node ∈ body, motive node) →
      motive (.callable head returns name parameters thisArguments baseArguments body))
    (callback : ∀ script, motive (.callback script))
    (wrapped : ∀ before core after, motive before → motive core → motive after →
      motive (.wrapped before core after))
    (node : Node) : motive node := by
  refine @Node.rec motive (fun nodes => ∀ node ∈ nodes, motive node)
    (fun forwarded => ∀ arguments ∈ forwarded, ∀ node ∈ arguments, motive node)
    text lineBreak list block generic typeDecl field property accessor callable callback wrapped
    ?_ ?_ ?_ ?_ node
  . intro node hnode
    cases hnode
  . intro head tail hhead htail node hnode
    cases List.mem_cons.mp hnode with
    | inl heq =>
      rw [heq]
      exact hhead
    | inr hmem => exact htail node hmem
  . intro arguments harguments
    cases harguments
  . intro arguments hnodes given hgiven
    rw [← Option.mem_some.mp hgiven]
    exact hnodes

mutual

/--
All nodes that are written with a node, the node itself in front. What a callback writes is not a
node.
-/
def visited : Node → List Node
  | .text content => [.text content]
  | .lineBreak => [.lineBreak]
  | .list layout elements => .list layout elements :: visitedAll elements
  | .block header body => .block header body :: header.visited ++ visitedAll body
  | .generic name arguments => .generic name arguments :: name.visited ++ visitedAll arguments
  | .typeDecl head name bases members =>
    .typeDecl head name bases members
      :: name.visited ++ visitedAll bases ++ visitedAll members
  | .field head type name => .field head type name :: type.visited ++ name.visited
  | .property head type name accessors =>
    .property head type name accessors
      :: type.visited ++ name.visited ++ visitedAll accessors
  | .accessor kind body => .accessor kind body :: visitedAll body
  | .callable head returns name parameters thisArguments baseArguments body =>
    let header :=
      match head.kind with
      | .method => returns.visited ++ name.visited ++ visitedAll parameters
      | .constructor =>
        if head.isStatic then
          name.visited
        else
          name.visited ++ visitedAll parameters ++ visitedForwarded thisArguments
            ++ visitedForwarded baseArguments
      | .destructor => name.visited
    .callable head returns name parameters thisArguments baseArguments body
      :: header ++ visitedAll body
  | .callback script => [.callback script]
  | .wrapped before core after =>
    .wrapped before core after :: before.visited ++ core.visited ++ after.visited

def visitedAll : List Node → List Node
  | [] => []
  | node :: nodes => node.visited ++ visitedAll nodes

def visitedForwarded : Option (List Node) → List Node
  | none => []
  | some arguments => visitedAll arguments

end

@[simp]
theorem visitedAll_eq_flatMap (nodes : List Node) : visitedAll nodes = nodes.flatMap visited := by
  induction nodes with
  | nil => rfl
  | cons node nodes ih => simp [visitedAll, ih]

@[simp]
theorem visitedForwarded_eq_flatMap (arguments : Option (List Node)) :
    visitedForwarded arguments = (arguments.getD []).flatMap visited := by
  cases arguments with
  | none => rfl
  | some arguments => simp [visitedForwarded]

def Contains (script : Script) (nodes : List Node) : Prop :=
  ∀ node ∈ nodes, node.script <:+: script

namespace Contains

variable {first second : Script} {nodes others : List Node}

theorem nil (script : Script) : Contains script [] := by
  simp [Contains]

theorem append (hfirst : Contains first nodes) (hsecond : Contains second others) :
    Contains (first ++ second) (nodes ++ others) := by
  unfold Contains
  rw [List.forall_mem_append]
  constructor
  . intro node hnode
    exact List.infix_append_of_infix_left (hfirst node hnode)
  . intro node hnode
    exact List.infix_append_of_infix_right (hsecond node hnode)

theorem after (h : Contains first nodes) (front : Script) : Contains (front ++ first) nodes := by
  exact (nil front).append h

theorem before (h : Contains first nodes) (back : Script) : Contains (first ++ back) nodes := by
  have hall := h.append (nil back)
  rwa [List.append_nil] at hall

theorem flatMap {write : Script → Script} (hwrite : ∀ element, element <:+: write element)
    (h : ∀ node ∈ nodes, Contains node.script node.visited) :
    Contains ((nodes.map script).flatMap write) (nodes.flatMap visited) := by
  induction nodes with
  | nil => exact nil _
  | cons node nodes ih =>
    rw [List.forall_mem_cons] at h
    rw [List.map_cons, List.flatMap_cons, List.flatMap_cons]
    refine append ?_ (ih h.2)
    intro part hpart
    exact (h.1 part hpart).trans (hwrite _)

theorem intercalate (separator : Script)
    (h : ∀ node ∈ nodes, Contains node.script node.visited) :
    Contains (separator.intercalate (nodes.map script)) (nodes.flatMap visited) := by
  induction nodes with
  | nil => exact nil _
  | cons node nodes ih =>
    rw [List.forall_mem_cons] at h
    cases nodes with
    | nil => simpa using h.1
    | cons next nodes =>
      rw [List.map_cons, List.map_cons, List.intercalate_cons_cons, List.flatMap_cons]
      exact (h.1.before _).append (ih h.2)

theorem ofList (layout : ListLayout) (h : ∀ node ∈ nodes, Contains node.script node.visited) :
    Contains (Script.ofList layout (nodes.map script)) (nodes.flatMap visited) := by
  unfold Script.ofList
  split
  . next hempty =>
    have hnil : nodes = [] := by simpa using hempty
    rw [hnil]
    exact nil _
  . exact (((intercalate _ h).after _).before _).before _

theorem ofBody (h : ∀ node ∈ nodes, Contains node.script node.visited) :
    Contains (Script.ofBody (nodes.map script)) (nodes.flatMap visited) := by
  unfold Script.ofBody
  split
  . next hempty =>
    have hnil : nodes = [] := by simpa using hempty
    rw [hnil]
    exact nil _
  . exact ((ofList .lines h).after _).before _

theorem forwarded (opening : String) {arguments : Option (List Node)}
    (h : ∀ given ∈ arguments, ∀ node ∈ given, Contains node.script node.visited) :
    Contains (Node.forwarded opening arguments) ((arguments.getD []).flatMap visited) := by
  cases arguments with
  | none => exact nil _
  | some given =>
    simp only [Node.forwarded, scripts_eq_map]
    exact ((ofList {} (h given rfl)).after _).before _

theorem self {node : Node} {parts : List Node} (h : Contains node.script parts) :
    Contains node.script (node :: parts) := by
  unfold Contains
  rw [List.forall_mem_cons]
  exact ⟨List.infix_rfl, h⟩

end Contains

theorem contains_visited (node : Node) : Contains node.script node.visited := by
  induction node with
  | text content => exact .self (.nil _)
  | lineBreak => exact .self (.nil _)
  | list layout elements ih =>
    simp only [visited, visitedAll_eq_flatMap]
    apply Contains.self
    simp only [script, scripts_eq_map]
    exact .ofList layout ih
  | block header body ihheader ihbody =>
    simp only [visited, visitedAll_eq_flatMap]
    apply Contains.self
    simp only [script, scripts_eq_map]
    exact ihheader.append (.ofBody ihbody)
  | generic name arguments ihname iharguments =>
    simp only [visited, visitedAll_eq_flatMap]
    apply Contains.self
    simp only [script, scripts_eq_map]
    exact ((ihname.before _).append (.ofList _ iharguments)).before _
  | typeDecl head name bases members ihname ihbases ihmembers =>
    simp only [visited, visitedAll_eq_flatMap]
    apply Contains.self
    simp only [script, scripts_eq_map]
    refine ((ihname.after _).append ?_).append (.ofBody ihmembers)
    split
    . next hempty =>
      have hnil : bases = [] := by simpa using hempty
      rw [hnil]
      exact .nil _
    . exact (Contains.ofList _ ihbases).after _
  | field head type name ihtype ihname =>
    simp only [visited]
    apply Contains.self
    simp only [script]
    exact (((ihtype.after _).before _).append ihname).before _
  | property head type name accessors ihtype ihname ihaccessors =>
    simp only [visited, visitedAll_eq_flatMap]
    apply Contains.self
    simp only [script, scripts_eq_map]
    have haccessors := Contains.flatMap
      (fun element => (List.suffix_cons Step.newLine element).isInfix) ihaccessors
    exact (((((ihtype.after _).before _).append ihname).before _).append haccessors).before _
  | accessor kind body ihbody =>
    simp only [visited, visitedAll_eq_flatMap]
    apply Contains.self
    simp only [script, scripts_eq_map]
    exact (Contains.ofBody ihbody).after _
  | callable head returns name parameters thisArguments baseArguments body ihreturns ihname
      ihparameters ihthis ihbase ihbody =>
    simp only [visited, visitedAll_eq_flatMap, visitedForwarded_eq_flatMap]
    apply Contains.self
    simp only [script, scripts_eq_map]
    refine .append ?_ (.ofBody ihbody)
    have hparameters := ((Contains.ofList head.parameterLayout ihparameters).after
      [.append "("]).before [.append ")"]
    cases head.kind with
    | method => exact (((ihreturns.after _).before _).append ihname).append hparameters
    | constructor =>
      dsimp only
      cases head.isStatic with
      | true => exact (ihname.after _).before _
      | false =>
        apply Contains.append
        . exact ((ihname.after _).append hparameters).append (.forwarded _ ihthis)
        . exact .forwarded _ ihbase
    | destructor => exact (ihname.after _).before _
  | callback script => exact .self (.nil _)
  | wrapped before core after ihbefore ihcore ihafter =>
    simp only [visited]
    apply Contains.self
    simp only [script]
    exact (ihbefore.append ihcore).append ihafter

end Node

end EntityViews
