import EntityViews.Decl.Check
import EntityViews.Proofs.Decl.Visited

/-!
This module contains what is left of declarations without the parts that are never written. Neither
what is written nor what the check says depends on these parts.
-/

namespace EntityViews

namespace Node

mutual

/--
The node without the return types of constructors and destructors, which are not written.
-/
def dropReturns : Node → Node
  | .text content => .text content
  | .lineBreak => .lineBreak
  | .list layout elements => .list layout (dropReturnsAll elements)
  | .block header body => .block header.dropReturns (dropReturnsAll body)
  | .generic name arguments => .generic name.dropReturns (dropReturnsAll arguments)
  | .typeDecl head name bases members =>
    .typeDecl head name.dropReturns (dropReturnsAll bases) (dropReturnsAll members)
  | .field head type name => .field head type.dropReturns name.dropReturns
  | .property head type name accessors =>
    .property head type.dropReturns name.dropReturns (dropReturnsAll accessors)
  | .accessor kind body => .accessor kind (dropReturnsAll body)
  | .callable head returns name parameters thisArguments baseArguments body =>
    .callable head (if head.kind = .method then returns.dropReturns else empty) name.dropReturns
      (dropReturnsAll parameters) (dropReturnsForwarded thisArguments)
      (dropReturnsForwarded baseArguments) (dropReturnsAll body)
  | .callback script => .callback script
  | .wrapped before core after => .wrapped before.dropReturns core.dropReturns after.dropReturns

def dropReturnsAll : List Node → List Node
  | [] => []
  | node :: nodes => node.dropReturns :: dropReturnsAll nodes

def dropReturnsForwarded : Option (List Node) → Option (List Node)
  | none => none
  | some arguments => some (dropReturnsAll arguments)

end

attribute [local simp] dropReturns

@[simp]
theorem dropReturnsAll_eq_map (nodes : List Node) :
    dropReturnsAll nodes = nodes.map dropReturns := by
  induction nodes with
  | nil => rfl
  | cons node nodes ih => simp [dropReturnsAll, ih]

@[simp]
theorem dropReturnsForwarded_eq_map (arguments : Option (List Node)) :
    dropReturnsForwarded arguments = arguments.map (List.map dropReturns) := by
  cases arguments with
  | none => rfl
  | some arguments => simp [dropReturnsForwarded]

section

attribute [local simp] script

theorem forwarded_map_dropReturns (opening : String) {arguments : Option (List Node)}
    (h : ∀ given ∈ arguments, ∀ node ∈ given, node.dropReturns.script = node.script) :
    forwarded opening (arguments.map (List.map dropReturns)) = forwarded opening arguments := by
  cases arguments with
  | none => rfl
  | some given => simp [forwarded, Function.comp_def, List.map_congr_left (h given rfl)]

theorem script_dropReturns (node : Node) : node.dropReturns.script = node.script := by
  have hmap {nodes : List Node} (h : ∀ node ∈ nodes, node.dropReturns.script = node.script) :
      nodes.map (script ∘ dropReturns) = nodes.map script :=
    List.map_congr_left h
  induction node with
  | text content => rfl
  | lineBreak => rfl
  | list layout elements ih => simp [hmap ih]
  | block header body ihheader ihbody => simp [ihheader, hmap ihbody]
  | generic name arguments ihname iharguments => simp [ihname, hmap iharguments]
  | typeDecl head name bases members ihname ihbases ihmembers =>
    simp [ihname, hmap ihbases, hmap ihmembers]
  | field head type name ihtype ihname => simp [ihtype, ihname]
  | property head type name accessors ihtype ihname ihaccessors =>
    simp [ihtype, ihname, hmap ihaccessors]
  | accessor kind body ihbody => simp [hmap ihbody]
  | callable head returns name parameters thisArguments baseArguments body ihreturns ihname
      ihparameters ihthis ihbase ihbody =>
    cases hkind : head.kind with
    | method => simp [hkind, ihreturns, ihname, hmap ihparameters, hmap ihbody]
    | constructor =>
      simp [hkind, ihname, hmap ihparameters, forwarded_map_dropReturns _ ihthis,
        forwarded_map_dropReturns _ ihbase, hmap ihbody]
    | destructor => simp [hkind, ihname, hmap ihbody]
  | callback script => rfl
  | wrapped before core after ihbefore ihcore ihafter => simp [ihbefore, ihcore, ihafter]

end

theorem toText_dropReturns (node : Node) : node.dropReturns.toText = node.toText := by
  unfold toText render
  rw [script_dropReturns]

theorem isInvisible_dropReturns (node : Node) :
    node.dropReturns.isInvisible = node.isInvisible := by
  induction node with
  | wrapped before core after ihbefore ihcore ihafter =>
    simp only [dropReturns, isInvisible]
    exact ihcore
  | _ => simp only [dropReturns, isInvisible]

section

attribute [local simp] check

@[local simp]
theorem rejectBlank_dropReturns (kind : String) (node : Node) :
    rejectBlank kind node.dropReturns = rejectBlank kind node := by
  unfold rejectBlank
  rw [isInvisible_dropReturns]

@[local simp]
theorem checkHead_dropReturns (head : CallableHead) (name : Node)
    (hasParameters hasThis hasBase : Bool) :
    checkHead head name.dropReturns hasParameters hasThis hasBase
      =
    checkHead head name hasParameters hasThis hasBase := by
  unfold checkHead
  rw [toText_dropReturns]

theorem checkAll_map_dropReturns {nodes : List Node}
    (h : ∀ node ∈ nodes, node.dropReturns.check = node.check) :
    checkAll (nodes.map dropReturns) = checkAll nodes := by
  induction nodes with
  | nil => rfl
  | cons node nodes ih =>
    rw [List.forall_mem_cons] at h
    rw [List.map_cons, checkAll, checkAll, h.1, ih h.2]

theorem checkForwarded_map_dropReturns {arguments : Option (List Node)}
    (h : ∀ given ∈ arguments, ∀ node ∈ given, node.dropReturns.check = node.check) :
    checkForwarded (arguments.map (List.map dropReturns)) = checkForwarded arguments := by
  cases arguments with
  | none => rfl
  | some given => exact checkAll_map_dropReturns (h given rfl)

theorem check_dropReturns (node : Node) : node.dropReturns.check = node.check := by
  have hall {nodes : List Node} (h : ∀ node ∈ nodes, node.dropReturns.check = node.check) :
      checkAll (nodes.map dropReturns) = checkAll nodes :=
    checkAll_map_dropReturns h
  induction node with
  | text content => rfl
  | lineBreak => rfl
  | list layout elements ih => simp [hall ih]
  | block header body ihheader ihbody => simp [ihheader, hall ihbody]
  | generic name arguments ihname iharguments =>
    simp [toText_dropReturns, ihname, hall iharguments]
  | typeDecl head name bases members ihname ihbases ihmembers =>
    simp [ihname, hall ihbases, hall ihmembers]
  | field head type name ihtype ihname => simp [ihtype, ihname]
  | property head type name accessors ihtype ihname ihaccessors =>
    simp [toText_dropReturns, ihtype, ihname, hall ihaccessors]
  | accessor kind body ihbody => simp [hall ihbody]
  | callable head returns name parameters thisArguments baseArguments body ihreturns ihname
      ihparameters ihthis ihbase ihbody =>
    have hthis := checkForwarded_map_dropReturns ihthis
    have hbase := checkForwarded_map_dropReturns ihbase
    cases hkind : head.kind with
    | method => simp [hkind, ihname, ihreturns, hall ihparameters, hthis, hbase, hall ihbody]
    | constructor => simp [hkind, ihname, hall ihparameters, hthis, hbase, hall ihbody]
    | destructor => simp [hkind, ihname, hall ihparameters, hthis, hbase, hall ihbody]
  | callback script => rfl
  | wrapped before core after ihbefore ihcore ihafter => simp [ihbefore, ihcore, ihafter]

end

end Node

end EntityViews
