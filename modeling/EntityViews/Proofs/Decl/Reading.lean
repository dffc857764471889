import EntityViews.Decl.Statement
import EntityViews.Proofs.Decl.Declared
import EntityViews.Proofs.Decl.Page
import EntityViews.Proofs.Decl.Phrase

/-!
This module contains the reading of declarations: which fields, properties and routines a type has, what
is listed in a call and how the statements of a body are nested, all with their names, types and texts as
they are written.
-/

namespace EntityViews

structure Variable where
  type : String
  name : String
deriving DecidableEq, Repr

structure Property where
  isByRef : Bool
  type : String
  name : String
  getter : List Node

structure Routine where
  kind : CallableKind
  name : String
  parameters : List Variable
  baseArguments : List Node
  body : List Node

namespace Node

def members : Node → List Node
  | .typeDecl _ _ _ members => members
  | _ => []

def field? : Node → Option Variable
  | .field _ type name => some ⟨type.toText, name.toText⟩
  | _ => none

def parameter? : Node → Option Variable
  | .list _ [type, name] => some ⟨type.toText, name.toText⟩
  | _ => none

def getter? : Node → Option (List Node)
  | .accessor .get body => some body
  | .wrapped _ core _ => core.getter?
  | _ => none

def property? : Node → Option Property
  | .property head type name accessors => do
    let getter ← accessors.findSome? getter?
    some ⟨head.isByRef, type.toText, name.toText, getter⟩
  | _ => none

def routine? : Node → Option Routine
  | .callable head _ name parameters _ baseArguments body => do
    let parameters ← parameters.mapM parameter?
    some ⟨head.kind, name.toText, parameters, baseArguments.getD [], body⟩
  | _ => none

def fields (node : Node) : List Variable :=
  node.members.filterMap field?

def properties (node : Node) : List Property :=
  node.members.filterMap property?

def routines (node : Node) : List Routine :=
  node.members.filterMap routine?

def enclosed? (opening closing : String) : Node → Option (List String)
  | .wrapped before (.list _ elements) after =>
    if before.toText = opening ∧ after.toText = closing then some (elements.map toText) else none
  | _ => none

mutual

def outline (depth : Nat) : Node → List (Nat × String)
  | .block header body => (depth, header.toText) :: outlines (depth + 1) body
  | node => [(depth, node.toText)]

def outlines (depth : Nat) : List Node → List (Nat × String)
  | [] => []
  | node :: nodes => node.outline depth ++ outlines depth nodes

end

theorem mapM_parameter?_eq_some {nodes : List Node} {parameters : List Variable}
    (h : nodes.map parameter? = parameters.map some) : nodes.mapM parameter? = some parameters := by
  induction nodes generalizing parameters with
  | nil =>
    rw [List.map_nil, eq_comm, List.map_eq_nil_iff] at h
    rw [h]
    rfl
  | cons node nodes ih =>
    have ⟨first, rest, hparameters, hfirst, hrest⟩ := List.map_eq_cons_iff.mp h.symm
    rw [List.mapM_cons, ← hfirst, ih hrest.symm, hparameters]
    rfl

theorem outlines_eq_flatMap (depth : Nat) (nodes : List Node) :
    outlines depth nodes = nodes.flatMap (outline depth) := by
  induction nodes with
  | nil => rfl
  | cons node nodes ih => rw [outlines, ih, List.flatMap_cons]

@[simp]
theorem outline_text (depth : Nat) (content : String) :
    (text content).outline depth = [(depth, content)] := by
  rw [outline, toText_text]
  simp

@[simp]
theorem outline_block (depth : Nat) (header : Node) (body : List Node) :
    (block header body).outline depth = (depth, header.toText) :: outlines (depth + 1) body := by
  rw [outline]

end Node

/-!
A script that does nothing but write a text within the current line can only be followed on lines that are
not tidy if it never ends a line.
-/

theorem Line.not_isTidy_of_blank (indent : Indent) (opened next : List OpenBracket) (level : Nat)
    (text : String) : ¬Line.IsTidy indent opened ⟨level, " " ++ text⟩ next := by
  intro h
  generalize hline : Line.mk level (" " ++ text) = line at h
  cases h with
  | blank other =>
    have hcontent := congrArg Line.content hline
    simp at hcontent
  | filled hholds _ =>
    have ⟨first, rest, hcontent, hblank, _⟩ := hholds.start
    rw [← hline, String.toList_append] at hcontent
    have hfirst : ' ' = first := (List.cons.inj hcontent).1
    rw [← hfirst] at hblank
    revert hblank
    decide

theorem Script.Inscribes.page_eq {script : Script} {text : String} (h : script.Inscribes text) :
    script.page [] = { first := text } := by
  let draft : Draft := ⟨[], [], ⟨0, " "⟩⟩
  have ⟨finished, hlines, htidy⟩ := (h .standard draft).exists_lines
  cases finished with
  | nil =>
    have ⟨hfirst, hfurther⟩ := List.cons.inj hlines
    have hcontent : " " ++ (script.page []).first = " " ++ text := congrArg Line.content hfirst
    rw [String.append_right_inj] at hcontent
    rw [← hcontent]
    generalize script.page [] = page at hfurther ⊢
    rcases page with ⟨first, further⟩
    exact congrArg (Page.mk first) hfurther
  | cons line finished =>
    have hline : ⟨0, " " ++ (script.page []).first⟩ = line := (List.cons.inj hlines).1
    cases htidy with
    | cons hfirst _ =>
      rw [← hline] at hfirst
      exact absurd hfirst (Line.not_isTidy_of_blank _ _ _ _ _)

namespace Node

open Script

variable {text other : String} {name argument first second : Node}

theorem toText_of_inscribes {node : Node} (h : node.script.Inscribes text) : node.toText = text := by
  have hclear : .clear ∉ node.script := (h .standard ⟨[], [], ⟨0, ""⟩⟩).clear_notMem
  unfold toText
  rw [render_text_of_pending_eq_none hclear rfl]
  unfold page
  rw [h.page_eq]
  simp [Page.text, Line.joinAll]

theorem inscribes_text (text : String) : (Node.text text).script.Inscribes text := by
  exact .single text

theorem inscribes_generic (hname : name.script.Inscribes text)
    (hargument : argument.script.Inscribes other) :
    (Node.generic name [argument]).script.Inscribes (text ++ "<" ++ other ++ ">") := by
  have hlist := hargument.scope false
  have hopened := (hname.append (.single "<")).append hlist
  have hclosed := hopened.append (.single ">")
  simpa [script, ofList, ofList.lineBreakIf] using hclosed

theorem inscribes_wrapped {before node after : Node} {opening closing : String}
    (hbefore : before.script.Inscribes opening) (hnode : node.script.Inscribes text)
    (hafter : after.script.Inscribes closing) :
    (Node.wrapped before node after).script.Inscribes (opening ++ text ++ closing) := by
  exact (hbefore.append hnode).append hafter

theorem inscribes_concat_pair (hfirst : first.script.Inscribes text)
    (hsecond : second.script.Inscribes other) :
    (Node.concat [first, second]).script.Inscribes (text ++ other) := by
  have hlist := (hfirst.append hsecond).scope false
  simpa [concat, script, ofList, ofList.lineBreakIf, ofList.separator] using hlist

end Node
end EntityViews
