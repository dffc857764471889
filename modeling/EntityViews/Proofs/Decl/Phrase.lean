import EntityViews.Decl.Render
import EntityViews.Proofs.Source.Draft
import EntityViews.Proofs.Text.Joined

/-!
This module contains phrases, which are declarations and parts of declarations that are written within
one line.
-/

namespace EntityViews

namespace Script

def Inscribes (script : Script) (text : String) : Prop :=
  ∀ (indent : Indent) (draft : Draft), draft.Writes indent script (draft.append text)

def IsInline (script : Script) : Prop :=
  ∃ text, script.Inscribes text ∧ Text.IsInline text

def IsPhrase (script : Script) : Prop :=
  ∃ text, script.Inscribes text ∧ Text.IsPhrase text

namespace Inscribes

theorem nil : Inscribes [] "" := by
  intro indent draft
  rw [Draft.append_empty]
  exact .nil draft

theorem single (text : String) : Inscribes [.append text] text := by
  intro indent draft
  exact .single (.append draft text)

theorem append {first second : Script} {text other : String} (hfirst : first.Inscribes text)
    (hsecond : second.Inscribes other) : Inscribes (first ++ second) (text ++ other) := by
  intro indent draft
  rw [← Draft.append_append]
  exact (hfirst indent draft).trans (hsecond indent (draft.append text))

theorem scope {body : Script} {text : String} (h : body.Inscribes text) (enabled : Bool) :
    Inscribes ([.enter (.indent enabled)] ++ body ++ [.leave]) text := by
  intro indent draft
  exact .scope (h indent (draft.enter (.indent enabled)))

end Inscribes

theorem isInline_nil : IsInline [] := by
  exact ⟨"", .nil, Text.isInline_empty⟩

theorem isInline_append {text : String} (h : Text.IsInline text) : IsInline [.append text] := by
  exact ⟨text, .single text, h⟩

theorem isPhrase_append {text : String} (h : Text.IsPhrase text) : IsPhrase [.append text] := by
  exact ⟨text, .single text, h⟩

theorem isInline_blank : IsInline [.append " "] := by
  exact isInline_append Text.isInline_blank

theorem IsPhrase.isInline {script : Script} (h : script.IsPhrase) : script.IsInline := by
  have ⟨text, hscript, htext⟩ := h
  exact ⟨text, hscript, htext.toIsInline⟩

theorem IsInline.append {first second : Script} (hfirst : first.IsInline)
    (hsecond : second.IsInline) : IsInline (first ++ second) := by
  have ⟨text, hfirst, htext⟩ := hfirst
  have ⟨other, hsecond, hother⟩ := hsecond
  exact ⟨text ++ other, hfirst.append hsecond, htext.append hother⟩

theorem IsInline.keywordIf (condition : Bool) {keyword : String} (h : Text.IsInline keyword) :
    IsInline (Script.keywordIf condition keyword) := by
  cases condition with
  | false => exact isInline_nil
  | true => exact (isInline_append h).append isInline_blank

namespace IsPhrase

theorem append {first second : Script} (hfirst : first.IsPhrase) (hsecond : second.IsPhrase) :
    IsPhrase (first ++ second) := by
  have ⟨text, hfirst, htext⟩ := hfirst
  have ⟨other, hsecond, hother⟩ := hsecond
  exact ⟨text ++ other, hfirst.append hsecond, htext.append hother⟩

theorem append_inline_append {first middle second : Script} (hfirst : first.IsPhrase)
    (hmiddle : middle.IsInline) (hsecond : second.IsPhrase) :
    IsPhrase (first ++ middle ++ second) := by
  have ⟨text, hfirst, htext⟩ := hfirst
  have ⟨between, hmiddle, hbetween⟩ := hmiddle
  have ⟨other, hsecond, hother⟩ := hsecond
  exact ⟨_, (hfirst.append hmiddle).append hsecond, htext.append_inline_append hbetween hother⟩

theorem bracketed {opening closing : String} (h : Text.IsPhrase (opening ++ closing))
    (hopening : opening ≠ "") (hclosing : closing ≠ "") {body : Script} (hbody : body.IsInline) :
    IsPhrase ([.append opening] ++ body ++ [.append closing]) := by
  have ⟨text, hbody, htext⟩ := hbody
  exact ⟨_, ((Inscribes.single opening).append hbody).append (.single closing),
    h.insert hopening hclosing htext⟩

theorem keyword {keyword : String} (h : Text.IsPhrase keyword) {middle rest : Script}
    (hmiddle : middle.IsInline) (hrest : rest.IsPhrase) :
    IsPhrase (keywordIf true keyword ++ middle ++ rest) := by
  exact (isPhrase_append h).append_inline_append (isInline_blank.append hmiddle) hrest

theorem intercalate {separator : Script} (hseparator : separator.IsInline)
    {elements : List Script} (helements : ∀ element ∈ elements, element.IsPhrase)
    (hne : elements ≠ []) : IsPhrase (separator.intercalate elements) := by
  exact Joined.intercalate_induction hne
    (fun _ _ hfirst hsecond => hfirst.append_inline_append hseparator hsecond) helements

theorem ofList {layout : ListLayout} (hseparator : (ofList.separator layout).IsInline)
    (hbefore : layout.newLineBefore = false) (hafter : layout.newLineAfter = false)
    {elements : List Script} (helements : ∀ element ∈ elements, element.IsPhrase)
    (hne : elements ≠ []) : IsPhrase (Script.ofList layout elements) := by
  have ⟨text, hbody, htext⟩ := intercalate hseparator helements hne
  unfold Script.ofList
  rw [if_neg (by simpa using hne), hbefore, hafter]
  refine ⟨text, ?_, htext⟩
  simpa [ofList.lineBreakIf] using hbody.scope layout.indented

end IsPhrase

theorem isInline_separator : (ofList.separator {}).IsInline := by
  exact isInline_append (by decide)

theorem IsInline.arguments {elements : List Script}
    (h : ∀ element ∈ elements, element.IsPhrase) : (ofList {} elements).IsInline := by
  cases elements with
  | nil => exact isInline_nil
  | cons element elements =>
    exact (IsPhrase.ofList isInline_separator rfl rfl h (by simp)).isInline

end Script

theorem Access.isPhrase_keyword (access : Access) : Text.IsPhrase access.keyword := by
  cases access <;> decide

namespace Node

open Script

def IsPhrase (node : Node) : Prop :=
  node.script.IsPhrase

theorem isPhrase_text {content : String} (h : Text.IsPhrase content) :
    (Node.text content).IsPhrase := by
  exact isPhrase_append h

theorem isPhrase_assign {target value : String} (htarget : Text.IsPhrase target)
    (hvalue : Text.IsPhrase value) : (Node.assign target value).IsPhrase := by
  have hsides := htarget.append_inline_append (by decide : Text.IsInline " = ") hvalue
  exact isPhrase_text (hsides.append Text.isPhrase_semicolon)

theorem isPhrase_map_script {nodes : List Node} (h : ∀ node ∈ nodes, node.IsPhrase) :
    ∀ element ∈ nodes.map script, element.IsPhrase := by
  rw [List.forall_mem_map]
  exact h

namespace IsPhrase

variable {type name : Node}

theorem parameter (htype : type.IsPhrase) (hname : name.IsPhrase) :
    (Node.parameter type name).IsPhrase := by
  have hseparator : (ofList.separator { delimiter := some " " }).IsInline := isInline_blank
  have helements : ∀ element ∈ [type.script, name.script], element.IsPhrase := by
    rw [List.forall_mem_cons, List.forall_mem_singleton]
    exact ⟨htype, hname⟩
  exact Script.IsPhrase.ofList hseparator rfl rfl helements (by simp)

theorem concat {elements : List Node} (helements : ∀ element ∈ elements, element.IsPhrase)
    (hne : elements ≠ []) : (Node.concat elements).IsPhrase := by
  have hseparator : (ofList.separator { delimiter := none }).IsInline := isInline_nil
  have hlist := Script.IsPhrase.ofList hseparator rfl rfl (isPhrase_map_script helements)
    (by simpa using hne)
  simpa only [IsPhrase, Node.concat, script, scripts_eq_map] using hlist

theorem afterWord {word : String} (hword : Text.IsPhrase word) {node : Node}
    (hnode : node.IsPhrase) : (Node.wrapped (.text (word ++ " ")) node .empty).IsPhrase := by
  have ⟨content, hscript, hcontent⟩ := hnode
  have hinscribes := ((Inscribes.single (word ++ " ")).append hscript).append (Inscribes.single "")
  rw [String.append_empty] at hinscribes
  exact ⟨_, hinscribes, hword.append_inline_append Text.isInline_blank hcontent⟩

theorem generic (hname : name.IsPhrase) {arguments : List Node}
    (harguments : ∀ argument ∈ arguments, argument.IsPhrase) :
    (Node.generic name arguments).IsPhrase := by
  have hopening : IsInline [.append "<"] := isInline_append (by decide)
  have hclosing : Script.IsPhrase [.append ">"] := isPhrase_append (by decide)
  have hlist := IsInline.arguments (isPhrase_map_script harguments)
  have hphrase := hname.append_inline_append (hopening.append hlist) hclosing
  simpa only [IsPhrase, script, scripts_eq_map, List.append_assoc] using hphrase

theorem field (head : FieldHead) (htype : type.IsPhrase) (hname : name.IsPhrase) :
    (Node.field head type name).IsPhrase := by
  have hmiddle : IsInline (keywordIf head.isStatic "static" ++ keywordIf head.isReadonly "readonly") :=
    (IsInline.keywordIf _ (by decide)).append (IsInline.keywordIf _ (by decide))
  have hend : Script.IsPhrase [.append ";"] := isPhrase_append Text.isPhrase_semicolon
  have hrest := (htype.append_inline_append isInline_blank hname).append hend
  have hphrase := Script.IsPhrase.keyword head.access.isPhrase_keyword hmiddle hrest
  simpa only [IsPhrase, script, List.append_assoc] using hphrase

end IsPhrase

end Node

end EntityViews
