import EntityViews.Proofs.Decl.Layout

/-!
This module contains the layout of declarations node by node: types, properties, methods and constructors
are written in tidy lines if what is in their braces is.
-/

namespace EntityViews

namespace Node

open Script

def IsTidy (indent : Indent) (node : Node) : Prop :=
  node.script.IsTidy indent

def IsBraced (indent : Indent) (node : Node) : Prop :=
  node.script.IsBraced indent

variable {indent : Indent} {type name : Node} {parameters body : List Node}

theorem IsPhrase.isTidy {node : Node} (h : node.IsPhrase) : node.IsTidy indent := by
  exact Script.IsPhrase.isTidy h

theorem IsBraced.isTidy {node : Node} (h : node.IsBraced indent) : node.IsTidy indent := by
  exact Script.IsBraced.isTidy h

theorem isTidy_empty : Node.empty.IsTidy indent := by
  exact Script.isTidy_empty

theorem isTidy_map_script {nodes : List Node} (h : ∀ node ∈ nodes, node.IsTidy indent) :
    ∀ element ∈ nodes.map script, element.IsTidy indent := by
  rw [List.forall_mem_map]
  exact h

theorem isBraced_lines {front : List Node} {last : Node}
    (hfront : ∀ node ∈ front, node.IsTidy indent) (hlast : last.IsBraced indent) :
    (Node.lines (front ++ [last])).IsBraced indent := by
  unfold IsBraced Node.lines
  simp only [script, scripts_eq_map, List.map_append, List.map_singleton]
  exact .lines (isTidy_map_script hfront) hlast

theorem isBraced_block {header : Node} (hheader : header.IsPhrase)
    (hbody : ∀ node ∈ body, node.IsTidy indent) : (Node.block header body).IsBraced indent := by
  unfold IsBraced
  simp only [script, scripts_eq_map]
  exact isBraced_ofBody hheader.isTidy (isTidy_map_script hbody)

theorem isBraced_accessor (kind : AccessorKind) (hbody : ∀ node ∈ body, node.IsTidy indent) :
    (Node.accessor kind body).IsBraced indent := by
  have hkeyword : Text.IsPhrase kind.keyword := by
    cases kind <;> decide
  unfold IsBraced
  simp only [script, scripts_eq_map]
  exact isBraced_ofBody (isPhrase_append hkeyword).isTidy (isTidy_map_script hbody)

theorem isBraced_typeDecl (head : TypeHead) (hname : name.IsPhrase) {bases members : List Node}
    (hbases : ∀ base ∈ bases, base.IsPhrase) (hmembers : ∀ node ∈ members, node.IsTidy indent) :
    (Node.typeDecl head name bases members).IsBraced indent := by
  have hkind : Text.IsPhrase head.kind.keyword := by
    cases head.kind <;> decide
  have hmiddle : IsInline (keywordIf head.isStatic "static" ++ keywordIf head.isReadonly "readonly"
      ++ keywordIf head.isUnsafe "unsafe") :=
    ((IsInline.keywordIf _ (by decide)).append (IsInline.keywordIf _ (by decide))).append
      (IsInline.keywordIf _ (by decide))
  have hrest : Script.IsPhrase (name.script
      ++ if bases.isEmpty then [] else [.append " : "] ++ ofList {} (bases.map script)) := by
    split
    . rw [List.append_nil]
      exact hname
    . next hne =>
      have hlist := Script.IsPhrase.ofList isInline_separator rfl rfl (isPhrase_map_script hbases)
        (by simpa using hne)
      simpa only [List.append_assoc]
        using hname.append_inline_append (isInline_append (by decide)) hlist
  have hheader := Script.IsPhrase.keyword head.access.isPhrase_keyword hmiddle
    (Script.IsPhrase.keyword hkind isInline_nil hrest)
  unfold IsBraced
  simp only [script, scripts_eq_map]
  exact isBraced_ofBody (by simpa using hheader.isTidy) (isTidy_map_script hmembers)

theorem flatMap_newLine_cons (element : Script) (elements : List Script) :
    (element :: elements).flatMap (.newLine :: ·)
      =
    [.newLine] ++ [.newLine].intercalate (element :: elements) := by
  induction elements generalizing element with
  | nil => simp
  | cons next elements ih =>
    rw [List.flatMap_cons, ih, List.intercalate_cons_cons]
    simp

theorem isBraced_property (head : PropertyHead) (htype : type.IsPhrase) (hname : name.IsPhrase)
    {accessors : List Node} (haccessors : ∀ node ∈ accessors, node.IsTidy indent) :
    (Node.property head type name accessors).IsBraced indent := by
  have hmiddle : IsInline (keywordIf head.isStatic "static" ++ keywordIf head.isByRef "ref") :=
    (IsInline.keywordIf _ (by decide)).append (IsInline.keywordIf _ (by decide))
  have hheader : Script.IsTidy indent _ := (Script.IsPhrase.keyword head.access.isPhrase_keyword
    hmiddle (htype.append_inline_append isInline_blank hname)).isTidy
  unfold IsBraced
  simp only [script, scripts_eq_map]
  cases accessors with
  | nil => simpa using isBraced_of_empty hheader
  | cons accessor accessors =>
    have hbody := Script.IsTidy.intercalate (isTidy_map_script haccessors) (by simp)
    rw [List.map_cons, flatMap_newLine_cons]
    simpa using isBraced_of_isTidy hheader hbody

theorem isTidy_attributed {content : String} (h : Text.IsPhrase content) {node : Node}
    (hnode : node.IsTidy indent) :
    (Node.wrapped (.concat [.text content, .lineBreak]) node .empty).IsTidy indent := by
  have hline : Script.IsTidy indent [.append content] := (isPhrase_append h).isTidy
  intro scopes opened hfits
  have ⟨before, line, hwrites, htidy⟩ := hnode scopes opened hfits
  have hattribute : (Draft.start (.indent false :: scopes) opened).Writes indent
      ([.append content] ++ [.newLine]) (.start (.indent false :: scopes) opened) :=
    hline.writes_newLine hfits
  have hscope : (Draft.start scopes opened).Writes indent _ (.start scopes opened) :=
    .scope hattribute
  have hend : Draft.Writes indent ⟨scopes, before, line⟩ [.append ""] _ := .single (.append _ "")
  rw [Draft.append_empty] at hend
  have hall := (hscope.trans hwrites).trans hend
  exact ⟨before, line, hall, htidy⟩

section

variable {parameters : List Node} (hparameters : ∀ node ∈ parameters, node.IsPhrase)
include hparameters

theorem isPhrase_parenthesized {front : Script} (hfront : front.IsPhrase) :
    Script.IsPhrase
      (front ++ ([.append "("] ++ ofList {} (parameters.map script) ++ [.append ")"])) := by
  have hlist := IsInline.arguments (isPhrase_map_script hparameters)
  exact hfront.append (.bracketed (by decide) (by decide) (by decide) hlist)

variable (access : Access) (hname : name.IsPhrase) (hbody : ∀ node ∈ body, node.IsTidy indent)
include hname hbody

theorem isBraced_method (isStatic : Bool) (hreturns : type.IsPhrase) :
    (Node.callable { kind := .method, access, isStatic } type name parameters none none
      body).IsBraced indent := by
  have hkeyword : IsInline (keywordIf isStatic "static") := .keywordIf _ (by decide)
  have hfront := Script.IsPhrase.keyword access.isPhrase_keyword hkeyword
    (hreturns.append_inline_append isInline_blank hname)
  have hheader : Script.IsTidy indent _ := (isPhrase_parenthesized hparameters hfront).isTidy
  unfold IsBraced
  simp only [script, scripts_eq_map, CallableHead.parameterLayout]
  exact isBraced_ofBody (by simpa using hheader) (isTidy_map_script hbody)

theorem isBraced_constructor_wrapped :
    (Node.callable { kind := .constructor, access, wrapParameters := true } type name parameters
      none none body).IsBraced indent := by
  have hfront := Script.IsPhrase.keyword access.isPhrase_keyword isInline_nil hname
  have hheader : Script.IsTidy indent _ := hfront.parameters_isTidy (isPhrase_map_script hparameters)
  unfold IsBraced
  simp only [script, scripts_eq_map, CallableHead.parameterLayout, forwarded]
  exact isBraced_ofBody (by simpa using hheader) (isTidy_map_script hbody)

theorem isBraced_constructor_this {arguments : List Node}
    (harguments : ∀ node ∈ arguments, node.IsPhrase) :
    (Node.callable { kind := .constructor, access } type name parameters (some arguments) none
      body).IsBraced indent := by
  have hfront := Script.IsPhrase.keyword access.isPhrase_keyword isInline_nil hname
  have hlist := IsInline.arguments (isPhrase_map_script harguments)
  have hopening : Text.Opens .round " : this(" := ⟨" : this", by decide, by decide⟩
  have hcall : Script.IsTidy indent _ :=
    (isPhrase_parenthesized hparameters hfront).call_isTidy hopening hlist.continues
  unfold IsBraced
  simp only [script, scripts_eq_map, CallableHead.parameterLayout, forwarded]
  exact isBraced_ofBody (by simpa using hcall) (isTidy_map_script hbody)

theorem isBraced_constructor_base {arguments : List Node}
    (harguments : ∀ node ∈ arguments, node.script.Continues indent) :
    (Node.callable { kind := .constructor, access } type name parameters none (some arguments)
      body).IsBraced indent := by
  have hfront := Script.IsPhrase.keyword access.isPhrase_keyword isInline_nil hname
  have hlist := Continues.arguments (by rw [List.forall_mem_map]; exact harguments)
  have hopening : Text.Opens .round " : base(" := ⟨" : base", by decide, by decide⟩
  have hcall := (isPhrase_parenthesized hparameters hfront).call_isTidy hopening hlist
  unfold IsBraced
  simp only [script, scripts_eq_map, CallableHead.parameterLayout, forwarded]
  exact isBraced_ofBody (by simpa using hcall) (isTidy_map_script hbody)

end

end Node

end EntityViews
