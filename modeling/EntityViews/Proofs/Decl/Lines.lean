import EntityViews.Proofs.Decl.Page
import EntityViews.Proofs.Source.Lines

/-!
This module contains the lines of declarations, which are put together from the lines of their parts. What
is in the braces of a declaration is one level deeper there than on its own.
-/

namespace EntityViews

namespace Script

variable {first second header : Script} {elements : List Script} {allowed : Step → Prop}

theorem Nested.lines_newLine (hfirst : first.Nested allowed) (hsecond : second.Nested allowed) :
    lines (first ++ [.newLine] ++ second) = first.lines ++ second.lines := by
  have hboth := (hfirst.sets_page.append .newLine).append hsecond.sets_page
  unfold lines
  rw [hboth.page_eq]
  rw [Page.join_assoc]
  rw [Page.onNewLine_join]
  rw [Page.empty_join]
  rw [Page.lines_join_onNewLine]

variable (h : ∀ element ∈ elements, element.Nested allowed) (hbreak : allowed .newLine)
include h hbreak

theorem lines_intercalate (hne : elements ≠ []) :
    lines ([.newLine].intercalate elements) = elements.flatMap lines := by
  induction elements with
  | nil => contradiction
  | cons element elements ih =>
    rw [List.forall_mem_cons] at h
    cases elements with
    | nil =>
      rw [List.intercalate_singleton]
      rw [List.flatMap_singleton]
    | cons next elements =>
      have hrest := Nested.intercalate (.newLine hbreak) h.2
      rw [List.intercalate_cons_cons]
      rw [h.1.lines_newLine hrest]
      rw [ih h.2 (by simp)]
      exact List.flatMap_cons.symm

theorem lines_ofList (hne : elements ≠ []) :
    lines (ofList .lines elements) = elements.flatMap lines := by
  have hscope := ((Nested.intercalate (.newLine hbreak) h).sets_page.indent false).page_eq
  have hscript : ofList .lines elements
      = [.enter (.indent false)] ++ [.newLine].intercalate elements ++ [.leave] := by
    unfold ofList
    rw [if_neg (by simpa using hne)]
    simp [ofList.lineBreakIf, ListLayout.lines, ofList.separator]
  rw [if_neg (by decide)] at hscope
  rw [Page.raise_zero] at hscope
  rw [← lines_intercalate h hbreak hne]
  unfold lines
  rw [hscript]
  rw [hscope]

-- the line that the header ends on is followed by that of the opening brace
theorem lines_ofBody (hheader : header.Nested allowed) :
    lines (header ++ ofBody elements) = header.lines ++ Line.inBraces (elements.flatMap lines) := by
  by_cases hne : elements = []
  . have hblock := (hheader.sets_page.append Sets.nil.block).page_eq
    rw [hne]
    exact (congrArg Page.lines hblock).trans (Page.lines_join_inBlock_empty _)
  . have hlist : (ofList .lines elements).Nested allowed := by
      apply Nested.ofList hbreak _ h
      simpa [ofList.separator, ListLayout.lines, ofList.lineBreakIf] using hbreak
    have hblock := (hheader.sets_page.append (Sets.newLine.append hlist.sets_page).block).page_eq
    have hscript : ofBody elements
        = [.enter .block] ++ ([.newLine] ++ ofList .lines elements) ++ [.leave] := by
      unfold ofBody
      rw [if_neg (by simpa using hne)]
      simp
    rw [Page.onNewLine_join] at hblock
    rw [Page.empty_join] at hblock
    rw [← lines_ofList h hbreak hne]
    unfold lines
    rw [hscript]
    rw [hblock]
    exact Page.lines_join_inBlock _ _

end Script

namespace Node

open Script

theorem nested (node : Node) : node.script.Nested fun _ => True := by
  exact node.nested_script (fun _ _ => trivial) trivial fun _ _ _ _ => trivial

theorem nested_scripts (nodes : List Node) :
    ∀ element ∈ scripts nodes, element.Nested fun _ => True := by
  rw [scripts_eq_map]
  rw [List.forall_mem_map]
  intro node _
  exact node.nested

theorem flatMap_lines_scripts (nodes : List Node) :
    (scripts nodes).flatMap Script.lines = nodes.flatMap (·.page.lines) := by
  rw [scripts_eq_map]
  rw [List.flatMap_map]
  rfl

theorem page_lines_text (content : String) : (text content).page.lines = [⟨0, content⟩] := by
  change [Line.mk 0 (content ++ "")] = _
  rw [String.append_empty]

theorem page_lines_lines {elements : List Node} (hne : elements ≠ []) :
    (lines elements).page.lines = elements.flatMap (·.page.lines) := by
  rw [← flatMap_lines_scripts]
  apply lines_ofList (nested_scripts elements) trivial
  rw [scripts_eq_map]
  simpa using hne

theorem page_lines_block (header : Node) (body : List Node) :
    (block header body).page.lines
      =
    header.page.lines ++ Line.inBraces (body.flatMap (·.page.lines)) := by
  rw [← flatMap_lines_scripts]
  exact lines_ofBody (nested_scripts body) trivial header.nested

theorem exists_page_lines_typeDecl (head : TypeHead) (name : Node) (bases members : List Node) :
    ∃ header : List Line,
      (typeDecl head name bases members).page.lines
        = header ++ Line.inBraces (members.flatMap (·.page.lines)) := by
  have hkeyword (condition : Bool) (keyword : String) :
      (keywordIf condition keyword).Nested fun _ => True :=
    .keywordIf condition trivial trivial
  have hbases : Nested (fun _ => True)
      (if bases.isEmpty then [] else [.append " : "] ++ ofList {} (scripts bases)) := by
    split
    . exact .nil
    . apply Nested.join (.append trivial)
      apply Nested.ofList trivial _ (nested_scripts bases)
      simp
  have hmodifiers := ((hkeyword true head.access.keyword).join
    (hkeyword head.isStatic "static")).join (hkeyword head.isReadonly "readonly")
  have hkeywords := (hmodifiers.join (hkeyword head.isUnsafe "unsafe")).join
    (hkeyword true head.kind.keyword)
  have hheader := (hkeywords.join name.nested).join hbases
  rw [← flatMap_lines_scripts]
  exact ⟨_, lines_ofBody (nested_scripts members) trivial hheader⟩

end Node

end EntityViews
