import EntityViews.Proofs.Decl.Lines
import EntityViews.Proofs.Decl.Plain
import EntityViews.Proofs.Source.Tidy

/-!
This module contains the way lists are set. Between any two elements there is one separator, whatever the
elements do to the buffer, so a list can be written in parts. The line break in front of the first element
is as deep as the elements are, and the one behind the last element is as deep as the list.
-/

namespace EntityViews

namespace Buffer

def newLineIf (condition : Bool) (buffer : Buffer) : Buffer :=
  if condition then buffer.newLine else buffer

theorem count_margin {indent : Indent} {c : Char} (h : c ∉ indent.unit.toList) (levels : Nat) :
    (margin indent levels).toList.count c = 0 := by
  induction levels with
  | zero => rfl
  | succ levels ih =>
    rw [margin_succ]
    rw [String.toList_append]
    rw [List.count_append]
    rw [ih]
    rw [List.count_eq_zero.mpr h]

theorem run_lineBreakIf (condition : Bool) (buffer : Buffer) :
    buffer.run (Script.ofList.lineBreakIf condition) = buffer.newLineIf condition := by
  cases condition <;> rfl

end Buffer

theorem Line.count_joinAll {indent : Indent} {c : Char} (h : c ∉ indent.unit.toList) (base : Nat)
    (lines : List Line) :
    (joinAll indent base lines).toList.count c
      =
    (lines.flatMap fun line => '\n' :: line.content.toList).count c := by
  induction lines with
  | nil => rfl
  | cons line lines ih =>
    have hline : (line.text indent base).toList.count c = line.content.toList.count c := by
      unfold text
      split
      . next hempty => rw [String.isEmpty_iff.mp hempty]
      . rw [String.toList_append]
        rw [List.count_append]
        rw [Buffer.count_margin h]
        rw [Nat.zero_add]
    unfold joinAll at *
    rw [List.map_cons]
    rw [String.join_cons]
    rw [List.flatMap_cons]
    rw [← List.singleton_append]
    simp only [String.toList_append, List.count_append, hline, ih]
    rfl

namespace ListLayout

def delimiterText (layout : ListLayout) : String :=
  match layout.delimiter with
  | none => ""
  | some delimiter => if layout.eachOnNewLine then Text.trimEnd delimiter else delimiter

def separate (layout : ListLayout) (buffer : Buffer) : Buffer :=
  (buffer.append layout.delimiterText).newLineIf layout.eachOnNewLine

/--
The buffer that the elements of a list are written to. A line break in front of them is in their scope.
-/
def opening (layout : ListLayout) (buffer : Buffer) : Buffer :=
  ({ buffer with depth := buffer.depth + layout.indented.toNat } : Buffer).newLineIf
    layout.newLineBefore

/--
The buffer behind a list at the given depth once all elements are written. A line break behind them is
outside of their scope.
-/
def closing (layout : ListLayout) (depth : Nat) (buffer : Buffer) : Buffer :=
  ({ buffer with depth } : Buffer).newLineIf layout.newLineAfter

theorem run_separator (layout : ListLayout) (buffer : Buffer) :
    buffer.run (Script.ofList.separator layout) = layout.separate buffer := by
  rcases layout with ⟨delimiter, eachOnNewLine, _, _, _⟩
  cases delimiter with
  | none => exact buffer.run_lineBreakIf eachOnNewLine
  | some delimiter => cases eachOnNewLine <;> rfl

theorem plainSeparator_eq (layout : ListLayout) :
    layout.plainSeparator
      =
    layout.delimiterText.toList ++ plain.lineBreakIf layout.eachOnNewLine := by
  rcases layout with ⟨delimiter, eachOnNewLine, _, _, _⟩
  apply Script.Spells.plain_eq
  cases delimiter with
  | none => exact Script.spells_lineBreakIf eachOnNewLine
  | some delimiter =>
    have hbreak := Script.spells_lineBreakIf eachOnNewLine
    cases eachOnNewLine with
    | true => exact (Script.Spells.single (Text.trimEnd delimiter)).append hbreak
    | false => exact (Script.Spells.single delimiter).append hbreak

@[simp]
theorem separate_depth (layout : ListLayout) (buffer : Buffer) :
    (layout.separate buffer).depth = buffer.depth := by
  rw [← run_separator]
  exact buffer.run_depth _

theorem opening_eq_enter (layout : ListLayout) (buffer : Buffer) :
    layout.opening buffer = (buffer.enter (.indent layout.indented)).newLineIf layout.newLineBefore := by
  unfold opening
  cases layout.indented <;> rfl

theorem opening_depth (layout : ListLayout) (buffer : Buffer) :
    (layout.opening buffer).depth = buffer.depth + layout.indented.toNat := by
  unfold opening Buffer.newLineIf
  split <;> rfl

theorem newLineIf_leave (layout : ListLayout) {depth : Nat} {buffer : Buffer}
    (hdepth : buffer.depth = depth + layout.indented.toNat) :
    (buffer.leave (.indent layout.indented)).newLineIf layout.newLineAfter
      =
    layout.closing depth buffer := by
  unfold closing
  cases hindented : layout.indented with
  | true =>
    -- the elements are one level deep at least, so the subtraction is not cut off
    have houter : buffer.depth - 1 = depth := by
      rw [hindented] at hdepth
      exact Nat.sub_eq_of_eq_add hdepth
    rw [← houter]
    rfl
  | false =>
    have houter : buffer.depth = depth := by
      rw [hindented] at hdepth
      exact hdepth
    rw [← houter]
    rfl

end ListLayout

inductive Piece where
  | element (node : Node)
  | separator

def Piece.isSeparator : Piece → Bool
  | .element _ => false
  | .separator => true

def ListLayout.write (layout : ListLayout) (buffer : Buffer) : Piece → Buffer
  | .element node => node.render buffer
  | .separator => layout.separate buffer

namespace Node

open Script

def renderElements (layout : ListLayout) (elements : List Node) (buffer : Buffer) : Buffer :=
  buffer.run ((ofList.separator layout).intercalate (scripts elements))

def pieces (elements : List Node) : List Piece :=
  (elements.map .element).intersperse .separator

theorem nested_separator (layout : ListLayout) : (ofList.separator layout).Nested fun _ => True := by
  exact .separator trivial fun _ _ => trivial

theorem nested_intercalate_scripts (layout : ListLayout) (elements : List Node) :
    Nested (fun _ => True) ((ofList.separator layout).intercalate (scripts elements)) := by
  exact .intercalate (nested_separator layout) (nested_scripts elements)

theorem render_wrapped (before core after : Node) (buffer : Buffer) :
    (wrapped before core after).render buffer = after.render (core.render (before.render buffer)) := by
  unfold render
  rw [script]
  rw [(before.nested.join core.nested).run_append]
  rw [before.nested.run_append]

theorem render_list_nil (layout : ListLayout) (buffer : Buffer) :
    (list layout []).render buffer = buffer := by
  rfl

theorem renderElements_singleton (layout : ListLayout) (element : Node) (buffer : Buffer) :
    renderElements layout [element] buffer = element.render buffer := by
  unfold renderElements
  rw [scripts_eq_map]
  rw [List.map_singleton]
  rw [List.intercalate_singleton]
  rfl

theorem renderElements_append (layout : ListLayout) {first second : List Node} (hfirst : first ≠ [])
    (hsecond : second ≠ []) (buffer : Buffer) :
    renderElements layout (first ++ second) buffer
      =
    renderElements layout second (layout.separate (renderElements layout first buffer)) := by
  have hscripts : (ofList.separator layout).intercalate (scripts (first ++ second))
      = (ofList.separator layout).intercalate (scripts first) ++ ofList.separator layout
        ++ (ofList.separator layout).intercalate (scripts second) := by
    simp only [scripts_eq_map, List.map_append]
    exact Joined.intercalate_append_of_ne_nil _ (by simpa using hfirst) (by simpa using hsecond)
  have hnested := nested_intercalate_scripts layout first
  unfold renderElements
  rw [hscripts]
  rw [(hnested.join (nested_separator layout)).run_append]
  rw [hnested.run_append]
  rw [layout.run_separator]

theorem renderElements_depth (layout : ListLayout) (elements : List Node) (buffer : Buffer) :
    (renderElements layout elements buffer).depth = buffer.depth := by
  exact buffer.run_depth _

theorem renderElements_eq_foldl (layout : ListLayout) (elements : List Node) (buffer : Buffer) :
    renderElements layout elements buffer = (pieces elements).foldl layout.write buffer := by
  induction elements generalizing buffer with
  | nil => rfl
  | cons element elements ih =>
    cases elements with
    | nil => exact renderElements_singleton layout element buffer
    | cons next elements =>
      rw [← List.singleton_append]
      rw [renderElements_append layout (by simp) (by simp)]
      rw [renderElements_singleton]
      exact ih _

theorem render_list (layout : ListLayout) {elements : List Node} (hne : elements ≠ [])
    (buffer : Buffer) :
    (list layout elements).render buffer
      =
    layout.closing buffer.depth (renderElements layout elements (layout.opening buffer)) := by
  have hbefore : (ofList.lineBreakIf layout.newLineBefore).Nested fun _ => True :=
    .lineBreakIf trivial _
  have hbody := hbefore.join (nested_intercalate_scripts layout elements)
  have hdepth : (renderElements layout elements (layout.opening buffer)).depth
      = buffer.depth + layout.indented.toNat := by
    rw [renderElements_depth]
    exact layout.opening_depth buffer
  unfold render
  rw [script]
  unfold ofList
  rw [if_neg (by simpa using hne)]
  -- the break in front of the elements is part of what the scope encloses, the one behind them is not
  rw [List.append_assoc [_]]
  rw [(hbody.scope _).run_append]
  rw [hbody.run_scope]
  rw [hbefore.run_append]
  rw [Buffer.run_lineBreakIf]
  rw [Buffer.run_lineBreakIf]
  rw [← layout.opening_eq_enter]
  exact layout.newLineIf_leave hdepth

theorem pieces_cons_cons (element next : Node) (elements : List Node) :
    pieces (element :: next :: elements)
      =
    .element element :: .separator :: pieces (next :: elements) := by
  rfl

theorem countP_isSeparator_pieces (elements : List Node) :
    (pieces elements).countP Piece.isSeparator = elements.length - 1 := by
  induction elements with
  | nil => rfl
  | cons element elements ih =>
    cases elements with
    | nil => rfl
    | cons next elements =>
      rw [pieces_cons_cons]
      rw [List.countP_cons_of_neg (by simp [Piece.isSeparator])]
      rw [List.countP_cons_of_pos rfl]
      rw [ih]
      rfl

theorem head?_pieces (elements : List Node) :
    (pieces elements).head? = elements.head?.map .element := by
  cases elements with
  | nil => rfl
  | cons element elements => cases elements <;> rfl

theorem getLast?_pieces (elements : List Node) :
    (pieces elements).getLast? = elements.getLast?.map .element := by
  induction elements with
  | nil => rfl
  | cons element elements ih =>
    cases elements with
    | nil => rfl
    | cons next elements =>
      rw [pieces_cons_cons]
      rw [List.getLast?_cons]
      rw [List.getLast?_cons]
      rw [ih]
      simp [List.getLast?_cons]

theorem count_render {node : Node} (hclear : .clear ∉ node.script) {buffer : Buffer} {c : Char}
    (h : c ∉ buffer.indent.unit.toList) :
    (node.render buffer).text.toList.count c
      =
    buffer.text.toList.count c + node.plain.count c := by
  have ⟨level, hfirst⟩ := buffer.exists_append_text_eq node.page.first
  have hplain : node.plain = node.page.plain := rfl
  rw [render_text hclear]
  rw [hfirst]
  rw [hplain]
  simp only [Page.plain, String.toList_append, List.count_append, Buffer.count_margin h,
    Line.count_joinAll h, Nat.zero_add, Nat.add_assoc]

theorem clear_notMem_script_list {layout : ListLayout} {elements : List Node}
    (h : ∀ element ∈ elements, .clear ∉ element.script) : .clear ∉ (list layout elements).script := by
  have hbreak (condition : Bool) : Step.clear ∉ ofList.lineBreakIf condition := by
    cases condition <;> simp [ofList.lineBreakIf]
  have hseparator : Step.clear ∉ ofList.separator layout := by
    unfold ofList.separator
    split
    . exact hbreak layout.eachOnNewLine
    . split <;> simp
  rw [script]
  unfold ofList
  split
  . simp
  . next hempty =>
    have hjoined : Step.clear ∉ (ofList.separator layout).intercalate (scripts elements) := by
      refine Joined.intercalate_induction (by simpa using hempty) ?_ (by simpa using h)
      intro first second hfirst hsecond
      simp [hfirst, hsecond, hseparator]
    rw [scripts_eq_map] at hjoined
    simp [hbreak, hjoined]

theorem count_render_list (layout : ListLayout) {elements : List Node} (hne : elements ≠ [])
    (hclear : ∀ element ∈ elements, .clear ∉ element.script) {buffer : Buffer} {c : Char}
    (h : c ∉ buffer.indent.unit.toList) :
    ((list layout elements).render buffer).text.toList.count c
      =
    buffer.text.toList.count c + (ListLayout.plain.lineBreakIf layout.newLineBefore).count c
      + ((elements.flatMap plain).count c
        + (elements.length - 1)
          * (layout.delimiterText.toList
              ++ ListLayout.plain.lineBreakIf layout.eachOnNewLine).count c)
      + (ListLayout.plain.lineBreakIf layout.newLineAfter).count c := by
  rw [count_render (clear_notMem_script_list hclear) h]
  rw [plain_list]
  unfold ListLayout.plain
  rw [if_neg (by simpa using hne)]
  rw [List.count_append]
  rw [List.count_append]
  rw [Joined.count_intercalate]
  rw [List.length_map]
  rw [layout.plainSeparator_eq]
  simp only [List.flatMap_def, Nat.add_assoc]

theorem render_list_separated (layout : ListLayout) (buffer : Buffer) :
    (list layout []).render buffer = buffer
      ∧ (∀ before after : Node,
          (wrapped before (list layout []) after).render buffer
            = after.render (before.render buffer))
      ∧ (∀ first second : List Node, first ≠ [] → second ≠ [] →
          renderElements layout (first ++ second) buffer
              = renderElements layout second (layout.separate (renderElements layout first buffer))
            ∧ (layout.separate (renderElements layout first buffer)).depth = buffer.depth)
      ∧ (∀ elements : List Node,
          renderElements layout elements buffer = (pieces elements).foldl layout.write buffer
            ∧ (pieces elements).countP Piece.isSeparator = elements.length - 1
            ∧ (pieces elements).head? = elements.head?.map .element
            ∧ (pieces elements).getLast? = elements.getLast?.map .element)
      ∧ ∀ elements : List Node, elements ≠ [] →
          (list layout elements).render buffer
              = layout.closing buffer.depth (renderElements layout elements (layout.opening buffer))
            ∧ ((∀ element ∈ elements, .clear ∉ element.script) →
              ∀ c ∉ buffer.indent.unit.toList,
                ((list layout elements).render buffer).text.toList.count c
                  = buffer.text.toList.count c
                    + (ListLayout.plain.lineBreakIf layout.newLineBefore).count c
                    + ((elements.flatMap plain).count c
                      + (elements.length - 1)
                        * (layout.delimiterText.toList
                            ++ ListLayout.plain.lineBreakIf layout.eachOnNewLine).count c)
                    + (ListLayout.plain.lineBreakIf layout.newLineAfter).count c) := by
  refine ⟨render_list_nil layout buffer, ?_, ?_, ?_, ?_⟩
  . intro before after
    rw [render_wrapped]
    rw [render_list_nil]
  . intro first second hfirst hsecond
    refine ⟨renderElements_append layout hfirst hsecond buffer, ?_⟩
    rw [layout.separate_depth]
    exact renderElements_depth layout first buffer
  . intro elements
    exact ⟨renderElements_eq_foldl layout elements buffer, countP_isSeparator_pieces elements,
      head?_pieces elements, getLast?_pieces elements⟩
  . intro elements hne
    exact ⟨render_list layout hne buffer, fun hclear c hc => count_render_list layout hne hclear hc⟩

theorem render_list_separated_pending :
    let layout : ListLayout := { ListLayout.hanging with newLineAfter := true }
    let first : List Node := [.text "int a", .callback [.append "int b", .newLine]]
    let second : List Node := [.text "c"]
    let buffer : Buffer := { indent := .tab, text := "M(", depth := 1 }
    let all := (list layout (first ++ second)).render buffer
    first ≠ [] ∧ second ≠ [] ∧ (∀ element ∈ first ++ second, .clear ∉ element.script)
      ∧ ',' ∉ buffer.indent.unit.toList
      ∧ all.text = "M(\n\t\tint a,\n\t\tint b\n\t\t,\n\t\tc\n"
      ∧ all.pending = some 1
      ∧ all = layout.closing 1 (renderElements layout second
          (layout.separate (renderElements layout first (layout.opening buffer))))
      ∧ all.text.toList.count ',' = 2 := by
  intro layout first second buffer all
  have hfirst : first ≠ [] := by simp [first]
  have hsecond : second ≠ [] := by simp [second]
  have hclear : ∀ element ∈ first ++ second, .clear ∉ element.script := by
    simp [first, second, script, closed]
  have hcomma : ',' ∉ buffer.indent.unit.toList := by decide
  obtain ⟨_, _, _, _, hlist⟩ := render_list_separated layout buffer
  obtain ⟨_, _, hsplit, _⟩ := render_list_separated layout (layout.opening buffer)
  obtain ⟨hrender, hcount⟩ := hlist (first ++ second) (by simp [first])
  refine ⟨hfirst, hsecond, hclear, hcomma, by decide +kernel, rfl, ?_, ?_⟩
  . rw [← (hsplit first second hfirst hsecond).1]
    exact hrender
  . exact (hcount hclear ',' hcomma).trans (by decide +kernel)

end Node

end EntityViews
