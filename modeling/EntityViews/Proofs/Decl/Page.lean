import EntityViews.Proofs.Decl.Nested
import EntityViews.Proofs.Source.Page

/-!
This module contains the line by line view of declarations. A node writes the same page wherever it
is written. The buffer only decides how deep the page is set and what it is indented with, and all
that a node leaves behind is the text of its page.
-/

namespace EntityViews

theorem Text.Avoids.trimEnd {chars : List Char} {text : String} (h : Text.Avoids chars text) :
    Text.Avoids chars (Text.trimEnd text) := by
  intro c hc hmem
  simp only [Text.trimEnd, String.toList_ofList, List.mem_reverse] at hmem
  exact h c hc (List.mem_reverse.mp (List.dropWhile_subset _ hmem))

namespace Node

def Avoids (chars : List Char) : Node → Prop
  | .text content => Text.Avoids chars content
  | .list layout _ => ∀ delimiter ∈ layout.delimiter, Text.Avoids chars delimiter
  | .callback script => ∀ step ∈ script, step.Avoids chars
  | _ => True

def page (node : Node) : Page :=
  node.script.page []

theorem Avoids.allows {chars : List Char} {node : Node} (h : node.Avoids chars) :
    node.Allows (Step.Avoids chars) := by
  unfold Allows
  cases node with
  | text content =>
    rw [ownSteps, List.forall_mem_singleton]
    exact h
  | list layout elements =>
    rw [ownSteps, Script.ofList.separator]
    split
    . unfold Script.ofList.lineBreakIf
      split <;> simp [Step.Avoids]
    . next delimiter hdelimiter =>
      have havoids := h delimiter hdelimiter
      split
      . simpa [Step.Avoids] using havoids.trimEnd
      . simpa [Step.Avoids] using havoids
  | callback script => exact h
  | _ => simp [ownSteps]

theorem tokens_avoid_lineFeed : ∀ token ∈ tokens, Text.Avoids ['\n'] token := by
  simp [tokens, Access.all, Access.keyword, Text.Avoids]

theorem script_avoids_lineFeed {node : Node} (h : ∀ part ∈ node.visited, part.Avoids ['\n']) :
    ∀ step ∈ node.script, step.Avoids ['\n'] := by
  have hnested : node.script.Nested (Step.Avoids ['\n']) :=
    node.nested_script tokens_avoid_lineFeed trivial fun part hpart => (h part hpart).allows
  have hopening : Text.Avoids ['\n'] "(" := by decide
  have hclosing : Text.Avoids ['\n'] ")" := by decide
  exact hnested.forall_mem (fun _ => trivial) trivial (fun hfront => hfront.append hopening)
    hclosing

theorem run_script (session : Session) (node : Node) :
    session.run node.script = ⟨node.render session.buffer, session.scopes⟩ := by
  have hnested : node.script.Nested (fun _ => True) :=
    node.nested_script (fun _ _ => trivial) trivial fun _ _ _ _ => trivial
  exact hnested.run_eq session

theorem render_text {node : Node} (hclear : .clear ∉ node.script) (buffer : Buffer) :
    (node.render buffer).text
      =
    (buffer.append node.page.first).text
      ++ Line.joinAll buffer.indent buffer.depth node.page.further := by
  have hrun := Session.run_text (Session.hasBase_of_nil buffer) hclear
  rw [run_script] at hrun
  exact hrun

theorem render_text_of_pending_eq_none {node : Node} (hclear : .clear ∉ node.script)
    {buffer : Buffer} (hpending : buffer.pending = none) :
    (node.render buffer).text = buffer.text ++ node.page.text buffer.indent buffer.depth := by
  rw [render_text hclear, Buffer.append_text_of_pending_eq_none hpending]
  exact String.append_assoc

theorem isPrefix_render {node : Node} (hclear : .clear ∉ node.script) (buffer : Buffer) :
    buffer.text.toList <+: (node.render buffer).text.toList := by
  rw [render_text hclear, String.toList_append]
  exact (buffer.isPrefix_append node.page.first).trans (List.prefix_append _ _)

theorem render_eq_page (node : Node) (h : ∀ part ∈ node.visited, part.Avoids ['\n']) :
    node.page.Avoids ['\n']
      ∧ ∀ buffer : Buffer,
        (buffer.pending = none →
            (node.render buffer).text
              = buffer.text ++ node.page.text buffer.indent buffer.depth)
          ∧ buffer.text.toList <+: (node.render buffer).text.toList
          ∧ (node.render buffer).depth = buffer.depth
          ∧ (node.render buffer).indent = buffer.indent := by
  have hscript := script_avoids_lineFeed h
  have hclear : .clear ∉ node.script := fun hmem => hscript .clear hmem
  refine ⟨?_, fun buffer => ⟨?_, ?_, ?_, ?_⟩⟩
  . apply Script.avoids_page _ _ hscript
    . simp [Text.Avoids]
    . simp [Text.Avoids]
  . exact fun hpending => render_text_of_pending_eq_none hclear hpending
  . exact isPrefix_render hclear buffer
  . exact buffer.run_depth node.script
  . exact buffer.run_indent node.script

theorem render_eq_page_block :
    let node : Node := .block (.text "class A")
      [.text "int x;", .empty, .callback [.enter .block, .newLine, .append "y"]]
    let buffer : Buffer := { indent := .tab, text := "//", depth := 1 }
    (∀ part ∈ node.visited, part.Avoids ['\n'])
      ∧ node.page.further
          = [⟨0, openBrace⟩, ⟨1, "int x;"⟩, ⟨1, ""⟩, ⟨1, ""⟩, ⟨1, openBrace⟩, ⟨2, "y"⟩,
              ⟨1, closeBrace⟩, ⟨0, closeBrace⟩]
      ∧ (node.render buffer).text = "//" ++ node.page.text .tab 1 := by
  intro node buffer
  have hnode : ∀ part ∈ node.visited, part.Avoids ['\n'] := by
    simp [node, visited, Avoids, Text.Avoids, empty, Step.Avoids]
  exact ⟨hnode, rfl, ((render_eq_page node hnode).2 buffer).1 rfl⟩

end Node

end EntityViews
