import Mathlib.Data.List.DropRight
import EntityViews.Proofs.Source.Scope
import EntityViews.Source.Operation

/-!
This module contains the line by line view of scripts. A page is what a script writes, as lines that
know how deep they are indented, without a buffer, a depth or an indentation that is still to be
written. Running a script on a buffer appends the text of its page, so indenting lazily is the same
as indenting each line when it is complete.
-/

namespace EntityViews

structure Line where
  level : Nat
  content : String
deriving DecidableEq, Repr

namespace Line

def text (indent : Indent) (base : Nat) (line : Line) : String :=
  if line.content.isEmpty then
    ""
  else
    Buffer.margin indent (base + line.level) ++ line.content

def joinAll (indent : Indent) (base : Nat) (lines : List Line) : String :=
  String.join (lines.map fun line => "\n" ++ line.text indent base)

end Line

structure Page where
  -- the line that a page starts on is started elsewhere
  first : String := ""
  further : List Line := []
deriving DecidableEq, Repr

namespace Page

def text (indent : Indent) (base : Nat) (page : Page) : String :=
  page.first ++ Line.joinAll indent base page.further

def contents (page : Page) : List String :=
  page.first :: page.further.map (·.content)

def prepend (text : String) (page : Page) : Page :=
  { page with first := text ++ page.first }

def onNewLine (level : Nat) (page : Page) : Page where
  further := ⟨level, page.first⟩ :: page.further

end Page

def Text.Avoids (chars : List Char) (text : String) : Prop :=
  ∀ c ∈ chars, c ∉ text.toList

-- the instance is given, as an instance that is found may go through all characters there are
instance (chars : List Char) (text : String) : Decidable (Text.Avoids chars text) :=
  List.decidableBAll (· ∉ text.toList) chars

def Page.Avoids (chars : List Char) (page : Page) : Prop :=
  ∀ content ∈ page.contents, Text.Avoids chars content

def Step.Avoids (chars : List Char) : Step → Prop
  | .append text => Text.Avoids chars text
  | .clear => False
  | _ => True

namespace Script

/--
What a script without `clear` writes when the given scopes are open before it.
-/
def page (scopes : List Scope) : Script → Page
  | [] => {}
  | .append text :: script => (page scopes script).prepend text
  | .newLine :: script => (page scopes script).onNewLine (scopes.countP Scope.isEnabled)
  | .enter .block :: script =>
    ((page (.block :: scopes) script).prepend openBrace).onNewLine (scopes.countP Scope.isEnabled)
  | .enter scope :: script => page (scope :: scopes) script
  | .leave :: script =>
    match scopes with
    | [] => page [] script
    | .block :: scopes =>
      ((page scopes script).prepend closeBrace).onNewLine (scopes.countP Scope.isEnabled)
    | _ :: scopes => page scopes script
  | .clear :: script => page scopes script

end Script

namespace Buffer

theorem append_empty (buffer : Buffer) : buffer.append "" = buffer := by
  rfl

theorem append_append (buffer : Buffer) (first second : String) :
    buffer.append (first ++ second) = (buffer.append first).append second := by
  by_cases hfirst : first = ""
  . rw [hfirst, String.empty_append, append_empty]
  . by_cases hsecond : second = ""
    . rw [hsecond, String.append_empty, append_empty]
    . rcases buffer with ⟨indent, text, depth, pending⟩
      cases pending <;> simp [append, hfirst, hsecond, String.append_assoc]

theorem append_text_of_pending_eq_none {buffer : Buffer} (h : buffer.pending = none)
    (text : String) : (buffer.append text).text = buffer.text ++ text := by
  unfold append
  split
  . next hempty => rw [String.isEmpty_iff.mp hempty, String.append_empty]
  . rw [h]

theorem exists_append_text_eq (buffer : Buffer) (text : String) :
    ∃ level, (buffer.append text).text = buffer.text ++ (margin buffer.indent level ++ text) := by
  unfold append
  split
  . next hempty =>
    rw [String.isEmpty_iff.mp hempty]
    exact ⟨0, by simp [margin]⟩
  . cases buffer.pending with
    | none => exact ⟨0, by simp [margin]⟩
    | some level => exact ⟨level, String.append_assoc⟩

theorem isPrefix_append (buffer : Buffer) (text : String) :
    buffer.text.toList <+: (buffer.append text).text.toList := by
  unfold append
  split
  . exact List.prefix_rfl
  . split
    . simp
    . simp

theorem newLine_append_text (buffer : Buffer) (text : String) :
    (buffer.newLine.append text).text
      =
    buffer.text ++ ("\n" ++ Line.text buffer.indent 0 ⟨buffer.depth, text⟩) := by
  unfold append Line.text newLine
  split
  . rw [String.append_empty]
  . simp [String.append_assoc]

theorem withDepth_append (buffer : Buffer) (depth : Nat) (text : String) :
    ({ buffer with depth } : Buffer).append text = { buffer.append text with depth } := by
  rcases buffer with ⟨indent, written, outer, pending⟩
  unfold append
  split
  . rfl
  . cases pending <;> rfl

theorem enter_indent_append_text (buffer : Buffer) (enabled : Bool) (text : String) :
    ((buffer.enter (.indent enabled)).append text).text = (buffer.append text).text := by
  cases enabled with
  | true =>
    unfold enter
    rw [withDepth_append]
  | false => rfl

theorem leave_indent_append_text (buffer : Buffer) (enabled : Bool) (text : String) :
    ((buffer.leave (.indent enabled)).append text).text = (buffer.append text).text := by
  cases enabled with
  | true =>
    unfold leave
    rw [withDepth_append]
  | false => rfl

theorem enter_block_append_text (buffer : Buffer) (text : String) :
    ((buffer.enter .block).append text).text = (buffer.newLine.append (openBrace ++ text)).text := by
  unfold enter
  rw [withDepth_append, append_append]

theorem leave_block_append_text (buffer : Buffer) (text : String) :
    ((buffer.leave .block).append text).text
      =
    (({ buffer with depth := buffer.depth - 1 } : Buffer).newLine.append (closeBrace ++ text)).text := by
  unfold leave
  rw [append_append]

end Buffer

namespace Text

theorem avoids_empty (chars : List Char) : Avoids chars "" := by
  simp [Avoids]

theorem Avoids.append {chars : List Char} {first second : String} (hfirst : Avoids chars first)
    (hsecond : Avoids chars second) : Avoids chars (first ++ second) := by
  intro c hc hmem
  rw [String.toList_append, List.mem_append] at hmem
  cases hmem with
  | inl hmem => exact hfirst c hc hmem
  | inr hmem => exact hsecond c hc hmem

end Text

namespace Page

theorem newLine_append_onNewLine {buffer : Buffer} {base level : Nat}
    (hdepth : buffer.depth = base + level) (page : Page) :
    (buffer.newLine.append page.first).text ++ Line.joinAll buffer.indent base page.further
      =
    (buffer.append (page.onNewLine level).first).text
      ++ Line.joinAll buffer.indent base (page.onNewLine level).further := by
  have hline : Line.text buffer.indent 0 ⟨buffer.depth, page.first⟩
      = Line.text buffer.indent base ⟨level, page.first⟩ := by
    simp [Line.text, hdepth]
  unfold onNewLine Line.joinAll
  rw [Buffer.newLine_append_text, hline, List.map_cons, String.join_cons, Buffer.append_empty]
  exact String.append_assoc

theorem Avoids.prepend {chars : List Char} {text : String} (htext : Text.Avoids chars text)
    {page : Page} (h : page.Avoids chars) : (page.prepend text).Avoids chars := by
  unfold Avoids contents at *
  rw [List.forall_mem_cons] at *
  exact ⟨htext.append h.1, h.2⟩

theorem Avoids.onNewLine {chars : List Char} (level : Nat) {page : Page} (h : page.Avoids chars) :
    (page.onNewLine level).Avoids chars := by
  unfold Avoids contents Page.onNewLine at *
  rw [List.forall_mem_cons]
  exact ⟨Text.avoids_empty chars, h⟩

end Page

namespace Script

theorem avoids_page {chars : List Char} (hopen : Text.Avoids chars openBrace)
    (hclose : Text.Avoids chars closeBrace) {script : Script} (h : ∀ step ∈ script, step.Avoids chars)
    (scopes : List Scope) : (script.page scopes).Avoids chars := by
  induction script generalizing scopes with
  | nil => simp [page, Page.Avoids, Page.contents, Text.avoids_empty]
  | cons step script ih =>
    rw [List.forall_mem_cons] at h
    replace ih := ih h.2
    cases step with
    | append text => exact (ih scopes).prepend h.1
    | newLine => exact (ih scopes).onNewLine _
    | enter scope =>
      cases scope with
      | indent enabled => exact ih (.indent enabled :: scopes)
      | block => exact ((ih (.block :: scopes)).prepend hopen).onNewLine _
    | leave =>
      cases scopes with
      | nil => exact ih []
      | cons scope scopes =>
        cases scope with
        | indent enabled => exact ih scopes
        | block => exact ((ih scopes).prepend hclose).onNewLine _
    | clear => exact h.1.elim

end Script

namespace Session

theorem run_text {session : Session} {base : Nat} (hbase : session.HasBase base) {script : Script}
    (hclear : .clear ∉ script) :
    (session.run script).buffer.text
      =
    (session.buffer.append (script.page session.scopes).first).text
      ++ Line.joinAll session.buffer.indent base (script.page session.scopes).further := by
  -- what is pending before the script is written by the first text of the page, if there is one, and
  -- so the induction has to carry a buffer that the first line of the page is appended to
  induction script generalizing session with
  | nil => simp [run_nil, Script.page, Buffer.append_empty, Line.joinAll]
  | cons step script ih =>
    rw [List.mem_cons, not_or] at hclear
    have hstep := hbase.step step
    rw [run_cons, ih hstep hclear.2, step_indent]
    rcases session with ⟨buffer, scopes⟩
    cases step with
    | append text =>
      dsimp only [step]
      rw [← Buffer.append_append]
      rfl
    | newLine => exact Page.newLine_append_onNewLine hbase _
    | enter scope =>
      cases scope with
      | indent enabled =>
        dsimp only [step]
        rw [Buffer.enter_indent_append_text]
        rfl
      | block =>
        dsimp only [step]
        rw [Buffer.enter_block_append_text]
        exact Page.newLine_append_onNewLine hbase (Page.prepend _ _)
    | leave =>
      cases scopes with
      | nil => rfl
      | cons scope scopes =>
        cases scope with
        | indent enabled =>
          dsimp only [step]
          rw [Buffer.leave_indent_append_text]
          rfl
        | block =>
          -- the closing brace stands at the depth that remains
          have hdepth : buffer.depth - 1 = base + scopes.countP Scope.isEnabled := by
            simpa [HasBase, step, Scope.isEnabled] using hstep
          dsimp only [step]
          rw [Buffer.leave_block_append_text]
          exact @Page.newLine_append_onNewLine { buffer with depth := buffer.depth - 1 } base _ hdepth
            (Page.prepend _ _)
    | clear => exact absurd rfl hclear.1

theorem HasBase.performAll {session : Session} {base : Nat} (h : session.HasBase base)
    (operations : List Operation) : (session.performAll operations).HasBase base := by
  rw [performAll_eq_run]
  exact h.run _

end Session

end EntityViews
