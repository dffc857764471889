import EntityViews.Proofs.Source.Tidy

/-!
This module contains drafts, which are pages that are followed while they are written. A step that ends a
line is only possible if the line is tidy, so all lines of a page that can be followed to its end are.
-/

namespace EntityViews

open OpenBracket

structure Draft where
  scopes : List Scope
  opened : List OpenBracket
  line : Line

namespace Draft

def start (scopes : List Scope) (opened : List OpenBracket) : Draft :=
  ⟨scopes, opened, ⟨scopes.countP Scope.isEnabled, ""⟩⟩

def append (draft : Draft) (text : String) : Draft :=
  { draft with line := draft.line.append text }

def enter (draft : Draft) (scope : Scope) : Draft :=
  { draft with scopes := scope :: draft.scopes }

inductive Takes (indent : Indent) : Draft → Step → Draft → Prop where
  | append (draft : Draft) (text : String) : Takes indent draft (.append text) (draft.append text)
  | newLine {draft : Draft} {next : List OpenBracket}
      (h : draft.line.IsTidy indent draft.opened next) :
      Takes indent draft .newLine (start draft.scopes next)
  | enterIndent (draft : Draft) (enabled : Bool) :
      Takes indent draft (.enter (.indent enabled)) (draft.enter (.indent enabled))
  | enterBlock {draft : Draft} {next : List OpenBracket}
      (h : draft.line.IsTidy indent draft.opened next) :
      Takes indent draft (.enter .block) (((start draft.scopes next).append openBrace).enter .block)
  | leaveIndent (draft : Draft) (enabled : Bool) :
      Takes indent (draft.enter (.indent enabled)) .leave draft
  | leaveBlock {draft : Draft} {next : List OpenBracket}
      (h : draft.line.IsTidy indent draft.opened next) :
      Takes indent (draft.enter .block) .leave ((start draft.scopes next).append closeBrace)

inductive Writes (indent : Indent) : Draft → Script → Draft → Prop where
  | nil (draft : Draft) : Writes indent draft [] draft
  | cons {draft between next : Draft} {step : Step} {script : Script}
      (hstep : draft.Takes indent step between) (hscript : Writes indent between script next) :
      Writes indent draft (step :: script) next

def lines (draft : Draft) (script : Script) : List Line :=
  let page := script.page draft.scopes
  (draft.append page.first).line :: page.further

variable {indent : Indent} {draft between next : Draft} {step : Step} {script : Script}

@[simp]
theorem append_empty (draft : Draft) : draft.append "" = draft := by
  simp [append, Line.append]

theorem append_append (draft : Draft) (first second : String) :
    (draft.append first).append second = draft.append (first ++ second) := by
  simp [append, Line.append, String.append_assoc]

@[simp]
theorem append_scopes (draft : Draft) (text : String) :
    (draft.append text).scopes = draft.scopes := by
  rfl

theorem start_append (scopes : List Scope) (opened : List OpenBracket) (text : String) :
    (start scopes opened).append text = ⟨scopes, opened, ⟨scopes.countP Scope.isEnabled, text⟩⟩ := by
  simp [start, append, Line.append]

theorem lines_nil (draft : Draft) : draft.lines [] = [draft.line] := by
  simp [lines, Script.page]

theorem Takes.exists_lines (h : draft.Takes indent step next) (script : Script) :
    ∃ finished, draft.lines (step :: script) = finished ++ next.lines script
      ∧ Line.AreTidy indent draft.opened finished next.opened := by
  cases h with
  | append draft text =>
    refine ⟨[], ?_, .nil _⟩
    simp [lines, Script.page, Page.prepend, append_append]
  | newLine h =>
    refine ⟨[draft.line], ?_, .cons h (.nil _)⟩
    simp [lines, Script.page, Page.onNewLine, start, Draft.append, Line.append]
  | enterIndent draft enabled => exact ⟨[], rfl, .nil _⟩
  | enterBlock h =>
    refine ⟨[draft.line], ?_, .cons h (.nil _)⟩
    simp [lines, Script.page, Page.onNewLine, Page.prepend, start, Draft.append, Line.append, enter]
  | leaveIndent draft enabled => exact ⟨[], rfl, .nil _⟩
  | @leaveBlock draft _ h =>
    refine ⟨[draft.line], ?_, .cons h (.nil _)⟩
    simp [lines, Script.page, Page.onNewLine, Page.prepend, start, Draft.append, Line.append, enter]

namespace Writes

theorem single (h : draft.Takes indent step next) : draft.Writes indent [step] next := by
  exact .cons h (.nil next)

theorem trans {first second : Script} (hfirst : draft.Writes indent first between)
    (hsecond : between.Writes indent second next) : draft.Writes indent (first ++ second) next := by
  induction hfirst with
  | nil draft => exact hsecond
  | cons hstep _ ih => exact .cons hstep (ih hsecond)

theorem scope {enabled : Bool}
    (h : (draft.enter (.indent enabled)).Writes indent script (next.enter (.indent enabled))) :
    draft.Writes indent ([.enter (.indent enabled)] ++ script ++ [.leave]) next := by
  have henter : draft.Writes indent [.enter (.indent enabled)] (draft.enter (.indent enabled)) :=
    .single (.enterIndent draft enabled)
  exact (henter.trans h).trans (.single (.leaveIndent next enabled))

theorem exists_lines (h : draft.Writes indent script next) :
    ∃ finished, draft.lines script = finished ++ [next.line]
      ∧ Line.AreTidy indent draft.opened finished next.opened := by
  induction h with
  | nil draft => exact ⟨[], draft.lines_nil, .nil _⟩
  | @cons _ between _ _ script hstep _ ih =>
    have ⟨finished, hlines, htidy⟩ := hstep.exists_lines script
    have ⟨rest, hrest, htidyRest⟩ := ih
    refine ⟨finished ++ rest, ?_, htidy.append htidyRest⟩
    rw [hlines, hrest, List.append_assoc]

theorem clear_notMem (h : draft.Writes indent script next) : .clear ∉ script := by
  induction h with
  | nil draft => simp
  | cons hstep _ ih =>
    rw [List.mem_cons, not_or]
    refine ⟨?_, ih⟩
    rintro rfl
    cases hstep

end Writes

end Draft

end EntityViews
