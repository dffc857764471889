import EntityViews.Proofs.Source.Page
import EntityViews.Proofs.Text.Joined

/-!
This module contains plain texts, which are what scripts write without the margins of the lines. A
script that closes the scopes it opens has the same plain text wherever it is run, and the plain text
of scripts that are run one after the other is that of the first followed by that of the second.
-/

namespace EntityViews

namespace Page

/--
The text of a page without the margins of its lines.
-/
def plain (page : Page) : List Char :=
  page.first.toList ++ page.further.flatMap fun line => '\n' :: line.content.toList

@[simp]
theorem plain_prepend (text : String) (page : Page) :
    (page.prepend text).plain = text.toList ++ page.plain := by
  simp [plain, prepend]

@[simp]
theorem plain_onNewLine (level : Nat) (page : Page) :
    (page.onNewLine level).plain = '\n' :: page.plain := by
  simp [plain, onNewLine]

theorem plain_eq_intercalate (page : Page) :
    page.plain = ['\n'].intercalate (page.contents.map String.toList) := by
  rcases page with ⟨first, further⟩
  unfold plain contents
  induction further generalizing first with
  | nil => simp
  | cons line further ih =>
    rw [List.map_cons]
    rw [List.map_cons]
    rw [List.map_cons]
    rw [List.intercalate_cons_cons]
    rw [← List.map_cons]
    rw [← ih]
    simp

end Page

namespace Script

def Spells (script : Script) (text : List Char) : Prop :=
  ∀ (scopes : List Scope) (rest : Script),
    ((script ++ rest).page scopes).plain = text ++ (rest.page scopes).plain

def plain (script : Script) : List Char :=
  (script.page []).plain

variable {first second body script separator : Script} {text other : List Char}
  {allowed : Step → Prop}

theorem Spells.plain_eq (h : script.Spells text) : script.plain = text := by
  have hpage := h [] []
  rw [List.append_nil] at hpage
  unfold plain
  rw [hpage]
  exact List.append_nil text

namespace Spells

theorem nil : Spells [] [] := by
  intro scopes rest
  rfl

theorem single (content : String) : Spells [.append content] content.toList := by
  intro scopes rest
  exact Page.plain_prepend content _

theorem newLine : Spells [.newLine] ['\n'] := by
  intro scopes rest
  exact Page.plain_onNewLine _ _

theorem append (hfirst : first.Spells text) (hsecond : second.Spells other) :
    Spells (first ++ second) (text ++ other) := by
  intro scopes rest
  rw [List.append_assoc]
  rw [hfirst]
  rw [hsecond]
  rw [List.append_assoc]

theorem indent (h : body.Spells text) (enabled : Bool) :
    Spells ([.enter (.indent enabled)] ++ body ++ [.leave]) text := by
  intro scopes rest
  rw [List.append_assoc]
  rw [List.append_assoc]
  exact h (.indent enabled :: scopes) (.leave :: rest)

theorem block (h : body.Spells text) :
    Spells ([.enter .block] ++ body ++ [.leave]) (['\n', '{'] ++ text ++ ['\n', '}']) := by
  intro scopes rest
  have hbody := h (.block :: scopes) (.leave :: rest)
  simp only [page, Page.plain_onNewLine, Page.plain_prepend] at hbody
  rw [List.append_assoc]
  rw [List.append_assoc]
  simp [page, hbody]

theorem intercalate (hseparator : separator.Spells other) {elements : List Script}
    (h : ∀ element ∈ elements, element.Spells element.plain) :
    Spells (separator.intercalate elements) (other.intercalate (elements.map plain)) := by
  induction elements with
  | nil => exact nil
  | cons element elements ih =>
    rw [List.forall_mem_cons] at h
    cases elements with
    | nil =>
      rw [List.map_singleton]
      rw [List.intercalate_singleton]
      rw [List.intercalate_singleton]
      exact h.1
    | cons next elements =>
      rw [List.map_cons]
      rw [List.map_cons]
      rw [List.intercalate_cons_cons]
      rw [List.intercalate_cons_cons]
      exact (h.1.append hseparator).append (ih h.2)

theorem flatMap_newLine {elements : List Script}
    (h : ∀ element ∈ elements, element.Spells element.plain) :
    Spells (elements.flatMap (.newLine :: ·))
      ((elements.map plain).flatMap (['\n'] ++ ·)) := by
  induction elements with
  | nil => exact nil
  | cons element elements ih =>
    rw [List.forall_mem_cons] at h
    exact (newLine.append h.1).append (ih h.2)

end Spells

theorem Nested.exists_spells (h : script.Nested allowed) : ∃ text, script.Spells text := by
  induction h with
  | nil => exact ⟨_, .nil⟩
  | @append text h => exact ⟨_, .single text⟩
  | newLine h => exact ⟨_, .newLine⟩
  | clear h => exact ⟨[], fun _ _ => rfl⟩
  | scope scope hbody ih =>
    have ⟨text, hbody⟩ := ih
    cases scope with
    | indent enabled => exact ⟨_, hbody.indent enabled⟩
    | block => exact ⟨_, hbody.block⟩
  | @parentheses front body hfront hbody ih =>
    have ⟨text, hbody⟩ := ih
    exact ⟨_, ((Spells.single (front ++ "(")).append hbody).append (.single ")")⟩
  | join hfirst hsecond ihfirst ihsecond =>
    have ⟨text, hfirst⟩ := ihfirst
    have ⟨other, hsecond⟩ := ihsecond
    exact ⟨_, hfirst.append hsecond⟩

theorem Nested.spells_plain (h : script.Nested allowed) : script.Spells script.plain := by
  have ⟨text, hscript⟩ := h.exists_spells
  rw [hscript.plain_eq]
  exact hscript

end Script

end EntityViews
