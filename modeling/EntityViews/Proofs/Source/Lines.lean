import EntityViews.Proofs.Source.Page
import EntityViews.Proofs.Text.Joined

/-!
This module contains pages as lists of lines. A script that closes the scopes it opens sets the same page
wherever it is run, only deeper in more scopes. So the lines of parts that are written one after the other
or in braces are those of the parts on their own, each as deep as the part is.
-/

namespace EntityViews

namespace Line

def raise (levels : Nat) (line : Line) : Line where
  level := levels + line.level
  content := line.content

def inBraces (lines : List Line) : List Line :=
  [⟨0, openBrace⟩] ++ lines.map (raise 1) ++ [⟨0, closeBrace⟩]

end Line

namespace Page

def lines (page : Page) : List Line :=
  ⟨0, page.first⟩ :: page.further

def raise (levels : Nat) (page : Page) : Page where
  first := page.first
  further := page.further.map (Line.raise levels)

/--
A page that is followed by another one, which goes on on the last line of the first.
-/
def join (page next : Page) : Page :=
  (page.further.foldr (fun line rest => (rest.prepend line.content).onNewLine line.level) next).prepend
    page.first

def inBlock (page : Page) : Page :=
  (((page.raise 1).join (({ first := closeBrace } : Page).onNewLine 0)).prepend openBrace).onNewLine 0

@[elab_as_elim]
theorem induction {motive : Page → Prop} (empty : motive {})
    (prepend : ∀ text page, motive page → motive (page.prepend text))
    (onNewLine : ∀ level page, motive page → motive (page.onNewLine level)) (page : Page) :
    motive page := by
  rcases page with ⟨first, further⟩
  induction further generalizing first with
  | nil =>
    have hfirst := prepend first {} empty
    rwa [Page.prepend, String.append_empty] at hfirst
  | cons line further ih =>
    have hfirst := prepend first _ (onNewLine line.level _ (ih line.content))
    rwa [Page.prepend, Page.onNewLine, String.append_empty] at hfirst

section

variable (page next rest : Page) (text : String) (level levels : Nat)

@[simp]
theorem prepend_empty : page.prepend "" = page := by
  simp [prepend]

@[simp]
theorem empty_join : ({} : Page).join next = next := by
  exact next.prepend_empty

@[simp]
theorem prepend_join : (page.prepend text).join next = (page.join next).prepend text := by
  simp [join, prepend, String.append_assoc]

@[simp]
theorem onNewLine_join : (page.onNewLine level).join next = (page.join next).onNewLine level := by
  simp [join, onNewLine]

@[simp]
theorem raise_empty : ({} : Page).raise levels = {} := by
  rfl

@[simp]
theorem raise_prepend : (page.prepend text).raise levels = (page.raise levels).prepend text := by
  rfl

@[simp]
theorem raise_onNewLine :
    (page.onNewLine level).raise levels = (page.raise levels).onNewLine (levels + level) := by
  rfl

theorem join_empty : page.join {} = page := by
  induction page using induction with
  | empty => rfl
  | prepend text page ih => rw [prepend_join, ih]
  | onNewLine level page ih => rw [onNewLine_join, ih]

theorem join_assoc : (page.join next).join rest = page.join (next.join rest) := by
  induction page using induction with
  | empty => simp
  | prepend text page ih => simp [ih]
  | onNewLine level page ih => simp [ih]

theorem raise_join : (page.join next).raise levels = (page.raise levels).join (next.raise levels) := by
  induction page using induction with
  | empty => simp
  | prepend text page ih => simp [ih]
  | onNewLine level page ih => simp [ih]

theorem raise_zero : page.raise 0 = page := by
  induction page using induction with
  | empty => rfl
  | prepend text page ih => simp [ih]
  | onNewLine level page ih => simp [ih]

theorem raise_raise (more : Nat) : (page.raise levels).raise more = page.raise (more + levels) := by
  induction page using induction with
  | empty => rfl
  | prepend text page ih => simp [ih]
  | onNewLine level page ih => simp [ih, Nat.add_assoc]

theorem join_onNewLine :
    page.join (next.onNewLine level)
      =
    ⟨page.first, page.further ++ ⟨level, next.first⟩ :: next.further⟩ := by
  induction page using induction with
  | empty => simp [onNewLine]
  | prepend text page ih =>
    rw [prepend_join]
    rw [ih]
    rfl
  | onNewLine current page ih =>
    rw [onNewLine_join]
    rw [ih]
    rfl

theorem lines_join_onNewLine : (page.join (next.onNewLine 0)).lines = page.lines ++ next.lines := by
  rw [join_onNewLine]
  rfl

theorem lines_join_inBlock_empty : (page.join (inBlock {})).lines = page.lines ++ Line.inBraces [] := by
  exact page.lines_join_onNewLine _

theorem lines_join_inBlock :
    (page.join (inBlock (next.onNewLine 0))).lines = page.lines ++ Line.inBraces next.lines := by
  unfold inBlock
  rw [lines_join_onNewLine]
  rw [join_onNewLine]
  rfl

end

end Page

namespace Script

def Sets (script : Script) (page : Page) : Prop :=
  ∀ (scopes : List Scope) (rest : Script),
    (script ++ rest).page scopes
      =
    (page.raise (scopes.countP Scope.isEnabled)).join (rest.page scopes)

def lines (script : Script) : List Line :=
  (script.page []).lines

variable {first second body : Script} {page next : Page} {elements : List Script}
  {allowed : Step → Prop}

namespace Sets

theorem page_eq (h : first.Sets page) : first.page [] = page := by
  have hpage := h [] []
  rw [List.append_nil] at hpage
  rw [hpage]
  change (page.raise 0).join {} = page
  rw [Page.raise_zero]
  rw [Page.join_empty]

theorem nil : Sets [] {} := by
  intro scopes rest
  simp

theorem single (text : String) : Sets [.append text] ((({} : Page)).prepend text) := by
  intro scopes rest
  simp [Script.page]

theorem newLine : Sets [.newLine] (({} : Page).onNewLine 0) := by
  intro scopes rest
  simp [Script.page]

theorem append (hfirst : first.Sets page) (hsecond : second.Sets next) :
    Sets (first ++ second) (page.join next) := by
  intro scopes rest
  rw [List.append_assoc]
  rw [hfirst]
  rw [hsecond]
  rw [Page.raise_join]
  rw [Page.join_assoc]

theorem indent (h : body.Sets page) (enabled : Bool) :
    Sets ([.enter (.indent enabled)] ++ body ++ [.leave]) (page.raise (if enabled then 1 else 0)) := by
  intro scopes rest
  have hbody := h (.indent enabled :: scopes) (.leave :: rest)
  rw [List.append_assoc]
  rw [List.append_assoc]
  rw [Page.raise_raise]
  cases enabled with
  | true => simpa [Script.page, List.countP_cons, Scope.isEnabled] using hbody
  | false => simpa [Script.page, List.countP_cons, Scope.isEnabled] using hbody

theorem block (h : body.Sets page) :
    Sets ([.enter .block] ++ body ++ [.leave]) page.inBlock := by
  intro scopes rest
  have hbody := h (.block :: scopes) (.leave :: rest)
  rw [List.append_assoc]
  rw [List.append_assoc]
  simp only [List.singleton_append, Script.page]
  rw [hbody]
  have hlast : ({ first := closeBrace } : Page) = ({} : Page).prepend closeBrace := rfl
  simp [Page.inBlock, hlast, Script.page, List.countP_cons, Scope.isEnabled, Page.raise_join,
    Page.raise_raise, Page.join_assoc]

end Sets

theorem Nested.exists_sets (h : first.Nested allowed) : ∃ page, first.Sets page := by
  -- the page has to be the same in all scopes, as the body of a scope is run in one more of them
  induction h with
  | nil => exact ⟨_, .nil⟩
  | @append text h => exact ⟨_, .single text⟩
  | newLine h => exact ⟨_, .newLine⟩
  | clear h => exact ⟨{}, fun _ _ => by simp [Script.page]⟩
  | scope scope hbody ih =>
    obtain ⟨page, hbody⟩ := ih
    cases scope with
    | indent enabled => exact ⟨_, hbody.indent enabled⟩
    | block => exact ⟨_, hbody.block⟩
  | @parentheses front body hfront hbody ih =>
    obtain ⟨page, hbody⟩ := ih
    exact ⟨_, ((Sets.single (front ++ "(")).append hbody).append (.single ")")⟩
  | join hfirst hsecond ihfirst ihsecond =>
    obtain ⟨page, hfirst⟩ := ihfirst
    obtain ⟨next, hsecond⟩ := ihsecond
    exact ⟨_, hfirst.append hsecond⟩

theorem Nested.sets_page (h : first.Nested allowed) : first.Sets (first.page []) := by
  have ⟨page, hsets⟩ := h.exists_sets
  rw [hsets.page_eq]
  exact hsets

end Script

end EntityViews
