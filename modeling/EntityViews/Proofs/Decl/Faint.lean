import EntityViews.Proofs.Decl.Page
import EntityViews.Proofs.Decl.WellFormed
import EntityViews.Proofs.Source.Tidy
import EntityViews.Proofs.Text.Words

/-!
This module contains what can be seen of a name. Whether a node shows anything follows from its
texts, its delimiters and the steps of its callbacks, wherever it is written. The check of a
declaration only looks at the text at the core of a name, and so it differs from what can be seen for
names that are no texts and for names with something around them.
-/

namespace EntityViews

theorem Text.isInvisible_margin (indent : Indent) (levels : Nat) :
    isInvisible (Buffer.margin indent levels) := by
  unfold isInvisible
  rw [List.all_eq_true]
  exact fun c hc => (Buffer.isBlank_of_mem_margin c hc).1

theorem Joined.all_intercalate {α : Type} (p : α → Bool) (separator : List α)
    (parts : List (List α)) :
    (separator.intercalate parts).all p
      =
    (parts.all (·.all p) && (parts.length ≤ 1 || separator.all p)) := by
  induction parts with
  | nil => rfl
  | cons part parts ih =>
    cases parts with
    | nil => simp
    | cons next parts =>
      rw [List.intercalate_cons_cons, List.all_append, List.all_append, ih]
      cases separator.all p <;> simp [Bool.and_assoc]

namespace Line

theorem isInvisible_text (indent : Indent) (base : Nat) (line : Line) :
    Text.isInvisible (line.text indent base) = Text.isInvisible line.content := by
  unfold text
  split
  . next hempty =>
    rw [String.isEmpty_iff.mp hempty]
  . rw [Text.isInvisible_append, Text.isInvisible_margin, Bool.true_and]

theorem isInvisible_joinAll (indent : Indent) (base : Nat) (lines : List Line) :
    Text.isInvisible (joinAll indent base lines)
      =
    (lines.map (·.content)).all Text.isInvisible := by
  have hlineFeed : Text.isInvisible "\n" := by decide
  induction lines with
  | nil => rfl
  | cons line lines ih =>
    unfold joinAll at *
    rw [List.map_cons, String.join_cons, Text.isInvisible_append, ih, Text.isInvisible_append,
      isInvisible_text, hlineFeed]
    simp

end Line

namespace Page

theorem all_isInvisible_contents_prepend (text : String) (page : Page) :
    (page.prepend text).contents.all Text.isInvisible
      =
    (Text.isInvisible text && page.contents.all Text.isInvisible) := by
  simp [contents, prepend, Bool.and_assoc]

theorem all_isInvisible_contents_onNewLine (level : Nat) (page : Page) :
    (page.onNewLine level).contents.all Text.isInvisible = page.contents.all Text.isInvisible := by
  have hempty : Text.isInvisible "" := by decide
  simp [contents, onNewLine, hempty]

end Page

def Step.isFaint : Step → Bool
  | .append text => Text.isInvisible text
  | .enter .block => false
  | _ => true

namespace Script

theorem all_isInvisible_contents_page {scopes : List Scope} (hscopes : .block ∉ scopes)
    (script : Script) :
    (script.page scopes).contents.all Text.isInvisible = script.all Step.isFaint := by
  have hbrace : Text.isInvisible openBrace = false := by decide
  induction script generalizing scopes with
  | nil => rfl
  | cons step script ih =>
    rw [List.all_cons]
    cases step with
    | append text =>
      unfold page
      rw [Page.all_isInvisible_contents_prepend, ih hscopes, Step.isFaint]
    | newLine =>
      unfold page
      rw [Page.all_isInvisible_contents_onNewLine, ih hscopes]
      rfl
    | enter scope =>
      cases scope with
      | indent enabled => exact @ih (.indent enabled :: scopes) (by simpa using hscopes)
      | block =>
        unfold page
        rw [Page.all_isInvisible_contents_onNewLine, Page.all_isInvisible_contents_prepend, hbrace,
          Step.isFaint, Bool.false_and, Bool.false_and]
    | leave =>
      cases scopes with
      | nil => exact ih hscopes
      | cons scope scopes =>
        rw [List.mem_cons, not_or] at hscopes
        cases scope with
        | indent enabled => exact ih hscopes.2
        | block => exact (hscopes.1 rfl).elim
    | clear => exact ih hscopes

@[simp]
theorem all_isFaint_closed (opened : Nat) (script : Script) :
    (closed opened script).all Step.isFaint = script.all Step.isFaint := by
  induction script generalizing opened with
  | nil => simp [closed, Step.isFaint]
  | cons step script ih =>
    cases step with
    | leave => cases opened <;> simp [closed, Step.isFaint, ih]
    | _ => simp [closed, ih]

@[simp]
theorem all_isFaint_ofBody (elements : List Script) :
    (ofBody elements).all Step.isFaint = false := by
  unfold ofBody
  split <;> simp [Step.isFaint]

theorem all_isFaint_lineBreakIf (condition : Bool) :
    (ofList.lineBreakIf condition).all Step.isFaint := by
  cases condition <;> rfl

theorem all_isFaint_separator (layout : ListLayout) :
    (ofList.separator layout).all Step.isFaint = layout.delimiter.all Text.isInvisible := by
  unfold ofList.separator
  split
  . next h => rw [all_isFaint_lineBreakIf, h, Option.all_none]
  . next delimiter h => cases layout.eachOnNewLine <;> simp [h, Step.isFaint]

@[simp]
theorem all_isFaint_ofList (layout : ListLayout) (elements : List Script) :
    (ofList layout elements).all Step.isFaint
      =
    (elements.all (·.all Step.isFaint)
      && (elements.length ≤ 1 || layout.delimiter.all Text.isInvisible)) := by
  unfold ofList
  split
  . next hempty =>
    rw [List.isEmpty_iff.mp hempty]
    rfl
  . simp [Joined.all_intercalate, all_isFaint_separator, all_isFaint_lineBreakIf, Step.isFaint]

end Script

namespace Node

mutual

def isFaint : Node → Bool
  | .text content => Text.isInvisible content
  | .lineBreak => true
  | .list layout elements =>
    isFaintAll elements && (elements.length ≤ 1 || layout.delimiter.all Text.isInvisible)
  | .callback script => script.all Step.isFaint
  | .wrapped before core after => before.isFaint && core.isFaint && after.isFaint
  -- all others are written with a bracket, a keyword or a semicolon
  | _ => false

def isFaintAll : List Node → Bool
  | [] => true
  | node :: nodes => node.isFaint && isFaintAll nodes

end

@[simp]
theorem isFaintAll_eq_all (nodes : List Node) : isFaintAll nodes = nodes.all isFaint := by
  induction nodes with
  | nil => rfl
  | cons node nodes ih => simp [isFaintAll, ih]

theorem all_isFaint_script (node : Node) : node.script.all Step.isFaint = node.isFaint := by
  have htoken {token : String} (h : Text.isInvisible token = false) :
      (Step.append token).isFaint = false := h
  induction node with
  | text content => simp [script, isFaint, Step.isFaint]
  | lineBreak => rfl
  | list layout elements ih =>
    have hall : elements.all (fun node => node.script.all Step.isFaint) = elements.all isFaint := by
      rw [Bool.eq_iff_iff, List.all_eq_true, List.all_eq_true]
      exact forall₂_congr fun node hnode => by rw [ih node hnode]
    simp [script, isFaint, List.all_map, Function.comp_def, hall]
  | generic name arguments => simp [script, isFaint, @htoken "<" (by decide)]
  | field head type name => simp [script, isFaint, @htoken ";" (by decide)]
  | property head type name accessors => simp [script, isFaint, Step.isFaint]
  | callback script => simp [Node.script, isFaint]
  | wrapped before core after ihbefore ihcore ihafter =>
    simp [script, isFaint, ihbefore, ihcore, ihafter, Bool.and_assoc]
  | _ => simp [script, isFaint]

theorem exists_render_text_eq {node : Node} (hclear : .clear ∉ node.script) (buffer : Buffer) :
    ∃ added, (node.render buffer).text = buffer.text ++ added
      ∧ Text.isInvisible added = node.isFaint := by
  have ⟨level, hfirst⟩ := buffer.exists_append_text_eq node.page.first
  rw [render_text hclear, hfirst]
  refine ⟨_, String.append_assoc, ?_⟩
  have hpage : node.page.contents.all Text.isInvisible = node.script.all Step.isFaint :=
    Script.all_isInvisible_contents_page (by simp) node.script
  rw [Text.isInvisible_append, Text.isInvisible_append, Text.isInvisible_margin,
    Line.isInvisible_joinAll, ← all_isFaint_script, ← hpage]
  rfl

def coreText? : Node → Option String
  | .text content => some content
  | .wrapped _ core _ => core.coreText?
  | _ => none

def surroundings : Node → List Node
  | .wrapped before core after => before :: after :: core.surroundings
  | _ => []

theorem isInvisible_eq_any_coreText? (node : Node) :
    node.isInvisible = node.coreText?.any Text.isInvisible := by
  induction node with
  | wrapped before core after ihbefore ihcore ihafter => simpa [isInvisible, coreText?] using ihcore
  | _ => simp [isInvisible, coreText?]

theorem isFaint_eq_of_coreText? {node : Node} {text : String} (h : node.coreText? = some text) :
    node.isFaint = (Text.isInvisible text && node.surroundings.all isFaint) := by
  induction node with
  | text content =>
    cases h
    simp [isFaint, surroundings]
  | wrapped before core after ihbefore ihcore ihafter =>
    simp only [isFaint, surroundings, List.all_cons, ihcore h]
    ac_rfl
  | _ => simp [coreText?] at h

theorem IsWellFormed.isInvisible_coreText? {node : Node} (h : node.IsWellFormed)
    {label : String × Node} (hlabel : label ∈ node.labels) {content : String}
    (hcore : label.2.coreText? = some content) : Text.isInvisible content = false := by
  have hvisible := h.labels label hlabel
  rwa [isInvisible_eq_any_coreText?, hcore, Option.any_some] at hvisible

theorem HasFault.exists_coreText? {node : Node} {kind : String}
    (h : node.HasFault (.blankName kind)) :
    ∃ name content, (kind, name) ∈ node.labels ∧ name.coreText? = some content
      ∧ Text.isInvisible content := by
  cases h with
  | inl hlabel =>
    have ⟨⟨other, name⟩, hmem, hinvisible, heq⟩ := hlabel
    cases heq
    rw [isInvisible_eq_any_coreText?, Option.any_eq_true] at hinvisible
    have ⟨content, hcore, hblank⟩ := hinvisible
    exact ⟨name, content, hmem, hcore, hblank⟩
  | inr hshape =>
    cases node with
    | generic name arguments => cases hshape.2
    | property head type name accessors => cases hshape.2
    | callable head returns name parameters thisArguments baseArguments body => cases hshape
    | _ => exact hshape.elim

/--
A name is judged by the text at its core. In a checked tree only names that are no texts can be
without anything that can be seen. If a name is rejected, nothing of it can be seen unless something
that was put around it can.
-/
theorem check_judges_core_texts (node : Node) :
    (node.check = .ok () →
      ∀ part ∈ node.visited, ∀ label ∈ part.labels, .clear ∉ label.2.script →
        ∀ buffer : Buffer, ∃ added, (label.2.render buffer).text = buffer.text ++ added
          ∧ (Text.isInvisible added ↔ label.2.coreText? = none ∧ label.2.isFaint))
      ∧ ∀ kind, node.check = .error (.blankName kind) →
        ∃ part ∈ node.visited, ∃ name content, (kind, name) ∈ part.labels
          ∧ name.coreText? = some content ∧ Text.isInvisible content
          ∧ (.clear ∉ name.script →
            ∀ buffer : Buffer, ∃ added, (name.render buffer).text = buffer.text ++ added
              ∧ (Text.isInvisible added ↔ ∀ around ∈ name.surroundings, around.isFaint)) := by
  constructor
  . intro hcheck part hpart label hlabel hclear buffer
    have hwell := node.check_eq_ok_iff_forall_isWellFormed.mp hcheck part hpart
    have ⟨added, hadded, hfaint⟩ := exists_render_text_eq hclear buffer
    refine ⟨added, hadded, ?_⟩
    rw [hfaint]
    cases hcore : label.2.coreText? with
    | none => simp
    | some content =>
      rw [isFaint_eq_of_coreText? hcore, hwell.isInvisible_coreText? hlabel hcore]
      simp
  . intro kind hcheck
    have ⟨part, hpart, hfault⟩ := exists_hasFault_of_check_eq_error hcheck
    have ⟨name, content, hlabel, hcore, hblank⟩ := hfault.exists_coreText?
    refine ⟨part, hpart, name, content, hlabel, hcore, hblank, fun hclear buffer => ?_⟩
    have ⟨added, hadded, hfaint⟩ := exists_render_text_eq hclear buffer
    refine ⟨added, hadded, ?_⟩
    rw [hfaint, isFaint_eq_of_coreText? hcore, hblank, Bool.true_and, List.all_eq_true]

theorem check_judges_core_texts_method :
    let method (name : Node) : Node :=
      .callable { kind := .method } (.text "void") name [] none none []
    let blanks : Node := .list { delimiter := none, eachOnNewLine := true } [.text " ", .text ""]
    let marked : Node := .wrapped (.text "get") (.text " ") empty
    let buffer : Buffer := { indent := .tab, text := "//", depth := 1 }
    (method blanks).check = .ok ()
      ∧ (∃ added, (blanks.render buffer).text = "//" ++ added ∧ Text.isInvisible added)
      ∧ (method marked).check = .error (.blankName "method")
      ∧ ∃ part ∈ (method marked).visited, ∃ name content, ("method", name) ∈ part.labels
          ∧ name.coreText? = some content ∧ Text.isInvisible content := by
  intro method blanks marked buffer
  have hok : (method blanks).check = .ok () := by
    rfl
  have herror : (method marked).check = .error (.blankName "method") := by
    rfl
  have hmem : method blanks ∈ (method blanks).visited := by
    simp [method, visited]
  have hlabel : ("method", blanks) ∈ (method blanks).labels := by
    simp [method, labels, CallableKind.noun]
  obtain ⟨added, hadded, hinvisible⟩ :=
    (check_judges_core_texts (method blanks)).1 hok _ hmem _ hlabel (by decide) buffer
  obtain ⟨part, hpart, name, content, hmarked, hcore, hblank, _⟩ :=
    (check_judges_core_texts (method marked)).2 "method" herror
  exact ⟨hok, ⟨added, hadded, hinvisible.mpr ⟨rfl, by decide⟩⟩, herror, part, hpart, name, content,
    hmarked, hcore, hblank⟩

theorem check_of_empty_and_of_visible_name :
    let declare (name : Node) : Node := .typeDecl { kind := .classType } name [] []
    let nothing : Node := .list {} []
    let visible : Node := .wrapped (.text "Unit") (.text "") empty
    (declare nothing).check = .ok ()
      ∧ Text.isInvisible nothing.toText
      ∧ (declare visible).check = .error (.blankName "class")
      ∧ Text.isInvisible visible.toText = false := by
  refine ⟨rfl, by decide, rfl, by decide⟩

end Node

end EntityViews
