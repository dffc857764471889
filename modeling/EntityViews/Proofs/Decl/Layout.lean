import EntityViews.Proofs.Decl.Phrase

/-!
This module contains the layout of declarations: each of them is written in tidy lines, so declarations
can be put below each other and in the braces of other ones.
-/

namespace EntityViews

open OpenBracket

namespace Script

/--
The script writes lines that are tidy wherever lines can go on. The last one can be ended.
-/
def IsTidy (indent : Indent) (script : Script) : Prop :=
  ∀ (scopes : List Scope) (opened : List OpenBracket),
    Fits indent opened (scopes.countP Scope.isEnabled) →
      ∃ (before : List OpenBracket) (line : Line),
        (Draft.start scopes opened).Writes indent script ⟨scopes, before, line⟩
          ∧ line.IsTidy indent before opened

def IsBraced (indent : Indent) (script : Script) : Prop :=
  ∀ (scopes : List Scope) (opened : List OpenBracket),
    Fits indent opened (scopes.countP Scope.isEnabled) →
      (Draft.start scopes opened).Writes indent script
        ((Draft.start scopes (below indent (scopes.countP Scope.isEnabled) .curly opened)).append
          closeBrace)

variable {indent : Indent} {header body first second : Script} {elements : List Script}

theorem isTidy_empty : IsTidy indent [.append ""] := by
  intro scopes opened hfits
  exact ⟨opened, _, .single (.append _ ""), .blank _⟩

theorem IsPhrase.isTidy {script : Script} (h : script.IsPhrase) : script.IsTidy indent := by
  intro scopes opened hfits
  have ⟨text, hscript, htext⟩ := h
  have hwrites := hscript indent (.start scopes opened)
  rw [Draft.start_append] at hwrites
  exact ⟨opened, _, hwrites, Line.isTidy_of_isPhrase hfits htext⟩

theorem IsBraced.isTidy {script : Script} (h : script.IsBraced indent) : script.IsTidy indent := by
  intro scopes opened hfits
  have hwrites := h scopes opened hfits
  rw [Draft.start_append] at hwrites
  exact ⟨_, _, hwrites, Line.isTidy_closingBrace hfits.level_eq.symm⟩

namespace IsTidy

variable {scopes : List Scope} {opened : List OpenBracket}

theorem writes_newLine (h : first.IsTidy indent)
    (hfits : Fits indent opened (scopes.countP Scope.isEnabled)) :
    (Draft.start scopes opened).Writes indent (first ++ [.newLine]) (.start scopes opened) := by
  have ⟨_, _, hwrites, htidy⟩ := h scopes opened hfits
  exact hwrites.trans (.single (.newLine htidy))

theorem join (hfirst : first.IsTidy indent) (hsecond : second.IsTidy indent) :
    IsTidy indent (first ++ [.newLine] ++ second) := by
  intro scopes opened hfits
  have ⟨before, line, hwrites, htidy⟩ := hsecond scopes opened hfits
  exact ⟨before, line, (hfirst.writes_newLine hfits).trans hwrites, htidy⟩

theorem join_isBraced (hfirst : first.IsTidy indent) (hsecond : second.IsBraced indent) :
    IsBraced indent (first ++ [.newLine] ++ second) := by
  intro scopes opened hfits
  exact (hfirst.writes_newLine hfits).trans (hsecond scopes opened hfits)

theorem intercalate (h : ∀ element ∈ elements, element.IsTidy indent) (hne : elements ≠ []) :
    IsTidy indent ([.newLine].intercalate elements) := by
  exact Joined.intercalate_induction hne (fun _ _ hfirst hsecond => hfirst.join hsecond) h

theorem scope (h : body.IsTidy indent) :
    IsTidy indent ([.enter (.indent false)] ++ body ++ [.leave]) := by
  intro scopes opened hfits
  have ⟨before, line, hwrites, htidy⟩ := h (.indent false :: scopes) opened hfits
  exact ⟨before, line, .scope hwrites, htidy⟩

theorem lines (h : ∀ element ∈ elements, element.IsTidy indent) (hne : elements ≠ []) :
    IsTidy indent (ofList .lines elements) := by
  unfold ofList
  rw [if_neg (by simpa using hne)]
  simpa [ofList.lineBreakIf, ListLayout.lines, ofList.separator] using (intercalate h hne).scope

end IsTidy

theorem IsBraced.scope (h : body.IsBraced indent) :
    IsBraced indent ([.enter (.indent false)] ++ body ++ [.leave]) := by
  intro scopes opened hfits
  exact .scope (h (.indent false :: scopes) opened hfits)

theorem IsBraced.intercalate {front : List Script} {last : Script}
    (hfront : ∀ element ∈ front, element.IsTidy indent) (hlast : last.IsBraced indent) :
    IsBraced indent ([.newLine].intercalate (front ++ [last])) := by
  by_cases hne : front = []
  . rw [hne, List.nil_append, List.intercalate_singleton]
    exact hlast
  . rw [Joined.intercalate_concat _ hne]
    exact (IsTidy.intercalate hfront hne).join_isBraced hlast

theorem IsBraced.lines {front : List Script} {last : Script}
    (hfront : ∀ element ∈ front, element.IsTidy indent) (hlast : last.IsBraced indent) :
    IsBraced indent (ofList .lines (front ++ [last])) := by
  unfold ofList
  rw [if_neg (by simp)]
  simpa [ofList.lineBreakIf, ListLayout.lines, ofList.separator]
    using (intercalate hfront hlast).scope

section

variable (hheader : header.IsTidy indent)
include hheader

-- the brace of a block opens on a line of its own below the header
theorem IsTidy.writes_block {scopes : List Scope} {opened : List OpenBracket}
    (hfits : Fits indent opened (scopes.countP Scope.isEnabled)) :
    ∃ draft, (Draft.start scopes opened).Writes indent (header ++ [.enter .block])
        (draft.enter .block)
      ∧ draft = (Draft.start scopes opened).append openBrace
      ∧ draft.line.IsTidy indent draft.opened
          (below indent (scopes.countP Scope.isEnabled) .curly opened) := by
  have ⟨_, _, hwrites, htidy⟩ := hheader scopes opened hfits
  refine ⟨_, hwrites.trans (.single (.enterBlock htidy)), rfl, ?_⟩
  rw [Draft.start_append]
  exact Line.isTidy_opening hfits .curly

theorem isBraced_of_empty : IsBraced indent (header ++ [.enter .block] ++ [.leave]) := by
  intro scopes opened hfits
  have ⟨draft, hwrites, heq, htidy⟩ := hheader.writes_block hfits
  have hleave := hwrites.trans (.single (.leaveBlock htidy))
  rw [heq] at hleave
  exact hleave

theorem isBraced_of_isTidy (hbody : body.IsTidy indent) :
    IsBraced indent (header ++ [.enter .block] ++ ([.newLine] ++ body) ++ [.leave]) := by
  intro scopes opened hfits
  have ⟨draft, hwrites, heq, htidy⟩ := hheader.writes_block hfits
  have hlevel : (Scope.block :: scopes).countP Scope.isEnabled
      = scopes.countP Scope.isEnabled + 1 := by
    rw [List.countP_cons_of_pos (by decide)]
  have hinside : Fits indent (below indent (scopes.countP Scope.isEnabled) .curly opened)
      ((Scope.block :: scopes).countP Scope.isEnabled) := by
    rw [hlevel]
    exact fits_below (by decide) hfits.level_eq.symm
  have ⟨before, line, hbody, hlast⟩ := hbody (.block :: scopes) _ hinside
  have hnewLine : (draft.enter .block).Writes indent [.newLine]
      (.start (.block :: scopes) (below indent (scopes.countP Scope.isEnabled) .curly opened)) := by
    rw [heq]
    rw [heq] at htidy
    exact .single (.newLine htidy)
  have hleave : Draft.Writes indent ⟨.block :: scopes, before, line⟩ [.leave] _ :=
    .single (@Draft.Takes.leaveBlock indent ⟨scopes, before, line⟩ _ hlast)
  exact (hwrites.trans (hnewLine.trans hbody)).trans hleave

theorem isBraced_ofBody (hbody : ∀ element ∈ elements, element.IsTidy indent) :
    IsBraced indent (header ++ ofBody elements) := by
  unfold ofBody
  split
  . have hempty := isBraced_of_empty hheader
    simpa only [List.append_assoc, List.cons_append, List.nil_append] using hempty
  . next hne =>
    have hlines := isBraced_of_isTidy hheader (IsTidy.lines hbody (by simpa using hne))
    simpa only [List.append_assoc, List.cons_append, List.nil_append] using hlines

end

end Script

def Text.Opens (bracket : Bracket) (text : String) : Prop :=
  ∃ front, IsInline front ∧ front ++ String.singleton bracket.opening = text

structure Draft.Carries (indent : Indent) (draft : Draft) (inner : List OpenBracket) : Prop where
  holds : draft.line.Holds indent draft.opened inner
  level_eq : draft.line.level = draft.scopes.countP Scope.isEnabled
  levels_eq : levels inner = draft.line.level

def Script.Continues (indent : Indent) (script : Script) : Prop :=
  ∀ (draft : Draft) (inner : List OpenBracket), draft.Carries indent inner →
    ∃ next, draft.Writes indent script next
      ∧ next.Carries indent inner ∧ next.scopes = draft.scopes

namespace Draft

variable {indent : Indent} {draft : Draft} {scopes : List Scope} {opened inner : List OpenBracket}
  {text : String} {bracket : Bracket}

theorem carries_of_isPhrase (hfits : Fits indent opened (scopes.countP Scope.isEnabled))
    (h : Text.IsPhrase text) : ((start scopes opened).append text).Carries indent opened := by
  rw [start_append]
  exact ⟨.of_isPhrase hfits h, rfl, hfits.level_eq.symm⟩

namespace Carries

variable (h : draft.Carries indent inner)
include h

theorem append (htext : Text.IsInline text) : (draft.append text).Carries indent inner := by
  exact ⟨h.holds.append_inline htext, h.level_eq, h.levels_eq⟩

theorem isTidy_opens (htext : Text.Opens bracket text) :
    (draft.append text).line.IsTidy indent draft.opened
      (below indent draft.line.level bracket inner) := by
  have ⟨front, hfront, heq⟩ := htext
  rw [← heq, ← append_append]
  exact (h.append hfront).holds.isTidy_append_opening bracket

theorem append_opens (htext : Text.Opens .round text) :
    (draft.append text).Carries indent
      (inLine (Buffer.margin indent draft.line.level).toList .round :: inner) := by
  have ⟨front, hfront, heq⟩ := htext
  rw [← heq, ← append_append]
  refine ⟨(h.append hfront).holds.append_opening .round, h.level_eq, ?_⟩
  rw [levels_inLine_round]
  exact h.levels_eq

end Carries

theorem Carries.append_closes {innermost : OpenBracket}
    (h : draft.Carries indent (innermost :: inner)) (hround : innermost.bracket = .round)
    (hlevels : levels inner = levels (innermost :: inner)) :
    (draft.append ")").Carries indent inner := by
  have hholds := h.holds.append_closing
  rw [hround] at hholds
  exact ⟨hholds, h.level_eq, hlevels.trans h.levels_eq⟩

end Draft

namespace Script

variable {indent : Indent} {first second body front : Script} {elements : List Script}
  {text : String}

theorem IsInline.continues (h : first.IsInline) : first.Continues indent := by
  intro draft inner hcarries
  have ⟨text, hscript, htext⟩ := h
  exact ⟨_, hscript indent draft, hcarries.append htext, rfl⟩

namespace Continues

theorem append (hfirst : first.Continues indent) (hsecond : second.Continues indent) :
    Continues indent (first ++ second) := by
  intro draft inner hcarries
  have ⟨between, hwrites, hbetween, hscopes⟩ := hfirst draft inner hcarries
  have ⟨next, hwritesNext, hnext, hscopesNext⟩ := hsecond between inner hbetween
  exact ⟨next, hwrites.trans hwritesNext, hnext, hscopesNext.trans hscopes⟩

theorem scope (h : body.Continues indent) :
    Continues indent ([.enter (.indent false)] ++ body ++ [.leave]) := by
  intro draft inner hcarries
  have ⟨next, hwrites, hnext, hscopes⟩ :=
    h (draft.enter (.indent false)) inner ⟨hcarries.holds, hcarries.level_eq, hcarries.levels_eq⟩
  rcases next with ⟨scopes, opened, line⟩
  cases hscopes
  exact ⟨⟨draft.scopes, opened, line⟩, .scope hwrites,
    ⟨hnext.holds, hnext.level_eq, hnext.levels_eq⟩, rfl⟩

theorem intercalate {separator : Script} (hseparator : separator.Continues indent)
    (h : ∀ element ∈ elements, element.Continues indent) (hne : elements ≠ []) :
    Continues indent (separator.intercalate elements) := by
  exact Joined.intercalate_induction hne
    (fun _ _ hfirst hsecond => (hfirst.append hseparator).append hsecond) h

theorem arguments (h : ∀ element ∈ elements, element.Continues indent) :
    (ofList {} elements).Continues indent := by
  unfold ofList
  split
  . exact isInline_nil.continues
  . next hne =>
    have helements := intercalate isInline_separator.continues h (by simpa using hne)
    simpa [ofList.lineBreakIf] using helements.scope

end Continues

theorem IsPhrase.call_isTidy (hfront : front.IsPhrase) {opening : String}
    (hopening : Text.Opens .round opening) (hbody : body.Continues indent) :
    IsTidy indent (front ++ ([.append opening] ++ body ++ [.append ")"])) := by
  intro scopes opened hfits
  have ⟨text, hscript, htext⟩ := hfront
  have hcarries := Draft.carries_of_isPhrase hfits htext
  have ⟨next, hwrites, hnext, hscopes⟩ := hbody _ _ (hcarries.append_opens hopening)
  have hclosed := hnext.append_closes rfl (by simp)
  have hlast : (next.append ")").line.IsTidy indent next.opened opened :=
    hclosed.holds.isTidy_append ⟨')', by decide, by decide, by decide⟩
  have hopens : ((Draft.start scopes opened).append text).Writes indent [.append opening] _ :=
    .single (.append _ opening)
  have hcloses : next.Writes indent [.append ")"] (next.append ")") := .single (.append _ ")")
  have hall := (hscript indent _).trans ((hopens.trans hwrites).trans hcloses)
  rcases next with ⟨nextScopes, before, line⟩
  cases hscopes
  exact ⟨before, _, hall, hlast⟩

section

variable (helements : ∀ element ∈ elements, element.IsPhrase) (hne : elements ≠ [])
include helements hne

theorem writes_hanging_intercalate {scopes : List Scope} {opened : List OpenBracket}
    (hfits : Fits indent opened (scopes.countP Scope.isEnabled)) :
    ∃ text, Text.IsPhrase text
      ∧ (Draft.start scopes opened).Writes indent ([.append ",", .newLine].intercalate elements)
          ((Draft.start scopes opened).append text) := by
  refine Joined.intercalate_induction hne ?_ ?_
  . rintro first second ⟨text, htext, hfirst⟩ ⟨last, hlast, hsecond⟩
    have hcomma : Line.IsTidy indent opened ⟨_, text ++ ","⟩ opened :=
      Line.isTidy_of_isPhrase hfits (htext.append (by decide))
    rw [Draft.start_append] at hfirst
    have hline := hfirst.trans (.cons (.append _ ",") (.single (.newLine hcomma)))
    exact ⟨last, hlast, hline.trans hsecond⟩
  . intro element helement
    have ⟨text, hscript, htext⟩ := helements element helement
    exact ⟨text, htext, hscript indent (.start scopes opened)⟩

variable {draft : Draft} {inner : List OpenBracket} (hcarries : draft.Carries indent inner)
  {bracket : Bracket} (hbracket : bracket ≠ .square) {opening : String}
  (hopening : Text.Opens bracket opening)
include hcarries hbracket hopening

-- the elements are one level deeper, and the bracket is on the last line that is not
theorem writes_hanging :
    ∃ text, Text.IsPhrase text
      ∧ (draft.append opening).Writes indent (ofList .hanging elements)
          ⟨draft.scopes, below indent draft.line.level bracket inner,
            ⟨draft.line.level + 1, text⟩⟩ := by
  have hlevel : (Scope.indent true :: draft.scopes).countP Scope.isEnabled
      = draft.line.level + 1 := by
    rw [List.countP_cons_of_pos (by decide), hcarries.level_eq]
  have hfits : Fits indent (below indent draft.line.level bracket inner)
      ((Scope.indent true :: draft.scopes).countP Scope.isEnabled) := by
    rw [hlevel]
    exact fits_below hbracket hcarries.levels_eq
  have ⟨text, htext, hwrites⟩ := writes_hanging_intercalate helements hne hfits
  rw [Draft.start_append, hlevel] at hwrites
  have hnewLine : ((draft.append opening).enter (.indent true)).Writes indent [.newLine]
      (.start (.indent true :: draft.scopes) (below indent draft.line.level bracket inner)) :=
    .single (.newLine (hcarries.isTidy_opens hopening))
  have hscope : (draft.append opening).Writes indent _ ⟨draft.scopes,
      below indent draft.line.level bracket inner, ⟨draft.line.level + 1, text⟩⟩ :=
    .scope (hnewLine.trans hwrites)
  have hcomma : Text.trimEnd ", " = "," := by decide
  refine ⟨text, htext, ?_⟩
  unfold ofList
  rw [if_neg (by simpa using hne)]
  simpa [ofList.lineBreakIf, ListLayout.hanging, ofList.separator, hcomma] using hscope

theorem writes_hanging_newLine :
    (draft.append opening).Writes indent
      (ofList { ListLayout.hanging with newLineAfter := true } elements)
      (.start draft.scopes (below indent draft.line.level bracket inner)) := by
  have ⟨text, htext, hwrites⟩ :=
    writes_hanging helements hne hcarries hbracket hopening
  have hfits := @fits_below indent _ _ _ hbracket hcarries.levels_eq
  have hnewLine : Draft.Writes indent
      ⟨draft.scopes, below indent draft.line.level bracket inner, ⟨draft.line.level + 1, text⟩⟩
      [.newLine] (.start draft.scopes (below indent draft.line.level bracket inner)) :=
    .single (.newLine (Line.isTidy_of_isPhrase hfits htext))
  have hlist : ofList { ListLayout.hanging with newLineAfter := true } elements
      = ofList .hanging elements ++ [.newLine] := by
    simp [ofList, ofList.lineBreakIf, ListLayout.hanging, ofList.separator, hne]
  rw [hlist]
  exact hwrites.trans hnewLine

end

-- the braces are part of the lines around the elements, so they close at the level they are opened at
theorem continues_hanging {opening : String} (hopening : Text.Opens .curly opening)
    (helements : ∀ element ∈ elements, element.IsPhrase) :
    Continues indent ([.append opening]
      ++ ofList { ListLayout.hanging with newLineAfter := true } elements ++ [.append closeBrace]) := by
  cases elements with
  | nil =>
    have ⟨front, hfront, heq⟩ := hopening
    have hempty : Text.IsInline (opening ++ closeBrace) := by
      rw [← heq, String.append_assoc]
      exact hfront.append (by decide)
    have hscript := (Inscribes.single opening).append (Inscribes.single closeBrace)
    exact IsInline.continues ⟨_, hscript, hempty⟩
  | cons element elements =>
    intro draft inner hcarries
    have hlist := writes_hanging_newLine helements (by simp) hcarries (by decide) hopening
    have hopens : draft.Writes indent [.append opening] _ := .single (.append _ opening)
    have hcloses : (Draft.start draft.scopes (below indent draft.line.level .curly inner)).Writes
        indent [.append closeBrace] _ := .single (.append _ closeBrace)
    refine ⟨_, (hopens.trans hlist).trans hcloses, ?_, rfl⟩
    rw [Draft.start_append, ← hcarries.level_eq]
    exact ⟨.of_closing (by decide) hcarries.levels_eq, hcarries.level_eq, hcarries.levels_eq⟩

theorem opens_round : Text.Opens .round "(" := by
  exact ⟨"", Text.isInline_empty, rfl⟩

theorem isTidy_hanging {opening closing : String} (hopening : Text.IsPhrase opening)
    (hclosing : Text.IsPhrase closing) (helements : ∀ element ∈ elements, element.IsPhrase) :
    IsTidy indent ([.append (opening ++ "(")]
      ++ ofList { ListLayout.hanging with newLineAfter := true } elements
      ++ [.append (")" ++ closing)]) := by
  cases elements with
  | nil =>
    have hempty : Text.IsPhrase (opening ++ "(" ++ (")" ++ closing)) := by
      rw [String.append_assoc, ← @String.append_assoc "(" ")" closing]
      exact hopening.append (.append (by decide) hclosing)
    have hscript := (Inscribes.single (opening ++ "(")).append (Inscribes.single (")" ++ closing))
    exact IsPhrase.isTidy ⟨_, hscript, hempty⟩
  | cons element elements =>
    intro scopes opened hfits
    have hcarries := Draft.carries_of_isPhrase hfits hopening
    have hlist := writes_hanging_newLine helements (by simp) hcarries (by decide) opens_round
    rw [Draft.append_append] at hlist
    have hopens : (Draft.start scopes opened).Writes indent [.append (opening ++ "(")] _ :=
      .single (.append _ (opening ++ "("))
    have hparenthesis : Line.Holds indent (below indent (scopes.countP Scope.isEnabled) .round opened)
        ⟨scopes.countP Scope.isEnabled, ")"⟩ opened :=
      .of_closing (by decide) hfits.level_eq.symm
    have hlast := (hparenthesis.append_inline hclosing.toIsInline).isTidy_append
      hclosing.ofOpening?_last
    have hcloses : (Draft.start scopes
        (below indent (scopes.countP Scope.isEnabled) .round opened)).Writes indent
          [.append (")" ++ closing)] _ := .single (.append _ (")" ++ closing))
    rw [Draft.start_append] at hcloses
    exact ⟨_, _, (hopens.trans hlist).trans hcloses, hlast⟩

theorem IsPhrase.parameters_isTidy (hfront : front.IsPhrase)
    (helements : ∀ element ∈ elements, element.IsPhrase) :
    IsTidy indent (front ++ ([.append "("] ++ Script.ofList .hanging elements ++ [.append ")"])) := by
  cases elements with
  | nil => exact (hfront.append (bracketed (by decide) (by decide) (by decide) isInline_nil)).isTidy
  | cons element elements =>
    intro scopes opened hfits
    have ⟨text, hscript, htext⟩ := hfront
    have hcarries := Draft.carries_of_isPhrase hfits htext
    have ⟨last, hlast, hwrites⟩ :=
      writes_hanging helements (by simp) hcarries (by decide) opens_round
    have hbelow := @fits_below indent _ _ .round (by decide) hfits.level_eq.symm
    -- the closing parenthesis is on the line of the last element
    have htidy := (Line.Holds.of_isPhrase hbelow hlast).append_closing.isTidy_append
      ⟨Bracket.round.closing, by simp, by decide, by decide⟩
    have hopens : ((Draft.start scopes opened).append text).Writes indent [.append "("] _ :=
      .single (.append _ "(")
    have hcloses := (hopens.trans hwrites).trans (.single (.append _ ")"))
    exact ⟨_, _, (hscript indent _).trans hcloses, htidy⟩

end Script

end EntityViews
