import EntityViews.Proofs.Source.Page
import EntityViews.Proofs.Text.Bracket

/-!
This module contains tidy lines, which are indented as the brackets in front of them say. Each open brace
is worth one level, and so is each open parenthesis at the end of a line. A line that starts by closing
one of them is at the level outside of it.
-/

namespace EntityViews

structure OpenBracket where
  bracket : Bracket
  -- what the line of the bracket starts with
  margin : List Char
  endsLine : Bool
deriving DecidableEq, Repr

namespace OpenBracket

def inLine (margin : List Char) (bracket : Bracket) : OpenBracket :=
  ⟨bracket, margin, false⟩

def isBrace (opened : OpenBracket) : Bool :=
  opened.bracket = .curly

def isHanging (opened : OpenBracket) : Bool :=
  opened.bracket = .round && opened.endsLine

def levels (opened : List OpenBracket) : Nat :=
  opened.countP isBrace + opened.countP isHanging

/--
Mark the innermost bracket as the last character of the line if the line ends with an open bracket.
-/
def endLine (line : List Char) : List OpenBracket → List OpenBracket
  | [] => []
  | innermost :: outer =>
    if (line.getLast?.bind Bracket.ofOpening?).isSome then
      { innermost with endsLine := true } :: outer
    else
      innermost :: outer

/--
The brackets that are open after a line when the given ones are open before it, innermost first.
-/
def openAfterLine? (opened : List OpenBracket) (line : List Char) : Option (List OpenBracket) :=
  (Text.openAfterAll? bracket (inLine (line.takeWhile isBlank)) opened line).map (endLine line)

def openAfterLines? (opened : List OpenBracket) (lines : List (List Char)) :
    Option (List OpenBracket) :=
  lines.foldlM openAfterLine? opened

structure Sets (indent : Indent) (opened : List OpenBracket) (level : Nat) (first : Char) :
    Prop where
  level_eq :
    level + (if first = '}' then 1 else 0)
        + (if first = ')' ∧ ∃ innermost ∈ opened.head?, innermost.isHanging then 1 else 0)
      =
    levels opened
  closes : first = '}' →
    ∃ innermost ∈ opened.head?, innermost.isBrace
      ∧ (Buffer.margin indent level).toList = innermost.margin
  isBody : Bracket.ofClosing? first = none →
    ∀ innermost ∈ opened.head?, innermost.isBrace →
      (Buffer.margin indent level).toList = innermost.margin ++ indent.unit.toList

def below (indent : Indent) (level : Nat) (bracket : Bracket) (opened : List OpenBracket) :
    List OpenBracket :=
  ⟨bracket, (Buffer.margin indent level).toList, true⟩ :: opened

structure Fits (indent : Indent) (opened : List OpenBracket) (level : Nat) : Prop where
  level_eq : level = levels opened
  isBody : ∀ innermost ∈ opened.head?, innermost.isBrace →
    (Buffer.margin indent level).toList = innermost.margin ++ indent.unit.toList

end OpenBracket

namespace Line

open OpenBracket

def characters (indent : Indent) (line : Line) : List Char :=
  (line.text indent 0).toList

structure Holds (indent : Indent) (opened : List OpenBracket) (line : Line)
    (inner : List OpenBracket) : Prop where
  start : ∃ first rest, line.content.toList = first :: rest ∧ isBlank first = false
    ∧ Sets indent opened line.level first
  lineFeed : '\n' ∉ line.content.toList
  opened : Text.openAfterAll? bracket (inLine (Buffer.margin indent line.level).toList) opened
    line.content.toList = some inner

inductive IsTidy (indent : Indent) (opened : List OpenBracket) : Line → List OpenBracket → Prop where
  | blank (level : Nat) : IsTidy indent opened ⟨level, ""⟩ opened
  | filled {line : Line} {inner : List OpenBracket} (h : line.Holds indent opened inner)
      (hlast : ∃ c ∈ line.content.toList.getLast?, isBlank c = false) :
      IsTidy indent opened line (endLine line.content.toList inner)

inductive AreTidy (indent : Indent) :
    List OpenBracket → List Line → List OpenBracket → Prop where
  | nil (opened : List OpenBracket) : AreTidy indent opened [] opened
  | cons {opened next final : List OpenBracket} {line : Line} {lines : List Line}
      (hline : line.IsTidy indent opened next) (hlines : AreTidy indent next lines final) :
      AreTidy indent opened (line :: lines) final

end Line

theorem Bracket.notMem_characters_of_isBlank {c : Char} (h : isBlank c) : c ∉ characters := by
  intro hmem
  have hall : characters.all (!isBlank ·) := by decide
  have hblank := List.all_eq_true.mp hall c hmem
  rw [h] at hblank
  contradiction

namespace Buffer

@[simp]
theorem margin_zero (indent : Indent) : margin indent 0 = "" := by
  rfl

theorem margin_succ (indent : Indent) (levels : Nat) :
    margin indent (levels + 1) = margin indent levels ++ indent.unit := by
  simp [margin, List.replicate_succ', String.join_append]

theorem toList_margin_tab (levels : Nat) :
    (margin .tab levels).toList = List.replicate levels '\t' := by
  induction levels with
  | zero => rfl
  | succ levels ih =>
    rw [margin_succ, String.toList_append, ih, List.replicate_succ']
    rfl

theorem isBlank_of_mem_unit {indent : Indent} :
    ∀ c ∈ indent.unit.toList, isBlank c ∧ c ≠ '\n' := by
  intro c hc
  cases indent with
  | spaces count =>
    simp only [Indent.unit, String.toList_ofList] at hc
    rw [List.eq_of_mem_replicate hc]
    decide
  | tab =>
    have heq : c = '\t' := by simpa [Indent.unit] using hc
    rw [heq]
    decide

theorem isBlank_of_mem_margin {indent : Indent} {levels : Nat} :
    ∀ c ∈ (margin indent levels).toList, isBlank c ∧ c ≠ '\n' := by
  induction levels with
  | zero => simp
  | succ levels ih =>
    rw [margin_succ, String.toList_append, List.forall_mem_append]
    exact ⟨ih, isBlank_of_mem_unit⟩

end Buffer

namespace OpenBracket

variable {indent : Indent} {opened inner : List OpenBracket} {level : Nat} {bracket : Bracket}

@[simp]
theorem levels_inLine_round (margin : List Char) (opened : List OpenBracket) :
    levels (inLine margin .round :: opened) = levels opened := by
  simp [levels, inLine, isBrace, isHanging]

example :
    (openAfterLines? [] [("  base(world, new Type[] " ++ openBrace).toList]).map levels = some 1 := by
  decide

theorem levels_below (hbracket : bracket ≠ .square) (indent : Indent) (level : Nat)
    (opened : List OpenBracket) : levels (below indent level bracket opened) = levels opened + 1 := by
  unfold levels below
  cases bracket with
  | square => contradiction
  | round =>
    simp [isBrace, isHanging]
    omega
  | curly =>
    simp [isBrace, isHanging]
    omega

theorem fits_nil (indent : Indent) : Fits indent [] 0 := by
  exact ⟨rfl, by simp⟩

theorem fits_below (hbracket : bracket ≠ .square) (hlevels : levels inner = level) :
    Fits indent (below indent level bracket inner) (level + 1) := by
  refine ⟨?_, ?_⟩
  . rw [levels_below hbracket, hlevels]
  . simp [below, Buffer.margin_succ]

theorem Fits.sets (h : Fits indent opened level) {first : Char}
    (hfirst : Bracket.ofClosing? first = none) : Sets indent opened level first := by
  have hcurly : first ≠ '}' := by
    rintro rfl
    revert hfirst
    decide
  have hround : first ≠ ')' := by
    rintro rfl
    revert hfirst
    decide
  refine ⟨?_, fun heq => absurd heq hcurly, fun _ => h.isBody⟩
  simp [hcurly, hround, h.level_eq]

theorem sets_closing (hbracket : bracket ≠ .square) (hlevels : levels inner = level) :
    Sets indent (below indent level bracket inner) level
      bracket.closing := by
  have hbelow := levels_below hbracket indent level inner
  refine ⟨?_, ?_, ?_⟩
  . rw [hbelow, hlevels]
    cases bracket with
    | square => contradiction
    | round => simp [Bracket.closing, below, isHanging]
    | curly => simp [Bracket.closing]
  . cases bracket with
    | square => contradiction
    | round => simp [Bracket.closing]
    | curly => simp [below, isBrace]
  . simp

end OpenBracket

namespace Line

open OpenBracket

variable {indent : Indent} {opened inner next final : List OpenBracket} {line : Line}
  {lines : List Line}

def append (line : Line) (text : String) : Line :=
  { line with content := line.content ++ text }

namespace Holds

theorem of_isPhrase {level : Nat} (hfits : Fits indent opened level) {text : String}
    (h : Text.IsPhrase text) : Holds indent opened ⟨level, text⟩ opened := by
  have ⟨first, rest, htext, hblank, hfirst⟩ := h.exists_eq_cons
  exact ⟨⟨first, rest, htext, hblank, hfits.sets hfirst⟩, h.lineFeed,
    h.nested.openAfterAll?_eq (fun _ => rfl) opened⟩

theorem append (h : line.Holds indent opened inner) {text : String}
    (hlineFeed : '\n' ∉ text.toList)
    (htext : Text.openAfterAll? bracket (inLine (Buffer.margin indent line.level).toList) inner
      text.toList = some next) :
    (line.append text).Holds indent opened next := by
  have ⟨first, rest, hcontent, hfirst⟩ := h.start
  refine ⟨⟨first, rest ++ text.toList, ?_, hfirst⟩, ?_, ?_⟩
  . simp [Line.append, hcontent]
  . simp [Line.append, h.lineFeed, hlineFeed]
  . simp only [Line.append, String.toList_append]
    rw [Text.openAfterAll?_append, h.opened]
    exact htext

theorem append_inline (h : line.Holds indent opened inner) {text : String}
    (htext : Text.IsInline text) : (line.append text).Holds indent opened inner := by
  exact h.append htext.lineFeed (htext.nested.openAfterAll?_eq (fun _ => rfl) inner)

theorem append_opening (h : line.Holds indent opened inner) (bracket : Bracket) :
    (line.append (String.singleton bracket.opening)).Holds indent opened
      (inLine (Buffer.margin indent line.level).toList bracket :: inner) := by
  apply h.append
  . cases bracket <;> decide
  . simp [Text.openAfterAll?, Text.openAfter?_opening]

theorem append_closing {innermost : OpenBracket}
    (h : line.Holds indent opened (innermost :: inner)) :
    (line.append (String.singleton innermost.bracket.closing)).Holds indent opened inner := by
  apply h.append
  . cases innermost.bracket <;> decide
  . simp [Text.openAfterAll?, Text.openAfter?_closing]

theorem of_closing {bracket : Bracket} (hbracket : bracket ≠ .square) {level : Nat}
    (hlevels : levels inner = level) :
    Holds indent (below indent level bracket inner)
      ⟨level, String.singleton bracket.closing⟩ inner := by
  refine ⟨⟨bracket.closing, [], ?_, ?_, sets_closing hbracket hlevels⟩, ?_, ?_⟩
  . simp
  . cases bracket <;> decide
  . cases bracket <;> simp [Bracket.closing]
  . simp [Text.openAfterAll?, below, Text.openAfter?_closing]

theorem characters_eq (h : line.Holds indent opened inner) :
    line.characters indent
      =
    (Buffer.margin indent line.level).toList ++ line.content.toList := by
  have ⟨first, rest, hcontent, _⟩ := h.start
  have hne : line.content.isEmpty = false := by
    rw [← Bool.not_eq_true, String.isEmpty_iff]
    rintro hempty
    simp [hempty] at hcontent
  simp [characters, text, hne]

theorem openAfterLine?_characters (h : line.Holds indent opened inner) :
    openAfterLine? opened (line.characters indent)
      =
    some (endLine line.content.toList inner) := by
  have ⟨first, rest, hcontent, hfirst, _⟩ := h.start
  have hmargin : (line.characters indent).takeWhile isBlank
      = (Buffer.margin indent line.level).toList := by
    rw [h.characters_eq, hcontent,
      List.takeWhile_append_of_pos fun c hc => (Buffer.isBlank_of_mem_margin c hc).1,
      List.takeWhile_cons_of_neg (by simp [hfirst]), List.append_nil]
  have hend : endLine (line.characters indent) inner = endLine line.content.toList inner := by
    unfold endLine
    rw [h.characters_eq, List.getLast?_append_of_ne_nil _ (by simp [hcontent])]
  unfold openAfterLine?
  rw [hmargin, Option.map_eq_some_iff]
  refine ⟨inner, ?_, hend⟩
  rw [h.characters_eq, Text.openAfterAll?_append,
    Text.openAfterAll?_of_forall_notMem fun c hc =>
      Bracket.notMem_characters_of_isBlank (Buffer.isBlank_of_mem_margin c hc).1]
  exact h.opened

theorem isTidy (h : line.Holds indent opened inner)
    (hlast : ∃ c ∈ line.content.toList.getLast?, isBlank c = false ∧ Bracket.ofOpening? c = none) :
    line.IsTidy indent opened inner := by
  have ⟨c, hmem, hblank, hopening⟩ := hlast
  have hend : endLine line.content.toList inner = inner := by
    cases inner with
    | nil => rfl
    | cons innermost outer =>
      rw [endLine, hmem]
      simp [hopening]
  have htidy := IsTidy.filled h ⟨c, hmem, hblank⟩
  rw [hend] at htidy
  exact htidy

theorem isTidy_append {text : String} (h : (line.append text).Holds indent opened inner)
    (hlast : ∃ c ∈ text.toList.getLast?, isBlank c = false ∧ Bracket.ofOpening? c = none) :
    (line.append text).IsTidy indent opened inner := by
  have ⟨c, hmem, hc⟩ := hlast
  refine h.isTidy ⟨c, ?_, hc⟩
  simp only [Line.append, String.toList_append]
  exact List.mem_getLast?_append_of_mem_getLast? hmem

theorem isTidy_of_opening {bracket : Bracket} {margin : List Char}
    (h : line.Holds indent opened (inLine margin bracket :: inner))
    (hlast : line.content.toList.getLast? = some bracket.opening) :
    line.IsTidy indent opened (⟨bracket, margin, true⟩ :: inner) := by
  have hblank : isBlank bracket.opening = false := by
    cases bracket <;> decide
  have htidy := IsTidy.filled h ⟨_, hlast, hblank⟩
  rw [endLine, hlast] at htidy
  simpa [inLine] using htidy

theorem isTidy_append_opening (h : line.Holds indent opened inner) (bracket : Bracket) :
    (line.append (String.singleton bracket.opening)).IsTidy indent opened
      (below indent line.level bracket inner) := by
  apply (h.append_opening bracket).isTidy_of_opening
  simp [Line.append]

end Holds

theorem isTidy_of_isPhrase {level : Nat} (hfits : Fits indent opened level) {text : String}
    (h : Text.IsPhrase text) : IsTidy indent opened ⟨level, text⟩ opened := by
  exact (Holds.of_isPhrase hfits h).isTidy h.ofOpening?_last

theorem isTidy_closingBrace {level : Nat} (hlevels : levels inner = level) :
    IsTidy indent (below indent level .curly inner) ⟨level, closeBrace⟩ inner := by
  have hholds : Holds indent (below indent level .curly inner) ⟨level, closeBrace⟩ inner :=
    .of_closing (by decide) hlevels
  exact hholds.isTidy ⟨'}', by simp, by decide, by decide⟩

theorem isTidy_opening {level : Nat} (hfits : Fits indent opened level) (bracket : Bracket) :
    IsTidy indent opened ⟨level, String.singleton bracket.opening⟩
      (below indent level bracket opened) := by
  have hholds : Holds indent opened ⟨level, String.singleton bracket.opening⟩
      (inLine (Buffer.margin indent level).toList bracket :: opened) := by
    refine ⟨⟨bracket.opening, [], ?_, ?_, hfits.sets ?_⟩, ?_, ?_⟩
    . simp
    . cases bracket <;> decide
    . cases bracket <;> decide
    . cases bracket <;> simp [Bracket.opening]
    . simp [Text.openAfterAll?, Text.openAfter?_opening]
  apply hholds.isTidy_of_opening
  simp

theorem IsTidy.openAfterLine?_characters (h : line.IsTidy indent opened next) :
    openAfterLine? opened (line.characters indent) = some next := by
  cases h with
  | blank level => cases opened <;> rfl
  | filled h _ => exact h.openAfterLine?_characters

theorem IsTidy.lineFeed_notMem_characters (h : line.IsTidy indent opened next) :
    '\n' ∉ line.characters indent := by
  cases h with
  | blank level => simp [characters, text]
  | filled h _ =>
    rw [h.characters_eq, List.mem_append, not_or]
    exact ⟨fun hmem => (Buffer.isBlank_of_mem_margin _ hmem).2 rfl, h.lineFeed⟩

theorem IsTidy.isBlank_getLast?_characters (h : line.IsTidy indent opened next) :
    ∀ c ∈ (line.characters indent).getLast?, isBlank c = false := by
  cases h with
  | blank level => simp [characters, text]
  | filled h hlast =>
    obtain ⟨last, hmem, hblank⟩ := hlast
    rw [h.characters_eq]
    intro c hc
    rw [List.mem_getLast?_append_of_mem_getLast? hmem] at hc
    cases hc
    exact hblank

theorem IsTidy.sets (h : line.IsTidy indent opened next) (hne : line.characters indent ≠ []) :
    ∃ level first rest, line.characters indent
        = (Buffer.margin indent level).toList ++ first :: rest
      ∧ isBlank first = false ∧ Sets indent opened level first := by
  cases h with
  | blank level => simp [characters, text] at hne
  | filled h _ =>
    obtain ⟨first, rest, hcontent, hfirst, hsets⟩ := h.start
    exact ⟨line.level, first, rest, by rw [h.characters_eq, hcontent], hfirst, hsets⟩

theorem AreTidy.openAfterLines?_characters (h : AreTidy indent opened lines final) :
    openAfterLines? opened (lines.map (·.characters indent)) = some final := by
  induction h with
  | nil opened => rfl
  | cons hline _ ih =>
    unfold openAfterLines?
    rw [List.map_cons, List.foldlM_cons, hline.openAfterLine?_characters]
    exact ih

theorem AreTidy.append {first second : List Line} {between : List OpenBracket}
    (hfirst : AreTidy indent opened first between) (hsecond : AreTidy indent between second final) :
    AreTidy indent opened (first ++ second) final := by
  induction hfirst with
  | nil opened => exact hsecond
  | cons hline _ ih => exact .cons hline (ih hsecond)

theorem AreTidy.exists_of_append {first second : List Line}
    (h : AreTidy indent opened (first ++ second) final) :
    ∃ between, AreTidy indent opened first between ∧ AreTidy indent between second final := by
  induction first generalizing opened with
  | nil => exact ⟨opened, .nil opened, h⟩
  | cons line first ih =>
    cases h with
    | cons hline hlines =>
      have ⟨between, hfirst, hsecond⟩ := ih hlines
      exact ⟨between, .cons hline hfirst, hsecond⟩

theorem AreTidy.lineFeed_notMem_characters (h : AreTidy indent opened lines final) :
    ∀ line ∈ lines, '\n' ∉ line.characters indent := by
  induction h with
  | nil opened => simp
  | cons hline _ ih =>
    rw [List.forall_mem_cons]
    exact ⟨hline.lineFeed_notMem_characters, ih⟩

theorem AreTidy.exists_of_map_eq (h : AreTidy indent opened lines final)
    {before after : List (List Char)} {text : List Char}
    (heq : lines.map (·.characters indent) = before ++ text :: after) :
    ∃ between, openAfterLines? opened before = some between
      ∧ ∃ (line : Line) (next : List OpenBracket),
          line.characters indent = text ∧ line.IsTidy indent between next := by
  have ⟨first, second, hlines, hfirst, hsecond⟩ := List.map_eq_append_iff.mp heq
  have ⟨line, rest, hsplit, hline, _⟩ := List.map_eq_cons_iff.mp hsecond
  rw [hlines, hsplit] at h
  have ⟨between, htidy, htidyRest⟩ := h.exists_of_append
  refine ⟨between, hfirst ▸ htidy.openAfterLines?_characters, line, ?_⟩
  cases htidyRest with
  | @cons _ next _ _ _ htidyLine _ => exact ⟨next, hline, htidyLine⟩

end Line

namespace OpenBracket

variable {opened next final : List OpenBracket}

theorem map_bracket_endLine (line : List Char) (opened : List OpenBracket) :
    (endLine line opened).map bracket = opened.map bracket := by
  cases opened with
  | nil => rfl
  | cons innermost outer =>
    rw [endLine]
    split <;> rfl

theorem openAfterAll?_of_openAfterLine? {line : List Char}
    (h : openAfterLine? opened line = some next) :
    Text.openAfterAll? id id (opened.map bracket) line = some (next.map bracket) := by
  unfold openAfterLine? at h
  rw [Option.map_eq_some_iff] at h
  have ⟨inner, hinner, heq⟩ := h
  have hmap := @Text.openAfterAll?_map _ bracket (inLine (line.takeWhile isBlank)) _ id id bracket
    (fun _ => rfl) (fun _ => rfl) opened line
  rw [hinner] at hmap
  rw [← heq, map_bracket_endLine]
  exact hmap

-- line feeds are no brackets
theorem openAfterAll?_of_openAfterLines? {lines : List (List Char)}
    (h : openAfterLines? opened lines = some final) :
    Text.openAfterAll? id id (opened.map bracket) (['\n'].intercalate lines)
      =
    some (final.map bracket) := by
  induction lines generalizing opened with
  | nil =>
    cases h
    rfl
  | cons line lines ih =>
    unfold openAfterLines? at h
    rw [List.foldlM_cons, Option.bind_eq_bind, Option.bind_eq_some_iff] at h
    have ⟨next, hline, hlines⟩ := h
    have hfirst := openAfterAll?_of_openAfterLine? hline
    replace ih := ih hlines
    cases lines with
    | nil =>
      cases hlines
      rw [List.intercalate_singleton]
      exact hfirst
    | cons other lines =>
      rw [List.intercalate_cons_cons, Text.openAfterAll?_append, Text.openAfterAll?_append, hfirst]
      exact ih

end OpenBracket

end EntityViews
