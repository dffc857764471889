import EntityViews.Proofs.Source.Tidy

/-!
This module contains texts with blocks. Their parentheses and braces are nested, and two braces that
match stand at the start of lines that are indented alike. What a script writes is such a text if it
opens and closes its blocks and parentheses in pairs and has no others in its texts.
-/

namespace EntityViews

def Bracket.enclosing : List Char := ['(', ')', '{', '}']

namespace Text

def skeleton (text : List Char) : String :=
  String.ofList (text.filter (· ∈ Bracket.enclosing))

/--
The braces around `inner` match, where `before` is what is in front of the first one. Each of them
is the first character behind the indentation of its line, and both lines are indented by the same
number of units.
-/
structure IsBlock (indent : Indent) (before inner : List Char) : Prop where
  nested : IsNested (skeleton inner)
  aligned : ∃ level,
    '\n' :: (Buffer.margin indent level).toList <:+ before
      ∧ '\n' :: (Buffer.margin indent level).toList <:+ inner

def OpensBlocks (indent : Indent) (text : List Char) : Prop :=
  ∀ before after, text = before ++ '{' :: after →
    ∃ inner rest, after = inner ++ '}' :: rest ∧ IsBlock indent before inner

def ClosesBlocks (indent : Indent) (text : List Char) : Prop :=
  ∀ before after, text = before ++ '}' :: after →
    ∃ outer inner, before = outer ++ '{' :: inner ∧ IsBlock indent outer inner

structure HasBlocks (indent : Indent) (text : List Char) : Prop where
  nested : IsNested (skeleton text)
  opens : OpensBlocks indent text
  closes : ClosesBlocks indent text

theorem exists_of_append_eq_append_cons {first second before after : List Char} {c : Char}
    (h : first ++ second = before ++ c :: after) :
    (∃ rest, first = before ++ c :: rest ∧ after = rest ++ second)
      ∨ ∃ rest, before = first ++ rest ∧ second = rest ++ c :: after := by
  rcases List.append_eq_append_iff.mp h with ⟨rest, hbefore, hsecond⟩ | ⟨rest, hfirst, hafter⟩
  . exact .inr ⟨rest, hbefore, hsecond⟩
  . cases rest with
    | nil => exact .inr ⟨[], by simpa using hfirst.symm, by simpa using hafter.symm⟩
    | cons d rest =>
      rw [List.cons_append, List.cons.injEq] at hafter
      rw [← hafter.1] at hfirst
      exact .inl ⟨rest, hfirst, hafter.2⟩

@[simp]
theorem skeleton_append (first second : List Char) :
    skeleton (first ++ second) = skeleton first ++ skeleton second := by
  simp [skeleton]

theorem skeleton_of_forall_notMem {text : List Char} (h : ∀ c ∈ text, c ∉ Bracket.enclosing) :
    skeleton text = "" := by
  simpa [skeleton] using h

theorem notMem_enclosing_of_isBlank {c : Char} (h : isBlank c) : c ∉ Bracket.enclosing := by
  intro hmem
  have hall : Bracket.enclosing ⊆ Bracket.characters := by decide
  exact Bracket.notMem_characters_of_isBlank h (hall hmem)

theorem forall_mem_margin_notMem (indent : Indent) (level : Nat) :
    ∀ c ∈ '\n' :: (Buffer.margin indent level).toList, c ∉ Bracket.enclosing := by
  rw [List.forall_mem_cons]
  exact ⟨by decide, fun c hc => notMem_enclosing_of_isBlank (Buffer.isBlank_of_mem_margin c hc).1⟩

variable {indent : Indent} {first second front text : List Char}

theorem IsBlock.prepend {before inner : List Char} (h : IsBlock indent before inner)
    (front : List Char) : IsBlock indent (front ++ before) inner := by
  have ⟨level, hbefore, hinner⟩ := h.aligned
  exact ⟨h.nested, level, hbefore.trans (List.suffix_append _ _), hinner⟩

theorem opensBlocks_of_notMem (h : '{' ∉ text) : OpensBlocks indent text := by
  intro before after heq
  simp [heq] at h

theorem closesBlocks_of_notMem (h : '}' ∉ text) : ClosesBlocks indent text := by
  intro before after heq
  simp [heq] at h

theorem OpensBlocks.append (hfirst : OpensBlocks indent first)
    (hsecond : OpensBlocks indent second) : OpensBlocks indent (first ++ second) := by
  intro before after heq
  rcases exists_of_append_eq_append_cons heq with ⟨rest, hbrace, hafter⟩ | ⟨rest, hbefore, hbrace⟩
  . have ⟨inner, back, hrest, hblock⟩ := hfirst before rest hbrace
    exact ⟨inner, back ++ second, by simp [hafter, hrest], hblock⟩
  . have ⟨inner, back, hrest, hblock⟩ := hsecond rest after hbrace
    rw [hbefore]
    exact ⟨inner, back, hrest, hblock.prepend first⟩

theorem ClosesBlocks.append (hfirst : ClosesBlocks indent first)
    (hsecond : ClosesBlocks indent second) : ClosesBlocks indent (first ++ second) := by
  intro before after heq
  rcases exists_of_append_eq_append_cons heq with ⟨rest, hbrace, hafter⟩ | ⟨rest, hbefore, hbrace⟩
  . exact hfirst before rest hbrace
  . have ⟨outer, inner, hrest, hblock⟩ := hsecond rest after hbrace
    exact ⟨first ++ outer, inner, by simp [hbefore, hrest], hblock.prepend first⟩

theorem OpensBlocks.block (hfront : '{' ∉ front) (h : OpensBlocks indent text)
    (hblock : IsBlock indent front text) :
    OpensBlocks indent (front ++ '{' :: (text ++ ['}'])) := by
  intro before after heq
  rcases exists_of_append_eq_append_cons heq with ⟨rest, hbrace, _⟩ | ⟨rest, hbefore, hbrace⟩
  . simp [hbrace] at hfront
  . rw [hbefore]
    -- the brace is the one that starts the block, or it stands behind that one
    cases rest with
    | nil =>
      rw [List.nil_append, List.cons.injEq] at hbrace
      rw [List.append_nil]
      exact ⟨text, [], hbrace.2.symm, hblock⟩
    | cons c rest =>
      rw [List.cons_append, List.cons.injEq] at hbrace
      have hinside := h.append (opensBlocks_of_notMem (by decide : '{' ∉ ['}']))
      have ⟨inner, back, hrest, hinner⟩ := hinside rest after hbrace.2
      rw [List.append_cons]
      exact ⟨inner, back, hrest, hinner.prepend _⟩

theorem ClosesBlocks.block (hfront : '}' ∉ front) (h : ClosesBlocks indent text)
    (hblock : IsBlock indent front text) :
    ClosesBlocks indent (front ++ '{' :: (text ++ ['}'])) := by
  have hopening : '}' ∉ front ++ ['{'] := by
    simpa using hfront
  intro before after heq
  rw [List.append_cons] at heq
  rcases exists_of_append_eq_append_cons heq with ⟨rest, hbrace, _⟩ | ⟨rest, hbefore, hbrace⟩
  . simp [hbrace] at hopening
  . rw [hbefore]
    rcases exists_of_append_eq_append_cons hbrace with ⟨_, hinside, _⟩ | ⟨last, hlast, hbrace⟩
    . have ⟨outer, inner, hrest, hinner⟩ := h rest _ hinside
      exact ⟨front ++ ['{'] ++ outer, inner, by simp [hrest], hinner.prepend _⟩
    . cases last with
      | nil => exact ⟨front, text, by simp [hlast], hblock⟩
      | cons c last => simp at hbrace

namespace HasBlocks

theorem of_notMem (hnested : IsNested (skeleton text)) (hopening : '{' ∉ text)
    (hclosing : '}' ∉ text) : HasBlocks indent text := by
  exact ⟨hnested, opensBlocks_of_notMem hopening, closesBlocks_of_notMem hclosing⟩

theorem of_forall_notMem (h : ∀ c ∈ text, c ∉ Bracket.enclosing) : HasBlocks indent text := by
  apply of_notMem
  . rw [skeleton_of_forall_notMem h]
    decide
  . exact fun hmem => h _ hmem (by decide)
  . exact fun hmem => h _ hmem (by decide)

theorem append (hfirst : HasBlocks indent first) (hsecond : HasBlocks indent second) :
    HasBlocks indent (first ++ second) := by
  refine ⟨?_, hfirst.opens.append hsecond.opens, hfirst.closes.append hsecond.closes⟩
  rw [skeleton_append]
  exact hfirst.nested.append hsecond.nested

theorem parentheses (h : HasBlocks indent text) :
    HasBlocks indent (['('] ++ (text ++ [')'])) := by
  have hbare : IsNested (skeleton ['('] ++ skeleton [')']) := by
    decide
  have hopens {c : Char} (hc : '{' ≠ c) : OpensBlocks indent [c] :=
    opensBlocks_of_notMem (by simpa using hc)
  have hcloses {c : Char} (hc : '}' ≠ c) : ClosesBlocks indent [c] :=
    closesBlocks_of_notMem (by simpa using hc)
  refine ⟨?_, ?_, ?_⟩
  . rw [skeleton_append, skeleton_append, ← String.append_assoc]
    exact hbare.insert h.nested
  . exact (hopens (by decide)).append (h.opens.append (hopens (by decide)))
  . exact (hcloses (by decide)).append (h.closes.append (hcloses (by decide)))

theorem block (level : Nat) (h : HasBlocks indent text) :
    HasBlocks indent ('\n' :: (Buffer.margin indent level).toList
      ++ '{' :: (text ++ '\n' :: (Buffer.margin indent level).toList ++ ['}'])) := by
  have hmargin := forall_mem_margin_notMem indent level
  have hinner := h.append (.of_forall_notMem hmargin)
  have hblock : IsBlock indent ('\n' :: (Buffer.margin indent level).toList)
      (text ++ '\n' :: (Buffer.margin indent level).toList) :=
    ⟨hinner.nested, level, List.suffix_rfl, List.suffix_append _ _⟩
  have hbare : IsNested (skeleton ['{'] ++ skeleton ['}']) := by
    decide
  refine ⟨?_, ?_, ?_⟩
  . rw [skeleton_append, skeleton_of_forall_notMem hmargin, String.empty_append,
      ← List.singleton_append, skeleton_append, skeleton_append, ← String.append_assoc]
    exact hbare.insert hinner.nested
  . exact hinner.opens.block (fun hmem => hmargin _ hmem (by decide)) hblock
  . exact hinner.closes.block (fun hmem => hmargin _ hmem (by decide)) hblock

end HasBlocks

def AddsBlocks (indent : Indent) (before after : String) : Prop :=
  ∃ added, after = before ++ added ∧ HasBlocks indent added.toList

namespace AddsBlocks

variable {before between after : String}

theorem of_hasBlocks {added : String} (h : HasBlocks indent added.toList) (before : String) :
    AddsBlocks indent before (before ++ added) := by
  exact ⟨added, rfl, h⟩

theorem refl (indent : Indent) (before : String) : AddsBlocks indent before before := by
  exact ⟨"", String.append_empty.symm, .of_forall_notMem (by simp)⟩

theorem trans (hfirst : AddsBlocks indent before between)
    (hsecond : AddsBlocks indent between after) : AddsBlocks indent before after := by
  have ⟨first, hbetween, hfirst⟩ := hfirst
  have ⟨second, hafter, hsecond⟩ := hsecond
  refine ⟨first ++ second, ?_, ?_⟩
  . rw [hafter, hbetween, String.append_assoc]
  . rw [String.toList_append]
    exact hfirst.append hsecond

theorem margin (indent : Indent) (level : Nat) (before : String) :
    AddsBlocks indent before (before ++ Buffer.margin indent level) := by
  have hmargin := forall_mem_margin_notMem indent level
  rw [List.forall_mem_cons] at hmargin
  exact of_hasBlocks (.of_forall_notMem hmargin.2) before

theorem parentheses (h : AddsBlocks indent (before ++ "(") after) :
    AddsBlocks indent before (after ++ ")") := by
  have ⟨added, hafter, hadded⟩ := h
  refine ⟨"(" ++ (added ++ ")"), ?_, ?_⟩
  . simp only [hafter, String.append_assoc]
  . simpa using hadded.parentheses

theorem block (level : Nat)
    (h : AddsBlocks indent (before ++ ("\n" ++ Buffer.margin indent level ++ openBrace)) after) :
    AddsBlocks indent before (after ++ ("\n" ++ Buffer.margin indent level ++ closeBrace)) := by
  have ⟨added, hafter, hadded⟩ := h
  refine ⟨("\n" ++ Buffer.margin indent level ++ openBrace) ++ added
    ++ ("\n" ++ Buffer.margin indent level ++ closeBrace), ?_, ?_⟩
  . simp only [hafter, String.append_assoc]
  . simpa using hadded.block level

end AddsBlocks

end Text

namespace Buffer

theorem enter_block_text (buffer : Buffer) :
    (buffer.enter .block).text
      =
    buffer.text ++ ("\n" ++ margin buffer.indent buffer.depth ++ openBrace) := by
  simp [enter, newLine, append, String.append_assoc]

theorem leave_block_text (buffer : Buffer) :
    (buffer.leave .block).text
      =
    buffer.text ++ ("\n" ++ margin buffer.indent (buffer.depth - 1) ++ closeBrace) := by
  simp [leave, newLine, append, String.append_assoc]

theorem enter_indent_text (buffer : Buffer) (enabled : Bool) :
    (buffer.enter (.indent enabled)).text = buffer.text := by
  cases enabled <;> rfl

theorem leave_indent_text (buffer : Buffer) (enabled : Bool) :
    (buffer.leave (.indent enabled)).text = buffer.text := by
  cases enabled <;> rfl

end Buffer

def Step.IsBraceless : Step → Prop
  | .append text =>
    Text.IsNested (Text.skeleton text.toList) ∧ '{' ∉ text.toList ∧ '}' ∉ text.toList
  | .clear => False
  | _ => True

theorem Step.IsBraceless.addsBlocks {text : String} (h : (Step.append text).IsBraceless)
    (indent : Indent) (before : String) : Text.AddsBlocks indent before (before ++ text) := by
  exact .of_hasBlocks (.of_notMem h.1 h.2.1 h.2.2) before

theorem Script.Nested.addsBlocks_run {script : Script} (h : script.Nested Step.IsBraceless)
    (buffer : Buffer) : Text.AddsBlocks buffer.indent buffer.text (buffer.run script).text := by
  induction h generalizing buffer with
  | nil => exact .refl buffer.indent buffer.text
  | @append text h =>
    have ⟨level, htext⟩ := buffer.exists_append_text_eq text
    change Text.AddsBlocks _ _ (buffer.append text).text
    rw [htext, ← String.append_assoc]
    exact (Text.AddsBlocks.margin buffer.indent level _).trans (h.addsBlocks buffer.indent _)
  | newLine h =>
    exact .of_hasBlocks (.of_forall_notMem (by simp [Bracket.enclosing])) buffer.text
  | clear h => exact h.elim
  | scope scope hbody ih =>
    replace ih := ih (buffer.enter scope)
    rw [Buffer.enter_indent] at ih
    rw [hbody.run_scope]
    cases scope with
    | indent enabled =>
      rw [Buffer.enter_indent_text] at ih
      rw [Buffer.leave_indent_text]
      exact ih
    | block =>
      -- the body leaves the depth as it is, so the depth of both braces is that of the buffer
      rw [Buffer.enter_block_text] at ih
      rw [Buffer.leave_block_text, Buffer.run_indent, Buffer.run_depth, Buffer.enter_indent,
        Buffer.enter_depth]
      exact ih.block buffer.depth
  | @parentheses front body hfront hbody ih =>
    replace ih := ih (buffer.append (front ++ "("))
    have ⟨level, hopening⟩ := buffer.exists_append_text_eq (front ++ "(")
    have ⟨last, hclosing⟩ := ((buffer.append (front ++ "(")).run body).exists_append_text_eq ")"
    rw [Buffer.append_indent, hopening, ← String.append_assoc, ← String.append_assoc] at ih
    rw [hbody.run_between, hclosing, Buffer.run_indent, Buffer.append_indent, ← String.append_assoc]
    have hbefore := (Text.AddsBlocks.margin buffer.indent level buffer.text).trans
      (hfront.addsBlocks buffer.indent _)
    exact hbefore.trans (ih.trans (.margin buffer.indent last _)).parentheses
  | @join first second hfirst hsecond ihfirst ihsecond =>
    have hrest := ihsecond (buffer.run first)
    rw [Buffer.run_indent] at hrest
    rw [hfirst.run_append]
    exact (ihfirst buffer).trans hrest

end EntityViews
