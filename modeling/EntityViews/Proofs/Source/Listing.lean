import EntityViews.Proofs.Source.Lines
import EntityViews.Proofs.Source.Tidy

/-!
This module contains the reading of texts line by line. If there are no line feeds on a page besides those
between its lines then the lines of its text are those of the page. In braces the same lines start with one
more unit, besides the empty ones.
-/

namespace EntityViews

namespace Text

/--
The lines of a text. A line feed at the end of the text has an empty line behind it.
-/
def lines (text : String) : List String :=
  (text.toList.splitOn '\n').map String.ofList

def indented (unit line : String) : String :=
  if line.isEmpty then "" else unit ++ line

theorem lines_of_toList_eq {text : String} {parts : List String} (hne : parts ≠ [])
    (hparts : ∀ part ∈ parts, '\n' ∉ part.toList)
    (h : text.toList = ['\n'].intercalate (parts.map String.toList)) : lines text = parts := by
  have hlists : ∀ part ∈ parts.map String.toList, '\n' ∉ part := by rwa [List.forall_mem_map]
  unfold lines
  rw [h]
  rw [List.splitOn_intercalate _ hlists (by simpa using hne)]
  rw [List.map_map]
  simp [Function.comp_def]

theorem lines_append_lineFeed (text : String) : lines (text ++ "\n") = lines text ++ [""] := by
  have hlast : (text.toList ++ ['\n']).splitOn '\n' = text.toList.splitOn '\n' ++ [[]] :=
    List.splitOnP_append_cons text.toList [] (by simp)
  unfold lines
  rw [String.toList_append]
  change ((text.toList ++ ['\n']).splitOn '\n').map String.ofList = _
  rw [hlast]
  rw [List.map_append]
  rfl

end Text

theorem Buffer.margin_one_add (indent : Indent) (levels : Nat) :
    margin indent (1 + levels) = indent.unit ++ margin indent levels := by
  rw [Nat.add_comm]
  exact String.join_cons

namespace Line

variable {indent : Indent}

@[simp]
theorem text_zero (content : String) : text indent 0 ⟨0, content⟩ = content := by
  unfold text
  split
  . next hempty => exact (String.isEmpty_iff.mp hempty).symm
  . simp

theorem text_raise (line : Line) :
    (line.raise 1).text indent 0 = Text.indented indent.unit (line.text indent 0) := by
  by_cases hcontent : line.content = ""
  . simp [text, raise, hcontent, Text.indented]
  . simp [text, raise, hcontent, Text.indented, Buffer.margin_one_add, String.append_assoc]

theorem map_text_inBraces (lines : List Line) :
    (inBraces lines).map (·.text indent 0)
      =
    [openBrace] ++ (lines.map (·.text indent 0)).map (Text.indented indent.unit) ++ [closeBrace] := by
  simp [inBraces, Function.comp_def, text_raise]

theorem lineFeed_notMem_text {line : Line} (h : '\n' ∉ line.content.toList) :
    '\n' ∉ (line.text indent 0).toList := by
  unfold text
  split
  . simp
  . rw [String.toList_append]
    rw [List.mem_append]
    rw [not_or]
    exact ⟨fun hmem => (Buffer.isBlank_of_mem_margin _ hmem).2 rfl, h⟩

theorem append_toList_joinAll (indent : Indent) (first : List Char) (lines : List Line) :
    first ++ (joinAll indent 0 lines).toList
      =
    ['\n'].intercalate (first :: lines.map (·.characters indent)) := by
  induction lines generalizing first with
  | nil => simp [joinAll]
  | cons line lines ih =>
    rw [List.map_cons, List.intercalate_cons_cons, ← ih]
    simp [joinAll, characters, String.join_cons]

end Line

namespace Page

variable {page : Page} {indent : Indent}

theorem toList_text (page : Page) (indent : Indent) :
    (page.text indent 0).toList
      =
    ['\n'].intercalate (page.lines.map (·.characters indent)) := by
  have hfirst : Line.characters indent ⟨0, page.first⟩ = page.first.toList :=
    congrArg String.toList (Line.text_zero page.first)
  unfold lines text
  rw [List.map_cons]
  rw [hfirst]
  rw [String.toList_append]
  rw [Line.append_toList_joinAll]

theorem lines_text (h : page.Avoids ['\n']) :
    Text.lines (page.text indent 0) = page.lines.map (·.text indent 0) := by
  apply Text.lines_of_toList_eq
  . simp [lines]
  . rw [List.forall_mem_map]
    intro line hline
    have hcontent : line.content ∈ page.lines.map (·.content) := List.mem_map_of_mem hline
    exact Line.lineFeed_notMem_text (h line.content hcontent '\n' (List.mem_singleton_self _))
  . rw [toList_text]
    rw [List.map_map]
    rfl

end Page

end EntityViews
