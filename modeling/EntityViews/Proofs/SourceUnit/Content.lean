import EntityViews.Proofs.Decl.Page
import EntityViews.Proofs.Source.Listing
import EntityViews.Proofs.SourceUnit.Tidy

/-!
This module contains the lines of generated units. The content of a unit is made of tidy lines of which
the last one is a closing brace, and each of them is followed by a line feed.
-/

namespace EntityViews

open OpenBracket

namespace Draft

theorem toList_text_page (script : Script) (indent : Indent) :
    ((script.page []).text indent 0).toList
      =
    ['\n'].intercalate (((start [] []).lines script).map (·.characters indent)) := by
  have hlines : (start [] []).lines script = (script.page []).lines := by
    unfold lines
    dsimp only
    rw [start_append]
    rfl
  rw [hlines]
  exact (script.page []).toList_text indent

end Draft

theorem Generator.content_of_generate {options : Options} {schema : Schema} {unit : SourceUnit}
    (hclear : .clear ∉ (schema.unitTree options).script)
    (hgenerate : ((ofOptions options).generate schema).1 = .ok unit) :
    unit.content = (schema.unitTree options).page.text options.indent 0 ++ "\n" := by
  have htext := @Node.render_text_of_pending_eq_none _ hclear (ofOptions options).buffer.clear rfl
  unfold generate at hgenerate
  dsimp only at hgenerate
  split at hgenerate
  . cases hgenerate
  . cases hgenerate
    dsimp only [Buffer.newLine, ofOptions] at *
    rw [htext]
    simp [Buffer.clear]

namespace Schema

variable {options : Options} {schema : Schema} {unit : SourceUnit}

def unitLines (options : Options) (schema : Schema) : List Line :=
  (Draft.start [] []).lines (schema.unitTree options).script ++ [⟨0, ""⟩]

theorem HasPhrases.exists_unitLines_eq (h : schema.HasPhrases options.ecs) :
    ∃ front : List Line,
      schema.unitLines options = front ++ [⟨0, closeBrace⟩, ⟨0, ""⟩]
        ∧ Line.AreTidy options.indent [] (schema.unitLines options) [] := by
  have hbraced : Script.IsBraced options.indent (schema.unitTree options).script :=
    h.isBraced_unitTree
  have hwrites := hbraced [] [] (fits_nil options.indent)
  rw [Draft.start_append] at hwrites
  have hexists : ∃ front,
      (Draft.start [] []).lines (schema.unitTree options).script = front ++ [⟨0, closeBrace⟩]
        ∧ Line.AreTidy options.indent [] front (below options.indent 0 .curly []) :=
    hwrites.exists_lines
  have ⟨front, hlines, htidy⟩ := hexists
  have hlast : Line.IsTidy options.indent (below options.indent 0 .curly []) ⟨0, closeBrace⟩ [] :=
    Line.isTidy_closingBrace rfl
  unfold unitLines
  rw [hlines]
  refine ⟨front, by simp, ?_⟩
  rw [List.append_assoc]
  exact htidy.append (.cons hlast (.cons (.blank 0) (.nil [])))

theorem HasPhrases.toList_content (h : schema.HasPhrases options.ecs)
    (hgenerate : ((Generator.ofOptions options).generate schema).1 = .ok unit) :
    unit.content.toList
      =
    ['\n'].intercalate ((schema.unitLines options).map (·.characters options.indent)) := by
  have hbraced : Script.IsBraced options.indent (schema.unitTree options).script :=
    h.isBraced_unitTree
  have hclear := (hbraced [] [] (fits_nil options.indent)).clear_notMem
  have hne : (Draft.start [] []).lines (schema.unitTree options).script ≠ [] := by simp [Draft.lines]
  have hlast : (schema.unitLines options).map (·.characters options.indent)
      = ((Draft.start [] []).lines (schema.unitTree options).script).map
          (·.characters options.indent) ++ [[]] := by
    simp [unitLines, Line.characters, Line.text]
  rw [Generator.content_of_generate hclear hgenerate]
  rw [hlast]
  rw [Joined.intercalate_concat _ (by simpa using hne)]
  rw [List.append_nil]
  rw [← Draft.toList_text_page]
  exact String.toList_append

theorem HasPhrases.exists_lines (h : schema.HasPhrases options.ecs)
    (hgenerate : ((Generator.ofOptions options).generate schema).1 = .ok unit) :
    ∃ front : List Line,
      Line.AreTidy options.indent [] (front ++ [⟨0, closeBrace⟩, ⟨0, ""⟩]) []
        ∧ unit.content.toList
            = ['\n'].intercalate ((front ++ [Line.mk 0 closeBrace, Line.mk 0 ""]).map
                (·.characters options.indent)) := by
  have ⟨front, hlines, htidy⟩ := h.exists_unitLines_eq
  have hcontent := h.toList_content hgenerate
  rw [hlines] at htidy
  rw [hlines] at hcontent
  exact ⟨front, htidy, hcontent⟩

end Schema

end EntityViews
