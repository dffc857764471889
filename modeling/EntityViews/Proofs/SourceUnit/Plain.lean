import EntityViews.Proofs.Decl.Plain
import EntityViews.Proofs.Decl.Reading
import EntityViews.Proofs.SourceUnit.Content

/-!
This module contains the plain text of source units. The lines of a unit are tidy, so their margins can
be told from what is on them, and the content of a unit determines its plain text.
-/

namespace EntityViews

open OpenBracket

namespace Line

variable {indent : Indent} {opened next final : List OpenBracket} {line : Line} {lines : List Line}

theorem IsTidy.dropWhile_characters (h : line.IsTidy indent opened next) :
    (line.characters indent).dropWhile isBlank = line.content.toList := by
  cases h with
  | blank level => rfl
  | filled hholds _ =>
    have ⟨first, rest, hcontent, hfirst, _⟩ := hholds.start
    rw [hholds.characters_eq]
    rw [List.dropWhile_append_of_pos fun c hc => (Buffer.isBlank_of_mem_margin c hc).1]
    rw [hcontent]
    rw [List.dropWhile_cons_of_neg (by simp [hfirst])]

theorem AreTidy.map_dropWhile_characters (h : AreTidy indent opened lines final) :
    (lines.map (·.characters indent)).map (·.dropWhile isBlank)
      =
    lines.map (·.content.toList) := by
  induction h with
  | nil opened => rfl
  | cons hline _ ih =>
    simp only [List.map_cons]
    rw [hline.dropWhile_characters]
    rw [ih]

end Line

namespace Schema

variable {options : Options} {schema other : Schema} {unit otherUnit : SourceUnit}

theorem map_content_unitLines (options : Options) (schema : Schema) :
    (schema.unitLines options).map (·.content)
      =
    (schema.unitTree options).page.contents ++ [""] := by
  simp [unitLines, Draft.lines, Page.contents, Draft.start, Draft.append, Line.append, Node.page]

theorem HasPhrases.plain_unitTree (h : schema.HasPhrases options.ecs)
    (hgenerate : ((Generator.ofOptions options).generate schema).1 = .ok unit) :
    (schema.unitTree options).plain ++ ['\n']
      =
    ['\n'].intercalate ((unit.content.toList.splitOn '\n').map (·.dropWhile isBlank)) := by
  have ⟨_, _, htidy⟩ := h.exists_unitLines_eq
  have hsplit : unit.content.toList.splitOn '\n'
      = (schema.unitLines options).map (·.characters options.indent) := by
    rw [h.toList_content hgenerate]
    apply List.splitOn_intercalate _ _ (by simp [unitLines])
    rw [List.forall_mem_map]
    exact htidy.lineFeed_notMem_characters
  rw [hsplit]
  rw [htidy.map_dropWhile_characters]
  have hcontents := congrArg (List.map String.toList) (schema.map_content_unitLines options)
  rw [List.map_map] at hcontents
  rw [Function.comp_def] at hcontents
  rw [hcontents]
  rw [List.map_append]
  rw [List.map_singleton]
  rw [Joined.intercalate_concat _ (by simp [Page.contents])]
  rw [← Page.plain_eq_intercalate]
  simp [Node.plain, Script.plain, Node.page]

theorem HasPhrases.plain_eq_of_content_eq (h : schema.HasPhrases options.ecs)
    (hother : other.HasPhrases options.ecs)
    (hgenerate : ((Generator.ofOptions options).generate schema).1 = .ok unit)
    (hgenerateOther : ((Generator.ofOptions options).generate other).1 = .ok otherUnit)
    (hcontent : unit.content = otherUnit.content) :
    (schema.unitTree options).plain = (other.unitTree options).plain := by
  have hplain := h.plain_unitTree hgenerate
  rw [hcontent] at hplain
  rw [← hother.plain_unitTree hgenerateOther] at hplain
  exact List.append_cancel_right hplain

end Schema

end EntityViews
