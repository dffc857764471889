import EntityViews.Proofs.Decl.TypeName
import EntityViews.Proofs.Entity.Name
import EntityViews.Proofs.Manifest.Accepted
import EntityViews.Proofs.SourceUnit.Content
import EntityViews.Proofs.SourceUnit.Members

/-!
This module contains the layout of the units that are generated for accepted manifests. The checks on
names keep brackets and line feeds out of them, so nothing that is declared can disturb the lines
around it.
-/

namespace EntityViews

open Text

theorem IsName.isPhrase {name : String} (h : IsName name) : IsPhrase name := by
  exact isPhrase_of_forall_isIdentifierPart h.ne_empty h.identifier.forall_mem

theorem isPhrase_storedName (index : Nat) : IsPhrase (Component.storedName index) := by
  have hprefix : IsPhrase "component_" := by decide
  exact hprefix.append (isPhrase_toString_nat index)

namespace EntityName

theorem isIdentifierPart_of_mem_base {declared : String}
    (h : ∀ c ∈ declared.toList, isIdentifierPart c) :
    ∀ c ∈ (base declared).toList, isIdentifierPart c := by
  intro c hc
  exact h c (toList_base_subset declared hc)

theorem isPhrase_base_append {declared ending : String} (h : IsName declared)
    (hending : ending ≠ "") (hparts : ending.toList.all isIdentifierPart) :
    IsPhrase (base declared ++ ending) := by
  apply isPhrase_of_forall_isIdentifierPart
  . simp [hending]
  . rw [String.toList_append, List.forall_mem_append]
    exact ⟨isIdentifierPart_of_mem_base h.identifier.forall_mem, List.all_eq_true.mp hparts⟩

end EntityName

theorem isPhrase_of_dottedParts {name : String}
    (h : ∀ part ∈ dottedParts name, IsName (.ofList part)) : IsPhrase name := by
  have hparts : ['.'].intercalate (dottedParts name) = name.toList := List.intercalate_splitOn '.'
  have hdot : IsInline (.ofList ['.']) := by decide
  have hphrase : IsPhrase (.ofList (['.'].intercalate (dottedParts name))) := by
    refine Joined.intercalate_induction (List.splitOnP_ne_nil _ _) ?_ fun part hpart =>
      (h part hpart).isPhrase
    intro first second hfirst hsecond
    rw [String.ofList_append, String.ofList_append]
    exact hfirst.append_inline_append hdot hsecond
  rw [hparts, String.ofList_toList] at hphrase
  exact hphrase

namespace TypeName

theorem isPhrase_of_check {type : String} (h : check type = .ok ()) : IsPhrase type := by
  have ⟨hne, htrim, hcharacters⟩ := of_check h
  have ⟨hfirst, hlast⟩ := isBlank_of_trim_eq_self htrim
  have hlist : type.toList ≠ [] := by simpa using hne
  apply isPhrase_of_forall_notMem
  . intro c hc
    rcases of_checkCharacters hcharacters c hc with hmem | hpart
    . have hall : ['<', '>', ',', ' ', '.'].all fun c => c ∉ Bracket.characters ∧ c ≠ '\n' := by
        decide
      exact of_decide_eq_true (List.all_eq_true.mp hall c hmem)
    . refine ⟨Bracket.notMem_characters_of_isIdentifierPart hpart, ?_⟩
      rintro rfl
      exact absurd hpart (by decide)
  . exact ⟨_, List.head?_eq_some_head hlist, hfirst _ (List.head?_eq_some_head hlist)⟩
  . exact ⟨_, List.getLast?_eq_some_getLast hlist, hlast _ (List.getLast?_eq_some_getLast hlist)⟩

end TypeName

namespace Descriptor

variable {entity : Descriptor} {ecs : Ecs} {schema : Schema}

theorem IsValid.hasPhrases (h : entity.IsValid) (hecs : IsPhrase ecs.namespaceName)
    (hresolve : entity.resolve ecs = .ok schema) : schema.HasPhrases ecs := by
  have ⟨access, _, heq⟩ := exists_of_resolve_eq_ok hresolve
  rw [← heq]
  have hname : IsName (trim entity.name) := by
    rw [h.name.trim_eq]
    exact h.name
  refine ⟨fun _ => hecs, ?_, ?_, ?_, ?_, ?_, ?_⟩
  . intro hne
    exact isPhrase_of_dottedParts (h.namespaceName.resolve_left hne)
  . exact EntityName.isPhrase_base_append hname (by decide) (by decide)
  . exact EntityName.isPhrase_base_append hname (by decide) (by decide)
  . intro name hmem
    have ⟨field, hfind, hfield⟩ := Option.map_eq_some_iff.mp hmem
    rw [← hfield]
    exact (h.fields field (List.mem_of_find?_eq_some hfind)).name.isPhrase
  . intro component hmem
    have ⟨index, hindex, hcomponent⟩ := List.mem_mapIdx.mp hmem
    have hfield := h.fields _ (List.mem_of_mem_filter (List.getElem_mem hindex))
    rw [← hcomponent]
    exact ⟨TypeName.isPhrase_of_check hfield.type, isPhrase_storedName index, hfield.name.isPhrase⟩
  . exact fun type htype => TypeName.isPhrase_of_check (h.excluded type htype)

end Descriptor

namespace Manifest

open OpenBracket

variable {manifest : Manifest}

theorem IsAccepted.exists_lines (h : manifest.IsAccepted) {unit : SourceUnit}
    (hunit : unit ∈ manifest.generate.units) :
    ∃ front : List Line,
      Line.AreTidy manifest.settings.indent [] (front ++ [⟨0, closeBrace⟩, ⟨0, ""⟩]) []
        ∧ unit.content.toList
            = ['\n'].intercalate ((front ++ [Line.mk 0 closeBrace, Line.mk 0 ""]).map
                (·.characters manifest.settings.indent)) := by
  have hvalid := isAccepted_iff_isValid.mp h
  rw [generate_units, List.mem_map] at hunit
  obtain ⟨made, hmade, rfl⟩ := hunit
  have ⟨hmem, hresolve, hgenerate⟩ := Descriptor.made_of_mem_keptOf_settleAll hmade
  have hecs := isPhrase_of_dottedParts hvalid.settings.runtime
  have hphrases := (hvalid.entities _ hmem).hasPhrases hecs hresolve
  exact @Schema.HasPhrases.exists_lines manifest.settings.options _ _ hphrases hgenerate

theorem generate_content_nested (manifest : Manifest) (h : manifest.IsAccepted) :
    ∀ unit ∈ manifest.generate.units, IsNested unit.content := by
  intro unit hunit
  have ⟨front, htidy, hcontent⟩ := h.exists_lines hunit
  unfold IsNested
  rw [hcontent]
  exact openAfterAll?_of_openAfterLines? htidy.openAfterLines?_characters

theorem generate_content_nested_global :
    let manifest : Manifest :=
      { entities := [{ name := "Unit", fields := [{ name := "Places", type := "List<Place>" }] }] }
    manifest.IsAccepted
      ∧ manifest.generate.units.length = 1
      ∧ ∀ unit ∈ manifest.generate.units, IsNested unit.content := by
  intro manifest
  have haccepted : manifest.IsAccepted := ⟨"", by decide +kernel⟩
  exact ⟨haccepted, by decide +kernel, generate_content_nested manifest haccepted⟩

theorem generate_content_tidy (manifest : Manifest) (h : manifest.IsAccepted) :
    ∀ unit ∈ manifest.generate.units,
      (∃ body, unit.content = body ++ closeBrace ++ "\n")
        ∧ ∀ before line after, unit.content.toList.splitOn '\n' = before ++ line :: after →
            (∀ c ∈ line.getLast?, isBlank c = false)
              ∧ ∃ opened, openAfterLines? [] before = some opened
                  ∧ (line ≠ [] → ∃ level first rest,
                      line = (Buffer.margin manifest.settings.indent level).toList ++ first :: rest
                        ∧ isBlank first = false
                        ∧ Sets manifest.settings.indent opened level first) := by
  intro unit hunit
  obtain ⟨front, htidy, hcontent⟩ := h.exists_lines hunit
  refine ⟨?_, fun before line after hsplit => ?_⟩
  . obtain ⟨body, hbody⟩ := Joined.exists_intercalate_concat_eq ['\n']
      (front.map (·.characters manifest.settings.indent)) ['}']
    have hsplit : (front ++ [Line.mk 0 closeBrace, Line.mk 0 ""]).map
        (·.characters manifest.settings.indent)
          = front.map (·.characters manifest.settings.indent) ++ [['}']] ++ [[]] := by
      simp [Line.characters, Line.text]
    refine ⟨.ofList body, ?_⟩
    rw [← String.toList_inj, hcontent, hsplit, Joined.intercalate_concat _ (by simp), hbody]
    simp
  . have hlines : unit.content.toList.splitOn '\n'
        = (front ++ [Line.mk 0 closeBrace, Line.mk 0 ""]).map
            (·.characters manifest.settings.indent) := by
      rw [hcontent]
      apply List.splitOn_intercalate _ _ (by simp)
      rw [List.forall_mem_map]
      exact htidy.lineFeed_notMem_characters
    rw [hlines] at hsplit
    obtain ⟨opened, hopened, tidyLine, next, heq, htidyLine⟩ := htidy.exists_of_map_eq hsplit
    rw [← heq]
    exact ⟨htidyLine.isBlank_getLast?_characters, opened, hopened, htidyLine.sets⟩

theorem generate_content_tidy_tab :
    let manifest : Manifest :=
      { settings := { indentWidth := 0 }
        entities := [{ namespaceName := "Game", name := "Unit", excluded := ["Dead"] }] }
    manifest.IsAccepted
      ∧ manifest.generate.units.length = 1
      ∧ ∀ unit ∈ manifest.generate.units,
          ∀ before line after, unit.content.toList.splitOn '\n' = before ++ line :: after →
            line ≠ [] → ∃ opened level first rest, openAfterLines? [] before = some opened
              ∧ line = List.replicate level '\t' ++ first :: rest
              ∧ Sets .tab opened level first := by
  intro manifest
  have haccepted : manifest.IsAccepted := ⟨"", by decide +kernel⟩
  refine ⟨haccepted, by decide +kernel, fun unit hunit before line after hsplit hne => ?_⟩
  have ⟨_, hlines⟩ := generate_content_tidy manifest haccepted unit hunit
  have ⟨_, opened, hopened, hset⟩ := hlines before line after hsplit
  have ⟨level, first, rest, hline, _, hsets⟩ := hset hne
  refine ⟨opened, level, first, rest, hopened, ?_, hsets⟩
  rw [← Buffer.toList_margin_tab]
  exact hline

end Manifest

end EntityViews
