import EntityViews.Proofs.Decl.Lines
import EntityViews.Proofs.Source.Listing
import EntityViews.Proofs.SourceUnit.Content
import EntityViews.Proofs.SourceUnit.LineFeed
import EntityViews.Proofs.SourceUnit.Reuse
import EntityViews.Proofs.SourceUnit.Visible

/-!
This module contains the composition of units from their parts. The lines of a unit are those of the view
and of the collection, as they are written on their own, one level deeper if the unit has a namespace. The
lines of the enumerator are found in those of the collection in the same way.
-/

namespace EntityViews

open Text

theorem Text.indented_empty (unit : String) : indented unit "" = "" := by
  rfl

namespace Node

variable {indent : Indent}

def written (indent : Indent) (node : Node) : List String :=
  node.page.lines.map (·.text indent 0)

theorem clear_notMem_script {node : Node} (h : node.AvoidsAll ['\n']) : .clear ∉ node.script := by
  intro hmem
  exact script_avoids_lineFeed h .clear hmem

theorem lines_toText {node : Node} (h : node.AvoidsAll ['\n']) :
    Text.lines node.toText = node.written .standard := by
  have hpage := node.render_eq_page h
  have htext := (hpage.2 { indent := .standard }).1 rfl
  unfold toText
  rw [htext]
  rw [String.empty_append]
  exact Page.lines_text hpage.1

theorem written_text (content : String) : (text content).written indent = [content] := by
  unfold written
  rw [page_lines_text]
  simp

theorem written_lines {elements : List Node} (hne : elements ≠ []) :
    (lines elements).written indent = elements.flatMap (·.written indent) := by
  unfold written
  rw [page_lines_lines hne]
  exact List.map_flatMap

theorem written_block (header : Node) (body : List Node) :
    (block header body).written indent
      =
    header.written indent
      ++ ([openBrace] ++ (body.flatMap (·.written indent)).map (indented indent.unit)
        ++ [closeBrace]) := by
  unfold written
  rw [page_lines_block]
  rw [List.map_append]
  rw [Line.map_text_inBraces]
  rw [List.map_flatMap]

theorem exists_written_typeDecl (head : TypeHead) (name : Node) (bases members : List Node) :
    ∃ header : List String,
      (typeDecl head name bases members).written indent
        = header
          ++ ([openBrace] ++ (members.flatMap (·.written indent)).map (indented indent.unit)
            ++ [closeBrace]) := by
  have ⟨header, hlines⟩ := exists_page_lines_typeDecl head name bases members
  refine ⟨header.map (·.text indent 0), ?_⟩
  unfold written
  rw [hlines]
  rw [List.map_append]
  rw [Line.map_text_inBraces]
  rw [List.map_flatMap]

end Node

namespace Schema

variable {options : Options} {ecs : Ecs} {schema : Schema} {indent : Indent}

theorem flatMap_written_preamble (options : Options) :
    (preamble options).flatMap (·.written indent)
      =
    (if options.header then ["// <auto-generated/>"] else [])
      ++ ["using System;", "using System.Collections;", "using System.Collections.Generic;",
        "using System.Runtime.CompilerServices;"]
      ++ (if options.ecs.namespaceName = "" then [] else [s!"using {options.ecs.namespaceName};"])
      ++ [""] := by
  have hheader : (if options.header then [Node.text "// <auto-generated/>"] else []).flatMap
      (·.written indent) = if options.header then ["// <auto-generated/>"] else [] := by
    split
    . simp [Node.written_text]
    . rfl
  have hecs : (if options.ecs.namespaceName.isEmpty then []
      else [Node.usingDirective options.ecs.namespaceName]).flatMap (·.written indent)
        = if options.ecs.namespaceName = "" then []
          else [s!"using {options.ecs.namespaceName};"] := by
    by_cases hempty : options.ecs.namespaceName = ""
    . simp [hempty]
    . simp [hempty, Node.usingDirective, Node.written_text]
  unfold preamble
  simp only [List.flatMap_append, hheader, hecs]
  simp [systemNamespaces, Node.usingDirective, Node.empty, Node.written_text, toString]

theorem written_unitTree :
    (schema.unitTree options).written indent
      =
    (preamble options).flatMap (·.written indent)
      ++ (if schema.namespaceName = "" then
          (schema.view options.ecs).written indent ++ [""]
            ++ (schema.collection options.ecs).written indent
        else
          [s!"namespace {schema.namespaceName}", openBrace]
            ++ ((schema.view options.ecs).written indent).map (indented indent.unit) ++ [""]
            ++ ((schema.collection options.ecs).written indent).map (indented indent.unit)
            ++ [closeBrace]) := by
  unfold unitTree
  dsimp only
  rw [Node.written_lines (by simp [preamble])]
  rw [List.flatMap_append]
  by_cases hnamespace : schema.namespaceName = ""
  . simp [hnamespace, Node.empty, Node.written_text]
  . simp [hnamespace, Node.namespaceBlock, Node.written_block, Node.empty, Node.written_text,
      indented_empty]

theorem exists_written_collection :
    ∃ front : List String,
      (schema.collection ecs).written indent
        = front ++ ((schema.enumerator ecs).written indent).map (indented indent.unit)
          ++ [closeBrace] := by
  have ⟨header, hwritten⟩ := @Node.exists_written_typeDecl indent
    { kind := .classType, access := schema.access } (.text schema.collectionName)
    [.text ecs.entities]
    [schema.collectionFactory ecs, .empty, schema.collectionConstructor ecs, .empty, getEnumerator,
      .empty, schema.enumerator ecs]
  unfold collection
  rw [hwritten]
  simp only [List.flatMap_cons, List.flatMap_nil, List.append_nil, List.map_append,
    ← List.append_assoc]
  exact ⟨_, rfl⟩

end Schema

namespace Generator

theorem exists_generate_eq_ok_iff (generator : Generator) (schema : Schema) :
    (∃ unit, (generator.generate schema).1 = .ok unit) ↔ schema.IsVisible := by
  constructor
  . intro ⟨unit, hunit⟩
    by_contra hvisible
    have ⟨error, herror⟩ := generator.exists_generate_eq_error hvisible
    rw [hunit] at herror
    cases herror
  . intro h
    have ⟨content, hcontent⟩ := generator.exists_generate_eq_ok h
    exact ⟨_, hcontent⟩

theorem lines_content_of_generate {options : Options} {schema : Schema} {unit : SourceUnit}
    (h : schema.IsSingleLined options.ecs)
    (hgenerate : ((ofOptions options).generate schema).1 = .ok unit) :
    Text.lines unit.content = (schema.unitTree options).written options.indent ++ [""] := by
  have hlines := h.avoidsAll_unitTree
  have hpage := ((schema.unitTree options).render_eq_page hlines).1
  rw [content_of_generate (Node.clear_notMem_script hlines) hgenerate]
  rw [Text.lines_append_lineFeed]
  rw [Page.lines_text hpage]
  rfl

theorem generate_lines_eq_parts {options : Options} {schema : Schema}
    (h : schema.IsSingleLined options.ecs) (hindent : options.indent = .standard)
    (earlier : List Schema) :
    let answer := ((afterSchemas options earlier).generate schema).1
    let view := Text.lines (schema.view options.ecs).toText
    let collection := Text.lines (schema.collection options.ecs).toText
    let enumerator := Text.lines (schema.enumerator options.ecs).toText
    let shifted := List.map (Text.indented "    ")
    ((∃ unit, answer = .ok unit) ↔ schema.IsVisible)
      ∧ (∀ unit, answer = .ok unit →
          Text.lines unit.content
            = (if options.header then ["// <auto-generated/>"] else [])
              ++ ["using System;", "using System.Collections;", "using System.Collections.Generic;",
                "using System.Runtime.CompilerServices;"]
              ++ (if options.ecs.namespaceName = "" then []
                else [s!"using {options.ecs.namespaceName};"])
              ++ [""]
              ++ (if schema.namespaceName = "" then view ++ [""] ++ collection
                else [s!"namespace {schema.namespaceName}", openBrace] ++ shifted view ++ [""]
                  ++ shifted collection ++ [closeBrace])
              ++ [""])
      ∧ ∃ front, collection = front ++ shifted enumerator ++ [closeBrace] := by
  intro answer view collection enumerator shifted
  have hanswer : answer = ((ofOptions options).generate schema).1 :=
    ((isReady_ofOptions options).foldl_generate earlier).generate_fst schema
  have hunit : Indent.standard.unit = "    " := rfl
  have hview : view = (schema.view options.ecs).written .standard :=
    Node.lines_toText h.avoidsAll_view
  have hcollection : collection = (schema.collection options.ecs).written .standard :=
    Node.lines_toText h.avoidsAll_collection
  have henumerator : enumerator = (schema.enumerator options.ecs).written .standard :=
    Node.lines_toText h.avoidsAll_enumerator
  refine ⟨?_, ?_, ?_⟩
  . exact exists_generate_eq_ok_iff _ schema
  . intro unit hgenerate
    rw [hanswer] at hgenerate
    rw [lines_content_of_generate h hgenerate]
    rw [hindent]
    rw [Schema.written_unitTree]
    rw [Schema.flatMap_written_preamble]
    rw [hview]
    rw [hcollection]
    rw [hunit]
  . rw [hcollection]
    rw [henumerator]
    exact Schema.exists_written_collection

theorem generate_lines_eq_parts_namespace :
    let options : Options := {}
    let schema : Schema := {
      namespaceName := "Game"
      declaredName := "IUnit"
      viewName := "UnitEntity"
      collectionName := "UnitEntities"
      components := [⟨"int", .value, "component_0", "Place", true⟩]
      excluded := ["Dead"]
    }
    let view := Text.lines (schema.view options.ecs).toText
    let collection := Text.lines (schema.collection options.ecs).toText
    let shifted := List.map (Text.indented "    ")
    schema.IsSingleLined options.ecs
      ∧ ∃ unit, ((afterSchemas options [schema]).generate schema).1 = .ok unit
        ∧ Text.lines unit.content
          = ["// <auto-generated/>"]
            ++ ["using System;", "using System.Collections;", "using System.Collections.Generic;",
              "using System.Runtime.CompilerServices;"]
            ++ ["using Abg.Entities;"]
            ++ [""]
            ++ (["namespace Game", openBrace] ++ shifted view ++ [""] ++ shifted collection
              ++ [closeBrace])
            ++ [""] := by
  intro options schema view collection shifted
  have hlines : schema.IsSingleLined options.ecs := by
    refine ⟨by decide, by decide, by decide, by decide, by simp [schema], ?_, by simp [schema]⟩
    rw [List.forall_mem_singleton]
    exact ⟨by decide, by decide, by decide⟩
  have hvisible : schema.IsVisible := by
    refine ⟨by decide, by decide, by simp [schema], ?_⟩
    rw [List.forall_mem_singleton]
    exact ⟨by decide, by decide, by decide⟩
  have husing : s!"using {options.ecs.namespaceName};" = "using Abg.Entities;" := rfl
  have hheader : s!"namespace {schema.namespaceName}" = "namespace Game" := rfl
  have hparts := generate_lines_eq_parts hlines rfl [schema]
  have ⟨unit, hunit⟩ := hparts.1.mpr hvisible
  refine ⟨hlines, unit, hunit, ?_⟩
  -- the lines of the parts are left as they are, so that nothing evaluates them
  rw [hparts.2.1 unit hunit]
  rw [if_pos rfl]
  rw [if_neg (by decide)]
  rw [if_neg (by decide)]
  rw [husing]
  rw [hheader]

end Generator

end EntityViews
