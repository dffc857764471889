import EntityViews.Proofs.Decl.Page
import EntityViews.Proofs.Source.Block

/-!
This module contains the blocks of declarations. If the texts that a node brings along have neither
parentheses nor braces, those that are written with it are nested, and each pair of braces stands at
the start of two lines that are indented alike.
-/

namespace EntityViews

theorem Step.Avoids.isBraceless {step : Step} (h : step.Avoids Bracket.enclosing) :
    step.IsBraceless := by
  cases step with
  | append text =>
    have hnone : ∀ c ∈ text.toList, c ∉ Bracket.enclosing := fun c hc hmem => h c hmem hc
    refine ⟨?_, h _ (by decide), h _ (by decide)⟩
    rw [Text.skeleton_of_forall_notMem hnone]
    decide
  | clear => exact h
  | _ => trivial

namespace Node

theorem tokens_isBraceless : ∀ token ∈ tokens, (Step.append token).IsBraceless := by
  unfold Step.IsBraceless
  decide

theorem nested_script_isBraceless {node : Node}
    (h : ∀ part ∈ node.visited, part.Avoids Bracket.enclosing) :
    node.script.Nested Step.IsBraceless := by
  apply node.nested_script tokens_isBraceless trivial
  intro part hpart step hstep
  exact ((h part hpart).allows step hstep).isBraceless

theorem render_hasBlocks (node : Node)
    (h : ∀ part ∈ node.visited, part.Avoids ['(', ')', '{', '}']) (buffer : Buffer) :
    ∃ added, (node.render buffer).text = buffer.text ++ added
      ∧ Text.HasBlocks buffer.indent added.toList := by
  exact (nested_script_isBraceless h).addsBlocks_run buffer

theorem render_hasBlocks_constructor :
    let loop : Node := .wrapped empty (.block (.text "while true") [.text "step"]) (.text "//")
    let body : Node := .list { indented := true } [loop]
    let node : Node := .typeDecl { kind := .classType } (.text "Unit") [.text "Base"]
      [.callable { kind := .constructor, wrapParameters := true } (.text "void") (.text "Unit")
        [.text "int size"] none (some [.text "size"]) [body]]
    let buffer : Buffer := { indent := .tab, text := "//", depth := 2, pending := some 1 }
    (∀ part ∈ node.visited, part.Avoids ['(', ')', '{', '}'])
      ∧ (Text.skeleton (node.render buffer).text.toList).toList
          = ['{', '(', ')', '(', ')', '{', '{', '}', '}', '}']
      ∧ ∃ added, (node.render buffer).text = "//" ++ added ∧ Text.HasBlocks .tab added.toList := by
  intro loop body node buffer
  have hnode : ∀ part ∈ node.visited, part.Avoids ['(', ')', '{', '}'] := by
    simp [node, body, loop, visited, Avoids, Text.Avoids, empty]
  exact ⟨hnode, by decide +kernel, render_hasBlocks node hnode buffer⟩

end Node

end EntityViews
