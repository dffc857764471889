import EntityViews.Proofs.Decl.Page
import EntityViews.SourceUnit.Report

/-!
This module contains the laws of generators. Writing a unit leaves nothing on the buffer that the next
unit could be affected by, so a generator in use does the same as a new one.
-/

namespace EntityViews

namespace Generator

structure IsReady (options : Options) (generator : Generator) : Prop where
  options_eq : generator.options = options
  indent_eq : generator.buffer.indent = options.indent
  depth_eq : generator.buffer.depth = 0

variable {options : Options} {generator : Generator}

theorem isReady_ofOptions (options : Options) : (ofOptions options).IsReady options := by
  exact ⟨rfl, rfl, rfl⟩

theorem IsReady.clear_eq (h : generator.IsReady options) :
    generator.buffer.clear = (ofOptions options).buffer.clear := by
  have hindent := h.indent_eq
  have hdepth := h.depth_eq
  rcases generator with ⟨given, indent, text, depth, pending⟩
  dsimp at hindent hdepth
  rw [hindent, hdepth]
  rfl

theorem IsReady.generate_fst (h : generator.IsReady options) (schema : Schema) :
    (generator.generate schema).1 = ((ofOptions options).generate schema).1 := by
  unfold generate
  rw [h.options_eq, h.clear_eq]
  dsimp only [ofOptions]
  cases (schema.unitTree options).check <;> rfl

theorem IsReady.generate_snd (h : generator.IsReady options) (schema : Schema) :
    (generator.generate schema).2.IsReady options := by
  unfold generate
  dsimp only
  cases (schema.unitTree generator.options).check with
  | error error => exact h
  | ok _ =>
    -- a script leaves the depth and the indentation as they are, whatever it writes
    refine ⟨h.options_eq, ?_, ?_⟩
    . rw [Node.render, Buffer.newLine_indent, Buffer.run_indent]
      exact h.indent_eq
    . rw [Node.render, Buffer.newLine_depth, Buffer.run_depth]
      exact h.depth_eq

end Generator

end EntityViews
