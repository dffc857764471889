import EntityViews.Proofs.SourceUnit.Verdict

/-!
This module contains the independence of answers from what a generator was used for before. A
generator in use gives the answers of a new one, for single schemas as well as for whole runs.
-/

namespace EntityViews

namespace Generator

variable {options : Options} {generator : Generator}

def afterSchemas (options : Options) (schemas : List Schema) : Generator :=
  schemas.foldl (fun generator schema => (generator.generate schema).2) (ofOptions options)

def runEach (generator : Generator) :
    List (Except SourceError (List Descriptor)) → List (Except SourceError Report)
  | [] => []
  | source :: sources =>
    let (answer, generator) := generator.run source
    answer :: generator.runEach sources

theorem IsReady.foldl_generate (h : generator.IsReady options) (schemas : List Schema) :
    (schemas.foldl (fun generator schema => (generator.generate schema).2) generator).IsReady
      options := by
  induction schemas generalizing generator with
  | nil => exact h
  | cons schema schemas ih =>
    apply ih
    exact h.generate_snd schema

theorem IsReady.run_fst (h : generator.IsReady options)
    (source : Except SourceError (List Descriptor)) :
    (generator.run source).1 = ((ofOptions options).run source).1 := by
  cases source with
  | error error => rfl
  | ok descriptors =>
    have hnew := isReady_ofOptions options
    unfold Generator.run
    dsimp only
    rw [h.generateAll_report]
    rw [hnew.generateAll_report]

theorem IsReady.runEach_eq_map (h : generator.IsReady options)
    (sources : List (Except SourceError (List Descriptor))) :
    generator.runEach sources = sources.map fun source => ((ofOptions options).run source).1 := by
  induction sources generalizing generator with
  | nil => rfl
  | cons source sources ih =>
    unfold runEach
    dsimp only
    rw [h.run_fst]
    rw [ih (h.run source)]
    rw [List.map_cons]

theorem generate_snd_of_eq_error {schema : Schema} {error : UnitError}
    (h : (generator.generate schema).1 = .error error) : (generator.generate schema).2 = generator := by
  unfold generate at *
  dsimp only at *
  cases hcheck : (schema.unitTree generator.options).check with
  | error error => rfl
  | ok _ =>
    rw [hcheck] at h
    simp at h

theorem answers_eq_ofOptions (options : Options) :
    (∀ earlier schema,
        ((afterSchemas options earlier).generate schema).1
          = ((ofOptions options).generate schema).1)
      ∧ (∀ (used : Generator) schema error,
          (used.generate schema).1 = .error error → (used.generate schema).2 = used)
      ∧ ∀ sources,
          (ofOptions options).runEach sources
            = sources.map fun source => ((ofOptions options).run source).1 := by
  have hnew := isReady_ofOptions options
  refine ⟨?_, ?_, ?_⟩
  . intro earlier schema
    have hused := hnew.foldl_generate earlier
    exact hused.generate_fst schema
  . intro used schema error h
    exact generate_snd_of_eq_error h
  . intro sources
    exact hnew.runEach_eq_map sources

theorem answers_eq_ofOptions_blank :
    let schema : Schema := {
      declaredName := "A"
      viewName := "AEntity"
      collectionName := "AEntities"
      components := [⟨"int", .value, "component_0", " ", true⟩]
    }
    let used := afterSchemas {} [{ schema with components := [] }, schema]
    (used.generate schema).1 = .error (.build "A" (.blankName "property"))
      ∧ (used.generate schema).2 = used := by
  intro schema used
  have hfails : (used.generate schema).1 = .error (.build "A" (.blankName "property")) := by
    decide
  exact ⟨hfails, (answers_eq_ofOptions {}).2.1 used schema _ hfails⟩

end Generator

end EntityViews
