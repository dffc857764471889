import EntityViews.Proofs.Command.Generate
import EntityViews.Proofs.Manifest.Tidy
import EntityViews.Proofs.SourceUnit.Readable

/-!
This module contains what the comparison of generated contents tells. Two units that are generated
with the same options have the same content if and only if all that is generated of their schemas is
the same, so a file that holds another content than its unit is one whose entity changed.
-/

namespace EntityViews

namespace TypeName

theorem notMem_of_check {type : String} (h : check type = .ok ()) {c : Char}
    (hc : c ∉ ['<', '>', ',', ' ', '.']) (hpart : isIdentifierPart c = false) :
    c ∉ type.toList := by
  intro hmem
  have ⟨_, _, hcharacters⟩ := of_check h
  cases of_checkCharacters hcharacters c hmem with
  | inl hmem => exact hc hmem
  | inr hidentifier =>
    rw [hpart] at hidentifier
    cases hidentifier

end TypeName

namespace Descriptor

variable {entity : Descriptor} {ecs : Ecs} {schema : Schema}

theorem IsValid.isReadable (h : entity.IsValid)
    (hecs : ∀ part ∈ dottedParts ecs.namespaceName, IsName (.ofList part))
    (hresolve : entity.resolve ecs = .ok schema) : schema.IsReadable ecs := by
  have hphrases := h.hasPhrases (isPhrase_of_dottedParts hecs) hresolve
  have hderived := isDerived_of_resolve hresolve
  have hstored := (hasDistinctMembers_iff_of_resolve hresolve).1
  have ⟨access, _, heq⟩ := exists_of_resolve_eq_ok hresolve
  refine ⟨hphrases, hderived, hstored, ?_, ?_⟩
  . rw [← heq]
    intro component hmem
    have ⟨index, hindex, hcomponent⟩ := List.mem_mapIdx.mp hmem
    have hfield := h.fields _ (List.mem_of_mem_filter (List.getElem_mem hindex))
    rw [← hcomponent]
    exact hfield.name.identifier.notMem (by decide)
  . rw [← heq]
    intro type hmem
    exact TypeName.notMem_of_check (h.excluded type hmem) (by decide) (by decide)

theorem IsValid.isVisible_of_resolve (h : entity.IsValid)
    (hresolve : entity.resolve ecs = .ok schema) : schema.IsVisible := by
  have ⟨access, _, heq⟩ := exists_of_resolve_eq_ok hresolve
  rw [← heq]
  exact h.isVisible_schemaWith access ecs.entity

end Descriptor

namespace Schema

variable {options : Options} {schema other : Schema} {unit otherUnit : SourceUnit}

theorem content_eq_iff_agrees (hschema : schema.IsReadable options.ecs)
    (hother : other.IsReadable options.ecs)
    (hgenerate : ((Generator.ofOptions options).generate schema).1 = .ok unit)
    (hgenerateOther : ((Generator.ofOptions options).generate other).1 = .ok otherUnit) :
    unit.content = otherUnit.content ↔ schema.Agrees other := by
  constructor
  . intro hcontent
    apply unitTree_inj hschema hother
    exact hschema.plain_eq_of_content_eq hother.toHasPhrases hgenerate hgenerateOther hcontent
  . intro h
    rw [← String.toList_inj]
    rw [hschema.toList_content hgenerate]
    rw [hother.toList_content hgenerateOther]
    unfold unitLines
    rw [← unitTree_essence options schema, h.essence_eq hschema hother, unitTree_essence]

end Schema

namespace Manifest

theorem generate_content_eq_iff_agrees (options : Options) (first second : Manifest)
    (hfirst : first.IsAccepted) (hsecond : second.IsAccepted)
    (hruntime : first.settings.ecs = options.ecs) (entity other : Descriptor)
    (hentity : entity ∈ first.entities) (hother : other ∈ second.entities)
    (schema otherSchema : Schema) (hresolve : entity.resolve options.ecs = .ok schema)
    (hresolveOther : other.resolve options.ecs = .ok otherSchema) :
    ∃ unit otherUnit,
      ((Generator.ofOptions options).generate schema).1 = .ok unit
        ∧ ((Generator.ofOptions options).generate otherSchema).1 = .ok otherUnit
        ∧ (unit.content = otherUnit.content ↔ schema.Agrees otherSchema)
        ∧ (unit.content = otherUnit.content ↔ schema.essence = otherSchema.essence)
        ∧ ∀ (files : FileMap) (directory : String),
            ((files.put (otherUnit.location directory) unit.content).perform
                (otherUnit.isStale directory)).1
              =
            decide (schema.essence ≠ otherSchema.essence) := by
  have hecs : ∀ part ∈ dottedParts options.ecs.namespaceName, IsName (.ofList part) := by
    rw [← hruntime]
    exact (isAccepted_iff_isValid.mp hfirst).settings.runtime
  have hvalid := (isAccepted_iff_isValid.mp hfirst).entities entity hentity
  have hvalidOther := (isAccepted_iff_isValid.mp hsecond).entities other hother
  have hreadable := hvalid.isReadable hecs hresolve
  have hreadableOther := hvalidOther.isReadable hecs hresolveOther
  have ⟨content, hgenerate⟩ := (Generator.ofOptions options).exists_generate_eq_ok
    (hvalid.isVisible_of_resolve hresolve)
  have ⟨otherContent, hgenerateOther⟩ := (Generator.ofOptions options).exists_generate_eq_ok
    (hvalidOther.isVisible_of_resolve hresolveOther)
  have hagrees := Schema.content_eq_iff_agrees hreadable hreadableOther hgenerate hgenerateOther
  have hessence : schema.Agrees otherSchema ↔ schema.essence = otherSchema.essence :=
    ⟨fun h => h.essence_eq hreadable hreadableOther, .of_essence_eq⟩
  refine ⟨_, _, hgenerate, hgenerateOther, hagrees, hagrees.trans hessence, ?_⟩
  intro files directory
  rw [FileMap.perform_isStale]
  unfold FileMap.isStale
  rw [FileMap.contents_put_self, Bool.eq_iff_iff, bne_iff_ne, decide_eq_true_iff, Ne,
    Option.some.injEq, hagrees.trans hessence]

theorem generate_content_eq_iff_agrees_other_spelling :
    let place : Field := { name := "Place", type := "Vector<float, Axis>", isValue := true }
    let handle : Field := { name := "Self", type := "Abg.Entities.Entity" }
    let entity : Descriptor :=
      { namespaceName := "Game", name := "IUnit", fields := [handle, place], excluded := ["Dead"] }
    let other : Descriptor :=
      { entity with name := "UnitEntity", fields := [{ place with isByRef := true }, handle] }
    let component : Component :=
      ⟨"Vector<float, Axis>", .value, "component_0", "Place", false⟩
    let schema : Schema :=
      { namespaceName := "Game", declaredName := "IUnit", viewName := "UnitEntity"
        collectionName := "UnitEntities", backReference := "Self", components := [component]
        excluded := ["Dead"] }
    let otherSchema : Schema :=
      { schema with
        declaredName := "UnitEntity"
        components := [{ component with isByRef := true }] }
    let first : Manifest := { entities := [entity] }
    let second : Manifest := { settings := { header := false }, entities := [other] }
    first.IsAccepted ∧ second.IsAccepted
      ∧ first.settings.ecs = {}
      ∧ entity ∈ first.entities ∧ other ∈ second.entities
      ∧ entity.resolve {} = .ok schema ∧ other.resolve {} = .ok otherSchema
      ∧ ∃ unit otherUnit,
          ((Generator.ofOptions {}).generate schema).1 = .ok unit
            ∧ ((Generator.ofOptions {}).generate otherSchema).1 = .ok otherUnit
            ∧ unit.content = otherUnit.content := by
  intro place handle entity other component schema otherSchema first second
  have hfirst : first.IsAccepted := ⟨"", by decide +kernel⟩
  have hsecond : second.IsAccepted := ⟨"", by decide +kernel⟩
  have hentity : entity ∈ first.entities := by simp [first]
  have hother : other ∈ second.entities := by simp [second]
  have hresolve : entity.resolve {} = .ok schema := by decide +kernel
  have hresolveOther : other.resolve {} = .ok otherSchema := by decide +kernel
  have ⟨unit, otherUnit, hunit, hotherUnit, _, hcontent, _⟩ := generate_content_eq_iff_agrees {}
    first second hfirst hsecond rfl entity other hentity hother schema otherSchema hresolve
    hresolveOther
  exact ⟨hfirst, hsecond, rfl, hentity, hother, hresolve, hresolveOther, unit, otherUnit, hunit,
    hotherUnit, hcontent.mpr rfl⟩

end Manifest

end EntityViews
