import Mathlib.Data.List.Nodup
import EntityViews.Proofs.Decl.Declared
import EntityViews.Proofs.Entity.Name
import EntityViews.Proofs.Entity.Resolve
import EntityViews.Proofs.SourceUnit.Isolation

/-!
This module contains the types that generation runs declare. Units with different file names never
declare the same type, so it is enough that a run compares file names.
-/

namespace EntityViews

namespace Schema

def typeNames (ecs : Ecs) (schema : Schema) : List (String × String) :=
  ([schema.view ecs, schema.collection ecs].filterMap Node.typeName?).map fun name =>
    (schema.namespaceName, name)

theorem typeNames_eq (ecs : Ecs) (schema : Schema) :
    schema.typeNames ecs
      =
    [(schema.namespaceName, schema.viewName), (schema.namespaceName, schema.collectionName)] := by
  simp [typeNames, view, collection, Node.typeName?]

structure IsDerived (schema : Schema) : Prop where
  viewName : schema.viewName = EntityName.view schema.declaredName
  collectionName : schema.collectionName = EntityName.collection schema.declaredName

variable {ecs : Ecs} {schema other : Schema}

theorem IsDerived.nodup_typeNames (h : schema.IsDerived) : (schema.typeNames ecs).Nodup := by
  rw [typeNames_eq, h.viewName, h.collectionName]
  simp [EntityName.view_ne_collection]

theorem IsDerived.fileName_eq_of_mem_typeNames (h : schema.IsDerived) (hother : other.IsDerived)
    {type : String × String} (hmem : type ∈ schema.typeNames ecs)
    (hmemOther : type ∈ other.typeNames ecs) : schema.fileName = other.fileName := by
  rw [typeNames_eq, h.viewName, h.collectionName] at hmem
  rw [typeNames_eq, hother.viewName, hother.collectionName] at hmemOther
  simp only [List.mem_cons, List.not_mem_nil, or_false] at hmem hmemOther
  unfold fileName
  rw [h.viewName, hother.viewName]
  rcases hmem with rfl | rfl
  . rcases hmemOther with heq | heq
    . rw [Prod.mk.injEq] at heq
      rw [heq.1, heq.2]
    . rw [Prod.mk.injEq] at heq
      exact absurd heq.2 (EntityName.view_ne_collection _ _)
  . rcases hmemOther with heq | heq
    . rw [Prod.mk.injEq] at heq
      exact absurd heq.2.symm (EntityName.view_ne_collection _ _)
    . rw [Prod.mk.injEq, EntityName.collection_eq_collection_iff] at heq
      rw [heq.1, EntityName.view_eq_view_iff.mpr heq.2]

end Schema

theorem Descriptor.isDerived_of_resolve {descriptor : Descriptor} {ecs : Ecs} {schema : Schema}
    (h : descriptor.resolve ecs = .ok schema) : schema.IsDerived := by
  have ⟨_, _, heq⟩ := exists_of_resolve_eq_ok h
  rw [← heq]
  exact ⟨rfl, rfl⟩

theorem Generator.fileName_of_generate {generator : Generator} {schema : Schema} {unit : SourceUnit}
    (h : (generator.generate schema).1 = .ok unit) : unit.fileName = schema.fileName := by
  unfold generate at h
  dsimp only at h
  split at h
  . cases h
  . cases h
    rfl

theorem Generator.entity_of_generate {generator : Generator} {schema : Schema} {unit : SourceUnit}
    (h : (generator.generate schema).1 = .ok unit) : unit.entity = schema.qualifiedName := by
  unfold generate at h
  dsimp only at h
  split at h
  . cases h
  . cases h
    rfl

namespace Descriptor

open Verdict

theorem nodup_typeNames (options : Options) (descriptors : List Descriptor) :
    ((keptOf (settleAll options [] descriptors)).flatMap
      fun made => made.schema.typeNames options.ecs).Nodup := by
  have hnames := @nodup_settleAll options [] List.nodup_nil descriptors
  rw [List.nil_append, List.Nodup, List.pairwise_map] at hnames
  have hmade (made : Kept) (h : made ∈ keptOf (settleAll options [] descriptors)) :
      made.schema.IsDerived ∧ made.unit.fileName = made.schema.fileName := by
    have ⟨_, hresolve, hgenerate⟩ := made_of_mem_keptOf_settleAll h
    exact ⟨isDerived_of_resolve hresolve, Generator.fileName_of_generate hgenerate⟩
  rw [List.nodup_flatMap]
  refine ⟨fun made h => (hmade made h).1.nodup_typeNames, ?_⟩
  apply hnames.imp_of_mem
  intro first second hfirst hsecond hne type htype hother
  have ⟨hderived, hfileName⟩ := hmade first hfirst
  have ⟨hderivedSecond, hfileNameSecond⟩ := hmade second hsecond
  apply hne
  rw [hfileName, hfileNameSecond]
  exact hderived.fileName_eq_of_mem_typeNames hderivedSecond htype hother

end Descriptor

namespace Options

open Descriptor Verdict

theorem report_typeNames_nodup (options : Options) (descriptors : List Descriptor) :
    let kept := keptOf (settleAll options [] descriptors)
    (options.report descriptors).units = kept.map (·.unit)
      ∧ (∀ made ∈ kept,
          made.descriptor ∈ descriptors
            ∧ made.descriptor.resolve options.ecs = .ok made.schema
            ∧ ((Generator.ofOptions options).generate made.schema).1 = .ok made.unit
            ∧ made.schema.typeNames options.ecs
                = [(made.schema.namespaceName, made.schema.viewName),
                    (made.schema.namespaceName, made.schema.collectionName)])
      ∧ (kept.flatMap fun made => made.schema.typeNames options.ecs).Nodup := by
  intro kept
  refine ⟨options.report_units descriptors, ?_, nodup_typeNames options descriptors⟩
  intro made h
  have ⟨hmem, hresolve, hgenerate⟩ := made_of_mem_keptOf_settleAll h
  exact ⟨hmem, hresolve, hgenerate, made.schema.typeNames_eq options.ecs⟩

end Options

end EntityViews
