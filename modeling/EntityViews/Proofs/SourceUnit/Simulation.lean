import EntityViews.Proofs.SourceUnit.Advance
import EntityViews.Proofs.SourceUnit.Wiring

/-!
This module contains the simulation of cursors by generated enumerators. After any calls an enumerator is
at the place of the cursor that did the same, and if it advanced to an entity its accessors are those of
the stored collection that the entity is in.
-/

namespace EntityViews

open Enumerator Statement

variable {Stored : Type}

namespace Schema

def enumeratorCode (schema : Schema) : Code where
  fields := schema.enumeratorFields
  procedures :=
    [⟨.constructor, "Enumerator", [⟨schema.collectionName, "entities"⟩], start⟩,
      ⟨.method, "MoveNext", [], moveNext schema.components⟩,
      ⟨.method, "Reset", [], reset⟩,
      ⟨.method, "Dispose", [], dispose⟩]

def enumeratorOutlines (schema : Schema) : List (String × List (Nat × String)) :=
  [("Enumerator",
      [(0, "collections = entities.PrepareCollections();"), (0, "collectionIndex = 0;"),
        (0, "indexInCollection = -1;")]),
    ("MoveNext",
      [(0, "while (collectionIndex < collections.Count)"),
          (1, "IEntityCollection activeCollection = collections[collectionIndex];"),
          (1, "if (++indexInCollection < activeCollection.Count)")]
        ++ schema.components.map (fun component => (2, component.binding))
        ++ (2, "return true;")
          :: [(1, "indexInCollection = -1;"), (1, "++collectionIndex;"), (0, "return false;")]),
    ("Reset", [(0, "collectionIndex = 0;"), (0, "indexInCollection = -1;")]),
    ("Dispose", [(0, "Reset();")])]

theorem outlines_enumerator (ecs : Ecs) (schema : Schema) :
    (schema.enumerator ecs).routines.map (fun routine => (routine.name, Node.outlines 0 routine.body))
      =
    schema.enumeratorOutlines := by
  have hstart : Node.outlines 0 (Statement.nodes start)
      = [(0, "collections = entities.PrepareCollections();"), (0, "collectionIndex = 0;"),
          (0, "indexInCollection = -1;")] := by
    decide +kernel
  have hreset : Node.outlines 0 (Statement.nodes reset)
      = [(0, "collectionIndex = 0;"), (0, "indexInCollection = -1;")] := by
    decide +kernel
  have hdispose : Node.outlines 0 (Statement.nodes dispose) = [(0, "Reset();")] := by
    decide +kernel
  rw [routines_enumerator]
  simp only [List.map_cons, List.map_nil, hstart, hreset, hdispose, outlines_moveNext]
  rfl

theorem isCodeOf_enumeratorCode (ecs : Ecs) (schema : Schema) :
    schema.enumeratorCode.IsCodeOf (schema.enumerator ecs) := by
  exact ⟨schema.fields_enumerator ecs, schema.routines_enumerator ecs⟩

end Schema

namespace Enumerator

variable {schema : Schema} {prepared : Prepared Stored} {object : Object Stored} {cursor : Cursor}

theorem blank_of_fixed (hnames : schema.HasAccessorNames) {name : String}
    (hname : name ∈ [collections, collectionIndex, indexInCollection]) :
    (schema.enumeratorCode.blank : Object Stored) name
      =
    some (if name = collections then .unset else .int 0) := by
  have hreserved : name ∈ [collections, collectionIndex, indexInCollection, activeCollection] :=
    List.mem_append_left [activeCollection] hname
  have hnotMem := hnames.notMem hreserved
  have hnone : (schema.components.map fun component =>
      (⟨s!"ComponentAccessor<{component.type}>", component.fieldName⟩ : Variable)).find?
        (·.name = name) = none := by
    rw [List.find?_eq_none]
    simpa using hnotMem
  unfold Code.blank Schema.enumeratorCode Schema.enumeratorFields
  rw [List.find?_append, hnone]
  simp only [List.mem_cons, List.not_mem_nil, or_false] at hname
  rcases hname with rfl | rfl | rfl <;> rfl

theorem isSome_blank {component : Component} (h : component ∈ schema.components) :
    ((schema.enumeratorCode.blank : Object Stored) component.fieldName).isSome := by
  have hfield : (⟨s!"ComponentAccessor<{component.type}>", component.fieldName⟩ : Variable)
      ∈ schema.enumeratorFields :=
    List.mem_append_left _ (List.mem_map_of_mem h)
  unfold Code.blank Schema.enumeratorCode
  rw [Option.isSome_map, List.find?_isSome]
  exact ⟨_, hfield, decide_eq_true rfl⟩

theorem constructs_enumeratorCode (hnames : schema.HasAccessorNames) (prepared : Prepared Stored) :
    ∃ object, schema.enumeratorCode.Constructs prepared object
      ∧ object.Tracks prepared schema.components Cursor.start := by
  let blank : Object Stored := schema.enumeratorCode.blank
  have htracks : Object.Tracks prepared schema.components
      (Function.update blank collections (some (.list prepared.collections))) ⟨0, 0⟩ := by
    constructor
    . exact Function.update_self _ _ _
    . rw [Function.update_of_ne (by decide)]
      exact blank_of_fixed hnames (by simp)
    . rw [Function.update_of_ne (by decide)]
      exact blank_of_fixed hnames (by simp)
    . intro component hmem
      exact Object.isSome_update (isSome_blank hmem) _ _
  -- the parameter of the constructor hides none of the fields that are set
  have hlocals : ∀ name ∈ [collections, collectionIndex, indexInCollection],
      name ∉ [(entities, (.entities : Term.Value Stored))].map (·.1) := by
    change ∀ name ∈ [collections, collectionIndex, indexInCollection], name ∉ [entities]
    decide
  have hblank : blank collections = some .unset := blank_of_fixed hnames (by simp)
  have hassign := Frame.assign_of_notMem (hlocals collections (by simp))
    (Option.isSome_of_eq_some hblank) (.list prepared.collections)
  have ⟨object, hrestart, hstart⟩ := @executes_restart _ _ _ _ _ schema.enumeratorCode.method?
    _ ⟨hlocals collectionIndex (by simp), hlocals indexInCollection (by simp)⟩ htracks
  exact ⟨object, ⟨_, _, _, _, rfl, rfl, .assign rfl hassign hrestart⟩, hstart⟩

inductive Call where
  | moveNext
  | reset
  | dispose
deriving DecidableEq, Repr

namespace Call

def method : Call → String
  | .moveNext => "MoveNext"
  | .reset => "Reset"
  | .dispose => "Dispose"

def operation : Call → Cursor.Operation
  | .moveNext => .moveNext
  | .reset => .reset
  | .dispose => .dispose

def answer (counts : List Nat) (cursor : Cursor) : Call → Option Bool
  | .moveNext => some (cursor.moveNext counts).1
  | .reset => none
  | .dispose => none

end Call

theorem invokes_enumeratorCode (hnames : schema.HasAccessorNames)
    (h : object.Tracks prepared schema.components cursor)
    (hbounds : cursor.InBounds prepared.counts) (call : Call) :
    ∃ after, schema.enumeratorCode.Invokes prepared call.method object
          ((call.answer prepared.counts cursor).map .bool) after
      ∧ after.Tracks prepared schema.components (call.operation.perform prepared.counts cursor)
      ∧ (call.answer prepared.counts cursor = some true →
          after.IsBoundAt prepared schema.components
            (call.operation.perform prepared.counts cursor)) := by
  have ⟨restarted, hrestart, hstart⟩ := @executes_restart _ _ _ _ _ schema.enumeratorCode.method?
    [] ⟨List.not_mem_nil, List.not_mem_nil⟩ h
  cases call with
  | moveNext =>
    have ⟨after, hmoveNext, htracks, hbound⟩ := @executes_moveNext _ _ _ _
      schema.enumeratorCode.method? _ hnames h hbounds
    exact ⟨after, ⟨_, _, rfl, hmoveNext⟩, htracks, fun hanswer => hbound (Option.some.inj hanswer)⟩
  | reset =>
    exact ⟨restarted, ⟨_, _, rfl, hrestart⟩, hstart, fun hanswer => by cases hanswer⟩
  | dispose =>
    have hdispose : Executes prepared schema.enumeratorCode.method? dispose ⟨object, []⟩ none
        ⟨restarted, []⟩ :=
      .call rfl hrestart .nil
    exact ⟨restarted, ⟨_, _, rfl, hdispose⟩, hstart, fun hanswer => by cases hanswer⟩

theorem invokesAll_enumeratorCode (hnames : schema.HasAccessorNames)
    (h : object.Tracks prepared schema.components Cursor.start) (calls : List Call) :
    ∃ after, schema.enumeratorCode.InvokesAll prepared (calls.map Call.method) object after
      ∧ after.Tracks prepared schema.components
          (Cursor.afterOperations prepared.counts (calls.map Call.operation)) := by
  induction calls using List.reverseRecOn with
  | nil => exact ⟨object, .nil, h⟩
  | append_singleton calls call ih =>
    have ⟨between, hcalls, htracks⟩ := ih
    have ⟨after, hinvoke, hafter, _⟩ := invokes_enumeratorCode hnames htracks
      (Cursor.inBounds_afterOperations _ _) call
    rw [Cursor.perform_afterOperations] at hafter
    rw [List.map_append, List.map_append]
    exact ⟨after, hcalls.concat hinvoke, hafter⟩

end Enumerator

namespace Object

def IsAt (object : Object Stored) (cursor : Cursor) : Prop :=
  ∃ collection index : Int32,
    object collectionIndex = some (.int collection) ∧ collection.toInt = cursor.collection
      ∧ object indexInCollection = some (.int index) ∧ index.toInt = cursor.index

theorem Tracks.isAt {prepared : Prepared Stored} {components : List Component}
    {object : Object Stored} {cursor : Cursor} (h : object.Tracks prepared components cursor)
    (hbounds : cursor.InBounds prepared.counts) : object.IsAt cursor := by
  have hlength := prepared.length_lt
  have hle := hbounds.collection_le
  have hge := hbounds.index_ge
  rw [Prepared.counts, List.length_map] at hle
  have hcount : prepared.counts.getD cursor.collection 0 < 2 ^ 31 := by
    unfold Prepared.counts
    rw [List.getD_eq_getElem?_getD, List.getElem?_map]
    cases hstored : prepared.collections[cursor.collection]? with
    | none => exact Nat.two_pow_pos 31
    | some stored => exact prepared.count_lt stored (List.mem_of_getElem? hstored)
  have hindex := hbounds.index_lt
  refine ⟨_, _, h.collectionIndex, ?_, h.indexInCollection, ?_⟩
  . exact Int32.toInt_ofInt_of_le (by omega) (by omega)
  . exact Int32.toInt_ofInt_of_le (by omega) (by omega)

end Object

namespace Schema

variable {schema : Schema}

theorem enumerator_simulates_cursor (ecs : Ecs) (hnames : schema.HasAccessorNames)
    (prepared : Prepared Stored) (calls : List Call) :
    let code := schema.enumeratorCode
    let cursor := Cursor.afterOperations prepared.counts (calls.map Call.operation)
    code.IsCodeOf (schema.enumerator ecs)
      ∧ (schema.enumerator ecs).routines.map
            (fun routine => (routine.name, Node.outlines 0 routine.body))
          = schema.enumeratorOutlines
      ∧ ∃ object,
          (∀ other, code.Reaches prepared (calls.map Call.method) other ↔ other = object)
            ∧ object.IsAt cursor
            ∧ ∀ call : Call,
                let next := call.operation.perform prepared.counts cursor
                let answer := call.answer prepared.counts cursor
                ∃ after,
                  (∀ returned other, code.Invokes prepared call.method object returned other
                      ↔ returned = answer.map .bool ∧ other = after)
                    ∧ after.IsAt next
                    ∧ (answer = some true → after.IsBoundAt prepared schema.components next) := by
  intro code cursor
  have hcursor : cursor.InBounds prepared.counts := Cursor.inBounds_afterOperations _ _
  have ⟨first, hconstructs, hfirst⟩ := constructs_enumeratorCode hnames prepared
  have ⟨object, hcalls, hobject⟩ := invokesAll_enumeratorCode hnames hfirst calls
  have hreaches : code.Reaches prepared (calls.map Call.method) object := ⟨first, hconstructs, hcalls⟩
  refine ⟨schema.isCodeOf_enumeratorCode ecs, schema.outlines_enumerator ecs, object, ?_,
    hobject.isAt hcursor, ?_⟩
  . intro other
    constructor
    . exact hreaches.unique
    . rintro rfl
      exact hreaches
  . intro call
    have ⟨after, hinvoke, hafter, hbound⟩ := invokes_enumeratorCode hnames hobject hcursor call
    have hnext := Cursor.inBounds_afterOperations prepared.counts
      (calls.map Call.operation ++ [call.operation])
    rw [← Cursor.perform_afterOperations] at hnext
    refine ⟨after, ?_, hafter.isAt hnext, hbound⟩
    intro returned other
    constructor
    . exact hinvoke.unique
    . rintro ⟨rfl, rfl⟩
      exact hinvoke

theorem enumerator_simulates_cursor_behind_empty_collection :
    let descriptor : Descriptor :=
      { name := "IPlayer"
        fields := [⟨"Position", "Game.Position", true, true⟩, ⟨"Name", "Game.Name", false, false⟩] }
    let schema : Schema :=
      { declaredName := "IPlayer"
        viewName := "PlayerEntity"
        collectionName := "PlayerEntities"
        components :=
          [⟨"Game.Position", .value, "component_0", "Position", true⟩,
            ⟨"Game.Name", .reference, "component_1", "Name", false⟩] }
    let prepared : Prepared (String × Nat) :=
      { collections := [("a", 2), ("b", 0), ("c", 1)]
        count := Prod.snd
        length_lt := by decide
        count_lt := by decide }
    descriptor.resolve {} = .ok schema
      ∧ schema.HasAccessorNames
      ∧ ∃ object after : Object (String × Nat),
          schema.enumeratorCode.Reaches prepared ["MoveNext", "MoveNext"] object
            ∧ schema.enumeratorCode.Invokes prepared "MoveNext" object (some (.bool true)) after
            ∧ after.IsAt ⟨2, 0⟩
            ∧ after "component_1" = some (.components ("c", 1) "Game.Name") := by
  intro descriptor schema prepared
  have hresolve : descriptor.resolve {} = .ok schema := by decide +kernel
  have hnames := Descriptor.hasAccessorNames_of_resolve hresolve
  have ⟨_, _, object, hobject, _, hnext⟩ :=
    enumerator_simulates_cursor {} hnames prepared [.moveNext, .moveNext]
  have ⟨after, hafter, hat, hbound⟩ := hnext .moveNext
  have ⟨stored, hstored, haccessors⟩ := hbound rfl
  have hlast : stored = ("c", 1) := (Option.some.inj hstored).symm
  rw [hlast] at haccessors
  exact ⟨hresolve, hnames, object, after, (hobject object).mpr rfl, (hafter _ _).mpr ⟨rfl, rfl⟩, hat,
    haccessors ⟨"Game.Name", .reference, "component_1", "Name", false⟩ (by decide)⟩

end Schema

end EntityViews
