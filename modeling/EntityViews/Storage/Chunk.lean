import EntityViews.Storage.Column
import EntityViews.Storage.Cursor

/-!
This module contains stored collections with a component of either kind, and the views that a cursor
gives of their entities.
-/

namespace EntityViews

/--
A stored collection of entities with a component of type `α` that is stored in place and a component
of type `ρ` that is stored as a reference. A list that is shorter than the list of entities lacks
the components of the last ones.
-/
structure Chunk (ε α ρ : Type) where
  entities : List ε := []
  values : Column α := {}
  objects : List ρ := []

structure ChunkView (ε ρ : Type) where
  entity : ε
  value : Option ComponentRef
  object : Option ρ

namespace Chunk

variable {ε α ρ : Type}

def view? (chunk : Chunk ε α ρ) (index : Nat) : Option (ChunkView ε ρ) :=
  chunk.entities[index]?.map fun entity => {
    entity
    value := chunk.values.ref? index
    object := chunk.objects[index]?
  }

def counts (chunks : List (Chunk ε α ρ)) : List Nat :=
  chunks.map (·.entities.length)

end Chunk

namespace Cursor

variable {ε α ρ : Type}

def currentView? (chunks : List (Chunk ε α ρ)) (cursor : Cursor) :
    Option (Chunk ε α ρ × ChunkView ε ρ) := do
  let position ← cursor.current (Chunk.counts chunks)
  let chunk ← chunks[position.collection]?
  let view ← chunk.view? position.index
  return (chunk, view)

def read? (chunks : List (Chunk ε α ρ)) (cursor : Cursor) : Option α := do
  let (chunk, view) ← cursor.currentView? chunks
  let ref ← view.value
  chunk.values.read? ref

def modify (change : α → α) (chunks : List (Chunk ε α ρ)) (cursor : Cursor) :
    List (Chunk ε α ρ) :=
  match cursor.currentView? chunks, cursor.read? chunks with
  | some (chunk, { value := some ref, .. }), some value =>
    chunks.set cursor.collection { chunk with values := chunk.values.write ref (change value) }
  | _, _ => chunks

end Cursor

end EntityViews
