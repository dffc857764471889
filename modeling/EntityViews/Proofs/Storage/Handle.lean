import EntityViews.Storage.Chunk
import EntityViews.Proofs.Storage.Rest

/-!
This module contains visits, in which a cursor is moved over chunks and components are read and
written through the views on the way. A write reaches the one cell that the handle of the current
view stands for, and neither the handles nor the walk depend on what was written.
-/

namespace EntityViews

variable {ε α ρ : Type}

structure Handle where
  chunk : Nat
  ref : ComponentRef
deriving DecidableEq, Repr

namespace Chunk

/--
What chunks are without the values of the components that are stored in place.
-/
def shapes (chunks : List (Chunk ε α ρ)) : List (List ε × List ρ × Nat) :=
  chunks.map fun chunk => (chunk.entities, chunk.objects, chunk.values.size)

theorem counts_eq_of_shapes_eq {chunks others : List (Chunk ε α ρ)}
    (h : shapes chunks = shapes others) : counts chunks = counts others := by
  have hmap := congrArg (List.map (·.1.length)) h
  unfold shapes at hmap
  rw [List.map_map] at hmap
  rw [List.map_map] at hmap
  exact hmap

end Chunk

namespace Handle

def at? (chunks : List (Chunk ε α ρ)) (place : Position) : Option Handle := do
  let chunk ← chunks[place.collection]?
  let ref ← chunk.values.ref? place.index
  return ⟨place.collection, ref⟩

def read? (chunks : List (Chunk ε α ρ)) (handle : Handle) : Option α := do
  let chunk ← chunks[handle.chunk]?
  chunk.values.read? handle.ref

def write (chunks : List (Chunk ε α ρ)) (handle : Handle) (value : α) : List (Chunk ε α ρ) :=
  chunks.modify handle.chunk fun chunk =>
    { chunk with values := chunk.values.write handle.ref value }

theorem at?_eq_some_iff {chunks : List (Chunk ε α ρ)} {place : Position} {handle : Handle} :
    at? chunks place = some handle
      ↔
    ∃ chunk, chunks[place.collection]? = some chunk
      ∧ place.index < chunk.values.size
      ∧ handle = ⟨place.collection, ⟨place.index⟩⟩ := by
  unfold at?
  cases chunks[place.collection]? with
  | none => simp
  | some chunk =>
    simp only [Option.bind_eq_bind, Option.bind_some, Option.bind_eq_some_iff, Option.some.injEq,
      Column.ref?_eq_some_iff, Option.pure_def]
    constructor
    . rintro ⟨ref, ⟨hlt, href⟩, hhandle⟩
      rw [href] at hhandle
      exact ⟨chunk, rfl, hlt, hhandle.symm⟩
    . rintro ⟨other, hother, hlt, hhandle⟩
      rw [← hother] at hlt
      exact ⟨_, ⟨hlt, rfl⟩, hhandle.symm⟩

theorem at?_eq_of_shapes_eq {chunks others : List (Chunk ε α ρ)}
    (h : Chunk.shapes chunks = Chunk.shapes others) (place : Position) :
    at? chunks place = at? others place := by
  have hget := congrArg (·[place.collection]?) h
  simp only [Chunk.shapes, List.getElem?_map] at hget
  unfold at?
  cases hchunk : chunks[place.collection]? with
  | none =>
    rw [hchunk] at hget
    rw [Option.map_eq_none_iff.mp hget.symm]
  | some chunk =>
    rw [hchunk] at hget
    have ⟨other, hother, heq⟩ := Option.map_eq_some_iff.mp hget.symm
    rw [hother]
    have hsize : other.values.size = chunk.values.size := congrArg (·.2.2) heq
    simp only [Option.bind_eq_bind, Option.bind_some, Column.ref?, hsize]

theorem isSome_read?_iff {chunks : List (Chunk ε α ρ)} {handle : Handle} :
    (handle.read? chunks).isSome
      ↔
    at? chunks ⟨handle.chunk, handle.ref.index⟩ = some handle := by
  rw [at?_eq_some_iff]
  unfold read?
  cases chunks[handle.chunk]? with
  | none => simp
  | some chunk => simp [Column.read?, Column.size]

@[simp]
theorem shapes_write (chunks : List (Chunk ε α ρ)) (handle : Handle) (value : α) :
    Chunk.shapes (handle.write chunks value) = Chunk.shapes chunks := by
  unfold Chunk.shapes write
  apply List.ext_getElem?
  intro index
  rw [List.getElem?_map]
  rw [List.getElem?_map]
  rw [List.getElem?_modify]
  rw [Option.map_eq_map]
  rw [Option.map_map]
  congr 1
  funext chunk
  rw [Function.comp_apply]
  split
  . rw [Column.size_write]
  . rfl

theorem read?_write (chunks : List (Chunk ε α ρ)) (handle other : Handle) (value : α) :
    other.read? (handle.write chunks value)
      =
    if handle = other then (handle.read? chunks).map fun _ => value else other.read? chunks := by
  rcases handle with ⟨index, ref⟩
  rcases other with ⟨otherIndex, otherRef⟩
  unfold read? write
  rw [List.getElem?_modify]
  simp only [mk.injEq]
  by_cases hindex : index = otherIndex
  . rw [← hindex]
    cases chunks[index]? with
    | none => simp
    | some chunk =>
      by_cases href : ref = otherRef
      . rw [← href]
        simp [Column.read?, Column.write, List.getElem?_set_self', Function.const_def]
      . simp [href, Column.read?_write_of_ne _ _ (Ne.symm href)]
  . simp [hindex]

end Handle

namespace Cursor

def handle? (chunks : List (Chunk ε α ρ)) (cursor : Cursor) : Option Handle := do
  let (_, view) ← cursor.currentView? chunks
  let ref ← view.value
  return ⟨cursor.collection, ref⟩

theorem of_current {counts : List Nat} {cursor : Cursor} {place : Position}
    (h : cursor.current counts = some place) :
    place.collection = cursor.collection
      ∧ ∃ count, counts[place.collection]? = some count ∧ place.index < count := by
  unfold current at h
  split at h
  . next index count _ hcount =>
    split at h
    . next hlt =>
      rw [← Option.some.inj h]
      exact ⟨rfl, count, hcount, hlt⟩
    . cases h
  . cases h

theorem currentView?_eq_some_of_current {chunks : List (Chunk ε α ρ)} {cursor : Cursor}
    {place : Position} (h : cursor.current (Chunk.counts chunks) = some place) :
    ∃ chunk view, cursor.currentView? chunks = some (chunk, view)
      ∧ chunks[place.collection]? = some chunk
      ∧ view.value = chunk.values.ref? place.index := by
  have ⟨_, count, hcount, hlt⟩ := of_current h
  unfold Chunk.counts at hcount
  rw [List.getElem?_map] at hcount
  have ⟨chunk, hchunk, hlength⟩ := Option.map_eq_some_iff.mp hcount
  rw [← hlength] at hlt
  unfold currentView? Chunk.view?
  simp [h, hchunk, hlt]

theorem handle?_of_currentView?_eq_some {chunks : List (Chunk ε α ρ)} {cursor : Cursor}
    {chunk : Chunk ε α ρ} {view : ChunkView ε ρ}
    (h : cursor.currentView? chunks = some (chunk, view)) :
    cursor.handle? chunks = view.value.map (Handle.mk cursor.collection) := by
  unfold handle?
  rw [h]
  rw [Option.map_eq_bind]
  rfl

theorem handle?_eq (chunks : List (Chunk ε α ρ)) (cursor : Cursor) :
    cursor.handle? chunks = (cursor.current (Chunk.counts chunks)).bind (Handle.at? chunks) := by
  cases hcurrent : cursor.current (Chunk.counts chunks) with
  | none => simp [handle?, currentView?, hcurrent]
  | some place =>
    have ⟨chunk, view, hview, hchunk, hvalue⟩ := currentView?_eq_some_of_current hcurrent
    rw [handle?_of_currentView?_eq_some hview]
    rw [Option.bind_some]
    unfold Handle.at?
    rw [hchunk]
    rw [hvalue]
    rw [(of_current hcurrent).1]
    rw [Option.map_eq_bind]
    rfl

theorem read?_eq (chunks : List (Chunk ε α ρ)) (cursor : Cursor) :
    cursor.read? chunks = (cursor.handle? chunks).bind (·.read? chunks) := by
  unfold read?
  cases hcurrent : cursor.current (Chunk.counts chunks) with
  | none => simp [handle?, currentView?, hcurrent]
  | some place =>
    have ⟨chunk, view, hview, hchunk, hvalue⟩ := currentView?_eq_some_of_current hcurrent
    rw [(of_current hcurrent).1] at hchunk
    rw [handle?_of_currentView?_eq_some hview]
    rw [hview]
    cases href : view.value with
    | none => simp [href]
    | some ref => simp [href, Handle.read?, hchunk]

theorem modify_eq (change : α → α) (chunks : List (Chunk ε α ρ)) (cursor : Cursor) :
    cursor.modify change chunks
      =
    match cursor.handle? chunks, cursor.read? chunks with
    | some handle, some value => handle.write chunks (change value)
    | _, _ => chunks := by
  unfold modify
  cases hcurrent : cursor.current (Chunk.counts chunks) with
  | none => simp [handle?, currentView?, hcurrent]
  | some place =>
    have ⟨chunk, view, hview, hchunk, hvalue⟩ := currentView?_eq_some_of_current hcurrent
    rw [(of_current hcurrent).1] at hchunk
    rw [handle?_of_currentView?_eq_some hview]
    rw [hview]
    rcases view with ⟨entity, _ | ref, object⟩
    . rfl
    . cases cursor.read? chunks with
      | none => rfl
      | some value =>
        have : Inhabited (Chunk ε α ρ) := ⟨chunk⟩
        dsimp only [Option.map_some, Handle.write]
        rw [List.modify_eq_set]
        rw [hchunk]
        rfl

theorem read?_modify (change : α → α) (chunks : List (Chunk ε α ρ)) (cursor : Cursor)
    (handle : Handle) :
    handle.read? (cursor.modify change chunks)
      =
    if cursor.handle? chunks = some handle then
      (handle.read? chunks).map change
    else
      handle.read? chunks := by
  rw [modify_eq]
  rw [read?_eq]
  cases cursor.handle? chunks with
  | none => simp
  | some current =>
    rw [Option.bind_some]
    by_cases heq : current = handle
    . rw [heq]
      rw [if_pos rfl]
      cases hvalue : handle.read? chunks with
      | none => exact hvalue
      | some value =>
        dsimp only
        rw [Handle.read?_write]
        rw [if_pos rfl]
        rw [hvalue]
        rfl
    . rw [if_neg (by simpa using heq)]
      cases current.read? chunks with
      | none => rfl
      | some value =>
        dsimp only
        rw [Handle.read?_write]
        rw [if_neg heq]

@[simp]
theorem shapes_modify (change : α → α) (chunks : List (Chunk ε α ρ)) (cursor : Cursor) :
    Chunk.shapes (cursor.modify change chunks) = Chunk.shapes chunks := by
  rw [modify_eq]
  split
  . rw [Handle.shapes_write]
  . rfl

end Cursor

inductive Use (α : Type) where
  | move (call : Cursor.Call)
  | read
  | write (change : α → α)

def Use.isWrite : Use α → Bool
  | .write _ => true
  | _ => false

structure Visit (ε α ρ : Type) where
  chunks : List (Chunk ε α ρ)
  cursor : Cursor := .start

namespace Visit

def current (visit : Visit ε α ρ) : Option Position :=
  visit.cursor.current (Chunk.counts visit.chunks)

def handle? (visit : Visit ε α ρ) : Option Handle :=
  visit.cursor.handle? visit.chunks

def read? (visit : Visit ε α ρ) : Option α :=
  visit.cursor.read? visit.chunks

def perform (visit : Visit ε α ρ) : Use α → Visit ε α ρ
  | .move call =>
    { visit with cursor := call.perform (Chunk.counts visit.chunks) visit.cursor }
  | .read => visit
  | .write change => { visit with chunks := visit.cursor.modify change visit.chunks }

def run (visit : Visit ε α ρ) (uses : List (Use α)) : Visit ε α ρ :=
  uses.foldl perform visit

def write? (visit : Visit ε α ρ) : Use α → Option (Handle × α)
  | .write change => do
    let handle ← visit.handle?
    let value ← visit.read?
    return (handle, change value)
  | _ => none

def writes (visit : Visit ε α ρ) : List (Use α) → List (Handle × α)
  | [] => []
  | use :: uses => (visit.write? use).toList ++ (visit.perform use).writes uses

def lastWritten (writes : List (Handle × α)) (handle : Handle) : Option α :=
  (writes.reverse.find? (·.1 = handle)).map (·.2)

def places (visit : Visit ε α ρ) : List (Use α) → List (Option Position)
  | [] => []
  | use :: uses =>
    match use with
    | .move _ => (visit.perform use).current :: (visit.perform use).places uses
    | _ => (visit.perform use).places uses

theorem shapes_perform (visit : Visit ε α ρ) (use : Use α) :
    Chunk.shapes (visit.perform use).chunks = Chunk.shapes visit.chunks := by
  cases use with
  | move call => rfl
  | read => rfl
  | write change => exact Cursor.shapes_modify change visit.chunks visit.cursor

theorem shapes_run (visit : Visit ε α ρ) (uses : List (Use α)) :
    Chunk.shapes (visit.run uses).chunks = Chunk.shapes visit.chunks := by
  induction uses generalizing visit with
  | nil => rfl
  | cons use uses ih =>
    unfold run at *
    rw [List.foldl_cons]
    rw [ih]
    exact shapes_perform visit use

theorem lastWritten_append (first second : List (Handle × α)) (handle : Handle) :
    lastWritten (first ++ second) handle
      =
    (lastWritten second handle).or (lastWritten first handle) := by
  unfold lastWritten
  rw [List.reverse_append]
  rw [List.find?_append]
  rw [Option.map_or]

-- a write through the current handle changes its value from the one that is read there
theorem read?_perform (visit : Visit ε α ρ) (use : Use α) (handle : Handle) :
    handle.read? (visit.perform use).chunks
      =
    (lastWritten (visit.write? use).toList handle).or (handle.read? visit.chunks) := by
  cases use with
  | move call => rfl
  | read => rfl
  | write change =>
    simp only [perform, write?, handle?, read?]
    rw [Cursor.read?_modify]
    rw [Cursor.read?_eq]
    cases visit.cursor.handle? visit.chunks with
    | none => rfl
    | some current =>
      by_cases heq : current = handle
      . rw [heq]
        rw [if_pos rfl]
        cases hvalue : handle.read? visit.chunks <;> simp [lastWritten, hvalue]
      . rw [if_neg (by simpa using heq)]
        cases hvalue : current.read? visit.chunks <;> simp [lastWritten, hvalue, heq]

theorem read?_run (visit : Visit ε α ρ) (uses : List (Use α)) (handle : Handle) :
    handle.read? (visit.run uses).chunks
      =
    (lastWritten (visit.writes uses) handle).or (handle.read? visit.chunks) := by
  induction uses generalizing visit with
  | nil => rfl
  | cons use uses ih =>
    unfold run at *
    rw [List.foldl_cons]
    rw [ih]
    rw [read?_perform]
    rw [writes]
    rw [lastWritten_append]
    rw [Option.or_assoc]

structure Agrees (visit other : Visit ε α ρ) : Prop where
  shapes : Chunk.shapes visit.chunks = Chunk.shapes other.chunks
  cursor : visit.cursor = other.cursor

theorem Agrees.current {visit other : Visit ε α ρ} (h : visit.Agrees other) :
    visit.current = other.current := by
  unfold Visit.current
  rw [Chunk.counts_eq_of_shapes_eq h.shapes]
  rw [h.cursor]

theorem Agrees.move {visit other : Visit ε α ρ} (h : visit.Agrees other)
    (call : Cursor.Call) : (visit.perform (.move call)).Agrees (other.perform (.move call)) := by
  refine ⟨h.shapes, ?_⟩
  simp only [perform]
  rw [Chunk.counts_eq_of_shapes_eq h.shapes]
  rw [h.cursor]

theorem Agrees.write {visit other : Visit ε α ρ} (h : visit.Agrees other)
    (change : α → α) : (visit.perform (.write change)).Agrees other :=
  ⟨(shapes_perform visit _).trans h.shapes, h.cursor⟩

theorem Agrees.places_filter {visit other : Visit ε α ρ} (h : visit.Agrees other)
    (uses : List (Use α)) :
    visit.places uses = other.places (uses.filter (!·.isWrite))
      ∧ (visit.run uses).cursor = (other.run (uses.filter (!·.isWrite))).cursor := by
  induction uses generalizing visit other with
  | nil => exact ⟨rfl, h.cursor⟩
  | cons use uses ih =>
    cases use with
    | move call =>
      have ⟨hplaces, hcursor⟩ := ih (h.move call)
      rw [List.filter_cons_of_pos rfl]
      refine ⟨?_, hcursor⟩
      simp only [places]
      rw [hplaces]
      rw [(h.move call).current]
    | read =>
      rw [List.filter_cons_of_pos rfl]
      exact ih h
    | write change =>
      rw [List.filter_cons_of_neg Bool.false_ne_true]
      exact ih (h.write change)

structure WritesThrough (chunks : List (Chunk ε α ρ)) (uses : List (Use α))
    (visit : Visit ε α ρ) : Prop where
  next_write : ∀ change handle,
    handle.read? (visit.perform (.write change)).chunks
      =
    if visit.handle? = some handle then
      (handle.read? visit.chunks).map change
    else
      handle.read? visit.chunks
  last_written : ∀ handle,
    handle.read? visit.chunks
      =
    (lastWritten (writes { chunks } uses) handle).or (handle.read? chunks)
  current_handle : visit.handle? = visit.current.bind (Handle.at? chunks)
  current_value : visit.read? = visit.handle?.bind (·.read? visit.chunks)
  same_handles : ∀ place, Handle.at? visit.chunks place = Handle.at? chunks place
  handle_iff : ∀ place handle,
    Handle.at? chunks place = some handle
      ↔
    ∃ chunk, chunks[place.collection]? = some chunk
      ∧ place.index < chunk.values.size
      ∧ handle = ⟨place.collection, ⟨place.index⟩⟩
  readable_iff : ∀ handle,
    (handle.read? visit.chunks).isSome
      ↔
    Handle.at? chunks ⟨handle.chunk, handle.ref.index⟩ = some handle
  same_shapes : Chunk.shapes visit.chunks = Chunk.shapes chunks
  same_places : places { chunks } uses = places { chunks } (uses.filter (!·.isWrite))
  same_cursor : visit.cursor = (run { chunks } (uses.filter (!·.isWrite))).cursor

theorem run_writes_through (chunks : List (Chunk ε α ρ)) (uses : List (Use α)) :
    WritesThrough chunks uses (run { chunks } uses) := by
  have hshapes := shapes_run { chunks } uses
  have hat := Handle.at?_eq_of_shapes_eq hshapes
  have hagrees : Agrees { chunks } { chunks } := ⟨rfl, rfl⟩
  have ⟨hplaces, hcursor⟩ := hagrees.places_filter uses
  constructor
  case next_write =>
    intro change handle
    exact Cursor.read?_modify change _ _ handle
  case last_written =>
    intro handle
    exact read?_run _ uses handle
  case current_handle =>
    rw [← funext hat]
    exact Cursor.handle?_eq _ _
  case current_value => exact Cursor.read?_eq _ _
  case same_handles => exact hat
  case handle_iff =>
    intro place handle
    exact Handle.at?_eq_some_iff
  case readable_iff =>
    intro handle
    rw [Handle.isSome_read?_iff]
    rw [hat]
  case same_shapes => exact hshapes
  case same_places => exact hplaces
  case same_cursor => exact hcursor

end Visit

end EntityViews
