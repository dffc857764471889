/-!
This module contains columns, which store one component of all entities of a stored collection.
-/

namespace EntityViews

structure Column (α : Type) where
  cells : List α := []
deriving DecidableEq, Repr

structure ComponentRef where
  index : Nat
deriving DecidableEq, Repr

namespace Column

variable {α : Type}

def size (column : Column α) : Nat :=
  column.cells.length

def isEmpty (column : Column α) : Bool :=
  column.cells.isEmpty

def ref? (column : Column α) (index : Nat) : Option ComponentRef :=
  if index < column.size then some ⟨index⟩ else none

def read? (column : Column α) (ref : ComponentRef) : Option α :=
  column.cells[ref.index]?

def write (column : Column α) (ref : ComponentRef) (value : α) : Column α :=
  ⟨column.cells.set ref.index value⟩

@[simp]
theorem size_write (column : Column α) (ref : ComponentRef) (value : α) :
    (column.write ref value).size = column.size := by
  simp [write, size]

theorem read?_write (column : Column α) (ref : ComponentRef) (value : α)
    (h : ref.index < column.size) : (column.write ref value).read? ref = some value := by
  simp only [write, read?, size] at *
  simp [h]

theorem read?_write_of_ne (column : Column α) {ref other : ComponentRef} (value : α)
    (h : other ≠ ref) : (column.write ref value).read? other = column.read? other := by
  have hindex : ref.index ≠ other.index := by
    intro hindex
    exact h (by cases ref; cases other; simp_all)
  simp [write, read?, List.getElem?_set_ne hindex]

theorem ref?_eq_some_iff {column : Column α} {index : Nat} {ref : ComponentRef} :
    column.ref? index = some ref ↔ index < column.size ∧ ref = ⟨index⟩ := by
  unfold ref?
  split
  . simp_all [eq_comm]
  . simp_all [Nat.not_lt.mpr]

end Column

end EntityViews
