/-!
This module contains the values of TOML documents and the tables that they are collected in. A table
remembers how it came about, because that decides how the rest of the document may extend it.
-/

namespace EntityViews

namespace Toml

inductive Origin where
  | header
  -- only on the way to a table with a header
  | superTable
  -- only on the way to a dotted key
  | dottedKey
  -- in braces, which complete it
  | inline
deriving DecidableEq, Repr

inductive Value where
  | string (text : String)
  -- text that is taken for an integer may have no value
  | integer (value : Option Int)
  | boolean (value : Bool)
  | float (text : String)
  | dateTime (text : String)
  | array (ofTables : Bool) (elements : List Value)
  | table (origin : Origin) (entries : List (String × Value))
deriving Repr, Inhabited

structure Table where
  origin : Origin := .header
  entries : List (String × Value) := []
deriving Repr, Inhabited

structure KeyPath where
  parents : List String := []
  key : String
deriving DecidableEq, Repr

def KeyPath.toList (path : KeyPath) : List String :=
  path.parents ++ [path.key]

namespace Value

def ofTable (table : Table) : Value :=
  .table table.origin table.entries

/--
Change a table from further on in the document. An array of tables is changed at its last table.
Tables in braces can not be changed, and dotted keys do not reach into tables with headers.
-/
def extend (dotted : Bool) (change : Table → Option Table) : Value → Option Value
  | .table origin entries =>
    if origin = .inline || (dotted && origin = .header) then
      none
    else
      (change { origin, entries }).map ofTable
  | .array true elements =>
    match elements.getLast? with
    | some (.table origin entries) =>
      (change { origin, entries }).map fun table =>
        .array true (elements.dropLast ++ [ofTable table])
    | _ => none
  | _ => none

end Value

namespace Table

def get? (table : Table) (key : String) : Option Value :=
  table.entries.lookup key

def put (table : Table) (key : String) (value : Value) : Table :=
  { table with entries := go table.entries }
where
  go : List (String × Value) → List (String × Value)
    | [] => [(key, value)]
    | (k, v) :: entries => if k = key then (key, value) :: entries else (k, v) :: go entries

theorem get?_put (table : Table) (key : String) (value : Value) :
    (table.put key value).get? key = some value := by
  simp only [get?, put]
  generalize table.entries = entries
  induction entries with
  | nil => simp [put.go]
  | cons entry entries ih =>
    rcases entry with ⟨k, v⟩
    by_cases hk : k = key
    . simp [put.go, hk]
    . have hbeq : (key == k) = false := by simp [Ne.symm hk]
      simp [put.go, hk, List.lookup_cons, hbeq, ih]

theorem get?_put_of_ne (table : Table) {key other : String} (value : Value) (h : other ≠ key) :
    (table.put key value).get? other = table.get? other := by
  simp only [get?, put]
  generalize table.entries = entries
  induction entries with
  | nil => simp [put.go, List.lookup_cons, beq_eq_false_iff_ne.mpr h]
  | cons entry entries ih =>
    rcases entry with ⟨k, v⟩
    by_cases hk : k = key
    . subst hk
      simp [put.go, List.lookup_cons, beq_eq_false_iff_ne.mpr h]
    . simp [put.go, hk, List.lookup_cons, ih]

def alter (dotted : Bool) (change : Table → Option Table) :
    List String → Table → Option Table
  | [], table => change table
  | key :: path, table => do
    let value ←
      match table.get? key with
      | some value => value.extend dotted (alter dotted change path)
      | none =>
        let missing : Table := { origin := if dotted then .dottedKey else .superTable }
        (alter dotted change path missing).map .ofTable
    return table.put key value

def add (table : Table) (key : String) (value : Value) : Option Table :=
  match table.get? key with
  | some _ => none
  | none => some (table.put key value)

/--
Add the value of a key, which may be dotted. Tables that came about by dotted keys are only extended
by dotted keys, and those only add to tables of this kind.
-/
def insert (table : Table) (path : KeyPath) (value : Value) : Option Table :=
  alter true (fun parent =>
    if parent.origin = .dottedKey ↔ path.parents.isEmpty then none
    else parent.add path.key value) path.parents table

/--
Add the table of a header. It must be new, unless there are only headers of tables within it so far.
-/
def openTable (table : Table) (key : String) : Option Table :=
  match table.get? key with
  | none => some (table.put key (.table .header []))
  | some (.table .superTable entries) => some (table.put key (.table .header entries))
  | some _ => none

def pushTable (table : Table) (key : String) : Option Table :=
  match table.get? key with
  | none => some (table.put key (.array true [.table .header []]))
  | some (.array true elements) =>
    some (table.put key (.array true (elements ++ [.table .header []])))
  | some _ => none

end Table

end Toml

end EntityViews
