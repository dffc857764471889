import EntityViews.Files.Access
import EntityViews.Files.Location

/-!
This module contains trees of files, which are what commands run on when they are not run on the
files of a machine.
-/

namespace EntityViews

inductive Entry where
  | directory
  | text (content : String)
  | binary (content : List UInt8)
deriving DecidableEq

structure FileTree where
  entries : List (Location × Entry) := []

namespace FileTree

def get? (tree : FileTree) (location : Location) : Option Entry :=
  match location.names with
  | [] => some .directory
  | _ => tree.entries.lookup location

def put (tree : FileTree) (location : Location) (entry : Entry) : FileTree :=
  { entries := (location, entry) :: tree.entries.filter (·.1 != location) }

theorem get?_eq_lookup (tree : FileTree) {location : Location} (hnames : location.names ≠ []) :
    tree.get? location = tree.entries.lookup location := by
  rcases location with ⟨anchor, names⟩
  cases names with
  | nil => contradiction
  | cons => rfl

theorem lookup_filter_ne (entries : List (Location × Entry)) {location other : Location}
    (h : other ≠ location) :
    (entries.filter (·.1 != location)).lookup other = entries.lookup other := by
  induction entries with
  | nil => rfl
  | cons head tail ih =>
    rcases head with ⟨first, entry⟩
    by_cases hfirst : first = location
    . subst hfirst
      simp [List.lookup_cons, beq_eq_false_iff_ne.mpr h, ih]
    . by_cases hother : other = first
      . simp [hfirst, hother]
      . simp [List.lookup_cons, hfirst, beq_eq_false_iff_ne.mpr hother, ih]

@[simp]
theorem get?_put (tree : FileTree) {location : Location} (entry : Entry)
    (hnames : location.names ≠ []) : (tree.put location entry).get? location = some entry := by
  rw [get?_eq_lookup _ hnames]
  simp [put]

theorem get?_put_of_ne (tree : FileTree) {location other : Location} (entry : Entry)
    (h : other ≠ location) : (tree.put location entry).get? other = tree.get? other := by
  by_cases hnames : other.names = []
  . simp [get?, hnames]
  . rw [get?_eq_lookup _ hnames, get?_eq_lookup _ hnames]
    simp only [put, List.lookup_cons, beq_eq_false_iff_ne.mpr h]
    exact lookup_filter_ne tree.entries h

def clear (tree : FileTree) (location : Location) : FileTree :=
  { entries := tree.entries.filter fun (other, _) => other = location || !location.contains other }

def erase (tree : FileTree) (location : Location) : FileTree :=
  { entries := tree.entries.filter fun (other, _) => !location.contains other }

def locate (tree : FileTree) (location : Location) : List String → Option Location
  | [] => some location
  | piece :: pieces =>
    if tree.get? location = some .directory then
      locate tree (location.step piece) pieces
    else
      none

def locatePath (tree : FileTree) (path : String) : Option Location :=
  if path.isEmpty || !Path.isUsable path then none
  else tree.locate (Location.start path) (Path.pieces path)

def create (tree : FileTree) (location : Location) : List String → Bool × FileTree
  | [] => (true, tree)
  | piece :: pieces =>
    let next := location.step piece
    match tree.get? next with
    | some .directory => create tree next pieces
    | some _ => (false, tree)
    | none =>
      if piece.utf8ByteSize ≤ Path.maxNameSize then
        create (tree.put next .directory) next pieces
      else
        (false, tree)

def find? (tree : FileTree) (path : String) : Option Entry :=
  (tree.locatePath path).bind tree.get?

def createPath (tree : FileTree) (path : String) : Bool × FileTree :=
  if Path.isUsable path then tree.create (Location.start path) (Path.pieces path) else (false, tree)

def write? (tree : FileTree) (path : String) (entry : Entry) : Option FileTree := do
  let location ← tree.locatePath path
  let name ← location.names.getLast?
  if tree.get? location = some .directory || Path.maxNameSize < name.utf8ByteSize then none
  return tree.put location entry

/--
Remove what is found at a path, if there is something. A directory is only emptied if the path does
not end in its name.
-/
def remove (tree : FileTree) (path : String) : FileTree :=
  match tree.locatePath path with
  | some location => if Path.endsInDots path then tree.clear location else tree.erase location
  | none => tree

def files (tree : FileTree) : List (String × Entry) :=
  let files := tree.entries.filter fun (location, entry) =>
    location.anchor = .above 0 && entry != .directory
  files.map fun (location, entry) => ("/".intercalate location.names, entry)

instance : FileAccess (StateM FileTree) where
  readText path := do
    match (← get).find? path with
    | some (.text content) => return some content
    | _ => return none
  createDirectories path := do
    let (areThere, tree) := (← get).createPath path
    set tree
    return areThere
  writeText path content := do
    match (← get).write? path (.text content) with
    | some tree => do
      set tree
      return true
    | none => return false

end FileTree

end EntityViews
