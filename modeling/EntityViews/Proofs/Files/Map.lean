import Mathlib.Data.List.TakeWhile
import Mathlib.Logic.Function.Basic
import EntityViews.Files.Access
import EntityViews.Files.Location

/-!
This module contains maps of files, which are files without directories that could be missing: each
location may have a content, and everything can be written. A map keeps a record of what was written.
-/

namespace EntityViews

namespace Path

theorem pieces_append_slash (first second : String) :
    pieces (first ++ "/" ++ second) = pieces first ++ pieces second := by
  unfold pieces
  have hsplit : (first.toList ++ '/' :: second.toList).splitOnP (· = '/')
      = first.toList.splitOnP (· = '/') ++ second.toList.splitOnP (· = '/') :=
    List.splitOnP_append_cons _ _ rfl
  simp [hsplit]

theorem pieces_of_notMem {name : String} (h : '/' ∉ name.toList) : pieces name = [name] := by
  unfold pieces
  rw [List.splitOnP_eq_singleton]
  . simp
  . intro c hc
    rw [decide_eq_false_iff_not]
    rintro rfl
    exact h hc

end Path

namespace Location

/--
The location that a path leads to if there are directories on the way.
-/
def ofPath (path : String) : Location :=
  (Path.pieces path).foldl step (start path)

theorem step_empty (location : Location) : location.step "" = location := by
  rfl

theorem start_append {first : String} (h : first ≠ "") (second : String) :
    start (first ++ second) = start first := by
  unfold start
  rw [String.toList_append]
  cases hfirst : first.toList with
  | nil => exact absurd (String.toList_eq_nil_iff.mp hfirst) h
  | cons c chars => rfl

theorem ofPath_append_slash (directory : String) {name : String} (hslash : '/' ∉ name.toList) :
    ofPath (directory ++ "/" ++ name)
      =
    ((Path.pieces directory).foldl step (start (directory ++ "/"))).step name := by
  unfold ofPath
  rw [start_append (by simp), Path.pieces_append_slash, Path.pieces_of_notMem hslash,
    List.foldl_append]
  rfl

theorem ofPath_join (directory : String) {name : String} (hslash : '/' ∉ name.toList) :
    ofPath (Path.join directory name) = (ofPath directory).step name := by
  have hhead : name.toList.head? ≠ some '/' := fun h => hslash (List.mem_of_head? h)
  unfold Path.join
  by_cases hempty : directory = ""
  . rw [if_pos (by simp [hempty]), hempty]
    unfold ofPath
    rw [Path.pieces_of_notMem hslash]
    unfold start
    rw [if_neg hhead]
    rfl
  . rw [if_neg (by simp [hempty, hhead])]
    split
    . next hlast =>
      -- the slash at the end of the directory is the one between the directory and the name
      have ⟨front, hfront⟩ := List.getLast?_eq_some_iff.mp hlast
      have hdirectory : directory = String.ofList front ++ "/" := by
        rw [← String.toList_inj, hfront]
        simp
      have hself : ofPath (String.ofList front ++ "/" ++ "") = _ := ofPath_append_slash _ (by simp)
      rw [String.append_empty, step_empty] at hself
      rw [hdirectory, ofPath_append_slash _ hslash, hself]
    . rw [ofPath_append_slash _ hslash, start_append hempty]
      rfl

structure IsFileName (name : String) : Prop where
  ne_empty : name ≠ ""
  ne_dot : name ≠ "."
  ne_dots : name ≠ ".."
  slash : '/' ∉ name.toList

theorem IsFileName.step_eq {name : String} (h : IsFileName name) (location : Location) :
    location.step name = { location with names := location.names ++ [name] } := by
  unfold step
  rw [if_neg (by simp [h.ne_empty, h.ne_dot]), if_neg h.ne_dots]

theorem IsFileName.ofPath_join_inj {name other : String} (h : IsFileName name)
    (hother : IsFileName other) {directory : String} :
    ofPath (Path.join directory name) = ofPath (Path.join directory other) ↔ name = other := by
  rw [ofPath_join directory h.slash, ofPath_join directory hother.slash, h.step_eq, hother.step_eq]
  simp

end Location

structure FileMap where
  contents : Location → Option String
  written : List Location := []

namespace FileMap

def put (files : FileMap) (location : Location) (content : String) : FileMap where
  contents := Function.update files.contents location (some content)
  written := files.written ++ [location]

@[simp]
theorem contents_put_self (files : FileMap) (location : Location) (content : String) :
    (files.put location content).contents location = some content := by
  exact Function.update_self _ _ _

theorem contents_put_of_ne (files : FileMap) {location other : Location} (h : other ≠ location)
    (content : String) : (files.put location content).contents other = files.contents other := by
  exact Function.update_of_ne h _ _

instance : FileAccess (StateM FileMap) where
  readText path := return (← get).contents (.ofPath path)
  createDirectories _ := return true
  writeText path content := do
    modify (·.put (.ofPath path) content)
    return true

def perform {α : Type} (files : FileMap) (action : StateM FileMap α) : α × FileMap :=
  (action.run files).run

section

variable {α β : Type} (files : FileMap)

theorem perform_pure (a : α) : files.perform (pure a) = (a, files) := by
  rfl

theorem perform_bind (action : StateM FileMap α) (next : α → StateM FileMap β) :
    files.perform (action >>= next)
      =
    (files.perform action).2.perform (next (files.perform action).1) := by
  rfl

theorem perform_readText (path : String) :
    files.perform (readText path) = (files.contents (.ofPath path), files) := by
  rfl

end

end FileMap

end EntityViews
