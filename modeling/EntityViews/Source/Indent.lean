/-!
This module contains the unit of indentation of generated code.
-/

namespace EntityViews

inductive Indent where
  | spaces (count : Nat)
  | tab
deriving DecidableEq, Repr

namespace Indent

def standard : Indent := .spaces 4

instance : Inhabited Indent := ⟨standard⟩

def ofWidth : Nat → Indent
  | 0 => .tab
  | width => .spaces width

def unit : Indent → String
  | .spaces count => String.ofList (List.replicate (max 1 (min count 16)) ' ')
  | .tab => "\t"

end Indent

end EntityViews
