import EntityViews.Text.Blank

/-!
This module contains the access levels of declarations.
-/

namespace EntityViews

inductive Access where
  | everywhere
  | assembly
  | enclosingType
  | derivedTypes
  | derivedTypesOrAssembly
deriving DecidableEq, Repr

namespace Access

def keyword : Access → String
  | .everywhere => "public"
  | .assembly => "internal"
  | .enclosingType => "private"
  | .derivedTypes => "protected"
  | .derivedTypesOrAssembly => "protected internal"

def all : List Access :=
  [.everywhere, .assembly, .enclosingType, .derivedTypes, .derivedTypesOrAssembly]

def ofText? (text : String) : Option Access :=
  all.find? fun access => access.keyword == " ".intercalate (Text.words text)

end Access

structure UnknownAccess where
  value : String
deriving DecidableEq, Repr

def UnknownAccess.message (error : UnknownAccess) : String :=
  s!"unknown access modifier '{error.value}'"

end EntityViews
