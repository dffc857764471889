import EntityViews.Decl.Render

/-!
This module contains the names that declarations introduce: the names of types and of the fields and
properties in them.
-/

namespace EntityViews

namespace Node

def typeName? : Node → Option String
  | .typeDecl _ name _ _ => some name.toText
  | _ => none

def memberName? : Node → Option String
  | .field _ _ name => some name.toText
  | .property _ _ name _ => some name.toText
  | _ => none

def memberNames : Node → List String
  | .typeDecl _ _ _ members => members.filterMap memberName?
  | _ => []

@[simp]
theorem toText_text (content : String) : (text content).toText = content := by
  by_cases hempty : content = ""
  . rw [hempty]
    rfl
  . simp [toText, render, script, Buffer.run, Session.run, Session.step, Session.finish,
      Buffer.append, hempty]

end Node

end EntityViews
