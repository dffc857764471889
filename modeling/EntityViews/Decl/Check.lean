import EntityViews.Decl.Render

/-!
This module contains the check that a tree of declarations is well-formed. Code is only generated
from trees that pass it.
-/

namespace EntityViews

inductive DeclError where
  | blankName (kind : String)
  | noTypeArguments (name : String)
  | noAccessors (name : String)
  | twoInitializers (name : String)
  | staticConstructorParameters (name : String)
  | unexpectedInitializer (name kind : String)
  | destructorParameters (name : String)
deriving DecidableEq, Repr

namespace DeclError

def message : DeclError → String
  | .blankName kind => s!"{kind} name is blank"
  | .noTypeArguments name => s!"generic type '{name}' has no type arguments"
  | .noAccessors name => s!"property '{name}' has neither a getter nor a setter"
  | .twoInitializers name => s!"constructor '{name}' chains to both this(..) and base(..)"
  | .staticConstructorParameters name => s!"static constructor '{name}' cannot take arguments"
  | .unexpectedInitializer name kind => s!"{kind} '{name}' cannot have a constructor initializer"
  | .destructorParameters name => s!"destructor '{name}' cannot be static or take arguments"

end DeclError

namespace Node

def rejectIf (condition : Bool) (error : DeclError) : Except DeclError Unit :=
  if condition then .error error else .ok ()

def rejectBlank (kind : String) (node : Node) : Except DeclError Unit :=
  rejectIf node.isInvisible (.blankName kind)

def checkHead (head : CallableHead) (name : Node) (hasParameters hasThis hasBase : Bool) :
    Except DeclError Unit :=
  match head.kind with
  | .method =>
    rejectIf (hasThis || hasBase) (.unexpectedInitializer name.toText head.kind.noun)
  | .constructor =>
    if head.isStatic then do
      rejectIf hasParameters (.staticConstructorParameters name.toText)
      rejectIf (hasThis || hasBase) (.unexpectedInitializer name.toText "static constructor")
    else
      rejectIf (hasThis && hasBase) (.twoInitializers name.toText)
  | .destructor => do
    rejectIf (head.isStatic || hasParameters) (.destructorParameters name.toText)
    rejectIf (hasThis || hasBase) (.unexpectedInitializer name.toText head.kind.noun)

mutual

/--
Check a node and all that is written with it. What surrounds a node is checked before the node and
the parts of a declaration in the order in which they are written, so the first error wins.
-/
def check : Node → Except DeclError Unit
  | .text _ => .ok ()
  | .lineBreak => .ok ()
  | .list _ elements => checkAll elements
  | .block header body => do
    header.check
    checkAll body
  | .generic name arguments => do
    rejectBlank "generic type" name
    name.check
    rejectIf arguments.isEmpty (.noTypeArguments name.toText)
    checkAll arguments
  | .typeDecl head name bases members => do
    rejectBlank head.kind.keyword name
    name.check
    checkAll bases
    checkAll members
  | .field _ type name => do
    rejectBlank "field type" type
    type.check
    rejectBlank "field" name
    name.check
  | .property _ type name accessors => do
    rejectBlank "property type" type
    type.check
    rejectBlank "property" name
    name.check
    rejectIf accessors.isEmpty (.noAccessors name.toText)
    checkAll accessors
  | .accessor _ body => checkAll body
  | .callable head returns name parameters thisArguments baseArguments body => do
    rejectBlank head.kind.noun name
    name.check
    -- only a method writes its return type
    match head.kind with
    | .method => do
      rejectBlank "return type" returns
      returns.check
    | _ => .ok ()
    checkHead head name (!parameters.isEmpty) thisArguments.isSome baseArguments.isSome
    checkAll parameters
    checkForwarded thisArguments
    checkForwarded baseArguments
    checkAll body
  | .callback _ => .ok ()
  | .wrapped before core after => do
    before.check
    after.check
    core.check

def checkAll : List Node → Except DeclError Unit
  | [] => .ok ()
  | node :: nodes => do
    node.check
    checkAll nodes

def checkForwarded : Option (List Node) → Except DeclError Unit
  | none => .ok ()
  | some arguments => checkAll arguments

end

end Node

end EntityViews
