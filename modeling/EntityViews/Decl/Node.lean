import EntityViews.Decl.Access
import EntityViews.Source.Script

/-!
This module contains the tree of declarations, statements and pieces of text that generated code is
assembled from, together with shorthands for the nodes that occur most.
-/

namespace EntityViews

structure ListLayout where
  delimiter : Option String := some ", "
  eachOnNewLine : Bool := false
  indented : Bool := false
  -- the break in front of the elements is in their scope, the one behind them is outside of it
  newLineBefore : Bool := false
  newLineAfter : Bool := false
deriving DecidableEq, Repr

namespace ListLayout

def lines : ListLayout where
  delimiter := none
  eachOnNewLine := true

def hanging : ListLayout where
  eachOnNewLine := true
  indented := true
  newLineBefore := true

end ListLayout

inductive TypeKind where
  | classType
  | structType
deriving DecidableEq, Repr

def TypeKind.keyword : TypeKind → String
  | .classType => "class"
  | .structType => "struct"

inductive AccessorKind where
  | get
  | set
deriving DecidableEq, Repr

def AccessorKind.keyword : AccessorKind → String
  | .get => "get"
  | .set => "set"

inductive CallableKind where
  | method
  | constructor
  | destructor
deriving DecidableEq, Repr

def CallableKind.noun : CallableKind → String
  | .method => "method"
  | .constructor => "constructor"
  | .destructor => "destructor"

structure TypeHead where
  kind : TypeKind
  access : Access := .everywhere
  isStatic : Bool := false
  isReadonly : Bool := false
  isUnsafe : Bool := false
deriving DecidableEq, Repr

structure FieldHead where
  access : Access := .everywhere
  isStatic : Bool := false
  isReadonly : Bool := false
deriving DecidableEq, Repr

structure PropertyHead where
  access : Access := .everywhere
  isStatic : Bool := false
  isByRef : Bool := false
deriving DecidableEq, Repr

structure CallableHead where
  kind : CallableKind
  access : Access := .everywhere
  isStatic : Bool := false
  wrapParameters : Bool := false
deriving DecidableEq, Repr

def CallableHead.parameterLayout (head : CallableHead) : ListLayout :=
  if head.wrapParameters then .hanging else {}

inductive Node where
  | text (content : String)
  | lineBreak
  | list (layout : ListLayout) (elements : List Node)
  | block (header : Node) (body : List Node)
  | generic (name : Node) (arguments : List Node)
  | typeDecl (head : TypeHead) (name : Node) (bases members : List Node)
  | field (head : FieldHead) (type name : Node)
  | property (head : PropertyHead) (type name : Node) (accessors : List Node)
  | accessor (kind : AccessorKind) (body : List Node)
  | callable (head : CallableHead) (returns name : Node) (parameters : List Node)
      (thisArguments baseArguments : Option (List Node)) (body : List Node)
  | callback (script : Script)
  | wrapped (before core after : Node)
deriving Inhabited

namespace Node

instance : Coe String Node := ⟨.text⟩

def empty : Node := .text ""

/--
Put `before` in front of a node, in place of what was put there earlier.
-/
def withBefore (node before : Node) : Node :=
  match node with
  | .wrapped _ core after => .wrapped before core after
  | core => .wrapped before core empty

def withAfter (node after : Node) : Node :=
  match node with
  | .wrapped before core _ => .wrapped before core after
  | core => .wrapped empty core after

def concat (elements : List Node) : Node :=
  .list { delimiter := none } elements

def lines (elements : List Node) : Node :=
  .list .lines elements

def namespaceBlock (name : String) (body : List Node) : Node :=
  .block (.text s!"namespace {name}") body

def usingDirective (name : String) : Node :=
  .text s!"using {name};"

def assign (target value : String) : Node :=
  .text s!"{target} = {value};"

def parameter (type name : Node) : Node :=
  .list { delimiter := some " " } [type, name]

/--
Whether a node is a text without visible characters. What was put around it does not count.
-/
def isInvisible : Node → Bool
  | .text content => Text.isInvisible content
  | .wrapped _ core _ => core.isInvisible
  | _ => false

end Node

end EntityViews
