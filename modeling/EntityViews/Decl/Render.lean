import EntityViews.Decl.Node

/-!
This module contains the layout of declarations: the script that writes a node, and its text.
-/

namespace EntityViews

namespace Script

def ofList (layout : ListLayout) (elements : List Script) : Script :=
  if elements.isEmpty then
    []
  else
    [.enter (.indent layout.indented)]
      ++ lineBreakIf layout.newLineBefore
      ++ separator.intercalate elements
      ++ [.leave]
      ++ lineBreakIf layout.newLineAfter
where
  lineBreakIf (condition : Bool) : Script :=
    if condition then [.newLine] else []
  separator : Script :=
    match layout.delimiter with
    | none => lineBreakIf layout.eachOnNewLine
    | some delimiter =>
      if layout.eachOnNewLine then
        [.append (Text.trimEnd delimiter), .newLine]
      else
        [.append delimiter]

def ofBody (elements : List Script) : Script :=
  if elements.isEmpty then
    [.enter .block, .leave]
  else
    [.enter .block, .newLine] ++ ofList .lines elements ++ [.leave]

def keywordIf (condition : Bool) (keyword : String) : Script :=
  if condition then [.append keyword, .append " "] else []

end Script

namespace Node

open Script

mutual

def script : Node → Script
  | .text content => [.append content]
  | .lineBreak => [.newLine]
  | .list layout elements => ofList layout (scripts elements)
  | .block header body => header.script ++ ofBody (scripts body)
  | .generic name arguments =>
    name.script ++ [.append "<"] ++ ofList {} (scripts arguments) ++ [.append ">"]
  | .typeDecl head name bases members =>
    keywordIf true head.access.keyword
      ++ keywordIf head.isStatic "static"
      ++ keywordIf head.isReadonly "readonly"
      ++ keywordIf head.isUnsafe "unsafe"
      ++ keywordIf true head.kind.keyword
      ++ name.script
      ++ (if bases.isEmpty then [] else [.append " : "] ++ ofList {} (scripts bases))
      ++ ofBody (scripts members)
  | .field head type name =>
    keywordIf true head.access.keyword
      ++ keywordIf head.isStatic "static"
      ++ keywordIf head.isReadonly "readonly"
      ++ type.script ++ [.append " "] ++ name.script ++ [.append ";"]
  | .property head type name accessors =>
    keywordIf true head.access.keyword
      ++ keywordIf head.isStatic "static"
      ++ keywordIf head.isByRef "ref"
      ++ type.script ++ [.append " "] ++ name.script
      ++ [.enter .block] ++ (scripts accessors).flatMap (.newLine :: ·) ++ [.leave]
  | .accessor kind body => [.append kind.keyword] ++ ofBody (scripts body)
  | .callable head returns name parameters thisArguments baseArguments body =>
    let parenthesized := [.append "("] ++ ofList head.parameterLayout (scripts parameters)
      ++ [.append ")"]
    let header :=
      match head.kind with
      | .method =>
        keywordIf true head.access.keyword ++ keywordIf head.isStatic "static"
          ++ returns.script ++ [.append " "] ++ name.script ++ parenthesized
      | .constructor =>
        if head.isStatic then
          keywordIf true "static" ++ name.script ++ [.append "()"]
        else
          keywordIf true head.access.keyword ++ name.script ++ parenthesized
            ++ forwarded " : this(" thisArguments ++ forwarded " : base(" baseArguments
      | .destructor => [.append "~"] ++ name.script ++ [.append "()"]
    header ++ ofBody (scripts body)
  | .callback script => closed 0 script
  | .wrapped before core after => before.script ++ core.script ++ after.script

def scripts : List Node → List Script
  | [] => []
  | node :: nodes => node.script :: scripts nodes

def forwarded (opening : String) : Option (List Node) → Script
  | none => []
  | some arguments => [.append opening] ++ ofList {} (scripts arguments) ++ [.append ")"]

end

@[simp]
theorem scripts_eq_map (nodes : List Node) : scripts nodes = nodes.map script := by
  induction nodes with
  | nil => rfl
  | cons node nodes ih => simp [scripts, ih]

def render (node : Node) (buffer : Buffer) : Buffer :=
  buffer.run node.script

def toText (node : Node) : String :=
  (node.render { indent := .standard }).text

end Node

end EntityViews
