import EntityViews.Decl.Identifier
import EntityViews.Text.Blank

/-!
This module contains the names of component types, which are dotted names that may have type
arguments.
-/

namespace EntityViews

inductive TypeFault where
  | empty
  | surroundingBlanks
  | unmatchedClose
  | unmatchedOpen
  | unexpectedCharacter
  | notDotted
deriving DecidableEq, Repr

def TypeFault.message : TypeFault → String
  | .empty => "type name cannot be empty"
  | .surroundingBlanks => "type name cannot have surrounding whitespace"
  | .unmatchedClose => "type name has an unmatched '>'"
  | .unmatchedOpen => "type name has an unmatched '<'"
  | .unexpectedCharacter => "type name contains an unexpected character"
  | .notDotted => "type name must be a dotted sequence of identifiers"

namespace TypeName

def checkCharacters (depth : Nat) : List Char → Except TypeFault Unit
  | [] => if depth = 0 then .ok () else .error .unmatchedOpen
  | '<' :: name => checkCharacters (depth + 1) name
  | '>' :: name =>
    match depth with
    | 0 => .error .unmatchedClose
    | depth + 1 => checkCharacters depth name
  | c :: name =>
    if (0 < depth && (c = ',' || c = ' ')) || c = '.' || isIdentifierPart c then
      checkCharacters depth name
    else
      .error .unexpectedCharacter

def isSeparator (c : Char) : Bool :=
  c ∈ ['.', '<', '>', ',']

def words (name : String) : List String :=
  ((name.toList.splitOnP isSeparator).map fun word => Text.trim (String.ofList word)).filter
    (!·.isEmpty)

def check (name : String) : Except TypeFault Unit :=
  let trimmed := Text.trim name
  if trimmed.isEmpty then
    .error .empty
  else if trimmed != name then
    .error .surroundingBlanks
  else do
    checkCharacters 0 name.toList
    if (words name).all (fun word => (checkIdentifier word.toList).isOk)
        && (dottedParts name).all (!·.isEmpty) then
      .ok ()
    else
      .error .notDotted

end TypeName

end EntityViews
