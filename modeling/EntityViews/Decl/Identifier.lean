/-!
This module contains the names that generated code may use: identifiers and dotted names of
namespaces.
-/

namespace EntityViews

def reservedWords : List String :=
  ["abstract", "as", "base", "bool", "break", "byte", "case", "catch", "char", "checked",
    "class", "const", "continue", "decimal", "default", "delegate", "do", "double", "else",
    "enum", "event", "explicit", "extern", "false", "finally", "fixed", "float", "for",
    "foreach", "goto", "if", "implicit", "in", "int", "interface", "internal", "is", "lock",
    "long", "namespace", "new", "null", "object", "operator", "out", "override", "params",
    "private", "protected", "public", "readonly", "ref", "return", "sbyte", "sealed", "short",
    "sizeof", "stackalloc", "static", "string", "struct", "switch", "this", "throw", "true",
    "try", "typeof", "uint", "ulong", "unchecked", "unsafe", "ushort", "using", "virtual",
    "void", "volatile", "while"]

def isReserved (name : String) : Bool :=
  name ∈ reservedWords

inductive NameFault where
  | empty
  | badStart
  | badCharacter
  | reservedSegment
deriving DecidableEq, Repr

def NameFault.message : NameFault → String
  | .empty => "name cannot be empty"
  | .badStart => "name must start with a letter or underscore"
  | .badCharacter => "name must contain only letters, numbers, and underscores"
  | .reservedSegment => "namespace segment is a C# reserved keyword"

def isIdentifierStart (c : Char) : Bool :=
  c.isAlpha || c = '_'

def isIdentifierPart (c : Char) : Bool :=
  c.isAlphanum || c = '_'

def checkIdentifier : List Char → Except NameFault Unit
  | [] => .error .empty
  | c :: name =>
    if !isIdentifierStart c then .error .badStart
    else if !name.all isIdentifierPart then .error .badCharacter
    else .ok ()

def dottedParts (name : String) : List (List Char) :=
  name.toList.splitOnP (· = '.')

def checkNamespacePart (part : List Char) : Except NameFault Unit :=
  if isReserved (String.ofList part) then .error .reservedSegment else checkIdentifier part

def checkNamespace (name : String) : Except NameFault Unit :=
  if name.isEmpty then .ok () else (dottedParts name).forM checkNamespacePart

end EntityViews
