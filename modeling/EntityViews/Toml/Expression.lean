import EntityViews.Toml.DateTime
import EntityViews.Toml.Value

/-!
This module contains the expressions that TOML documents consist of: keys with their values and the
headers of tables.
-/

namespace EntityViews

namespace Toml

inductive Expression where
  | keyValue (path : KeyPath) (value : Value)
  | table (path : KeyPath)
  | arrayTable (path : KeyPath)

/--
The limit to the number of keys in a dotted one, and to the number of arrays and tables in braces
around a value.
-/
def maxNesting : Nat := 80

def key? (text : List Char) : Option (String × List Char) :=
  match Quoted.line? text with
  | some read => some read
  | none =>
    let key := text.takeWhile isKeyCharacter
    if key.isEmpty then none else some (String.ofList key, text.dropWhile isKeyCharacter)

def keyPath? (text : List Char) : Option (KeyPath × List Char) := do
  let start := skipBlanks text
  let (key, rest) ← key? start
  match skipBlanks rest with
  | '.' :: rest =>
    if rest.length < text.length then
      let (path, rest) ← keyPath? rest
      if path.toList.length < maxNesting then
        return ({ path with parents := key :: path.parents }, rest)
      else
        none
    else
      none
  | rest => return ({ key }, rest)
termination_by text.length

def keyValue? (skip : List Char → List Char) (value? : Reader Value) :
    Reader (KeyPath × Value) := fun text => do
  let (path, rest) ← keyPath? text
  match skip rest with
  | '=' :: rest =>
    let (value, rest) ← value? (skip rest)
    return ((path, value), rest)
  | _ => none

def scalar? (lexeme : List Char) : Option Value :=
  if lexeme = "true".toList then some (.boolean true)
  else if lexeme = "false".toList then some (.boolean false)
  else if isInteger lexeme then some (.integer (integer? lexeme))
  else if isFloat lexeme then some (.float (String.ofList lexeme))
  else if isDateTime lexeme then some (.dateTime (String.ofList lexeme))
  else none

def startsWord : List Char → Bool
  | c :: _ => !isDelimiter c && c ∉ ['.', '"', '\x27']
  | [] => false

def lexeme : List Char → List Char × List Char
  | [] => ([], [])
  | c :: text =>
    if !isDelimiter c || (isBlank c && startsWord (skipBlanks text)) then
      let (taken, rest) := lexeme text
      (c :: taken, rest)
    else
      ([], c :: text)

def value? : Nat → Reader Value
  | nesting, text =>
    match Quoted.string? text with
    | some (s, rest) => some (.string s, rest)
    | none =>
      match nesting, text with
      | 0, '[' :: _ => none
      | 0, '{' :: _ => none
      | nesting + 1, '[' :: text => do
        let (values, rest) ← elements? (value? nesting) ']' text
        return (.array false values, rest)
      | nesting + 1, '{' :: text => do
        let (pairs, rest) ← elements? (keyValue? skip (value? nesting)) '}' text
        let table ← pairs.foldlM (fun table (path, value) => Table.insert table path value) {}
        return (.table .inline table.entries, rest)
      | _, text => do
        let (taken, rest) := lexeme text
        return (← scalar? taken, rest)

def expression? : Reader Expression
  | '[' :: '[' :: text => do
    match ← keyPath? text with
    | (path, ']' :: ']' :: rest) => return (.arrayTable path, rest)
    | _ => none
  | '[' :: text => do
    match ← keyPath? text with
    | (path, ']' :: rest) => return (.table path, rest)
    | _ => none
  | text => do
    let ((path, value), rest) ← keyValue? skipBlanks (value? maxNesting) text
    return (.keyValue path value, rest)

def expressions? (text : List Char) : Option (List Expression) :=
  match skip text with
  | [] => some []
  | start => do
    let (expression, rest) ← expression? start
    let rest ← endLine? rest
    if rest.length < text.length then
      let expressions ← expressions? rest
      return expression :: expressions
    else
      none
termination_by text.length

end Toml

end EntityViews
