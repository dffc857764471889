/-!
This module contains what the readers of all parts of TOML documents share: the characters that
documents consist of, the parts that carry no value, which are blanks, line breaks and comments, and
the elements of arrays and of tables in braces.
-/

namespace EntityViews

namespace Toml

abbrev Reader (α : Type) := List Char → Option (α × List Char)

def isBlank (c : Char) : Bool :=
  c = ' ' || c = '\t'

def isPrintable (c : Char) : Bool :=
  c = '\t' || (0x20 ≤ c.toNat && c.toNat != 0x7F)

def isKeyCharacter (c : Char) : Bool :=
  c.isAlphanum || c = '_' || c = '-'

def isDelimiter (c : Char) : Bool :=
  c ∈ ['=', ',', '[', ']', '{', '}', '#', ' ', '\t', '\r', '\n']

def digit? (base : Nat) (c : Char) : Option Nat :=
  let value :=
    if c.isDigit then c.toNat - '0'.toNat
    else if 'a' ≤ c && c ≤ 'f' then c.toNat - 'a'.toNat + 10
    else if 'A' ≤ c && c ≤ 'F' then c.toNat - 'A'.toNat + 10
    else base
  if value < base then some value else none

def skipBlanks (text : List Char) : List Char :=
  text.dropWhile isBlank

def newline? : List Char → Option (List Char)
  | '\n' :: text => some text
  | '\r' :: '\n' :: text => some text
  | _ => none

def skipComment : List Char → List Char
  | '#' :: text => text.dropWhile isPrintable
  | text => text

def endLine? (text : List Char) : Option (List Char) :=
  match skipComment (skipBlanks text) with
  | [] => some []
  | text => newline? text

/--
The text after all blanks, line breaks and comments at its start. The text may start within a
comment. A comment with a control character is only skipped up to it, so that nothing can be read
after it.
-/
def skipTrivia (inComment : Bool) : List Char → List Char
  | [] => []
  | '\n' :: text => skipTrivia false text
  | '\r' :: '\n' :: text => skipTrivia false text
  | c :: text =>
    if inComment then
      if isPrintable c then skipTrivia true text else c :: text
    else if c = '#' then
      skipTrivia true text
    else if isBlank c then
      skipTrivia false text
    else
      c :: text

def skip (text : List Char) : List Char :=
  skipTrivia false text

def elements? {α : Type} (element? : Reader α) (close : Char) (text : List Char) :
    Option (List α × List Char) :=
  match skip text with
  | [] => none
  | c :: start =>
    if c = close then
      some ([], start)
    else do
      let (first, rest) ← element? (c :: start)
      match skip rest with
      | [] => none
      | c :: rest =>
        if c = close then
          some ([first], rest)
        else if c = ',' then
          if rest.length < text.length then do
            let (others, rest) ← elements? element? close rest
            return (first :: others, rest)
          else
            none
        else
          none
termination_by text.length

end Toml

end EntityViews
