import EntityViews.Toml.Reader

/-!
This module contains the strings of TOML documents. There are basic strings, in which a backslash
starts an escape, and literal strings, in which every character stands for itself. Both have a form
with three quotes that may span several lines.
-/

namespace EntityViews

namespace Toml

namespace Quoted

inductive Escape where
  | outside
  | started
  | code (missing value : Nat)
  -- behind a backslash and blanks
  | lineEnd
  -- behind the end of a line that a backslash joins to what follows
  | joining
deriving DecidableEq, Repr

def escaped? : Char → Option Char
  | 'b' => some '\x08'
  | 't' => some '\t'
  | 'n' => some '\n'
  | 'f' => some '\x0c'
  | 'r' => some '\r'
  | 'e' => some '\x1b'
  | '"' => some '"'
  | '\\' => some '\\'
  | _ => none

def codeLength? : Char → Option Nat
  | 'x' => some 2
  | 'u' => some 4
  | 'U' => some 8
  | _ => none

def character? (code : Nat) : Option Char :=
  if code.isValidChar then some (Char.ofNat code) else none

def push (c : Char) (read : Option (List Char × List Char)) : Option (List Char × List Char) :=
  read.map fun (characters, rest) => (c :: characters, rest)

/--
The end of a string with three quotes: directly in front of them, there may be up to two more which
belong to the string. The text starts after the first three.
-/
def closeQuotes (quote : Char) (text : List Char) : List Char × List Char :=
  let extra := (text.take 2).takeWhile (· = quote)
  (extra, text.drop extra.length)

def basic? (multiline : Bool) : Escape → Reader (List Char)
  | _, [] => none
  | escape, c :: text =>
    let isBreak := multiline && (newline? (c :: text)).isSome
    match escape with
    | .started =>
      match escaped? c, codeLength? c with
      | some c, _ => push c (basic? multiline .outside text)
      | none, some length => basic? multiline (.code length 0) text
      | none, none =>
        if isBreak then basic? multiline .joining text
        else if multiline && isBlank c then basic? multiline .lineEnd text
        else none
    | .code missing value =>
      match digit? 16 c with
      | none => none
      | some digit =>
        let value := value * 16 + digit
        if 1 < missing then
          basic? multiline (.code (missing - 1) value) text
        else
          match character? value with
          | some c => push c (basic? multiline .outside text)
          | none => none
    | .lineEnd =>
      if isBreak then basic? multiline .joining text
      else if isBlank c then basic? multiline .lineEnd text
      else none
    | .outside | .joining =>
      if c = '"' then
        if multiline then
          match text with
          | '"' :: '"' :: text => some (closeQuotes '"' text)
          | _ => push c (basic? multiline .outside text)
        else
          some ([], text)
      else if c = '\\' then
        basic? multiline .started text
      else if escape = .joining && (isBreak || isBlank c) then
        basic? multiline .joining text
      else if isBreak || isPrintable c then
        push c (basic? multiline .outside text)
      else
        none

def literal? (multiline : Bool) : Reader (List Char)
  | [] => none
  | c :: text =>
    if c = '\x27' then
      if multiline then
        match text with
        | '\x27' :: '\x27' :: text => some (closeQuotes '\x27' text)
        | _ => push c (literal? multiline text)
      else
        some ([], text)
    else if (multiline && (newline? (c :: text)).isSome) || isPrintable c then
      push c (literal? multiline text)
    else
      none

def dropNewline (text : List Char) : List Char :=
  (newline? text).getD text

def line? : Reader String
  | '"' :: text => (basic? false .outside text).map fun (s, rest) => (String.ofList s, rest)
  | '\x27' :: text => (literal? false text).map fun (s, rest) => (String.ofList s, rest)
  | _ => none

def string? : Reader String
  | '"' :: '"' :: '"' :: text =>
    (basic? true .outside (dropNewline text)).map fun (s, rest) => (String.ofList s, rest)
  | '\x27' :: '\x27' :: '\x27' :: text =>
    (literal? true (dropNewline text)).map fun (s, rest) => (String.ofList s, rest)
  | text => line? text

end Quoted

end Toml

end EntityViews
