import EntityViews.Toml.Number

/-!
This module contains the dates and times of TOML documents. A date-time consists of a date, a time,
or a date with a time and perhaps an offset from universal time.
-/

namespace EntityViews

namespace Toml

def isLeapYear (year : Nat) : Bool :=
  (year % 4 = 0 && year % 100 != 0) || year % 400 = 0

def daysInMonth (year month : Nat) : Nat :=
  if month = 2 then (if isLeapYear year then 29 else 28)
  else if month ∈ [4, 6, 9, 11] then 30
  else 31

def fixedDigits? (count : Nat) : Reader Nat := fun text => do
  let digits ← (text.take count).mapM (digit? 10)
  if digits.length = count then
    some (ofDigits 10 digits, text.drop count)
  else
    none

def pair? (separator : Char) : Reader (Nat × Nat) := fun text => do
  let (first, rest) ← fixedDigits? 2 text
  match rest with
  | c :: rest =>
    if c = separator then
      let (second, rest) ← fixedDigits? 2 rest
      some ((first, second), rest)
    else
      none
  | [] => none

def date? (text : List Char) : Option (List Char) := do
  let (year, rest) ← fixedDigits? 4 text
  match rest with
  | '-' :: rest =>
    let ((month, day), rest) ← pair? '-' rest
    if 1 ≤ month && month ≤ 12 && 1 ≤ day && day ≤ daysInMonth year month then some rest else none
  | _ => none

def secondFraction? : List Char → Option (List Char)
  | '.' :: text =>
    if (text.takeWhile Char.isDigit).isEmpty then none else some (text.dropWhile Char.isDigit)
  | text => some text

def time? (text : List Char) : Option (List Char) := do
  let ((hour, minute), rest) ← pair? ':' text
  if 23 < hour || 59 < minute then none
  match rest with
  | ':' :: rest =>
    let (second, rest) ← fixedDigits? 2 rest
    if 60 < second then none else secondFraction? rest
  | rest => some rest

def isOffset : List Char → Bool
  | [] => true
  | ['Z'] => true
  | ['z'] => true
  | sign :: text =>
    (sign = '+' || sign = '-') &&
      match pair? ':' text with
      | some ((hours, minutes), []) => hours ≤ 23 && minutes ≤ 59
      | _ => false

def isTimeMark (c : Char) : Bool :=
  c = 'T' || c = 't' || c = ' '

def isDateTime (lexeme : List Char) : Bool :=
  match date? lexeme with
  | some [] => true
  | some (mark :: rest) =>
    isTimeMark mark &&
      match time? rest with
      | some rest => isOffset rest
      | none => false
  | none =>
    match time? lexeme with
    | some rest => rest.isEmpty
    | none => false

end Toml

end EntityViews
