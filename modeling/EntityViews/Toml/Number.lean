import EntityViews.Toml.Quoted

/-!
This module contains the numbers of TOML documents. Digits may be separated by single underscores.

Some text is taken for an integer although it has no value: the mark of a base without digits, and
text that looks like an integer up to an underscore. It may stand wherever nobody asks for the value.
-/

namespace EntityViews

namespace Toml

def groups (lexeme : List Char) : List (List Char) :=
  lexeme.splitOnP (· = '_')

def digits? (base : Nat) (lexeme : List Char) : Option (List Nat) := do
  if (groups lexeme).any (·.isEmpty) then none
  (groups lexeme).flatten.mapM (digit? base)

def hasLeadingZero : List Nat → Bool
  | 0 :: _ :: _ => true
  | _ => false

def decimal? (lexeme : List Char) : Option (List Nat) := do
  let digits ← digits? 10 lexeme
  if hasLeadingZero digits then none else some digits

def ofDigits (base : Nat) (digits : List Nat) : Nat :=
  digits.foldl (fun value digit => value * base + digit) 0

/--
Text that looks like an integer in base ten up to an underscore. There are only digits in front of
the first underscore and hexadecimal ones next to the others, but no space, no point and no exponent.
-/
def isLooseInteger (lexeme : List Char) : Bool :=
  let isHexDigit (c : Char) : Bool := (digit? 16 c).isSome
  match groups lexeme with
  | first :: others =>
    !others.isEmpty && first.all Char.isDigit && first.head?.any (· != '0')
      && others.all (·.head?.any isHexDigit) && others.dropLast.all (·.getLast?.any isHexDigit)
      && !lexeme.any (· ∈ [' ', '.', 'e', 'E'])
  | [] => false

def isInteger : List Char → Bool
  | '0' :: 'x' :: lexeme => isBased 16 lexeme
  | '0' :: 'o' :: lexeme => isBased 8 lexeme
  | '0' :: 'b' :: lexeme => isBased 2 lexeme
  | '+' :: lexeme => isDecimal lexeme
  | '-' :: lexeme => isDecimal lexeme
  | lexeme => isDecimal lexeme
where
  isBased (base : Nat) (lexeme : List Char) : Bool :=
    lexeme.isEmpty || (digits? base lexeme).isSome
  isDecimal (lexeme : List Char) : Bool :=
    (decimal? lexeme).isSome || isLooseInteger lexeme

def integer? : List Char → Option Int
  | '0' :: 'x' :: lexeme => (digits? 16 lexeme).map fun digits => Int.ofNat (ofDigits 16 digits)
  | '0' :: 'o' :: lexeme => (digits? 8 lexeme).map fun digits => Int.ofNat (ofDigits 8 digits)
  | '0' :: 'b' :: lexeme => (digits? 2 lexeme).map fun digits => Int.ofNat (ofDigits 2 digits)
  | '+' :: lexeme => (decimal? lexeme).map fun digits => Int.ofNat (ofDigits 10 digits)
  | '-' :: lexeme => (decimal? lexeme).map fun digits => -Int.ofNat (ofDigits 10 digits)
  | lexeme => (decimal? lexeme).map fun digits => Int.ofNat (ofDigits 10 digits)

def dropSign : List Char → List Char
  | '+' :: lexeme => lexeme
  | '-' :: lexeme => lexeme
  | lexeme => lexeme

def isExponent : List Char → Bool
  | [] => true
  | c :: lexeme => (c = 'e' || c = 'E') && (digits? 10 (dropSign lexeme)).isSome

def isFraction : List Char → Bool
  | '.' :: lexeme =>
    let isExponentLetter (c : Char) : Bool := c = 'e' || c = 'E'
    (digits? 10 (lexeme.takeWhile (!isExponentLetter ·))).isSome
      && isExponent (lexeme.dropWhile (!isExponentLetter ·))
  | _ => false

def isFloat (lexeme : List Char) : Bool :=
  let unsigned := dropSign lexeme
  let isWhole (c : Char) : Bool := c.isDigit || c = '_'
  let rest := unsigned.dropWhile isWhole
  unsigned = "inf".toList || unsigned = "nan".toList
    || ((decimal? (unsigned.takeWhile isWhole)).isSome && !rest.isEmpty
        && (isFraction rest || isExponent rest))

end Toml

end EntityViews
