/-!
This module contains JSON values and how they are printed.
-/

namespace EntityViews

inductive JsonValue where
  | null
  | boolean (value : Bool)
  | number (value : Nat)
  | string (value : String)
  | array (elements : List JsonValue)
  | object (entries : List (String × JsonValue))
deriving Repr, Inhabited

namespace JsonValue

def ofOption {α : Type} (toJson : α → JsonValue) : Option α → JsonValue
  | some value => toJson value
  | none => .null

def hexDigit (value : Nat) : Char :=
  if value < 10 then Char.ofNat ('0'.toNat + value) else Char.ofNat ('a'.toNat + value - 10)

def escape (c : Char) : List Char :=
  match c with
  | '"' => ['\\', '"']
  | '\\' => ['\\', '\\']
  | '\x08' => ['\\', 'b']
  | '\x0c' => ['\\', 'f']
  | '\n' => ['\\', 'n']
  | '\r' => ['\\', 'r']
  | '\t' => ['\\', 't']
  | c =>
    if c.toNat < 0x20 then
      ['\\', 'u', '0', '0', hexDigit (c.toNat / 16), hexDigit (c.toNat % 16)]
    else
      [c]

def quote (s : String) : String :=
  String.ofList ('"' :: s.toList.flatMap escape ++ ['"'])

def wrap (depth : Nat) (opening closing : Char) (items : List String) : String :=
  let line (depth : Nat) : String := "\n" ++ "".pushn ' ' (2 * depth)
  if items.isEmpty then
    String.ofList [opening, closing]
  else
    (String.singleton opening ++ line (depth + 1) ++ ("," ++ line (depth + 1)).intercalate items
      ++ line depth).push closing

mutual

def print (depth : Nat) : JsonValue → String
  | .null => "null"
  | .boolean value => if value then "true" else "false"
  | .number value => toString value
  | .string value => quote value
  | .array elements => wrap depth '[' ']' (printElements (depth + 1) elements)
  | .object entries => wrap depth '{' '}' (printEntries (depth + 1) entries)

def printElements (depth : Nat) : List JsonValue → List String
  | [] => []
  | element :: elements => element.print depth :: printElements depth elements

def printEntries (depth : Nat) : List (String × JsonValue) → List String
  | [] => []
  | (key, value) :: entries =>
    (quote key ++ ": " ++ value.print depth) :: printEntries depth entries

end

end JsonValue

end EntityViews
