/-!
This module contains spans of text, measured in bytes of UTF-8, and the search for the place where a
value is written in a document.
-/

namespace EntityViews

structure Span where
  offset : Nat
  length : Nat
deriving DecidableEq, Repr

/--
The byte offsets at which `pattern` starts in a text, leftmost first and without overlaps. The first
`skip` characters still belong to the previous match and `offset` bytes precede the text.
-/
def occurrences (pattern : List Char) (skip offset : Nat) : List Char → List Nat
  | [] => []
  | c :: text =>
    match skip with
    | skip + 1 => occurrences pattern skip (offset + c.utf8Size) text
    | 0 =>
      if pattern.isPrefixOf (c :: text) then
        offset :: occurrences pattern (pattern.length - 1) (offset + c.utf8Size) text
      else
        occurrences pattern 0 (offset + c.utf8Size) text

/--
The place where `value` is written in `document`: inside its `n`-th pair of double quotes if it is
quoted that often (counting from 0), otherwise its first occurrence of any kind.
-/
def valueSpan? (document value : String) (n : Nat) : Option Span :=
  if value.isEmpty then
    none
  else
    let quoted := '"' :: value.toList ++ ['"']
    match (occurrences quoted 0 0 document.toList)[n]? with
    | some offset => some ⟨offset + 1, value.utf8ByteSize⟩
    | none =>
      (occurrences value.toList 0 0 document.toList).head?.map fun offset =>
        ⟨offset, value.utf8ByteSize⟩

end EntityViews
