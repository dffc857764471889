/-!
This module contains the notion of blank character used throughout the library, together with the
operations on text that depend on it: trimming, splitting into words and the test for blank text.
-/

namespace EntityViews

/--
The code points with the Unicode property `White_Space`, as inclusive ranges. The information
separators U+001C to U+001F and the zero width space U+200B do not have it.
-/
def blankRanges : List (Nat × Nat) :=
  [(0x0009, 0x000D), (0x0020, 0x0020), (0x0085, 0x0085), (0x00A0, 0x00A0), (0x1680, 0x1680),
    (0x2000, 0x200A), (0x2028, 0x2029), (0x202F, 0x202F), (0x205F, 0x205F), (0x3000, 0x3000)]

def isBlank (c : Char) : Bool :=
  blankRanges.any fun (first, last) => first ≤ c.toNat && c.toNat ≤ last

namespace Text

def trimStart (s : String) : String :=
  String.ofList (s.toList.dropWhile isBlank)

def trimEnd (s : String) : String :=
  String.ofList (s.toList.reverse.dropWhile isBlank).reverse

def trim (s : String) : String :=
  trimEnd (trimStart s)

def words (s : String) : List String :=
  ((s.toList.splitOnP isBlank).filter (!·.isEmpty)).map String.ofList

def isInvisible (s : String) : Bool :=
  s.toList.all isBlank

end Text

end EntityViews
