/-!
This module contains the paths of files, which consist of pieces with slashes between them.
-/

namespace EntityViews

namespace Path

/--
The pieces of a path. Empty pieces and single dots stand for the directory that they are in, two dots
for the one around it.
-/
def pieces (path : String) : List String :=
  (path.toList.splitOnP (· = '/')).map String.ofList

def isUsable (path : String) : Bool :=
  path.utf8ByteSize < 4096 && !path.toList.contains '\x00'

def maxNameSize : Nat := 255

/--
The path of a file with the given name in a directory. The empty path is the current directory, and a
name that starts with a slash does not depend on the directory.
-/
def join (directory name : String) : String :=
  if directory.isEmpty || name.toList.head? = some '/' then name
  else if directory.toList.getLast? = some '/' then directory ++ name
  else directory ++ "/" ++ name

/--
Drop pieces that stand for the directory that they are in, starting at the last one. The pieces are
given in reverse. A dot in front of all others is kept.
-/
def dropIdle : List String → List String
  | [] => []
  | ["."] => ["."]
  | piece :: pieces => if piece = "" || piece = "." then dropIdle pieces else piece :: pieces

/--
A path that ends in dots leads to a directory under another name than its own.
-/
def endsInDots (path : String) : Bool :=
  ((pieces path).filter (· != "")).getLast?.any (· ∈ [".", ".."])

def parent (path : String) : String :=
  "/".intercalate (dropIdle (dropIdle (pieces path).reverse).tail).reverse

end Path

end EntityViews
