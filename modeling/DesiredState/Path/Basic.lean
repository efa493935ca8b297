/-!
# Paths

A path is a text whose components are separated by slashes. Joining is textual: an absolute
second part stands alone, and a separator is added only where one is missing.
-/

namespace DesiredState.Path

def isAbsolute (path : String) : Bool := path.toList.head? = some '/'

def join (base path : String) : String :=
  if isAbsolute path ∨ base.isEmpty then path
  else if base.toList.getLast? = some '/' then base ++ path
  else base ++ "/" ++ path

def parts (path : String) : List String := (path.toList.splitOn '/').map String.ofList

/-- The components that name something: empty ones and single dots do not. -/
def components (path : String) : List String :=
  (parts path).filter fun part => part ≠ "" ∧ part ≠ "."

/-- The components to follow one after the other, single dots included; a slash at the end counts
as a dot. -/
def steps (path : String) : List String :=
  (parts path).dropLast.filter (· ≠ "") ++
    (parts path).getLast?.toList.map fun last => if last = "" then "." else last

/-- A path written backwards, without the separators and single dots at its end. -/
def trimBack : List Char → List Char
  | '/' :: rest => trimBack rest
  | '.' :: '/' :: rest => trimBack rest
  | text => text

/-- A path written backwards, without its last component. -/
def dropLast (bare : List Char) : List Char := bare.dropWhile (· ≠ '/')

/-- A path without its last component and the separators before it; nothing for the root and
for the empty path. -/
def parent? (path : String) : Option String :=
  let bare := trimBack path.toList.reverse
  if bare.isEmpty then none
  else if (dropLast bare).isEmpty then some ""
  else if (trimBack (dropLast bare)).isEmpty then some "/"
  else some (String.ofList (trimBack (dropLast bare)).reverse)

example : join "/a" "b" = "/a/b" ∧ join "/a/" "b" = "/a/b" ∧ join "a" "/b" = "/b" := by
  decide

example : steps "/a//b/./c/" = ["a", "b", ".", "c", "."] := by decide

end DesiredState.Path
