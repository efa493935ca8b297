import DesiredState.File.Walk

/-!
# The way to a state file

The way to a state file is found in the path itself: two dots take away the component before
them, whether or not that is a directory. Only a file in the way or a name that is too long
blocks it.
-/

namespace DesiredState.Route

def pathSize (place : Place) : Nat :=
  place.foldl (fun size name => size + 1 + name.utf8ByteSize) 0

/-- The most bytes in the full path of a state file. -/
def longestPath : Nat := 504

/-- The most bytes in a full path on the way. -/
def longestPrefix : Nat := 511

def advance? (t : FileTree) (place : Place) (part : String) : Option Place :=
  if part = ".." then some place.dropLast
  else if longestPrefix < pathSize (place ++ [part]) then none
  else
    match t.enter place part with
    | .ok _ | .error .notFound => some (place ++ [part])
    | .error _ => none

def locate? (t : FileTree) (path : String) : Option Place :=
  ((Path.components path).foldlM (advance? t) (t.origin path)).filter fun place =>
    pathSize place ≤ longestPath

end DesiredState.Route
