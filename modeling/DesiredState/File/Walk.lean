import DesiredState.File.Tree
import DesiredState.Lock.Error
import DesiredState.Path.Basic

/-!
# Following paths

A path is followed component by component, dots included, so every component but the last has to
be a directory that is there. Directories are made along with the ones above them; those that
were made stay even if the last one cannot be made.
-/

namespace DesiredState.FileTree

def longestName : Nat := 255

def longestPath : Nat := 4095

/-- Follow a component from a place, which has to be a directory. -/
def enter (t : FileTree) (place : Place) (part : String) : Except FileError Place :=
  match t.at? place with
  | none => .error .notFound
  | some (.file _) => .error .notDirectory
  | some .directory =>
    if part = "." then .ok place
    else if part = ".." then .ok place.dropLast
    else if longestName < part.utf8ByteSize then .error .nameTooLong
    else .ok (place ++ [part])

def origin (t : FileTree) (path : String) : Place := if Path.isAbsolute path then [] else t.start

/-- Refuse a path that cannot be followed anywhere. -/
def checkPath (path : String) : Except FileError Unit :=
  if path.toList.contains '\x00' then .error .nulInName
  else if path.isEmpty then .error .notFound
  else if longestPath < path.utf8ByteSize then .error .nameTooLong
  else .ok ()

/-- The place that a path leads to, whether or not something stands there. -/
def resolve (t : FileTree) (path : String) : Except FileError Place := do
  checkPath path
  (Path.steps path).foldlM t.enter (t.origin path)

def find? (t : FileTree) (path : String) : Option FileNode :=
  match t.resolve path with
  | .ok place => t.at? place
  | .error _ => none

/-- Follow components from a place and make the directories that are missing; `made` tells that
one was. A file on the way is no directory to go on from; once something was made it is in the way
of a directory to make, as it always is at the end. -/
def makeAlong (t : FileTree) (made : Bool) (place : Place) :
    List String → Except FileError Unit × FileTree
  | [] => (.ok (), t)
  | part :: rest =>
    match t.enter place part with
    | .error cause => (.error cause, t)
    | .ok next =>
      match t.at? next with
      | none => makeAlong (t.put next .directory) true next rest
      | some .directory => makeAlong t made next rest
      | some _ => (.error (if made ∨ rest.isEmpty then .exists else .notDirectory), t)

/-- Make the directory that a path leads to and those above it; the empty path asks for none. -/
def createDirectories (path : String) : Action FileTree FileError Unit := fun t =>
  if path.isEmpty then (.ok (), t)
  else
    match checkPath path with
    | .error cause => (.error cause, t)
    | .ok _ => t.makeAlong false (t.origin path) (Path.steps path)

/-- What stands where a file is about to be opened; nothing if the file would be new. -/
def open? (t : FileTree) (path : String) : Except FileError (Place × Option FileNode) :=
  match t.resolve path with
  | .error cause => .error cause
  | .ok place =>
    match t.at? place with
    | some .directory => .error .isDirectory
    | node => .ok (place, node)

end DesiredState.FileTree
