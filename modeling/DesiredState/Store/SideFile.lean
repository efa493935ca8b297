import DesiredState.File.Tree

/-!
# Files beside a state file

A state file that is being changed may have files beside it, whose names start with its own. One
holds what to go back to if the change is interrupted, another changes that are not in the state
file yet, and a third where to find them.
-/

namespace DesiredState

inductive SideFile where
  /-- What the state file held before a change. -/
  | undo
  /-- Changes that are not in the state file yet. -/
  | redo
  /-- Where to find each of those changes. -/
  | index
  deriving DecidableEq, Repr

namespace SideFile

def suffix : SideFile → String
  | .undo => "-journal"
  | .redo => "-wal"
  | .index => "-shm"

def all : List SideFile := [.undo, .redo, .index]

/-- The most bytes in the name of a state file beside which there is room for a side file. -/
def longestName : Nat := 247

def beside (side : SideFile) (place : Place) : Place :=
  place.dropLast ++ [place.getLast?.getD "" ++ side.suffix]

end SideFile

end DesiredState
