import DesiredState.Store.Basic

/-!
# File trees

A file tree knows what stands at each place: a directory or a file. A place is the list of the
names that lead to it from the root, which is a directory. Files have numbers, and what is in a
file belongs to its number: whoever has it open still gets at it when it no longer stands anywhere.
-/

namespace DesiredState

inductive FileContent where
  | text (content : String)
  | store (content : Store)
  /-- A store with changes that are not in its own file yet. -/
  | changes (content : Store)
  /-- Where to find such changes. -/
  | index
  deriving DecidableEq

def FileContent.isEmpty (c : FileContent) : Bool := c = .text ""

inductive FileNode where
  | directory
  | file (number : Nat)
  deriving DecidableEq

/-- The names that lead from the root to a file or directory. -/
abbrev Place : Type := List String

structure FileTree where
  /-- The directory from which relative paths start. -/
  start : Place
  /-- What was put at each place, the latest first. -/
  nodes : List (Place × FileNode)
  /-- What was written to each file, the latest first. -/
  contents : List (Nat × FileContent)

namespace FileTree

/-- A tree with nothing but the directory from which relative paths start. -/
def empty (start : Place) : FileTree := ⟨start, [], []⟩

def at? (t : FileTree) (place : Place) : Option FileNode :=
  if place.isEmpty then some .directory else (t.nodes.find? fun node => node.1 = place).map Prod.snd

def contentOf (t : FileTree) (number : Nat) : FileContent :=
  ((t.contents.find? fun entry => entry.1 = number).map Prod.snd).getD (.text "")

def put (t : FileTree) (place : Place) (node : FileNode) : FileTree :=
  { t with nodes := (place, node) :: t.nodes }

/-- Let nothing stand at a place any more. -/
def remove (t : FileTree) (place : Place) : FileTree :=
  { t with nodes := t.nodes.filter fun node => node.1 ≠ place }

def write (t : FileTree) (number : Nat) (content : FileContent) : FileTree :=
  { t with contents := (number, content) :: t.contents }

/-- The number of the next file. Every file was written to, so it is greater than all others. -/
def nextNumber (t : FileTree) : Nat := t.contents.length

def create (t : FileTree) (place : Place) (content : FileContent) : FileTree :=
  (t.put place (.file t.nextNumber)).write t.nextNumber content

/-- Write to the file at a place, which is a new one if there is none. -/
def putContent (t : FileTree) (place : Place) (content : FileContent) : FileTree :=
  match t.at? place with
  | some (.file number) => t.write number content
  | _ => t.create place content

def removeFile (t : FileTree) (place : Place) : FileTree :=
  match t.at? place with
  | some (.file _) => t.remove place
  | _ => t

theorem at?_put_self (t : FileTree) {place : Place} (h : place ≠ []) (node : FileNode) :
    (t.put place node).at? place = some node := by
  cases place with
  | nil => exact absurd rfl h
  | cons => simp [at?, put]

theorem at?_put_ne (t : FileTree) {place other : Place} (h : other ≠ place) (node : FileNode) :
    (t.put place node).at? other = t.at? other := by
  unfold at? put
  split <;> simp [Ne.symm h]

end FileTree

end DesiredState
