import DesiredState.File.Walk

/-!
# Disks

A disk is a file tree that is worked on.
-/

namespace DesiredState

/-- The file tree together with who works on what. -/
structure Disk where
  files : FileTree
  /-- The lock files that are taken. -/
  taken : List Place
  /-- The numbers of the state files with changes beside them, once for each who works on one. -/
  shared : List Nat

namespace Disk

def ofFiles (files : FileTree) : Disk := ⟨files, [], []⟩

/-- Make the directory above the file that a path leads to. -/
def createParent {ε : Type} (path : String) (onError : String → FileError → ε) :
    Action Disk ε Unit :=
  match Path.parent? path with
  | none => return ()
  | some dir =>
    Action.zoom Disk.files (fun files d => { d with files := files })
      ((FileTree.createDirectories dir).mapError (onError dir))

end Disk

end DesiredState
