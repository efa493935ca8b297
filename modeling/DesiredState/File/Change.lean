import DesiredState.File.Tree

/-!
# What differs between two file trees

Files are compared by what is in them, so a file that was replaced by an equal one did not change.
-/

namespace DesiredState.FileTree

inductive Change where
  | madeDirectory
  | written (content : FileContent)
  | removed
  deriving DecidableEq

/-- What happened to a place between two trees, if anything did. -/
def changeAt? (before after : FileTree) (place : Place) : Option Change :=
  match before.at? place, after.at? place with
  | none, some .directory => some .madeDirectory
  | none, some (.file number) => some (.written (after.contentOf number))
  | some (.file old), some (.file new) =>
    if before.contentOf old = after.contentOf new then none
    else some (.written (after.contentOf new))
  | some _, none => some .removed
  | _, _ => none

/-- What happened to places between two trees. -/
def changes (before after : FileTree) : List (Place × Change) :=
  ((before.nodes ++ after.nodes).map Prod.fst).eraseDups.filterMap fun place =>
    (changeAt? before after place).map fun change => (place, change)

end DesiredState.FileTree
