import DesiredState.Json.Basic

/-!
# Snapshots

A snapshot is a deployment with everything in it, free of ids. A backup is one snapshot or a
list of them.
-/

namespace DesiredState

structure ResourceSnapshot where
  resourceType : String
  attributes : KeyMap Json
  deriving DecidableEq

structure Snapshot where
  uuid : String
  attributes : KeyMap Json
  resources : KeyMap ResourceSnapshot
  deriving DecidableEq

inductive Backup where
  | one (snapshot : Snapshot)
  | many (snapshots : List Snapshot)
  deriving DecidableEq

def Backup.snapshots : Backup → List Snapshot
  | .one snapshot => [snapshot]
  | .many snapshots => snapshots

end DesiredState
