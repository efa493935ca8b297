import DesiredState.Command.Deployments
import DesiredState.Snapshot.Codec

/-!
# Commands on backups

A backup holds one deployment or all of them. Restoring is refused when the backup names a
deployment twice or one that exists, and otherwise restores everything in it.
-/

namespace DesiredState.Command

variable {ρ : Type}

def exportEach : List DeploymentRecord → Operation ρ (List Snapshot)
  | [] => return []
  | r :: rest => do
    let snapshot ← onStore (Store.exportDeployment r.uuid)
    let snapshots ← exportEach rest
    return snapshot :: snapshots

def exportBackup (key : Option String) : Operation ρ Backup := do
  match key with
  | some key =>
    let record ← onStore (Store.findDeployment key)
    return .one (← onStore (Store.exportDeployment record.uuid))
  | none => return .many (← exportEach (← onStore Store.listDeployments))

/-- The UUIDs that repeat an earlier one, ascending. -/
def repeatedUuids (uuids : List String) : List String :=
  let step (state : List String × List String) (uuid : String) :=
    if state.1.contains uuid then (state.1, uuid :: state.2) else (uuid :: state.1, state.2)
  (KeySet.ofNames (uuids.foldl step ([], [])).2).names

/-- Restore the deployments in a text; their UUIDs in the order of the text. -/
def importBackup (text : String) : Operation ρ (List String) := do
  match Backup.parse? text with
  | none => Action.fail (.message "Input is not a deployment snapshot")
  | some backup =>
    let uuids := backup.snapshots.map Snapshot.uuid
    let repeated := repeatedUuids uuids
    if repeated ≠ [] then
      Action.fail (.message ("Duplicate deployments in input: " ++ ", ".intercalate repeated))
    let records ← onStore Store.listDeployments
    let clashes := uuids.filter fun uuid => records.any fun r => r.uuid = uuid
    if clashes ≠ [] then
      Action.fail (.message ("Deployments already exist: " ++ ", ".intercalate clashes))
    Action.mapError (CommandError.explained "Failed to import deployments")
      (World.importDeployments backup.snapshots)

end DesiredState.Command
