import DesiredState.Store.Snapshots
import DesiredState.World.Basic

/-!
# Changes to records that leave a line in the log
-/

namespace DesiredState.World

variable {ρ : Type}

abbrev Change (ρ α : Type) : Type := Action (World ρ) StoreError α

def createDeployment (uuid : String) : Change ρ Unit := do
  onStore (Store.createDeployment uuid)
  log .debug .store ("Created deployment " ++ uuid)

def purgeDeployment (uuid : String) : Change ρ Unit := do
  onStore (Store.purgeDeployment uuid)
  log .info .store ("Purged deployment " ++ uuid)

def renameResource (deployment source target : String) : Change ρ Unit := do
  onStore (Store.renameResource deployment source target)
  log .info .store
    ("Renamed resource '" ++ source ++ "' to '" ++ target ++ "' in " ++ deployment)

def purgeResource (id : Int) : Change ρ Unit := do
  onStore (Store.purgeResource id)
  log .debug .store ("Purged resource #" ++ String.ofList (Json.intChars id))

/-- Store several attributes, all or none; none do not even look at the store. -/
def setMany (target : Scope) (values : List (String × Json)) : Change ρ Unit :=
  if values.isEmpty then return () else onStore (Store.setMany target values)

/-- The line that tells of a restored deployment. -/
def restoredText (snapshot : Snapshot) : String :=
  "Imported deployment " ++ snapshot.uuid ++ " (" ++ toString snapshot.resources.size ++
    " resources)"

/-- Restore several deployments, all or none; none change nothing. -/
def importDeployments (snapshots : List Snapshot) : Change ρ (List String) := do
  if snapshots.isEmpty then return []
  let uuids ← onStore (Store.importDeployments snapshots)
  Action.forEach (fun snapshot => log .info .store (restoredText snapshot)) snapshots
  return uuids

end DesiredState.World
