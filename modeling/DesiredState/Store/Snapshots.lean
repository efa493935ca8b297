import DesiredState.Snapshot.Basic
import DesiredState.Store.Deployments

/-!
# Taking snapshots and restoring them

A restored deployment gets fresh ids for its resources. Several snapshots are restored together
or not at all.
-/

namespace DesiredState.Store

def snapshotResource (r : StoredResource) : Except StoreError (String × ResourceSnapshot) :=
  (r.attributes.mapM? decodeText).map fun attributes => (r.name, ⟨r.resourceType, attributes⟩)

def snapshotOf (uuid : String) (d : StoredDeployment) : Except StoreError Snapshot := do
  let attributes ← d.attributes.mapM? decodeText
  let resources ← d.resources.mapM snapshotResource
  .ok ⟨uuid, attributes, KeyMap.ofList resources⟩

def exportDeployment (uuid : String) : Action Store StoreError Snapshot :=
  Action.reading fun s =>
    match s.deployments.find? uuid with
    | none => .error (.deploymentNotFound uuid)
    | some d => snapshotOf uuid d

def restoreResource (uuid : String) (entry : String × ResourceSnapshot) :
    Action Store StoreError Unit := do
  let record ← insertResource uuid entry.1 entry.2.resourceType
  replaceAttributes record.scope entry.2.attributes

/-- Restore one deployment, its resources in the order of their names. -/
def restore (snapshot : Snapshot) : Action Store StoreError Unit := do
  createDeployment snapshot.uuid
  replaceAttributes (.deployment snapshot.uuid) snapshot.attributes
  Action.forEach (restoreResource snapshot.uuid) snapshot.resources.entries

/-- Restore several deployments, all or none. -/
def importDeployments (snapshots : List Snapshot) : Action Store StoreError (List String) :=
  Action.transaction do
    Action.forEach restore snapshots
    return snapshots.map Snapshot.uuid

end DesiredState.Store
