import DesiredState.Volume.Handlers

/-!
# Volumes

Checking a volume corrects the records where the provider says otherwise, and forgets a volume
that is gone. Destroying one asks before its data are erased.
-/

namespace DesiredState.Volume

def volumeType : String := "volume"

def sizeDrift (recorded : Option Int) (observed : Int) : List Drift :=
  match recorded with
  | none => []
  | some size =>
    if size = observed then []
    else [⟨"size", some (.ofInt size), some (.ofInt observed)⟩]

def attachmentDrift (recorded observed : Option String) : List Drift :=
  if recorded = observed then []
  else [⟨"attachedTo", recorded.map .str, observed.map .str⟩]

/-- Record what was observed, all or nothing. -/
def absorb (r : ResourceRecord) (drift : List Drift) : Task Cloud Unit :=
  World.inStore (Action.transaction
    (Action.forEach (fun d => Store.set r.scope d.key (d.observed.getD .null)) drift))

/-- Compare the records with a volume that exists and correct them. -/
def compare (r : ResourceRecord) (observed : CloudVolume) : Task Cloud CheckReport := do
  let size ← recorded r "size" Json.expectInt64
  let target ← recorded r "attachedTo" Json.expectString
  let drift := sizeDrift size observed.size ++ attachmentDrift target observed.attachedTo
  absorb r drift
  return ⟨← World.onStore (State.status r), drift⟩

/-- Compare the records with the provider and correct them. -/
def check (r : ResourceRecord) : Task Cloud CheckReport := do
  match ← World.onStore (State.resourceId r) with
  | none => return .inSync (← World.onStore (State.status r))
  | some id =>
    match ← remotely "describe volume" (Cloud.describe id) with
    | some observed => compare r observed
    | none =>
      World.log .warn .engine (r.name ++ ": volume " ++ id ++ " no longer exists")
      World.onStore (State.markDestroyed r ownedKeys)
      return .inSync .missing

/-- Delete the volume that the records name. -/
def remove (r : ResourceRecord) (id : String) : Task Cloud Unit := do
  World.onStore (State.setStatus r .stopping)
  World.exclusive (attachmentKey id) (remotely "delete volume" (Cloud.deleteVolume id))
  World.onStore (State.markDestroyed r ownedKeys)

/-- Delete a volume, after asking if its data are to be erased; whether the user agreed. -/
def destroy (r : ResourceRecord) (wipe : Bool) (confirm : Confirmation) : Task Cloud Bool := do
  match ← World.onStore (State.resourceId r) with
  | none =>
    World.onStore (State.markDestroyed r ownedKeys)
    return true
  | some id =>
    if wipe then
      if ¬ (← confirm.ask ("Erase all data on " ++ r.name ++ " (" ++ id ++ ")?")) then
        return false
    remove r id
    return true

def resource (r : ResourceRecord) : Resource Cloud where
  record := r
  resourceType := volumeType
  registry := registry r
  check := check r
  destroy := destroy r

def declare (deployment name resourceType : String) : Task Cloud (Resource Cloud) := do
  return resource (← World.inStore (Store.declareResource deployment name resourceType))

end DesiredState.Volume
