import DesiredState.Command.Error
import DesiredState.State.Basic
import DesiredState.World.Records

/-!
# Commands on deployments

Listing the resources of a deployment, creating a deployment with a name that is not taken, and
deleting one that no longer has resources, or all the same when forced.
-/

namespace DesiredState.Command

variable {ρ α : Type}

abbrev Operation (ρ α : Type) : Type := Action (World ρ) CommandError α

def onStore (a : Action Store StoreError α) : Operation ρ α :=
  (World.onStore a).mapError CommandError.store

def change (a : World.Change ρ α) : Operation ρ α := Action.mapError CommandError.store a

def step (a : State.Step α) : Operation ρ α := (World.onStore a).mapError CommandError.failure

structure ResourceRow where
  name : String
  resourceType : String
  status : Status
  resourceId : Option String
  obsolete : Bool
  deriving DecidableEq

def resourceRow (r : ResourceRecord) : State.Step ResourceRow := do
  let status ← State.status r
  let resourceId ← State.resourceId r
  let obsolete ← State.isObsolete r
  return ⟨r.name, r.resourceType, status, resourceId, obsolete⟩

def rowsOf : List ResourceRecord → State.Step (List ResourceRow)
  | [] => return []
  | r :: rest => do
    let row ← resourceRow r
    let rows ← rowsOf rest
    return row :: rows

def resourceRows (deployment : String) : Operation ρ (List ResourceRow) := do
  step (rowsOf (← onStore (Store.listResources deployment)))

/-- Create a deployment under a fresh UUID, with a name if one is given. -/
def createDeployment (fresh : String) (name : Option String) : Operation ρ String := do
  if let some name := name then
    let records ← onStore Store.listDeployments
    if records.any fun r => r.name = some name then
      Action.fail (.message ("A deployment named '" ++ name ++ "' already exists"))
  change (World.createDeployment fresh)
  if let some name := name then
    onStore (Store.set (.deployment fresh) Store.nameKey (.str name))
  World.log .info .deployments ("Created deployment " ++ fresh)
  return fresh

/-- The names of the resources that may still exist. -/
def liveNames (rows : List ResourceRow) : List String :=
  (rows.filter fun row => row.status ≠ .missing).map ResourceRow.name

/-- Delete a deployment after asking. The outcome is its UUID, or nothing if the answer was no.
A deployment with resources that may still exist is deleted only by force. -/
def deleteDeployment (key : String) (force : Bool) (confirm : Confirmation) :
    Operation ρ (Option String) := do
  let record ← onStore (Store.findDeployment key)
  let rows ← resourceRows record.uuid
  let live := liveNames rows
  if live ≠ [] then
    if ¬ force then
      Action.fail (.message ("Deployment " ++ record.uuid ++
        " still has resources that may exist: " ++ ", ".intercalate live ++
        ". Destroy them first or pass --force"))
    World.log .warn .deployments
      ("Forgetting resources that may still exist: " ++ ", ".intercalate live)
  let question := "Delete deployment " ++ record.uuid ++ " and its " ++
    toString record.resourceCount ++ " resource record(s)?"
  if ← (confirm.ask question).mapError CommandError.failure then
    change (World.purgeDeployment record.uuid)
    return some record.uuid
  return none

end DesiredState.Command
