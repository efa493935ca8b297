import DesiredState.Command.Deployments
import DesiredState.Text.Blank

/-!
# Commands on single resources

Renaming a record and forgetting one. Neither touches what the record stands for.
-/

namespace DesiredState.Command

variable {ρ : Type}

def renameResource (key source target : String) : Operation ρ Unit := do
  if Text.isBlankText target then
    Action.fail (.message "Resource name cannot be empty")
  let record ← onStore (Store.findDeployment key)
  change (World.renameResource record.uuid source target)

/-- The question before a record is forgotten; it warns of a resource that may still exist. -/
def purgeQuestion (r : ResourceRecord) : State.Step String := do
  let status ← State.status r
  if status = .missing then return "Purge resource '" ++ r.name ++ "'?"
  let id := (← State.resourceId r).getD "-"
  return "Resource '" ++ r.name ++ "' is " ++ status.text ++ " (id " ++ id ++
    "); forget it without destroying it?"

/-- Forget a resource after asking; whether the answer was yes. -/
def purgeResource (key name : String) (confirm : Confirmation) : Operation ρ Bool := do
  let record ← onStore (Store.findDeployment key)
  match ← onStore (Store.findResource record.uuid name) with
  | none =>
    Action.fail (.message ("Resource '" ++ name ++ "' not found in deployment " ++ record.uuid))
  | some r =>
    let question ← step (purgeQuestion r)
    if ← (confirm.ask question).mapError CommandError.failure then
      World.log .debug .state ("Purging resource " ++ r.name)
      change (World.purgeResource r.id)
      return true
    return false

end DesiredState.Command
