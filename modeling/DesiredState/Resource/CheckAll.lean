import DesiredState.Resource.Converge

/-!
# Checking many resources

Every resource is checked, also after others failed. The outcomes come in the order of the
resources. Where a check overflows a counter the program ends, at the latest when all checks are
through.
-/

namespace DesiredState.Resource

variable {ρ ε : Type}

/-- Warn of drift or of the failure. -/
def warnOutcome (r : Resource ρ) (outcome : Except Failure CheckReport) :
    Action (World ρ) ε Unit :=
  match outcome with
  | .ok report =>
    Action.forEach (fun d => World.log .warn .engine (driftText r.name d)) report.drift
  | .error .overflow => pure ()
  | .error cause => World.log .warn .engine (r.name ++ ": check failed: " ++ cause.message)

/-- Check a resource and say what is wrong with it. -/
def checkReporting (r : Resource ρ) :
    Action (World ρ) ε (String × Except Failure CheckReport) := do
  let outcome ← r.check.attempt
  r.warnOutcome outcome
  return (r.name, outcome)

def checkAll : List (Resource ρ) →
    Action (World ρ) ε (List (String × Except Failure CheckReport))
  | [] => return []
  | r :: rest => do
    let outcome ← r.checkReporting
    let outcomes ← checkAll rest
    return outcome :: outcomes

end DesiredState.Resource
