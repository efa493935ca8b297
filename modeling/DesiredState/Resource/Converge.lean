import DesiredState.Diff.Compute
import DesiredState.Plan.Basic
import DesiredState.Resource.Basic

/-!
# Bringing a resource in line with its definition

A pass compares the definition with the records, plans handlers for what differs and runs them in
order. While handlers run the resource is starting, unless it is up. A failure ends the pass; what
was recorded until then stays, so that the next pass goes on from there.
-/

namespace DesiredState.Resource

variable {ρ : Type}

def checkType (r : Resource ρ) (d : Definition) : Except Failure Unit :=
  if d.resourceType = r.resourceType then .ok ()
  else .error (.config r.name ("definition has type '" ++ d.resourceType ++ "', resource is '" ++
    r.resourceType ++ "'"))

def valueText : Option Json → String
  | none => "nothing"
  | some v => v.render

def driftText (resource : String) (d : Drift) : String :=
  resource ++ ": '" ++ d.key ++ "' changed outside of stratus (recorded " ++
    valueText d.recorded ++ ", provider reports " ++ valueText d.observed ++
    "); re-run create to restore it or update the definition"

def warnDrift (resource : String) (report : CheckReport) : Task ρ Unit :=
  Action.forEach (fun d => World.log .warn .engine (driftText resource d)) report.drift

/-- What differs between a definition and the records. -/
def difference (r : Resource ρ) (d : Definition) (resolve : Store → Resolver) : Task ρ Diff := do
  let current ← World.onStore (State.snapshot r.record)
  Action.reading fun w => Diff.compute d current r.reserved (resolve w.store)

def planFor (r : Resource ρ) (diff : Diff) : Except Failure (Plan (Handling ρ)) :=
  Plan.make r.resourceType r.registry diff

/-- With nothing left to do: a resource that exists is up. -/
def settle (r : Resource ρ) : Task ρ Unit := do
  let id ← World.onStore (State.resourceId r.record)
  if id.isNone then
    World.log .debug .engine (r.name ++ ": no change")
  else if (← World.onStore (State.status r.record)) = .up then
    World.log .debug .engine (r.name ++ ": no change")
  else
    World.log .info .engine (r.name ++ ": nothing left to apply, marking up")
    World.onStore (State.setStatus r.record .up)

/-- Mark a resource as starting unless it is up. -/
def begin (r : Resource ρ) : Task ρ Unit := do
  if (← World.onStore (State.status r.record)) ≠ .up then
    World.onStore (State.setStatus r.record .starting)

def failureText? {α : Type} : Except Failure α → Option String
  | .ok _ => none
  | .error cause => some cause.message

def reportEnd (r : Resource ρ) (h : Handler (Handling ρ)) (outcome : Except Failure Unit) :
    Task ρ Unit :=
  if Failure.returns outcome then
    World.progress (.completed r.name h.id (failureText? outcome))
  else pure ()

def runHandler (r : Resource ρ) (d : Definition) (consent : Consent) (h : Handler (Handling ρ)) :
    Task ρ Unit := do
  World.progress (.started r.name h.id)
  let outcome ← (h.operation d consent).attempt
  r.reportEnd h outcome
  Action.ofExcept outcome

def apply (r : Resource ρ) (d : Definition) (consent : Consent) (diff : Diff)
    (plan : Plan (Handling ρ)) : Task ρ Summary := do
  World.log .info .engine
    (r.name ++ ": " ++ diff.summary.text ++ " (" ++ ", ".intercalate plan.ids ++ ")")
  World.progress (.planned r.name plan.ids)
  r.begin
  Action.forEach (r.runHandler d consent) plan.handlers
  World.onStore (State.setStatus r.record .up)
  return ⟨plan.ids, diff.changedKeys⟩

def pass (r : Resource ρ) (d : Definition) (consent : Consent) (resolve : Store → Resolver) :
    Task ρ Summary := do
  let diff ← r.difference d resolve
  let plan ← Action.ofExcept (r.planFor diff)
  if plan.isEmpty then
    r.settle
    return .unchanged
  r.apply d consent diff plan

def converge (r : Resource ρ) (d : Definition) (options : PassOptions)
    (resolve : Store → Resolver) : Task ρ Summary := do
  Action.ofExcept (r.checkType d)
  if options.check then
    warnDrift r.name (← r.check)
  r.pass d options.consent resolve

/-- Show what a pass would do, and do nothing. -/
def preview (r : Resource ρ) (d : Definition) (resolve : Store → Resolver) : Task ρ Summary := do
  Action.ofExcept (r.checkType d)
  let diff ← r.difference d resolve
  World.log .info .engine (r.name ++ ": " ++ diff.summary.text)
  let plan ← Action.ofExcept (r.planFor diff)
  Action.forEach (World.log .info .engine) (plan.report diff)
  return ⟨plan.ids, diff.changedKeys⟩

def siblings (r : Resource ρ) : Store → Resolver := fun s =>
  State.resolver s r.record.deployment

/-- Bring a resource in line with a definition that may refer to its siblings. -/
def create (r : Resource ρ) (d : Definition) (options : PassOptions) : Task ρ Summary :=
  r.converge d options r.siblings

end DesiredState.Resource
