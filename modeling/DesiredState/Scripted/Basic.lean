import DesiredState.Registry.Build
import DesiredState.Resource.Basic

/-!
# Resources that follow a script

A scripted handler fails when its script says so, asks for consent, records that the resource was
created, waits for something that never happens, and finally writes down its keys. With such
handlers every path of a pass can be played through without a provider.
-/

namespace DesiredState.Scripted

structure HandlerScript where
  id : String
  /-- The keys that it owns and writes down, in this order. -/
  keys : List String
  after : List String
  /-- How one call after the other ends; calls beyond the end succeed. -/
  outcomes : List (Option Failure)
  /-- The label under which calls are tried again; without one there is one call. -/
  label : Option String
  needs : Option ConsentFlag
  /-- The id that is recorded unless the resource has one. -/
  created : Option String
  outputs : KeyMap Json
  /-- Whether to wait for something that never happens. -/
  waits : Bool

structure CheckScript where
  failure : Option Failure
  status : Option Status
  drift : List Drift

/-- What a resource is told to do. The number tells resources apart. -/
structure ResourceScript where
  number : Nat
  name : String
  resourceType : String
  /-- The type under which it is declared. -/
  declaredType : String
  /-- What is recorded about it from the start. -/
  attributes : List (String × Json)
  handlers : List HandlerScript
  reserved : List String
  check : CheckScript

/-- The calls made so far, each by the number of its resource and the id of its handler. -/
abbrev Calls : Type := List (Nat × String)

/-- Make a call; it ends as the script says. -/
def callOnce (number : Nat) (h : HandlerScript) : Task Calls Unit := fun w =>
  let outcome := match h.outcomes[w.remote.count (number, h.id)]? with
    | some (some cause) => .error cause
    | _ => .ok ()
  (outcome, { w with remote := (number, h.id) :: w.remote })

def callOut (number : Nat) (h : HandlerScript) : Task Calls Unit :=
  match h.label with
  | some label => World.retrying label (callOnce number h)
  | none => if h.outcomes.isEmpty then return () else callOnce number h

/-- Ask for the consent that the script needs. -/
def needConsent (name : String) (h : HandlerScript) (consent : Consent) : Except Failure Unit :=
  match h.needs with
  | some .allowRecreate =>
    if consent.allowRecreate then .ok () else .error (.recreateRequired name (h.id ++ " changed"))
  | some .allowReboot =>
    if consent.allowReboot then .ok () else .error (.rebootRequired name (h.id ++ " changed"))
  | none => .ok ()

/-- Record that the resource was created, if the script says so and it was not before. -/
def recordCreation (r : ResourceRecord) (h : HandlerScript) : Task Calls Unit := do
  if let some id := h.created then
    if (← World.onStore (State.resourceId r)).isNone then
      let now ← Action.view World.now
      World.onStore (State.recordCreated r now id h.outputs)

def writeKey (r : ResourceRecord) (d : Definition) (key : String) : Task Calls Unit := do
  match d.get? key with
  | none => World.inStore (Store.delete r.scope key)
  | some (.value v) => World.inStore (Store.set r.scope key v)
  | some (.reference target) =>
    match ← World.onStore (State.resolve r.deployment target) with
    | .ready v => World.inStore (Store.set r.scope key v)
    | _ => Action.fail (.config r.name (target.text ++ " is not ready"))

def perform (r : ResourceRecord) (number : Nat) (h : HandlerScript) : Handling Calls :=
  fun d consent => do
    callOut number h
    Action.ofExcept (needConsent r.name h consent)
    recordCreation r h
    if h.waits then
      let _ ← World.polling h.id (pure false)
    Action.forEach (writeKey r d) h.keys

/-- Record what the script finds and report it, with the status as it is before the drift is
recorded. -/
def check (r : ResourceRecord) (script : CheckScript) : Task Calls CheckReport := do
  if let some cause := script.failure then
    Action.fail cause
  if let some status := script.status then
    World.onStore (State.setStatus r status)
  let status ← World.onStore (State.status r)
  Action.forEach (fun d => World.inStore (Store.set r.scope d.key (d.observed.getD .null)))
    script.drift
  return ⟨status, script.drift⟩

/-- Mark the resource as destroyed, after asking if its data are to be erased. -/
def destroy (r : ResourceRecord) (wipe : Bool) (confirm : Confirmation) : Task Calls Bool := do
  if wipe then
    if ¬ (← confirm.ask ("Destroy " ++ r.name ++ "?")) then
      return false
  World.onStore (State.markDestroyed r [])
  return true

def handlersOf (r : ResourceRecord) (script : ResourceScript) : List (Handler (Handling Calls)) :=
  script.handlers.map fun h =>
    ⟨h.id, KeySet.ofNames h.keys, h.after, perform r script.number h⟩

def resource (r : ResourceRecord) (script : ResourceScript) : Resource Calls where
  record := r
  resourceType := script.resourceType
  registry := ⟨handlersOf r script⟩
  reserved := script.reserved
  check := check r script.check
  destroy := destroy r

/-- Declare a scripted resource in a deployment, provided that its handlers can be registered, and
record its attributes. -/
def declare (deployment : String) (script : ResourceScript) : Task Calls (Resource Calls) := do
  let _ ← Action.ofExcept
    (Registry.build (handlersOf ⟨0, deployment, script.name, script.declaredType⟩ script))
  let r ← World.inStore (Store.declareResource deployment script.name script.declaredType)
  World.inStore (Store.setEach r.scope script.attributes)
  return resource r script

end DesiredState.Scripted
