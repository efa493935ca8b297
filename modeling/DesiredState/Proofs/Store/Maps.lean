import DesiredState.Store.Attributes
import Mathlib.Logic.Function.Basic

/-!
# One map of values for each owner

What a store does with attributes, said with maps: an owner that exists has a map from keys to
values, and nothing is known of texts, rows or tables. Beside it stands the same for the store
itself: every request that can be made of an owner, alone or in a transaction, and what is
observed of it. Requests name their owner, so handles on several owners interleave freely.
-/

namespace DesiredState.Store

/-- What may be asked about the attributes of an owner. -/
inductive Request where
  | get (key : String)
  | getOr (key : String) (default : Json)
  | keys
  | exportAll
  | set (key : String) (v : Json)
  | setMany (values : List (String × Json))
  | delete (key : String)
  | clear
  | importAll (values : KeyMap Json)

inductive Reply where
  | done
  | found (v : Option Json)
  | value (v : Json)
  | names (keys : List String)
  | all (values : KeyMap Json)
  deriving DecidableEq

/-- The values that a request may bring into the store. -/
def Request.values : Request → List Json
  | .set _ v => [v]
  | .setMany values => values.map Prod.snd
  | .importAll values => values.values
  | _ => []

/-- Whether a request stores something, which takes an owner. -/
def Request.stores (request : Request) : Bool := request.values.any fun v => ¬ v.isNull

/-- What is done at once: one request, or several as a transaction, which the caller may fail
in the end. -/
inductive Operation (ε : Type) where
  | alone (scope : Scope) (request : Request)
  | transaction (steps : List (Scope × Request)) (refusal : Option ε)

def Operation.values {ε : Type} : Operation ε → List Json
  | .alone _ request => request.values
  | .transaction steps _ => steps.flatMap fun step => step.2.values

/-- What is observed of an operation: its answers, all or those before the cause of a failure. -/
abbrev Outcome (ε : Type) : Type := Except (List Reply × ε) (List Reply)

variable {ε : Type} [StoreFailure ε]

def Request.alone (scope : Scope) : Request → Action Store StoreError Reply
  | .get key => do return .found (← Store.get scope key)
  | .getOr key default => do return .value (← Store.getOr scope key default)
  | .keys => do return .names (← Store.keys scope)
  | .exportAll => do return .all (← exportAttributes scope)
  | .set key v => do Store.set scope key v; return .done
  | .setMany values => do Store.setMany scope values; return .done
  | .delete key => do Store.delete scope key; return .done
  | .clear => do Store.clear scope; return .done
  | .importAll values => do importAttributes scope values; return .done

/-- A request inside a transaction, which alone decides what is kept. -/
def Request.within (scope : Scope) : Request → Action Store StoreError Reply
  | .setMany values => do setEach scope values; return .done
  | .importAll values => do replaceAttributes scope values; return .done
  | request => request.alone scope

/-- Requests in turn up to the first failure. -/
def askEach : List (Scope × Request) → Action Store (List Reply × ε) (List Reply)
  | [] => return []
  | (scope, request) :: rest => do
    let reply ← (request.within scope).mapError fun e => ([], StoreFailure.ofStore e)
    let replies ← (askEach rest).mapError fun failure => (reply :: failure.1, failure.2)
    return reply :: replies

def Operation.perform : Operation ε → Action Store (List Reply × ε) (List Reply)
  | .alone scope request => do
    let reply ← (request.alone scope).mapError fun e => ([], StoreFailure.ofStore e)
    return [reply]
  | .transaction steps refusal => Action.transaction do
    let replies ← askEach steps
    match refusal with
    | none => return replies
    | some e => Action.fail (replies, e)

def performAll : List (Operation ε) → Store → List (Outcome ε) × Store
  | [], s => ([], s)
  | operation :: rest, s =>
    let (outcome, s) := operation.perform.run s
    let (outcomes, s) := performAll rest s
    (outcome :: outcomes, s)

/-- A map for each owner that exists. -/
abbrev Maps : Type := Scope → Option (KeyMap Json)

/-- A map with a value at a key; `null` takes the key out. -/
def record (m : KeyMap Json) (key : String) (v : Json) : KeyMap Json :=
  if v.isNull then m.erase key else m.insert key v

def Request.answer (m : KeyMap Json) : Request → Reply
  | .get key => .found (m.find? key)
  | .getOr key default => .value ((m.find? key).getD default)
  | .keys => .names m.keys
  | .exportAll => .all m
  | _ => .done

/-- What a request makes of a map. -/
def Request.effect (m : KeyMap Json) : Request → KeyMap Json
  | .set key v => record m key v
  | .setMany values => values.foldl (fun m entry => record m entry.1 entry.2) m
  | .delete key => m.erase key
  | .clear => .empty
  | .importAll values => values.filter fun _ v => ¬ v.isNull
  | _ => m

namespace Maps

/-- One request: the map of its owner alone changes. Without an owner nothing is found, nothing
can be removed, and storing fails. -/
def ask (M : Maps) (scope : Scope) (request : Request) : Except StoreError Reply × Maps :=
  match M scope with
  | some m => (.ok (request.answer m), Function.update M scope (some (request.effect m)))
  | none =>
    if request.stores then (.error (.database .ownerMissing), M)
    else (.ok (request.answer .empty), M)

/-- Requests in turn up to the first failure. -/
def askEach (M : Maps) : List (Scope × Request) → Outcome ε × Maps
  | [] => (.ok [], M)
  | (scope, request) :: rest =>
    match M.ask scope request with
    | (.error e, N) => (.error ([], StoreFailure.ofStore e), N)
    | (.ok reply, N) =>
      match askEach N rest with
      | (.error (replies, e), N) => (.error (reply :: replies, e), N)
      | (.ok replies, N) => (.ok (reply :: replies), N)

/-- One operation: a transaction that fails, on its own account or the caller's, changes
nothing. -/
def perform (M : Maps) : Operation ε → Outcome ε × Maps
  | .alone scope request => M.askEach [(scope, request)]
  | .transaction steps refusal =>
    match M.askEach steps with
    | (.error failure, _) => (.error failure, M)
    | (.ok replies, N) =>
      match refusal with
      | some e => (.error (replies, e), M)
      | none => (.ok replies, N)

def performAll (M : Maps) : List (Operation ε) → List (Outcome ε) × Maps
  | [] => ([], M)
  | operation :: rest =>
    let (outcome, N) := M.perform operation
    let (outcomes, N) := N.performAll rest
    (outcome :: outcomes, N)

end Maps

end DesiredState.Store
