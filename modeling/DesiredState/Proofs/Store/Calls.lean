import DesiredState.Proofs.Snapshot
import DesiredState.Proofs.Store.Maps
import DesiredState.Store.Snapshots

/-!
# Whatever is asked of a store

A run makes calls of a store, one after the other, whether they fail or not: deployments and
resources are recorded, listed, renamed and removed, snapshots are taken and restored, and
attributes are read and written, alone, in transactions that stop at the first failure, or in
sessions that go on after one.
-/

namespace DesiredState.Store

inductive Call (ε : Type) where
  | createDeployment (uuid : String)
  | purgeDeployment (uuid : String)
  | deployments
  | findDeployment (key : String)
  | declareResource (deployment name resourceType : String)
  | resources (deployment : String)
  | findResource (deployment name : String)
  | renameResource (deployment source target : String)
  | purgeResource (id : Int)
  | exportDeployment (uuid : String)
  | importDeployments (snapshots : List Snapshot)
  | attributes (operation : Operation ε)
  /-- A transaction whose caller sees every failure, goes on, and may fail it in the end. -/
  | session (steps : List (Scope × Request)) (refusal : Option ε)

inductive Answer where
  | done
  | deployments (records : List DeploymentRecord)
  | deployment (record : DeploymentRecord)
  | resources (records : List ResourceRecord)
  | resource (record : ResourceRecord)
  | found (record : Option ResourceRecord)
  | snapshot (snapshot : Snapshot)
  | imported (uuids : List String)
  | replies (replies : List Reply)
  | outcomes (outcomes : List (Except StoreError Reply))

def Answer.records : Answer → List ResourceRecord
  | .resources records => records
  | .resource record => [record]
  | .found record => record.toList
  | _ => []

def tryEach {δ : Type} :
    List (Scope × Request) → Action Store δ (List (Except StoreError Reply))
  | [] => return []
  | (scope, request) :: rest => do
    let outcome ← (request.within scope).attempt
    let outcomes ← tryEach rest
    return outcome :: outcomes

namespace Call

variable {ε : Type}

def values : Call ε → List Json
  | .importDeployments snapshots => snapshots.flatMap Snapshot.values
  | .attributes operation => operation.values
  | .session steps _ => steps.flatMap fun step => step.2.values
  | _ => []

variable [StoreFailure ε]

def told {α : Type} (answer : α → Answer) (a : Action Store StoreError α) :
    Action Store (List Reply × ε) Answer := do
  return answer (← a.mapError fun e => ([], StoreFailure.ofStore e))

def perform : Call ε → Action Store (List Reply × ε) Answer
  | .createDeployment uuid => told (fun _ => .done) (Store.createDeployment uuid)
  | .purgeDeployment uuid => told (fun _ => .done) (Store.purgeDeployment uuid)
  | .deployments => told .deployments listDeployments
  | .findDeployment key => told .deployment (Store.findDeployment key)
  | .declareResource deployment name resourceType =>
    told .resource (Store.declareResource deployment name resourceType)
  | .resources deployment => told .resources (listResources deployment)
  | .findResource deployment name => told .found (Store.findResource deployment name)
  | .renameResource deployment source target =>
    told (fun _ => .done) (Store.renameResource deployment source target)
  | .purgeResource id => told (fun _ => .done) (Store.purgeResource id)
  | .exportDeployment uuid => told .snapshot (Store.exportDeployment uuid)
  | .importDeployments snapshots => told .imported (Store.importDeployments snapshots)
  | .attributes operation => do return .replies (← operation.perform)
  | .session steps refusal => Action.transaction do
    let outcomes ← tryEach steps
    match refusal with
    | none => return .outcomes outcomes
    | some e => Action.fail ([], e)

end Call

section callAll

variable {ε : Type} [StoreFailure ε]

def callAll : List (Call ε) → Store → List (Except (List Reply × ε) Answer) × Store
  | [], s => ([], s)
  | call :: rest, s =>
    let (outcome, s) := call.perform.run s
    let (outcomes, s) := callAll rest s
    (outcome :: outcomes, s)

theorem callAll_append (calls more : List (Call ε)) (s : Store) :
    callAll (calls ++ more) s =
      ((callAll calls s).1 ++ (callAll more (callAll calls s).2).1,
        (callAll more (callAll calls s).2).2) := by
  induction calls generalizing s with
  | nil => rfl
  | cons call calls ih => simp only [List.cons_append, callAll, ih]

theorem callAll_append_state (calls more : List (Call ε)) (s : Store) :
    (callAll (calls ++ more) s).2 = (callAll more (callAll calls s).2).2 := by
  rw [callAll_append]

/-- What is answered somewhere in a run is answered by a call in the state that was reached. -/
theorem mem_callAll {calls : List (Call ε)} {s : Store} {outcome : Except (List Reply × ε) Answer}
    (h : outcome ∈ (callAll calls s).1) : ∃ before call after, calls = before ++ call :: after ∧
      (call.perform.run (callAll before s).2).1 = outcome := by
  induction calls generalizing s with
  | nil => cases h
  | cons call calls ih =>
    rcases List.mem_cons.mp h with rfl | h
    · exact ⟨[], call, calls, rfl, rfl⟩
    · obtain ⟨before, next, after, rfl, hrun⟩ := ih h
      exact ⟨call :: before, next, after, rfl, hrun⟩

end callAll

end DesiredState.Store
