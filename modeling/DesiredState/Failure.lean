import DesiredState.Retry
import DesiredState.Store.Error

/-!
# Failures of reconciliation

Every failure has a kind, and the kind decides whether trying again may help and what to advise.
-/

namespace DesiredState

/-- The consent that a disruptive change needs. -/
inductive ConsentFlag where
  | allowRecreate
  | allowReboot
  deriving DecidableEq, Repr

def ConsentFlag.text : ConsentFlag → String
  | .allowRecreate => "--allow-recreate"
  | .allowReboot => "--allow-reboot"

/-- Why a resource could not be reconciled. -/
inductive Failure where
  | config (resource message : String)
  | danglingReference (resource target : String)
  | coverage (resourceType : String) (keys : List String)
  | consentRequired (resource reason : String) (flag : ConsentFlag)
  | transient (resource message : String) (rateLimited : Bool)
  | provider (resource message : String)
  | corruptStatus (resource value : String)
  | handlerCycle (path : List String)
  | unknownHandler (handler dependency : String)
  | duplicateHandler (id : String)
  | store (cause : StoreError)
  | lock (cause : LockError)
  | workerPool (message : String)
  | prompt (message : String)
  /-- An addition overflowed. The program ends there: nothing that would still be reported of the
  failure is. -/
  | overflow
  deriving DecidableEq

instance : StoreFailure Failure where
  ofStore := .store
  store?
    | .store cause => some cause
    | _ => none

namespace Failure

inductive Kind where
  | configuration
  | coverage
  | consentRequired
  | transient
  | permanent
  | internal
  deriving DecidableEq, Repr

def Kind.advice : Kind → String
  | .configuration => "Fix the resource definition and try again"
  | .coverage => "The resource type cannot realize this change; this is a bug in its handlers"
  | .consentRequired => "Re-run with the named flag if the disruption is acceptable"
  | .transient => "Try again later"
  | .permanent => "Check the provider error and the resource definition"
  | .internal => "Check the state file and its lock"

/-- Whether a failure of this kind may go away by trying again. -/
def Kind.isRetryable : Kind → Bool
  | .transient => true
  | _ => false

def kind : Failure → Kind
  | .config .. | .danglingReference .. => .configuration
  | .coverage .. => .coverage
  | .consentRequired .. => .consentRequired
  | .transient .. => .transient
  | .provider .. => .permanent
  | .lock (.timedOut ..) => .transient
  | .corruptStatus .. | .handlerCycle .. | .unknownHandler .. | .duplicateHandler ..
  | .store .. | .lock .. | .workerPool .. | .prompt .. | .overflow => .internal

def isRetryable (f : Failure) : Bool := f.kind.isRetryable

/-- Transient failures are tried again, throttled ones without using up attempts. -/
def decision : Failure → Retry.Decision
  | .transient _ _ true => .rateLimited
  | f => if f.isRetryable then .retry else .fail

/-- An unchangeable property changed and recreating was not permitted. -/
def recreateRequired (resource reason : String) : Failure :=
  .consentRequired resource reason .allowRecreate

/-- A change needs a reboot that was not permitted. -/
def rebootRequired (resource reason : String) : Failure :=
  .consentRequired resource reason .allowReboot

def message : Failure → String
  | .config resource message => resource ++ ": invalid configuration: " ++ message
  | .danglingReference resource target =>
    resource ++ ": reference to unknown resource '" ++ target ++ "'"
  | .coverage resourceType keys =>
    "resource type '" ++ resourceType ++ "' has no handler for changed keys: " ++
      ", ".intercalate keys
  | .consentRequired resource reason flag =>
    resource ++ ": " ++ reason ++ "; re-run with " ++ flag.text ++ " to proceed"
  | .transient resource message _ => resource ++ ": transient provider error: " ++ message
  | .provider resource message => resource ++ ": provider error: " ++ message
  | .corruptStatus resource value =>
    resource ++ ": stored status " ++ value ++ " is not a lifecycle status"
  | .handlerCycle path => "handler dependency cycle: " ++ " -> ".intercalate path
  | .unknownHandler handler dependency =>
    "handler '" ++ handler ++ "' runs after unknown handler '" ++ dependency ++ "'"
  | .duplicateHandler id => "handler '" ++ id ++ "' registered twice"
  | .store cause => "state store error: " ++ cause.message
  | .lock cause => cause.message
  | .workerPool message => "failed to create worker pool: " ++ message
  | .prompt message => "confirmation prompt failed: " ++ message
  | .overflow => "attempt to add with overflow"

/-- Whether an operation comes back with an outcome: it does not where the program ends. -/
def returns {α : Type} : Except Failure α → Bool
  | .error .overflow => false
  | _ => true

end Failure

end DesiredState
