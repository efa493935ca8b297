import DesiredState.Command.Error
import DesiredState.Json.Member

/-!
# The JSON form of failures

A failure is written as an object with a tag, its message and, for failures of reconciliation,
its kind. A value that cannot be decoded has no message. Failures to be played through are
described by a type, a resource and a message.
-/

namespace DesiredState

def StoreError.tag : StoreError → String
  | .database _ => "Database"
  | .invalidValue _ => "Json"
  | .createDirectory .. => "CreateDir"
  | .deploymentNotFound _ => "DeploymentNotFound"
  | .ambiguousDeployment _ => "AmbiguousDeployment"
  | .deploymentExists _ => "DeploymentExists"
  | .resourceNotFound .. => "ResourceNotFound"
  | .resourceExists .. => "ResourceExists"
  | .typeMismatch .. => "TypeMismatch"

def LockError.tag : LockError → String
  | .lockFile .. => "LockFile"
  | .lock .. => "Lock"
  | .timedOut .. => "TimedOut"

namespace Failure

def Kind.tag : Kind → String
  | .configuration => "Configuration"
  | .coverage => "Coverage"
  | .consentRequired => "ConsentRequired"
  | .transient => "Transient"
  | .permanent => "Permanent"
  | .internal => "Internal"

/-- The tag of a failure; one of the store or of a lock keeps its own behind a dot. -/
def tag : Failure → String
  | .config .. => "Config"
  | .danglingReference .. => "DanglingReference"
  | .coverage .. => "Coverage"
  | .consentRequired .. => "ConsentRequired"
  | .transient .. => "Transient"
  | .provider .. => "Provider"
  | .corruptStatus .. => "CorruptStatus"
  | .handlerCycle _ => "HandlerCycle"
  | .unknownHandler .. => "UnknownHandler"
  | .duplicateHandler _ => "DuplicateHandler"
  | .store cause => "Store." ++ cause.tag
  | .lock cause => "Lock." ++ cause.tag
  | .workerPool _ => "WorkerPool"
  | .prompt _ => "Prompt"
  | .overflow => "Panic"

end Failure

def StoreError.messageMember (e : StoreError) (text : String) : List (String × Json) :=
  match e with
  | .invalidValue _ => []
  | _ => [("message", .str text)]

def StoreError.toJson (e : StoreError) : Json :=
  .obj (("error", .str e.tag) :: e.messageMember e.message)

def LockError.toJson (e : LockError) : Json :=
  .obj [("error", .str e.tag), ("message", .str e.message)]

def Failure.messageMember : Failure → List (String × Json)
  | .store cause => cause.messageMember (Failure.message (.store cause))
  | e => [("message", .str e.message)]

def Failure.toJson (e : Failure) : Json :=
  .obj (("error", .str e.tag) :: ("kind", .str e.kind.tag) :: e.messageMember)

/-- The JSON form of a message that no other failure stands behind. -/
def messageJson (text : String) : Json :=
  .obj [("error", .str "Message"), ("message", .str text)]

def CommandError.toJson : CommandError → Json
  | .failure cause => cause.toJson
  | .store cause => cause.toJson
  | .lock cause => cause.toJson
  | .message text => messageJson text
  | .explained text cause => .obj (("error", .str cause.tag) :: cause.messageMember text)

def Failure.ofJson (v : Json) : Failure :=
  let resource := (v.text? "resource").getD "cloud"
  let message := v.text "message"
  match v.text "type" with
  | "config" => .config resource message
  | "recreate_required" => .recreateRequired resource message
  | "reboot_required" => .rebootRequired resource message
  | "transient" => .transient resource message false
  | "rate_limited" => .transient resource message true
  | "provider" => .provider resource message
  | "dangling" => .danglingReference resource message
  | "coverage" => .coverage resource (v.texts "keys")
  | "corrupt_status" => .corruptStatus resource message
  | "cycle" => .handlerCycle (v.texts "path")
  | "unknown_handler" => .unknownHandler resource message
  | "duplicate" => .duplicateHandler message
  | "worker_pool" => .workerPool message
  | "timed_out" => .lock (.timedOut message (UInt32.ofNat (v.natural "tries" 0)))
  | "store.not_found" => .store (.deploymentNotFound message)
  | "store.ambiguous" => .store (.ambiguousDeployment message)
  | "store.exists" => .store (.deploymentExists message)
  | "store.resource_not_found" => .store (.resourceNotFound message resource)
  | "store.resource_exists" => .store (.resourceExists message resource)
  | "store.type_mismatch" => .store (.typeMismatch resource message (v.text "requested"))
  | _ => .prompt message

end DesiredState
