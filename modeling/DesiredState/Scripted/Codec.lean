import DesiredState.Failure.Codec
import DesiredState.Resource.Codec
import DesiredState.Scripted.Basic

/-!
# The JSON form of scripts
-/

namespace DesiredState.Scripted

def HandlerScript.ofJson (v : Json) : HandlerScript where
  id := v.text "id"
  keys := v.texts "keys"
  after := v.texts "after"
  outcomes := (v.list "fail").map fun e => if e.isNull then none else some (Failure.ofJson e)
  label := v.text? "remote"
  needs := match v.text "needs" with
    | "recreate" => some .allowRecreate
    | "reboot" => some .allowReboot
    | _ => none
  created := v.text? "created"
  outputs := v.mapping "outputs"
  waits := v.flag "poll"

def CheckScript.ofJson (v : Json) : CheckScript where
  failure := (v.given? "error").map Failure.ofJson
  status := (v.text? "status").bind Status.ofText?
  drift := (v.list "drift").map Drift.ofJson

def ResourceScript.ofJson (number : Nat) (v : Json) : ResourceScript where
  number := number
  resourceType := v.text "type"
  handlers := (v.list "handlers").map HandlerScript.ofJson
  reserved := if (v.given? "reserved").isSome then v.texts "reserved" else State.reservedKeys
  check := CheckScript.ofJson (v.member "check")
  name := v.text "name"
  declaredType := (v.text? "declared_type").getD (v.text "type")
  attributes := v.pairs "attrs"

end DesiredState.Scripted
