import DesiredState.Json.Member
import DesiredState.Poll

/-!
# The JSON form of policies

A duration is an array of seconds and nanoseconds. A policy is an object whose members replace
those of a policy to start from.
-/

namespace DesiredState

def Duration.toJson (d : Duration) : Json := .arr [.ofNat d.seconds, .ofNat d.subsecond]

def Duration.ofJson? : Json → Option Duration
  | .arr [.num (.int seconds), .num (.int nanos)] => some (.ofParts seconds.toNat nanos.toNat)
  | _ => none

/-- The number that a value denotes; those without a numeral are written as words. -/
def numberOfJson? : Json → Option Float
  | .num (.float x) => some x
  | .num (.int i) =>
    some (if i < 0 then -(Float.ofNat i.natAbs) else Float.ofNat i.natAbs)
  | .str "NaN" => some (0.0 / 0.0)
  | .str "inf" => some (1.0 / 0.0)
  | .str "-inf" => some (-1.0 / 0.0)
  | _ => none

def wordMember (v : Json) (key : String) (default : UInt32) : UInt32 :=
  ((v.whole? key).map fun i => UInt32.ofNat i.toNat).getD default

def durationMember (v : Json) (key : String) (default : Duration) : Duration :=
  (Duration.ofJson? (v.member key)).getD default

/-- The policy with the members of an object replaced. -/
def Retry.Policy.overriding (p : Retry.Policy) (v : Json) : Retry.Policy where
  maxAttempts := wordMember v "max_attempts" p.maxAttempts
  baseDelay := durationMember v "base" p.baseDelay
  jitterUnit := durationMember v "jitter" p.jitterUnit
  maxExtensions := wordMember v "max_extensions" p.maxExtensions

/-- The policy that a value denotes: a preset by name or the members that differ from the
default. A preset has the default number of extensions. -/
def Retry.Policy.ofJson (v : Json) : Retry.Policy :=
  let byDefault : Retry.Policy := {}
  match v.text "preset" with
  | "no_retry" => Retry.Policy.once
  | "immediate" => Retry.Policy.immediate (wordMember v "max_attempts" byDefault.maxAttempts)
  | "new" => { Retry.Policy.overriding {} v with maxExtensions := byDefault.maxExtensions }
  | _ => Retry.Policy.overriding {} v

/-- The policy with the members of an object replaced. -/
def Poll.Policy.overriding (p : Poll.Policy) (v : Json) : Poll.Policy where
  initial := durationMember v "initial" p.initial
  factor := (numberOfJson? (v.member "factor")).getD p.factor
  maxTries := wordMember v "max_tries" p.maxTries
  onTimeout := match v.member "or_false" with
    | .bool true => .returnFalse
    | .bool false => .fail
    | _ => p.onTimeout

end DesiredState
