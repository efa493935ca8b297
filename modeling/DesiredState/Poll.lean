import DesiredState.Lock.Error
import DesiredState.Retry

/-!
# Waiting for a condition

A condition is evaluated until it holds, with a pause after each evaluation but the last. Each
pause is the one before it times a factor.
-/

namespace DesiredState.Poll

/-- What happens when the condition never held. -/
inductive OnTimeout where
  | fail
  | returnFalse
  deriving DecidableEq, Repr

/-- How often to evaluate and how long to pause. -/
structure Policy where
  initial : Duration := .ofSeconds 10
  factor : Float := 1
  maxTries : UInt32 := 60
  onTimeout : OnTimeout := .fail
  deriving DecidableEq

/-- The condition is evaluated at least once. -/
def Policy.tries (p : Policy) : UInt32 := max p.maxTries 1

/-- The next pause, at most the longest duration; no pause stays no pause. -/
def grow (factor : Float) (delay : Duration) : Duration :=
  if delay.isZero then delay
  else (Duration.ofSeconds? (delay.toSeconds * Retry.nonNegative factor)).getD .greatest

theorem grow_zero (factor : Float) : grow factor .zero = .zero := rfl

variable {σ ε : Type}

/-- Evaluate up to a number of times; whether the condition came true. -/
def evaluations (factor : Float) (pause : Duration → σ → σ) (condition : Action σ ε Bool) :
    Nat → Duration → Action σ ε Bool
  | 0, _ => pure false
  | 1, _ => condition
  | left + 2, delay => do
    if ← condition then return true
    Action.update (pause delay)
    evaluations factor pause condition (left + 1) (grow factor delay)

def Policy.await (p : Policy) (what : String) (timedOut : LockError → ε)
    (pause : Duration → σ → σ) (condition : Action σ ε Bool) : Action σ ε Bool := do
  if ← evaluations p.factor pause condition p.tries.toNat p.initial then return true
  match p.onTimeout with
  | .returnFalse => return false
  | .fail => Action.fail (timedOut (.timedOut what p.tries))

/-- A test that cannot fail, as a condition. -/
def sure (test : σ → Bool × σ) : Action σ ε Bool := fun s => (.ok (test s).1, (test s).2)

def Policy.awaitSure (p : Policy) (what : String) (pause : Duration → σ → σ)
    (test : σ → Bool × σ) : Action σ LockError Bool :=
  p.await what id pause (sure test)

end DesiredState.Poll
