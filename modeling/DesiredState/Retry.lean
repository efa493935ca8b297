import DesiredState.Action
import DesiredState.Decimal.Fixed
import DesiredState.Duration

/-!
# Trying again

A failed operation is tried again as long as its failure is worth it and attempts are left.
Before attempt `n + 1` there is a pause of a fixed part plus a random part that doubles with
each attempt. A rate-limited failure lengthens the budget of attempts by one, a limited number
of times, instead of using it up. Counters are words of 32 bits, and one of them can overflow: the
budget of a policy that allows nearly all attempts that can be counted.
-/

namespace DesiredState.Retry

inductive Decision where
  /-- Try again; the attempt counts. -/
  | retry
  /-- Try again; the attempt counts only when all extensions are used up. -/
  | rateLimited
  /-- Give up. -/
  | fail
  deriving DecidableEq, Repr

def Decision.text : Decision → String
  | .retry => "Retry"
  | .rateLimited => "RateLimited"
  | .fail => "Fail"

/-- How often to try and how long to pause. -/
structure Policy where
  maxAttempts : UInt32 := 8
  baseDelay : Duration := .ofSeconds 5
  jitterUnit : Duration := .ofSeconds 1
  maxExtensions : UInt32 := 32
  deriving DecidableEq

def Policy.once : Policy := { maxAttempts := 1 }

/-- Try again without a pause. -/
def Policy.immediate (maxAttempts : UInt32) : Policy :=
  { maxAttempts := maxAttempts, baseDelay := .zero, jitterUnit := .zero }

/-- A number, or zero in place of one that is negative or no number. -/
def nonNegative (x : Float) : Float := if 0 < x then x else 0

/-- The pause after an attempt: the fixed part plus `sample * 2 ^ attempt` jitter units, the
power not beyond thirty. -/
def Policy.delay (p : Policy) (attempt : UInt32) (sample : Float) : Duration :=
  let spread := p.jitterUnit.toSeconds * nonNegative sample *
    Float.ofNat (Nat.pow 2 (min attempt.toNat 30))
  p.baseDelay.add ((Duration.ofSeconds? spread).getD .greatest)

theorem Policy.baseDelay_le_delay (p : Policy) (attempt : UInt32) (sample : Float) :
    p.baseDelay.nanos ≤ (p.delay attempt sample).nanos :=
  Duration.le_nanos_add _ _

/-- What is known when a failed attempt is about to be repeated. -/
structure Notice (ε : Type) where
  attempt : UInt32
  budget : UInt32
  cause : ε
  delay : Duration

structure Counters where
  attempt : UInt32
  extensions : UInt32
  budget : UInt32
  deriving DecidableEq

/-- At least one attempt is made. -/
def Policy.start (p : Policy) : Counters := ⟨0, 0, max p.maxAttempts 1⟩

/-- Adding one to the word gives the next number. -/
def Counts (n : UInt32) : Prop := (n + 1).toNat = n.toNat + 1

instance (n : UInt32) : Decidable (Counts n) := inferInstanceAs (Decidable (_ = _))

/-- A rate-limited failure extends the budget while it may. -/
def Counters.Extends (c : Counters) (p : Policy) (decision : Decision) : Prop :=
  decision = .rateLimited ∧ c.extensions < p.maxExtensions

instance (c : Counters) (p : Policy) (decision : Decision) : Decidable (c.Extends p decision) :=
  inferInstanceAs (Decidable (_ ∧ _))

/-- No addition that counts a failed attempt overflows. -/
def Counters.Fits (c : Counters) (p : Policy) (decision : Decision) : Prop :=
  Counts c.attempt ∧ (c.Extends p decision → Counts c.extensions ∧ Counts c.budget)

instance (c : Counters) (p : Policy) (decision : Decision) : Decidable (c.Fits p decision) :=
  inferInstanceAs (Decidable (_ ∧ _))

def Counters.failed (c : Counters) (p : Policy) (decision : Decision) : Counters :=
  if c.Extends p decision then ⟨c.attempt + 1, c.extensions + 1, c.budget + 1⟩
  else ⟨c.attempt + 1, c.extensions, c.budget⟩

variable {σ ε α : Type}

/-- Attempts from given counters on; the first argument bounds their number. A program that is
built with checked additions ends where one overflows, and `overflow` says what its caller sees of
that; without checks the budget wraps to zero, and the failure is returned as it is. -/
def Policy.attempts (p : Policy) (classify : ε → Decision) (sample : UInt32 → Float)
    (pause : Notice ε → σ → σ) (overflow : ε → ε) (operation : Action σ ε α) :
    Nat → Counters → Action σ ε α
  | 0, _ => operation
  | more + 1, c => fun s =>
    match operation s with
    | (.ok x, t) => (.ok x, t)
    | (.error cause, t) =>
      match classify cause with
      | .fail => (.error cause, t)
      | decision =>
        if c.Fits p decision then
          let c := c.failed p decision
          if c.budget ≤ c.attempt then (.error cause, t)
          else
            let delay := p.delay c.attempt (sample c.attempt)
            p.attempts classify sample pause overflow operation more c
              (pause ⟨c.attempt, c.budget, cause, delay⟩ t)
        else (.error (overflow cause), t)

/-- Run an operation under a policy. The last failure is returned unchanged. No run needs more
attempts than a counter has values. -/
def Policy.run (p : Policy) (classify : ε → Decision) (sample : UInt32 → Float)
    (pause : Notice ε → σ → σ) (overflow : ε → ε) (operation : Action σ ε α) : Action σ ε α :=
  p.attempts classify sample pause overflow operation (Word.size 32) p.start

/-- The line that reports a repeated attempt. -/
def Notice.text (n : Notice ε) (label : String) (cause : ε → String) : String :=
  label ++ ": attempt " ++ toString n.attempt.toNat ++ "/" ++ toString n.budget.toNat ++
    " failed: " ++ cause n.cause ++ ". Retrying in " ++ Decimal.oneDecimal n.delay.toSeconds ++
    "s..."

end DesiredState.Retry
