import DesiredState.Decimal.Binary
import DesiredState.Word

/-!
# Durations

A duration is a whole number of nanoseconds with at most `2 ^ 64 - 1` seconds. Sums stop at the
greatest duration. Seconds given as a double are rounded to the nearest nanosecond, halfway to
the even one.
-/

namespace DesiredState

def nanosPerSecond : Nat := Nat.pow 10 9

/-- The number of durations: seconds fill a word of 64 bits. -/
def Duration.bound : Nat := Word.size 64 * nanosPerSecond

structure Duration where
  nanos : Nat
  inRange : nanos < Duration.bound := by decide
  deriving DecidableEq

namespace Duration

def zero : Duration := ⟨0, by decide⟩

def greatest : Duration := ⟨bound - 1, by decide⟩

instance : Inhabited Duration := ⟨zero⟩

/-- A number of nanoseconds, at most the longest duration. -/
def ofNanos (n : Nat) : Duration := if h : n < bound then ⟨n, h⟩ else greatest

def ofParts (seconds nanos : Nat) : Duration := ofNanos (seconds * nanosPerSecond + nanos)

def ofSeconds (seconds : Nat) : Duration := ofParts seconds 0

def seconds (d : Duration) : Nat := d.nanos / nanosPerSecond

def subsecond (d : Duration) : Nat := d.nanos % nanosPerSecond

/-- The sum, or the longest duration where the sum would be longer. -/
def add (a b : Duration) : Duration := ofNanos (a.nanos + b.nanos)

def isZero (d : Duration) : Bool := d.nanos = 0

/-- Seconds as a double: the whole seconds plus the quotient of the rest. -/
def toSeconds (d : Duration) : Float :=
  Float.ofNat d.seconds + Float.ofNat d.subsecond / Float.ofNat nanosPerSecond

/-- The duration nearest to a number of seconds; nothing for negative numbers, for what is no
number and for what is too long. -/
def ofSeconds? (x : Float) : Option Duration :=
  match Decimal.Binary.ofFloat? x with
  | none => none
  | some b =>
    if x < 0 then none
    else
      let (num, den) := b.quotient
      let n := Decimal.roundHalfEven (num * nanosPerSecond) den
      if h : n < bound then some ⟨n, h⟩ else none

theorem nanos_ofNanos (n : Nat) : (ofNanos n).nanos = min n (bound - 1) := by
  unfold ofNanos
  split
  · simp only; omega
  · simp only [greatest]; omega

/-- A sum is at least its first part. -/
theorem le_nanos_add (a b : Duration) : a.nanos ≤ (a.add b).nanos := by
  have := a.inRange
  rw [add, nanos_ofNanos]
  omega

end Duration

end DesiredState
