/-!
# Doubles as exact binary fractions

A finite double is a sign and a number `significand * 2 ^ exponent`. Everything that prints or
rounds doubles works on this exact value in natural-number arithmetic.
-/

namespace DesiredState.Decimal

/-- The size of a finite double: `significand * 2 ^ exponent`. -/
structure Binary where
  negative : Bool
  significand : Nat
  exponent : Int
  /-- The next smaller double is half as far away as the next larger one. -/
  atPowerOfTwo : Bool
  deriving DecidableEq, Repr

/-- The exact value of a double; nothing for infinities and for what is no number. -/
def Binary.ofFloat? (x : Float) : Option Binary :=
  let bits : Nat := x.toBits.toNat
  let negative : Bool := bits / Nat.pow 2 63 = 1
  let exponent : Nat := bits / Nat.pow 2 52 % Nat.pow 2 11
  let fraction : Nat := bits % Nat.pow 2 52
  if exponent = 2047 then none
  else if exponent = 0 then some ⟨negative, fraction, -1074, false⟩
  else some
    ⟨negative, Nat.pow 2 52 + fraction, (exponent : Int) - 1075, fraction = 0 ∧ 1 < exponent⟩

/-- The size of a binary fraction as a quotient of natural numbers. -/
def Binary.quotient (b : Binary) : Nat × Nat :=
  (b.significand * Nat.pow 2 b.exponent.toNat, Nat.pow 2 (-b.exponent).toNat)

/-- The whole number nearest to `num / den`; halfway goes to the even neighbour. -/
def roundHalfEven (num den : Nat) : Nat :=
  let low := num / den
  let twice := 2 * (num % den)
  if twice < den then low
  else if den < twice then low + 1
  else if low % 2 = 0 then low else low + 1

end DesiredState.Decimal
