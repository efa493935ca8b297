import DesiredState.Decimal.Binary

/-!
# The shortest decimal that reads back

Among the decimals that round to a given double this picks one with the fewest digits, and
among those the nearest to the double's exact value. The interval of reals that round to the
double includes its ends when the significand is even.
-/

namespace DesiredState.Decimal

/-- Decimal digits, most significant first, and the place of the point: the value is
`0.d₁d₂… * 10 ^ point`. -/
structure Digits where
  digits : List Nat
  point : Int
  deriving DecidableEq, Repr

/-- The decimal digits of a natural number, most significant first. -/
def digitsOf (n : Nat) : List Nat := (Nat.toDigits 10 n).map fun c => c.toNat - '0'.toNat

def stripZeros (digits : List Nat) : List Nat :=
  (digits.reverse.dropWhile (· = 0)).reverse

/-- The reals that round to a double, as numerators over one denominator. -/
structure Interval where
  low : Nat
  value : Nat
  high : Nat
  den : Nat
  closed : Bool

/-- Half a step to each side; a quarter below a power of two. -/
def Binary.interval (b : Binary) : Interval :=
  let scale := Nat.pow 2 (b.exponent - 2).toNat
  { low := (4 * b.significand - if b.atPowerOfTwo then 1 else 2) * scale
    value := 4 * b.significand * scale
    high := (4 * b.significand + 2) * scale
    den := Nat.pow 2 (2 - b.exponent).toNat
    closed := b.significand % 2 = 0 }

/-- Whether `num / den` lies in the interval; `den` is the interval's own denominator. -/
def Interval.holds (i : Interval) (num scale : Nat) : Bool :=
  if i.closed then i.low * scale ≤ num && num ≤ i.high * scale
  else i.low * scale < num && num < i.high * scale

/-- The least `e` with `value < 10 ^ e`, for a positive value. -/
def Interval.magnitude (i : Interval) : Int :=
  if i.den ≤ i.value then ((digitsOf (i.value / i.den)).length : Int)
  else
    let rec descend : Nat → Nat → Int → Int
      | 0, _, e => e
      | fuel + 1, v, e => if i.den ≤ 10 * v then e else descend fuel (10 * v) (e - 1)
    descend 400 i.value 0

/-- The point of the grid with `count` digits that reads back, if there is one. -/
def Interval.onGrid? (i : Interval) (magnitude : Int) (count : Nat) : Option Nat :=
  let shift := (count : Int) - magnitude
  let up := Nat.pow 10 shift.toNat
  let down := Nat.pow 10 (-shift).toNat
  let unit := i.den * down
  let scaled := i.value * up
  let below := scaled / unit
  let fits (n : Nat) := i.holds (n * unit) up
  match fits below, fits (below + 1) with
  | false, false => none
  | true, false => some below
  | false, true => some (below + 1)
  | true, true => some (roundHalfEven scaled unit)

/-- The shortest digits of a double that is neither zero nor infinite. -/
def Binary.shortest (b : Binary) : Digits :=
  let interval := b.interval
  let magnitude := interval.magnitude
  let rec search : Nat → Nat → Digits
    | 0, count => ⟨stripZeros (digitsOf ((interval.onGrid? magnitude count).getD 0)), magnitude⟩
    | more + 1, count =>
      match interval.onGrid? magnitude count with
      | some n =>
        let digits := digitsOf n
        ⟨stripZeros digits, magnitude + ((digits.length : Int) - (count : Int))⟩
      | none => search more (count + 1)
  search 17 1

end DesiredState.Decimal
