import DesiredState.Json.Basic
import DesiredState.Decimal.Shortest

/-!
# Number texts

Reading a number collects a significand of at most 64 bits and a power of ten; whole digits
past the 64 bits count as tens, decimals past them are dropped. Writing a double uses the fewest
digits that read back, positional from `0.00001` up to sixteen whole digits and scientific
with a signed exponent beyond, and always shows that it is a double.
-/

namespace DesiredState.Json

open Decimal

/-- A number as written: digits before the point, after it, and in the exponent. -/
structure Literal where
  negative : Bool
  whole : List Nat
  fraction : Option (List Nat)
  exponent : Option (Bool × List Nat)
  deriving DecidableEq, Repr

/-- Append digits while the number stays below `2 ^ 64`; the rest is handed back. -/
def takeDigits (n : Nat) : List Nat → Nat × List Nat
  | [] => (n, [])
  | d :: rest => if 10 * n + d < Word.size 64 then takeDigits (10 * n + d) rest else (n, d :: rest)

/-- `n * 10 ^ exponent` in double arithmetic: one product or at most two quotients. Nothing if
it is too large. -/
def scaleByTen? (n : Nat) (exponent : Int) : Option Float :=
  let x := Float.ofNat n
  let power (e : Int) : Float := Float.ofScientific 1 false e.toNat
  if 308 < exponent then if n = 0 then some 0 else none
  else if 0 ≤ exponent then
    let y := x * power exponent
    if y.isInf then none else some y
  else if -308 ≤ exponent then some (x / power (-exponent))
  else if -616 ≤ exponent then some (x / power 308 / power (-exponent - 308))
  else some 0

def ofDigits (digits : List Nat) : Nat := digits.foldl (fun n d => 10 * n + d) 0

/-- An exponent kept within a signed word of 32 bits. -/
def clampExponent (e : Int) : Int := max (Word.least 31) (min (Word.greatest 31) e)

/-- The number a literal denotes: whole where it has neither point nor exponent and fits its
word, a double otherwise. A negative zero is a double. -/
def Literal.value? (l : Literal) : Option Number :=
  let (significand, spilled) := takeDigits 0 l.whole
  let signed (x : Float) : Number := .float (if l.negative then -x else x)
  match l.fraction, l.exponent with
  | none, none =>
    if spilled ≠ [] then (scaleByTen? significand spilled.length).map signed
    else if ¬ l.negative then some (.int significand)
    else if 0 < significand ∧ significand ≤ Word.size 63 then some (.int (-significand))
    else some (signed (Float.ofNat significand))
  | fraction, exponent =>
    let decimals := fraction.getD []
    let (significand, dropped) := takeDigits significand decimals
    let start : Int := spilled.length - (decimals.length - dropped.length : Int)
    match exponent with
    | none => (scaleByTen? significand start).map signed
    | some (down, digits) =>
      let e := ofDigits digits
      if Word.size 31 ≤ e then if significand ≠ 0 ∧ ¬ down then none else some (signed 0)
      else
        let shifted := if down then start - e else start + e
        (scaleByTen? significand (clampExponent shifted)).map signed

/-- Where a double stops being written positionally. -/
structure Layout where
  /-- Most digits before the point. -/
  wholePlaces : Int
  /-- Most zeros between the point and the first digit. -/
  leadingZeros : Int
  deriving DecidableEq, Repr

/-- Up to sixteen whole digits, and down to `0.00001`. -/
def layout : Layout := ⟨16, 4⟩

def digitChars (digits : List Nat) : List Char := digits.map fun d => Char.ofNat ('0'.toNat + d)

def intChars (i : Int) : List Char :=
  if i < 0 then '-' :: Nat.toDigits 10 i.natAbs else Nat.toDigits 10 i.toNat

def exponentChars (e : Int) : List Char :=
  'e' :: (if e < 0 then '-' else '+') :: Nat.toDigits 10 e.natAbs

/-- Digits laid out positionally or scientifically, with a point or an exponent in any case. -/
def layoutDigits (layout : Layout) (d : Digits) : List Char :=
  let digits := digitChars d.digits
  let count : Int := digits.length
  if count ≤ d.point ∧ d.point ≤ layout.wholePlaces then
    digits ++ List.replicate (d.point - count).toNat '0' ++ ['.', '0']
  else if 0 < d.point ∧ d.point ≤ layout.wholePlaces then
    digits.take d.point.toNat ++ '.' :: digits.drop d.point.toNat
  else if -layout.leadingZeros ≤ d.point ∧ d.point ≤ 0 then
    ['0', '.'] ++ List.replicate (-d.point).toNat '0' ++ digits
  else
    let head := digits.take 1
    let tail := digits.drop 1
    head ++ (if tail.isEmpty then [] else '.' :: tail) ++ exponentChars (d.point - 1)

/-- A double in text; what is not finite is `null`. -/
def floatChars (x : Float) : List Char :=
  match Binary.ofFloat? x with
  | none => ['n', 'u', 'l', 'l']
  | some b =>
    (if b.negative then ['-'] else []) ++
      if b.significand = 0 then ['0', '.', '0'] else layoutDigits layout b.shortest

/-- A number in text. -/
def Number.chars : Number → List Char
  | .int i => intChars i
  | .float x => floatChars x

end DesiredState.Json
