import DesiredState.Decimal.Binary

/-!
# Decimals with one place

The exact value of a double rounded to tenths, halfway to the even tenth.
-/

namespace DesiredState.Decimal

/-- A whole number of tenths, written with its point. -/
def tenthsText (tenths : Nat) : String :=
  toString (tenths / 10) ++ "." ++ toString (tenths % 10)

def oneDecimal (x : Float) : String :=
  match Binary.ofFloat? x with
  | none => if x.isNaN then "NaN" else if x < 0 then "-inf" else "inf"
  | some b =>
    let (num, den) := b.quotient
    (if b.negative then "-" else "") ++ tenthsText (roundHalfEven (10 * num) den)

example : oneDecimal 0.25 = "0.2" ∧ oneDecimal 0.05 = "0.1" ∧ oneDecimal 1.95 = "1.9" := by
  decide +kernel

end DesiredState.Decimal
