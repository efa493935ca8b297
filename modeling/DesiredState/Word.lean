/-!
# Words

A word of `b` bits has `2 ^ b` values. Numbers with a fixed width are checked against these
bounds.
-/

namespace DesiredState.Word

def size (bits : Nat) : Nat := Nat.pow 2 bits

/-- The least number of a signed word with this many bits besides the sign. -/
def least (bits : Nat) : Int := -(size bits : Int)

/-- The greatest number of a signed word with this many bits besides the sign. -/
def greatest (bits : Nat) : Int := (size bits : Int) - 1

end DesiredState.Word
