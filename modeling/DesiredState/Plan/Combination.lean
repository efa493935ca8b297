/-!
# Combinations

The `k`-element subsets of the numbers below `n`, as ascending lists in lexicographic order. The
successor of a combination moves its rightmost movable member up by one and puts the members
after it right behind.
-/

namespace DesiredState.Combination

def first? (n k : Nat) : Option (List Nat) := if k ≤ n then some (List.range k) else none

/-- The next combination below `n` of the same size. -/
def next? (n : Nat) : List Nat → Option (List Nat)
  | [] => none
  | i :: rest =>
    match next? n rest with
    | some rest => some (i :: rest)
    | none =>
      if i < n - (rest.length + 1) then some (List.range' (i + 1) (rest.length + 1)) else none

/-- The combinations from a given one on, at most as many as the first argument says. -/
def enumerate (n : Nat) : Nat → Option (List Nat) → List (List Nat)
  | _, none => []
  | 0, some _ => []
  | more + 1, some combination => combination :: enumerate n more (next? n combination)

/-- All combinations of a size; there are at most as many as subsets. -/
def all (n k : Nat) : List (List Nat) := enumerate n (Nat.pow 2 n) (first? n k)

/-- The first combination from a given one on that passes a test. -/
def findFrom? (n : Nat) (test : List Nat → Bool) : Nat → Option (List Nat) → Option (List Nat)
  | _, none => none
  | 0, some _ => none
  | more + 1, some combination =>
    if test combination then some combination
    else findFrom? n test more (next? n combination)

/-- The first combination of a size that passes a test. -/
def find? (n k : Nat) (test : List Nat → Bool) : Option (List Nat) :=
  findFrom? n test (Nat.pow 2 n) (first? n k)

theorem findFrom?_eq_find?_enumerate (n : Nat) (test : List Nat → Bool) (more : Nat)
    (start : Option (List Nat)) :
    findFrom? n test more start = (enumerate n more start).find? test := by
  induction more generalizing start with
  | zero => cases start <;> rfl
  | succ more ih =>
    cases start with
    | none => rfl
    | some combination => by_cases h : test combination <;> simp [findFrom?, enumerate, h, ih]

/-- Searching is searching the list of all combinations. -/
theorem find?_eq_find?_all (n k : Nat) (test : List Nat → Bool) :
    find? n k test = (all n k).find? test :=
  findFrom?_eq_find?_enumerate n test _ _

end DesiredState.Combination
