import DesiredState.Proofs.Plan.Combination
import Mathlib.Data.List.Nodup

/-!
# Combinations one call at a time

A cursor holds the combination that the next call returns, and each call moves it on in place: the
rightmost member that can still move goes up by one, and the members after it follow right behind.
Numbers are unsigned, so a difference below zero has no value, and neither has a member at an index
outside the combination. No call runs into either: the calls return all combinations in order, and
then nothing.
-/

namespace DesiredState.Combination

/-- Why a computation with unsigned numbers and indices has no value. -/
inductive Fault where
  | belowZero
  | outside
  deriving DecidableEq

/-- The difference of two unsigned numbers. -/
def minus (a b : Nat) : Except Fault Nat := if b ≤ a then .ok (a - b) else .error .belowZero

def member (members : List Nat) (i : Nat) : Except Fault Nat :=
  match members[i]? with
  | some m => .ok m
  | none => .error .outside

def assign (c : List Nat) (i m : Nat) : Except Fault (List Nat) :=
  if i < c.length then .ok (c.set i m) else .error .outside

/-- The largest number below `n` that leaves room for the members after index `i` of `k`. -/
def limit (n k i : Nat) : Except Fault Nat := do return (← minus n k) + i

/-- The rightmost of the first indices whose member can still move. -/
def rightmost? (n : Nat) (c : List Nat) : Nat → Except Fault (Option Nat)
  | 0 => .ok none
  | i + 1 => do
    let m ← member c i
    let top ← limit n c.length i
    if m < top then return some i else rightmost? n c i

/-- Let the member at each index be one above the member before it. -/
def followUp : List Nat → List Nat → Except Fault (List Nat)
  | [], c => .ok c
  | j :: indices, c => do
    let before ← member c (← minus j 1)
    followUp indices (← assign c j (before + 1))

/-- Move a combination on in place; nothing if no member can move. -/
def advance (n : Nat) (c : List Nat) : Except Fault (Option (List Nat)) := do
  match ← rightmost? n c c.length with
  | none => return none
  | some i =>
    let m ← member c i
    let moved ← assign c i (m + 1)
    return some (← followUp (List.range' (i + 1) (c.length - (i + 1))) moved)

/-- A call: what it returns, and where the cursor stands afterwards. -/
def call (n : Nat) : Option (List Nat) → Except Fault (Option (List Nat) × Option (List Nat))
  | none => .ok (none, none)
  | some c => do return (some c, ← advance n c)

/-- From a cursor on, the calls return these combinations one after the other, and then nothing. -/
inductive Yields (n : Nat) : Option (List Nat) → List (List Nat) → Prop where
  | ended {cursor after : Option (List Nat)} :
    call n cursor = .ok (none, after) → Yields n cursor []
  | item {cursor after : Option (List Nat)} {c : List Nat} {items : List (List Nat)} :
    call n cursor = .ok (some c, after) → Yields n after items → Yields n cursor (c :: items)

variable {n i j k m : Nat} {c e before after : List Nat}

theorem minus_of_le (h : j ≤ i) : minus i j = .ok (i - j) := if_pos h

theorem limit_of_le (h : k ≤ n) : limit n k i = .ok (n - k + i) := by
  rw [limit, minus_of_le h]
  rfl

@[simp] theorem member_append_cons : member (before ++ i :: after) before.length = .ok i := by
  simp [member]

@[simp] theorem assign_append_cons :
    assign (before ++ i :: after) before.length m = .ok (before ++ m :: after) := by
  simp [assign]

/-- A member moves just if there is room for those after it. -/
theorem rightmost?_succ (hc : c = before ++ i :: after) (h : c.length ≤ n) :
    rightmost? n c (before.length + 1) =
      if i < n - (after.length + 1) then .ok (some before.length)
      else rightmost? n c before.length := by
  have htop : n - c.length + before.length = n - (after.length + 1) := by
    rw [hc, List.length_append, List.length_cons] at h ⊢
    omega
  have hmember : member c before.length = .ok i := hc ▸ member_append_cons
  rw [rightmost?, hmember, limit_of_le h, htop]
  rfl

/-- Members that have no successor together are passed over. -/
theorem rightmost?_append (hc : c = before ++ after) (h : c.length ≤ n)
    (hstuck : next? n after = none) : rightmost? n c c.length = rightmost? n c before.length := by
  induction after generalizing before with
  | nil => rw [hc, List.append_nil]
  | cons i rest ih =>
    have hrest : next? n rest = none ∧ ¬ i < n - (rest.length + 1) := by
      rw [next?] at hstuck
      cases hnext : next? n rest with
      | some _ => simp [hnext] at hstuck
      | none => simpa [hnext] using hstuck
    have hpassed := ih (hc.trans (List.append_cons ..)) hrest.1
    rw [hpassed, List.length_append, List.length_singleton, rightmost?_succ hc h, if_neg hrest.2]

theorem followUp_append_cons :
    followUp (List.range' (before.length + 1) after.length) (before ++ i :: after) =
      .ok (before ++ List.range' i (after.length + 1)) := by
  induction after generalizing before i with
  | nil => rfl
  | cons j rest ih =>
    have hassign : assign (before ++ [i] ++ j :: rest) (before ++ [i]).length (i + 1) =
        .ok (before ++ [i] ++ (i + 1) :: rest) := assign_append_cons
    have hnext : followUp (List.range' ((before ++ [i]).length + 1) rest.length)
        (before ++ [i] ++ (i + 1) :: rest) =
          .ok (before ++ [i] ++ List.range' (i + 1) (rest.length + 1)) := ih
    simp only [List.length_append, List.length_singleton, List.append_assoc,
      List.singleton_append] at hassign hnext
    rw [List.length_cons, List.range'_succ, followUp, minus_of_le (Nat.le_add_left ..)]
    change (member _ before.length >>= fun m => assign _ _ (m + 1) >>= _) = _
    rw [member_append_cons]
    change (assign _ _ (i + 1) >>= _) = _
    rw [hassign]
    exact hnext

/-- Where a combination moves on: its rightmost member with room, after which none has any. -/
theorem exists_of_next? (h : next? n c = some e) :
    ∃ before i after, c = before ++ i :: after ∧ next? n after = none ∧
      i < n - (after.length + 1) ∧ e = before ++ List.range' (i + 1) (after.length + 1) := by
  induction c generalizing e with
  | nil => cases h
  | cons i rest ih =>
    rw [next?] at h
    cases hrest : next? n rest with
    | some tail =>
      simp only [hrest, Option.some.injEq] at h
      obtain ⟨before, j, after, rfl, hstuck, hroom, rfl⟩ := ih hrest
      exact ⟨i :: before, j, after, rfl, hstuck, hroom, h.symm⟩
    | none =>
      simp only [hrest, Option.ite_none_right_eq_some, Option.some.injEq] at h
      exact ⟨[], i, rest, rfl, hrest, h.1, h.2.symm⟩

/-- In place a combination moves on to its successor. -/
theorem advance_eq (h : c.length ≤ n) : advance n c = .ok (next? n c) := by
  cases hnext : next? n c with
  | none =>
    have hnowhere : rightmost? n c c.length = .ok none :=
      rightmost?_append (List.nil_append c).symm h hnext
    rw [advance, hnowhere]
    rfl
  | some e =>
    obtain ⟨before, i, after, hc, hstuck, hroom, rfl⟩ := exists_of_next? hnext
    have hwhere : rightmost? n c c.length = .ok (some before.length) := by
      have hpassed := rightmost?_append (hc.trans (List.append_cons ..)) h hstuck
      rw [hpassed, List.length_append, List.length_singleton, rightmost?_succ hc h, if_pos hroom]
    have hbehind : c.length - (before.length + 1) = after.length := by
      rw [hc, List.length_append, List.length_cons]
      omega
    rw [advance, hwhere]
    change (member c before.length >>= fun m => assign c _ (m + 1) >>= fun moved =>
      followUp (List.range' (before.length + 1) _) moved >>= _) = _
    rw [hbehind, hc, member_append_cons]
    change (assign _ _ (i + 1) >>= _) = _
    rw [assign_append_cons]
    change (followUp _ _ >>= _) = _
    rw [followUp_append_cons]
    rfl

theorem call_some (h : c.length ≤ n) : call n (some c) = .ok (some c, next? n c) := by
  rw [call, advance_eq h]
  rfl

theorem Yields.unique {cursor : Option (List Nat)} {items others : List (List Nat)}
    (h : Yields n cursor items) (k : Yields n cursor others) : items = others := by
  induction h generalizing others with
  | ended hcall =>
    cases k with
    | ended => rfl
    | item hother => cases hcall.symm.trans hother
  | item hcall _ ih =>
    cases k with
    | ended hother => cases hcall.symm.trans hother
    | item hother hrest =>
      cases hcall.symm.trans hother
      exact congrArg _ (ih hrest)

theorem IsCombination.length_le (h : IsCombination n k c) : c.length ≤ n :=
  within_length (isCombination_iff_within.mp h).1

/-- With the bound that the enumeration has, the calls return what it lists. -/
theorem yields_enumerate {more : Nat} (hc : IsCombination n k c) (hmore : weight n c < more) :
    Yields n (some c) (enumerate n more (some c)) := by
  induction more generalizing c with
  | zero => exact absurd hmore (Nat.not_lt_zero _)
  | succ more ih =>
    refine .item (call_some hc.length_le) ?_
    cases hnext : next? n c with
    | none =>
      rw [enumerate_none]
      exact .ended rfl
    | some e =>
      obtain ⟨he, hfall, -⟩ := hc.next hnext
      exact ih he (by omega)

theorem yields_all : Yields n (first? n k) (all n k) := by
  unfold all first?
  split
  · rename_i h
    exact yields_enumerate (isCombination_range h) (weight_range_lt h)
  · rw [enumerate_none]
    exact .ended rfl

theorem nodup_all : (all n k).Nodup := by
  refine pairwise_all.imp fun hlt heq => ?_
  rw [heq] at hlt
  exact List.lex_irrefl Nat.lt_irrefl _ hlt

theorem all_zero (n : Nat) : all n 0 = [[]] := by
  obtain ⟨more, hmore⟩ := Nat.exists_eq_add_of_lt (Nat.two_pow_pos n)
  change enumerate n (2 ^ n) (some []) = _
  rw [hmore, enumerate]
  exact congrArg _ (enumerate_none n _)

theorem all_of_lt (h : n < k) : all n k = [] := by
  rw [all, first?, if_neg (Nat.not_le_of_lt h), enumerate_none]

/-- Starting from the first combination the calls come to an end. Without a fault on the way they
have returned each combination once by then, in lexicographic order. -/
theorem calls_return_all (n k : Nat) :
    (∀ items, Yields n (first? n k) items ↔ items = all n k) ∧
    (∀ c, IsCombination n k c → (all n k).count c = 1) ∧
    (∀ c ∈ all n k, IsCombination n k c) ∧
    (all n k).Pairwise (List.Lex (· < ·)) ∧
    all n 0 = [[]] ∧
    (n < k → all n k = []) ∧
    ∀ c ∈ all n k, ∀ i < k, ∃ top < n, limit n c.length i = .ok top ∧ top + k = n + i := by
  refine ⟨fun items => ⟨fun h => h.unique yields_all, fun h => h ▸ yields_all⟩,
    fun c hc => List.count_eq_one_of_mem nodup_all (mem_all_iff.mpr hc),
    fun c hc => mem_all_iff.mp hc, pairwise_all, all_zero n, all_of_lt, ?_⟩
  intro c hc i hi
  have hcomb := mem_all_iff.mp hc
  have hle := hcomb.length_le
  rw [hcomb.length] at hle ⊢
  exact ⟨n - k + i, by omega, limit_of_le hle, by omega⟩

example : call 4 (some [1, 3]) = .ok (some [1, 3], some [2, 3]) := by decide

end DesiredState.Combination
