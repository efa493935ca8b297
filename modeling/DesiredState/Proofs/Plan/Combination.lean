import DesiredState.Plan.Combination
import Mathlib.Algebra.Group.Nat.Defs
import Mathlib.Data.List.Basic

/-!
# Every combination, in order

The successor of a combination is the next one in lexicographic order, so the enumeration lists
every combination of a size once, and a search finds the first one that passes. Each combination
is read as the digits of a binary number that falls from one combination to the next; this is why
the enumeration ends before its bound.
-/

namespace DesiredState.Combination

/-- The members ascend, are not below `low`, and are below `n`. -/
def Within (low n : Nat) (c : List Nat) : Prop :=
  c.Pairwise (· < ·) ∧ ∀ i ∈ c, low ≤ i ∧ i < n

/-- A subset of the numbers below `n` with `k` members. Listing it in ascending order makes the
list unique. -/
structure IsCombination (n k : Nat) (c : List Nat) : Prop where
  ascending : c.Pairwise (· < ·)
  below : ∀ i ∈ c, i < n
  length : c.length = k

/-- The same combination, or an earlier one. -/
def NotAfter (c d : List Nat) : Prop := c = d ∨ List.Lex (· < ·) c d

variable {low n i k : Nat} {c d e : List Nat}

theorem isCombination_iff_within : IsCombination n k c ↔ Within 0 n c ∧ c.length = k := by
  constructor
  · intro h
    exact ⟨⟨h.ascending, fun i hi => ⟨Nat.zero_le i, h.below i hi⟩⟩, h.length⟩
  · rintro ⟨⟨hasc, hbelow⟩, hlen⟩
    exact ⟨hasc, fun i hi => (hbelow i hi).2, hlen⟩

theorem within_cons : Within low n (i :: c) ↔ (low ≤ i ∧ i < n) ∧ Within (i + 1) n c := by
  constructor
  · rintro ⟨hasc, hbounds⟩
    obtain ⟨hhead, htail⟩ := List.pairwise_cons.mp hasc
    refine ⟨hbounds i List.mem_cons_self, htail, ?_⟩
    intro j hj
    exact ⟨hhead j hj, (hbounds j (List.mem_cons_of_mem i hj)).2⟩
  · rintro ⟨hi, htail, hbounds⟩
    refine ⟨List.pairwise_cons.mpr ⟨fun j hj => (hbounds j hj).1, htail⟩, ?_⟩
    intro j hj
    rcases List.mem_cons.mp hj with rfl | hj
    · exact hi
    · have := hbounds j hj
      omega

theorem within_length (h : Within low n c) : c.length ≤ n - low := by
  induction c generalizing low with
  | nil => exact Nat.zero_le _
  | cons i c ih =>
    obtain ⟨hi, hc⟩ := within_cons.mp h
    have := ih hc
    rw [List.length_cons]
    omega

theorem within_range' (h : low + k ≤ n) : Within low n (List.range' low k) := by
  refine ⟨List.pairwise_lt_range', ?_⟩
  intro i hi
  have := List.mem_range'_1.mp hi
  omega

/-- No combination comes before the one whose members follow each other directly. -/
theorem range'_notAfter (h : Within low n d) : NotAfter (List.range' low d.length) d := by
  induction d generalizing low with
  | nil => exact Or.inl rfl
  | cons j d ih =>
    obtain ⟨hj, hd⟩ := within_cons.mp h
    rw [List.length_cons, List.range'_succ]
    rcases Nat.lt_or_eq_of_le hj.1 with hlt | rfl
    · exact Or.inr (.rel hlt)
    · exact (ih hd).imp (congrArg _) .cons

theorem NotAfter.not_lex (h : NotAfter c d) : ¬ List.Lex (· < ·) d c := by
  intro hback
  rcases h with rfl | h
  · exact List.lex_irrefl Nat.lt_irrefl c hback
  · exact List.lex_asymm Nat.lt_asymm h hback

theorem NotAfter.lex_of_lex (h : List.Lex (· < ·) c d) (k : NotAfter d e) :
    List.Lex (· < ·) c e := by
  rcases k with rfl | k
  · exact h
  · exact List.lex_trans Nat.lt_trans h k

theorem NotAfter.antisymm (h : NotAfter c d) (k : NotAfter d c) : c = d :=
  h.resolve_right fun hlt => k.not_lex hlt

theorem notAfter_cons : NotAfter (i :: c) (i :: d) ↔ NotAfter c d := by
  constructor
  · rintro (h | h)
    · exact Or.inl (List.cons.inj h).2
    · cases h with
      | rel h => exact absurd h (Nat.lt_irrefl i)
      | cons h => exact Or.inr h
  · intro h
    exact h.imp (congrArg _) .cons

/-- A combination without successor is the last one of its size. -/
theorem notAfter_of_next?_eq_none (hnext : next? n c = none) (hd : Within low n d)
    (hlen : d.length = c.length) : NotAfter d c := by
  induction c generalizing low d with
  | nil => exact Or.inl (List.eq_nil_of_length_eq_zero hlen)
  | cons i rest ih =>
    rw [next?] at hnext
    cases hrest : next? n rest with
    | some _ =>
      rw [hrest] at hnext
      cases hnext
    | none =>
      simp only [hrest, ite_eq_right_iff, reduceCtorEq, imp_false] at hnext
      cases d with
      | nil => cases hlen
      | cons j d =>
        have htail := (within_cons.mp hd).2
        have htailLen : d.length = rest.length := Nat.succ.inj hlen
        have hroom := within_length htail
        have hj : j < n := (within_cons.mp hd).1.2
        rcases Nat.lt_trichotomy j i with hlt | rfl | hgt
        · exact Or.inr (.rel hlt)
        · exact notAfter_cons.mpr (ih hrest htail htailLen)
        · omega

/-- What the successor is: a later combination of the same size, with none in between. -/
structure Follows (low n : Nat) (c e : List Nat) : Prop where
  within : Within low n e
  length : e.length = c.length
  later : List.Lex (· < ·) c e
  least : ∀ d, Within low n d → d.length = c.length → List.Lex (· < ·) c d → NotAfter e d

theorem follows_of_next? (hnext : next? n c = some e) (hc : Within low n c) :
    Follows low n c e := by
  induction c generalizing low e with
  | nil => cases hnext
  | cons i rest ih =>
    obtain ⟨hi, hrestWithin⟩ := within_cons.mp hc
    rw [next?] at hnext
    cases hrest : next? n rest with
    | some tail =>
      -- A later member moves, and the head stays.
      rw [hrest] at hnext
      cases hnext
      have htail := ih hrest hrestWithin
      refine ⟨within_cons.mpr ⟨hi, htail.within⟩, congrArg Nat.succ htail.length,
        .cons htail.later, ?_⟩
      intro d hd hlen hlt
      cases hlt with
      | rel h => exact Or.inr (.rel h)
      | cons h =>
        have hleast := htail.least _ (within_cons.mp hd).2 (Nat.succ.inj hlen) h
        exact notAfter_cons.mpr hleast
    | none =>
      simp only [hrest] at hnext
      split at hnext
      · -- The tail is the last one, so the head moves and the tail starts anew right behind it.
        rename_i hroom
        cases hnext
        have hfrom : Within (i + 1) n (List.range' (i + 1) (rest.length + 1)) :=
          within_range' (by omega)
        refine ⟨⟨hfrom.1, fun j hj => ?_⟩, by simp, ?_, ?_⟩
        · have := hfrom.2 j hj
          omega
        · exact .rel (Nat.lt_succ_self i)
        · intro d hd hlen hlt
          cases hlt with
          | @rel _ _ j d' h =>
            have hlater : Within (i + 1) n (j :: d') :=
              within_cons.mpr ⟨⟨h, (within_cons.mp hd).1.2⟩, (within_cons.mp hd).2⟩
            have := range'_notAfter hlater
            rwa [hlen] at this
          | cons h =>
            have hlast := notAfter_of_next?_eq_none hrest (within_cons.mp hd).2
              (Nat.succ.inj hlen)
            exact absurd h hlast.not_lex
      · cases hnext

/-- The binary number whose digit `i` from the front tells whether `i` is a member. -/
def weight (n : Nat) : List Nat → Nat
  | [] => 0
  | i :: c => 2 ^ (n - 1 - i) + weight n c

theorem weight_lt (h : Within low n c) : weight n c < 2 ^ (n - low) := by
  induction c generalizing low with
  | nil => exact Nat.two_pow_pos _
  | cons i c ih =>
    obtain ⟨hi, hc⟩ := within_cons.mp h
    have htail : weight n c < 2 ^ (n - 1 - i) := by
      have hexp : n - 1 - i = n - (i + 1) := by omega
      rw [hexp]
      exact ih hc
    have hle : 2 ^ (n - 1 - i + 1) ≤ 2 ^ (n - low) :=
      Nat.pow_le_pow_right Nat.two_pos (by omega)
    rw [weight]
    rw [Nat.pow_succ] at hle
    omega

theorem weight_lt_of_lex (hc : Within low n c) (hd : Within low n d)
    (hlen : d.length = c.length) (h : List.Lex (· < ·) c d) : weight n d < weight n c := by
  induction h generalizing low with
  | nil => cases hlen
  | @rel i c j d hij =>
    -- The digit of the smaller head outweighs all digits of the other combination.
    have hbound : weight n (j :: d) < 2 ^ (n - j) :=
      weight_lt (within_cons.mpr ⟨⟨Nat.le_refl j, (within_cons.mp hd).1.2⟩, (within_cons.mp hd).2⟩)
    have hle : 2 ^ (n - j) ≤ 2 ^ (n - 1 - i) := Nat.pow_le_pow_right Nat.two_pos (by omega)
    have hlow : weight n (i :: c) = 2 ^ (n - 1 - i) + weight n c := rfl
    omega
  | cons _ ih =>
    rw [weight, weight]
    have := ih (within_cons.mp hc).2 (within_cons.mp hd).2 (Nat.succ.inj hlen)
    omega

/-- The successor of a combination is one too, of less weight, and the next one. -/
theorem IsCombination.next (hc : IsCombination n k c) (hnext : next? n c = some e) :
    IsCombination n k e ∧ weight n e < weight n c ∧ List.Lex (· < ·) c e ∧
      ∀ d, IsCombination n k d → List.Lex (· < ·) c d → NotAfter e d := by
  obtain ⟨hwithin, hlen⟩ := isCombination_iff_within.mp hc
  have hfollows := follows_of_next? hnext hwithin
  refine ⟨isCombination_iff_within.mpr ⟨hfollows.within, hfollows.length.trans hlen⟩,
    weight_lt_of_lex hwithin hfollows.within hfollows.length hfollows.later, hfollows.later, ?_⟩
  intro d hd hlt
  obtain ⟨hdWithin, hdLen⟩ := isCombination_iff_within.mp hd
  exact hfollows.least d hdWithin (hdLen.trans hlen.symm) hlt

theorem enumerate_none (n more : Nat) : enumerate n more none = [] := by
  cases more <;> rfl

/-- From a combination on, the enumeration lists exactly what does not come before it. -/
theorem mem_enumerate_iff {more : Nat} (hc : IsCombination n k c) (hmore : weight n c < more) :
    d ∈ enumerate n more (some c) ↔ IsCombination n k d ∧ NotAfter c d := by
  -- The bound falls by one with each step and the weight by at least one.
  induction more generalizing c with
  | zero => exact absurd hmore (Nat.not_lt_zero _)
  | succ more ih =>
    rw [enumerate, List.mem_cons]
    cases hnext : next? n c with
    | none =>
      rw [enumerate_none]
      constructor
      · rintro (rfl | hnone)
        · exact ⟨hc, Or.inl rfl⟩
        · cases hnone
      · rintro ⟨hd, hle⟩
        obtain ⟨hdWithin, hdLen⟩ := isCombination_iff_within.mp hd
        have hge := notAfter_of_next?_eq_none hnext hdWithin (hdLen.trans hc.length.symm)
        exact Or.inl (hge.antisymm hle)
    | some e =>
      obtain ⟨he, hfall, hlater, hleast⟩ := hc.next hnext
      rw [ih he (by omega)]
      constructor
      · rintro (rfl | ⟨hd, hle⟩)
        · exact ⟨hc, Or.inl rfl⟩
        · exact ⟨hd, Or.inr (hle.lex_of_lex hlater)⟩
      · rintro ⟨hd, rfl | hlt⟩
        · exact Or.inl rfl
        · exact Or.inr ⟨hd, hleast d hd hlt⟩

theorem pairwise_enumerate {more : Nat} (hc : IsCombination n k c) (hmore : weight n c < more) :
    (enumerate n more (some c)).Pairwise (List.Lex (· < ·)) := by
  induction more generalizing c with
  | zero => exact absurd hmore (Nat.not_lt_zero _)
  | succ more ih =>
    rw [enumerate]
    cases hnext : next? n c with
    | none =>
      rw [enumerate_none]
      exact List.pairwise_singleton _ _
    | some e =>
      obtain ⟨he, hfall, hlater, -⟩ := hc.next hnext
      refine List.pairwise_cons.mpr ⟨?_, ih he (by omega)⟩
      intro d hd
      have hle := ((mem_enumerate_iff he (by omega)).mp hd).2
      exact hle.lex_of_lex hlater

theorem isCombination_range (h : k ≤ n) : IsCombination n k (List.range k) := by
  rw [isCombination_iff_within, List.range_eq_range', List.length_range']
  exact ⟨within_range' (by omega), rfl⟩

theorem weight_range_lt (h : k ≤ n) : weight n (List.range k) < Nat.pow 2 n :=
  weight_lt (isCombination_iff_within.mp (isCombination_range h)).1

/-- The list of all combinations holds each subset of its size. -/
theorem mem_all_iff : c ∈ all n k ↔ IsCombination n k c := by
  unfold all first?
  split
  · rename_i h
    rw [mem_enumerate_iff (isCombination_range h) (weight_range_lt h)]
    refine and_iff_left_of_imp fun hc => ?_
    obtain ⟨hwithin, hlen⟩ := isCombination_iff_within.mp hc
    have := range'_notAfter hwithin
    rwa [hlen, ← List.range_eq_range'] at this
  · rename_i h
    rw [enumerate_none]
    constructor
    · intro hnone
      cases hnone
    · intro hc
      obtain ⟨hwithin, hlen⟩ := isCombination_iff_within.mp hc
      have := within_length hwithin
      omega

/-- The list of all combinations ascends, so it holds none of them twice. -/
theorem pairwise_all : (all n k).Pairwise (List.Lex (· < ·)) := by
  unfold all first?
  split
  · rename_i h
    exact pairwise_enumerate (isCombination_range h) (weight_range_lt h)
  · rw [enumerate_none]
    exact List.Pairwise.nil

variable {test : List Nat → Bool}

theorem find?_eq_none_iff : find? n k test = none ↔ ∀ d, IsCombination n k d → test d = false := by
  rw [find?_eq_find?_all, List.find?_eq_none]
  simp only [mem_all_iff, Bool.not_eq_true]

/-- The combination that is found passes, and none before it does. -/
theorem first_of_find? (h : find? n k test = some c) :
    IsCombination n k c ∧ test c = true ∧
      ∀ d, IsCombination n k d → test d = true → NotAfter c d := by
  rw [find?_eq_find?_all] at h
  have hmem := mem_all_iff.mp (List.mem_of_find?_eq_some h)
  obtain ⟨hpass, before, after, hsplit, hfail⟩ := List.find?_eq_some_iff_append.mp h
  refine ⟨hmem, hpass, ?_⟩
  intro d hd htest
  have hd := mem_all_iff.mpr hd
  have hsorted := pairwise_all (n := n) (k := k)
  rw [hsplit] at hd hsorted
  rcases List.mem_append.mp hd with hbefore | hafter
  · have := hfail d hbefore
    simp [htest] at this
  · rcases List.mem_cons.mp hafter with rfl | hafter
    · exact Or.inl rfl
    · have htail := (List.pairwise_append.mp hsorted).2.1
      exact Or.inr ((List.pairwise_cons.mp htail).1 d hafter)

end DesiredState.Combination
