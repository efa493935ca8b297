import DesiredState.Proofs.World

/-!
# Failures that trying again outlasts

What is left of the budget depends on the failures so far only through their numbers: those that
count, and those beyond the extensions. An operation that fails several times in a row before it
gets through comes to the same end as if it had got through at once, as long as attempts are left
after each failure.
-/

namespace DesiredState.Retry

open DesiredState.Action

variable {σ ε α : Type} {p : Policy} {classify : ε → Decision} {before : List ε} {c : Counters}

/-- How many failures use up an attempt in any case. -/
def plain (classify : ε → Decision) (causes : List ε) : Nat :=
  causes.countP fun cause => classify cause = .retry

/-- How many failures are rate limited. -/
def limited (classify : ε → Decision) (causes : List ε) : Nat :=
  causes.countP fun cause => classify cause = .rateLimited

/-- How many attempts are allowed without extensions. -/
def Policy.allowance (p : Policy) : Nat := max 1 p.maxAttempts.toNat

/-- How many attempts some failures spend. -/
def Policy.spent (p : Policy) (classify : ε → Decision) (causes : List ε) : Nat :=
  plain classify causes + (limited classify causes - p.maxExtensions.toNat)

/-- The budget of attempts after some failures. -/
def Policy.budget (p : Policy) (classify : ε → Decision) (causes : List ε) : Nat :=
  p.allowance + min (limited classify causes) p.maxExtensions.toNat

theorem Policy.spent_nil_lt (p : Policy) : p.spent classify [] < p.allowance := by
  show 0 + (0 - p.maxExtensions.toNat) < max 1 p.maxAttempts.toNat
  omega

theorem limited_append_singleton (before : List ε) (cause : ε) :
    limited classify (before ++ [cause]) =
      limited classify before + if classify cause = .rateLimited then 1 else 0 := by
  simp [limited, List.countP_append, List.countP_singleton]

theorem spent_le_append (before after : List ε) :
    p.spent classify before ≤ p.spent classify (before ++ after) := by
  simp only [Policy.spent, plain, limited, List.countP_append]
  omega

theorem length_eq_counts (h : ∀ cause ∈ before, classify cause ≠ .fail) :
    before.length = plain classify before + limited classify before := by
  induction before with
  | nil => rfl
  | cons cause rest ih =>
    obtain ⟨hcause, hrest⟩ := List.forall_mem_cons.mp h
    have hlength := ih hrest
    simp only [plain, limited, List.countP_cons, List.length_cons] at hlength ⊢
    cases hd : classify cause with
    | fail => exact absurd hd hcause
    | retry => simp; omega
    | rateLimited => simp; omega

/-- As long as attempts are left, fewer failures happened than attempts are allowed at most. -/
theorem length_lt_of_spent (h : ∀ cause ∈ before, classify cause ≠ .fail)
    (hspent : p.spent classify before < p.allowance) :
    before.length < p.allowance + p.maxExtensions.toNat := by
  have hlength := length_eq_counts h
  unfold Policy.spent at hspent
  omega

theorem counts_iff {n : UInt32} : Counts n ↔ n.toNat + 1 < Word.size 32 := by
  constructor
  · intro h
    have hlt := (n + 1).toNat_lt
    rwa [h] at hlt
  · intro h
    unfold Counts
    rw [UInt32.toNat_add]
    exact Nat.mod_eq_of_lt h

theorem toNat_max_one (n : UInt32) : (max n 1).toNat = max 1 n.toNat := by
  show (if n ≤ 1 then 1 else n).toNat = _
  have hone : (1 : UInt32).toNat = 1 := rfl
  split
  · have hle := UInt32.le_iff_toNat_le.mp ‹n ≤ 1›
    omega
  · have hlt := UInt32.lt_iff_toNat_lt.mp (UInt32.not_le.mp ‹¬n ≤ 1›)
    omega

theorem Policy.toNat_start_budget (p : Policy) : p.start.budget.toNat = p.allowance :=
  toNat_max_one p.maxAttempts

theorem Policy.start_attempt_lt (p : Policy) : p.start.attempt < p.start.budget := by
  apply UInt32.lt_iff_toNat_lt.mpr
  rw [p.toNat_start_budget]
  exact Nat.lt_of_lt_of_le Nat.one_pos (Nat.le_max_left 1 _)

theorem Counters.failed_extended {decision : Decision} (h : c.Extends p decision) :
    c.failed p decision = ⟨c.attempt + 1, c.extensions + 1, c.budget + 1⟩ := if_pos h

theorem Counters.failed_counted {decision : Decision} (h : ¬ c.Extends p decision) :
    c.failed p decision = ⟨c.attempt + 1, c.extensions, c.budget⟩ := if_neg h

theorem Counters.failed_attempt (c : Counters) (decision : Decision) :
    (c.failed p decision).attempt = c.attempt + 1 := by
  unfold Counters.failed
  split <;> rfl

/-- While attempts are left one more can be counted. -/
theorem Counters.counts_attempt (h : c.attempt < c.budget) : Counts c.attempt :=
  counts_iff.mpr (Nat.lt_of_le_of_lt (UInt32.lt_iff_toNat_lt.mp h) c.budget.toNat_lt)

/-- While extensions are left one more can be counted. -/
theorem Counters.Extends.counts_extensions {decision : Decision} (h : c.Extends p decision) :
    Counts c.extensions :=
  counts_iff.mpr (Nat.lt_of_le_of_lt (UInt32.lt_iff_toNat_lt.mp h.2) p.maxExtensions.toNat_lt)

/-- Counters that say how many failures there were. -/
structure Counted (p : Policy) (classify : ε → Decision) (before : List ε) (c : Counters) :
    Prop where
  attempt : c.attempt.toNat = before.length
  extensions : c.extensions.toNat = min (limited classify before) p.maxExtensions.toNat
  budget : c.budget.toNat = p.budget classify before

theorem counted_start (p : Policy) (classify : ε → Decision) : Counted p classify [] p.start := by
  constructor
  · rfl
  · exact (Nat.zero_min _).symm
  · rw [p.toNat_start_budget, Policy.budget]
    simp [limited]

/-- The counters follow the counts over one more failure, as long as nothing overflows. -/
theorem Counted.failed (h : Counted p classify before c) {cause : ε}
    (hfits : c.Fits p (classify cause)) :
    Counted p classify (before ++ [cause]) (c.failed p (classify cause)) := by
  obtain ⟨hattempt, hextended⟩ := hfits
  have hnext : (c.failed p (classify cause)).attempt.toNat = (before ++ [cause]).length := by
    rw [Counters.failed_attempt, hattempt, h.attempt, List.length_append]
    rfl
  obtain ⟨-, hextensions, hallowed⟩ := h
  unfold Policy.budget at hallowed
  by_cases hextends : c.Extends p (classify cause)
  · obtain ⟨hmore, hlonger⟩ := hextended hextends
    have hlt := UInt32.lt_iff_toNat_lt.mp hextends.2
    have hlimited : limited classify (before ++ [cause]) = limited classify before + 1 := by
      rw [limited_append_singleton, if_pos hextends.1]
    refine ⟨hnext, ?_, ?_⟩
    · rw [Counters.failed_extended hextends, hmore]
      omega
    · rw [Counters.failed_extended hextends, hlonger, Policy.budget]
      omega
  · have hsame : min (limited classify (before ++ [cause])) p.maxExtensions.toNat =
        min (limited classify before) p.maxExtensions.toNat := by
      rw [limited_append_singleton]
      by_cases hd : classify cause = .rateLimited
      · have hle := UInt32.le_iff_toNat_le.mp (UInt32.not_lt.mp fun hlt => hextends ⟨hd, hlt⟩)
        omega
      · rw [if_neg hd, Nat.add_zero]
    refine ⟨hnext, ?_, ?_⟩
    · rw [Counters.failed_counted hextends, hsame]
      exact hextensions
    · rw [Counters.failed_counted hextends, Policy.budget, hsame]
      exact hallowed

/-- Nothing overflows where the attempts that are allowed at most fit in a word. -/
theorem Counted.fits (h : Counted p classify before c)
    (hword : p.allowance + p.maxExtensions.toNat < Word.size 32)
    (hlength : before.length < p.allowance + p.maxExtensions.toNat) (decision : Decision) :
    c.Fits p decision := by
  have hattempt := h.attempt
  have hbudget := h.budget
  have hextensions := h.extensions
  unfold Policy.budget at hbudget
  refine ⟨counts_iff.mpr (by omega), fun hextends => ⟨hextends.counts_extensions, ?_⟩⟩
  have hlt := UInt32.lt_iff_toNat_lt.mp hextends.2
  exact counts_iff.mpr (by omega)

/-- Attempts are left just if not all that are allowed are spent. -/
theorem Counted.attempt_lt_budget_iff (h : Counted p classify before c)
    (hretry : ∀ cause ∈ before, classify cause ≠ .fail) :
    c.attempt < c.budget ↔ p.spent classify before < p.allowance := by
  have hlength := length_eq_counts hretry
  rw [UInt32.lt_iff_toNat_lt, h.budget, h.attempt, Policy.budget, Policy.spent]
  omega

/-- Attempts are left after each of several failures in a row. -/
def Policy.Bears (p : Policy) (classify : ε → Decision) : Counters → List ε → Prop
  | _, [] => True
  | c, cause :: causes => classify cause ≠ .fail ∧ c.Fits p (classify cause) ∧
      (c.failed p (classify cause)).attempt < (c.failed p (classify cause)).budget ∧
      p.Bears classify (c.failed p (classify cause)) causes

theorem Counted.bears {causes : List ε} (h : Counted p classify before c)
    (hword : p.allowance + p.maxExtensions.toNat < Word.size 32)
    (hretry : ∀ cause ∈ before ++ causes, classify cause ≠ .fail)
    (hfew : p.spent classify (before ++ causes) < p.allowance) : p.Bears classify c causes := by
  induction causes generalizing before c with
  | nil => trivial
  | cons cause causes ih =>
    have hsplit : before ++ cause :: causes = before ++ [cause] ++ causes := by simp
    rw [hsplit] at hretry hfew
    have hretry' : ∀ other ∈ before ++ [cause], classify other ≠ .fail :=
      fun other hother => hretry other (List.mem_append_left causes hother)
    have hspent := Nat.lt_of_le_of_lt (spent_le_append (before ++ [cause]) causes) hfew
    have hlength := length_lt_of_spent hretry' hspent
    rw [List.length_append] at hlength
    have hfits := h.fits hword (Nat.lt_of_succ_lt hlength) (classify cause)
    have hnext := h.failed hfits
    refine ⟨hretry' cause (by simp), hfits, ?_, ih hnext hretry hfew⟩
    exact (hnext.attempt_lt_budget_iff hretry').mpr hspent

/-- Failures are borne as long as those that count and those beyond the extensions together are
fewer than the attempts. -/
theorem bears_of_counts {causes : List ε}
    (hword : p.start.budget.toNat + p.maxExtensions.toNat < Word.size 32)
    (hfew : plain classify causes + (limited classify causes - p.maxExtensions.toNat) <
      p.start.budget.toNat)
    (hretry : ∀ cause ∈ causes, classify cause ≠ .fail) : p.Bears classify p.start causes := by
  rw [p.toNat_start_budget] at hword hfew
  exact (counted_start p classify).bears hword hretry hfew

/-- No more failures are borne than a counter has values. -/
theorem Policy.Bears.length_lt {causes : List ε} (h : p.Bears classify c causes) :
    c.attempt.toNat + causes.length < Word.size 32 := by
  induction causes generalizing c with
  | nil => exact c.attempt.toNat_lt
  | cons cause causes ih =>
    obtain ⟨-, hfits, -, hrest⟩ := h
    have hlength := ih hrest
    rw [Counters.failed_attempt, hfits.1] at hlength
    rw [List.length_cons]
    omega

variable {sample : UInt32 → Float} {pause : Notice ε → σ → σ} {overflow : ε → ε}
  {operation : Action σ ε α} {more : Nat} {s t : σ} {cause : ε}

theorem run_attempts_stop (h : operation.run s = (.error cause, t))
    (hstop : classify cause = .fail) :
    (p.attempts classify sample pause overflow operation more c).run s = (.error cause, t) := by
  cases more with
  | zero => exact h
  | succ more =>
    unfold run at h ⊢
    rw [Policy.attempts]
    simp only [h, hstop]

/-- What is known when an attempt is about to be repeated with these counters. -/
def Counters.notice (c : Counters) (p : Policy) (sample : UInt32 → Float) (cause : ε) : Notice ε :=
  ⟨c.attempt, c.budget, cause, p.delay c.attempt (sample c.attempt)⟩

/-- What comes of a failure that is worth another attempt. -/
theorem run_attempts_failed (more : Nat) (h : operation.run s = (.error cause, t))
    (hretry : classify cause ≠ .fail) :
    (p.attempts classify sample pause overflow operation (more + 1) c).run s =
      if c.Fits p (classify cause) then
        if (c.failed p (classify cause)).budget ≤ (c.failed p (classify cause)).attempt then
          (.error cause, t)
        else
          (p.attempts classify sample pause overflow operation more
            (c.failed p (classify cause))).run
            (pause ((c.failed p (classify cause)).notice p sample cause) t)
      else (.error (overflow cause), t) := by
  unfold run at h ⊢
  rw [Policy.attempts]
  simp only [h]
  rfl

theorem run_attempts_again (more : Nat) (h : operation.run s = (.error cause, t))
    (hretry : classify cause ≠ .fail) (hfits : c.Fits p (classify cause))
    (hleft : (c.failed p (classify cause)).attempt < (c.failed p (classify cause)).budget) :
    (p.attempts classify sample pause overflow operation (more + 1) c).run s =
      (p.attempts classify sample pause overflow operation more (c.failed p (classify cause))).run
        (pause ((c.failed p (classify cause)).notice p sample cause) t) := by
  rw [run_attempts_failed more h hretry, if_pos hfits, if_neg (UInt32.not_le.mpr hleft)]

theorem run_attempts_exhausted (more : Nat) (h : operation.run s = (.error cause, t))
    (hretry : classify cause ≠ .fail) (hfits : c.Fits p (classify cause))
    (hspent : (c.failed p (classify cause)).budget ≤ (c.failed p (classify cause)).attempt) :
    (p.attempts classify sample pause overflow operation (more + 1) c).run s =
      (.error cause, t) := by
  rw [run_attempts_failed more h hretry, if_pos hfits, if_pos hspent]

theorem run_attempts_overflowed (more : Nat) (h : operation.run s = (.error cause, t))
    (hretry : classify cause ≠ .fail) (hfits : ¬ c.Fits p (classify cause)) :
    (p.attempts classify sample pause overflow operation (more + 1) c).run s =
      (.error (overflow cause), t) := by
  rw [run_attempts_failed more h hretry, if_neg hfits]

/-- An operation that is down for several failures in a row ends as it does when it is up again. -/
theorem attempts_outlast {D : List ε → σ → Prop} {Q : α → σ → Prop} {E : ε → σ → Prop}
    (hpause : ∀ notice causes s, D causes s → D causes (pause notice s))
    (hdown : ∀ cause causes s, D (cause :: causes) s →
      operation.Ends s (fun _ _ => False) fun e t => e = cause ∧ D causes t)
    (hup : ∀ s, D [] s → operation.Ends s Q E) (hstop : ∀ e t, E e t → classify e = .fail)
    {causes : List ε} (hbears : p.Bears classify c causes) (hmore : causes.length ≤ more)
    (h : D causes s) :
    (p.attempts classify sample pause overflow operation more c).Ends s Q E := by
  induction causes generalizing more c s with
  | nil =>
    refine (hup s h).elim (fun x t hr q => Ends.of_ok ?_ q) fun cause t hr he =>
      Ends.of_error (run_attempts_stop hr (hstop cause t he)) he
    cases more with
    | zero => exact hr
    | succ more => exact run_attempts_ok hr
  | cons cause causes ih =>
    obtain ⟨hretry, hfits, hleft, hrest⟩ := hbears
    refine (hdown cause causes s h).elim (fun _ _ _ hfalse => hfalse.elim) ?_
    rintro _ t hr ⟨rfl, ht⟩
    cases more with
    | zero => cases hmore
    | succ more =>
      apply Ends.of_run ?_ (run_attempts_again more hr hretry hfits hleft)
      exact ih hrest (Nat.le_of_succ_le_succ hmore) (hpause _ _ _ ht)

end DesiredState.Retry
