import DesiredState.Proofs.Retry.Budget

/-!
# Counters that overflow

The number of attempts stays below the budget and the number of extensions below its limit, so
neither can overflow. Nothing bounds the budget itself: it overflows in some run just if a policy
allows more attempts than a counter has values, and such a run ends with the failure that was to
extend the budget.
-/

namespace DesiredState.Retry

open DesiredState.Action

variable {σ ε α : Type} {p : Policy} {classify : ε → Decision} {sample : UInt32 → Float}
  {before failures : List ε} {last : Except ε α} {cause : ε} {c : Counters}

theorem Policy.Bears.of_append {causes more : List ε}
    (h : p.Bears classify c (causes ++ more)) :
    p.Bears classify c causes ∧ p.Bears classify (c.after p classify causes) more := by
  induction causes generalizing c with
  | nil => exact ⟨trivial, h⟩
  | cons cause causes ih =>
    obtain ⟨hretry, hfits, hleft, hrest⟩ := h
    obtain ⟨hfirst, hmore⟩ := ih hrest
    exact ⟨⟨hretry, hfits, hleft, hfirst⟩, hmore⟩

/-- As long as failures are borne the counters say how many there were. -/
theorem Counted.after {causes : List ε} (h : Counted p classify before c)
    (hleft : c.attempt < c.budget) (hbears : p.Bears classify c causes) :
    Counted p classify (before ++ causes) (c.after p classify causes) ∧
      (c.after p classify causes).attempt < (c.after p classify causes).budget := by
  induction causes generalizing before c with
  | nil => exact ⟨by rwa [List.append_nil], hleft⟩
  | cons cause causes ih =>
    obtain ⟨-, hfits, hleft', hrest⟩ := hbears
    rw [List.append_cons]
    exact ih (h.failed hfits) hleft' hrest

theorem Policy.Bears.counted {causes : List ε} (h : p.Bears classify p.start causes) :
    Counted p classify causes (p.start.after p classify causes) ∧
      (p.start.after p classify causes).attempt < (p.start.after p classify causes).budget :=
  (counted_start p classify).after p.start_attempt_lt h

def Event.outcome? : Event ε α → Option (Except ε α)
  | .called outcome => some outcome
  | _ => none

theorem filterMap_outcome?_written :
    (p.written classify sample c failures).filterMap Event.outcome? =
      failures.map (.error (α := α)) := by
  induction failures generalizing c with
  | nil => rfl
  | cons cause rest ih => exact congrArg (.error cause :: ·) ih

/-- What is tried from a state on, and how its failures are treated. -/
structure Trial (σ ε α : Type) where
  classify : ε → Decision
  sample : UInt32 → Float
  pause : Notice ε → σ → σ
  overflow : ε → ε
  operation : Action σ ε α
  state : σ

namespace Trial

variable (trial : Trial σ ε α) (p : Policy)

/-- The run under a policy, with its calls written down. -/
def run : Except ε α × σ × List (Event ε α) :=
  (p.run trial.classify trial.sample (notedPause trial.pause) trial.overflow
    (noted trial.operation)).run (trial.state, [])

def calls : List (Except ε α) := (trial.run p).2.2.filterMap Event.outcome?

/-- After some failures the operation is called once more, with an outcome. -/
def Calls (before : List ε) (outcome : Except ε α) : Prop :=
  before.map .error ++ [outcome] <+: trial.calls p

def counters (before : List ε) : Counters := p.start.after p trial.classify before

/-- Every addition to a counter gives the next number. -/
structure NeverOverflows : Prop where
  attempt : ∀ {before outcome}, trial.Calls p before outcome →
    Counts (trial.counters p before).attempt
  extensions : ∀ {before cause}, trial.Calls p before (.error cause) →
    (trial.counters p before).Extends p (trial.classify cause) →
    Counts (trial.counters p before).extensions
  budget : ∀ {before cause}, trial.Calls p before (.error cause) →
    (trial.counters p before).Extends p (trial.classify cause) →
    Counts (trial.counters p before).budget

variable {trial p}

theorem exists_calls (trial : Trial σ ε α) (p : Policy) : ∃ failures last result,
    ((p.run trial.classify trial.sample trial.pause trial.overflow trial.operation).run
      trial.state).1 = result ∧
    trial.calls p = failures.map .error ++ [last] ∧
    (∃ u, (trial.operation.run u).1 = last) ∧ p.Bears trial.classify p.start failures ∧
    p.Closes trial.classify trial.overflow (trial.counters p failures) last result := by
  obtain ⟨failures, last, result, t, hlogged, hrun, hrest⟩ :=
    attempts_closes p trial.classify trial.sample trial.pause trial.overflow trial.operation
      trial.state [] p.start_attempt_lt (Nat.le_add_right (Word.size 32) _)
  refine ⟨failures, last, result, congrArg Prod.fst hrun, ?_, hrest⟩
  unfold calls run Policy.run
  rw [hlogged, List.nil_append, List.filterMap_append, filterMap_outcome?_written]
  rfl

/-- A call is the last one, or its failure is one of those that are borne. -/
theorem call_cases {outcome : Except ε α}
    (h : before.map .error ++ [outcome] <+: failures.map .error ++ [last]) :
    before = failures ∧ outcome = last ∨
      ∃ cause rest, outcome = .error cause ∧ failures = before ++ cause :: rest := by
  induction before generalizing failures with
  | nil =>
    cases failures with
    | nil => exact Or.inl ⟨rfl, by simpa using h⟩
    | cons cause rest => exact Or.inr ⟨cause, rest, by simpa using h, rfl⟩
  | cons first before ih =>
    cases failures with
    | nil => simp at h
    | cons cause rest =>
      simp only [List.map_cons, List.cons_append, List.cons_prefix_cons, Except.error.injEq] at h
      obtain ⟨rfl, h⟩ := h
      rcases ih h with ⟨rfl, hlast⟩ | ⟨other, more, houtcome, rfl⟩
      · exact Or.inl ⟨rfl, hlast⟩
      · exact Or.inr ⟨other, more, houtcome, rfl⟩

/-- The failures before a call were borne. -/
theorem Calls.bears {outcome : Except ε α} (h : trial.Calls p before outcome) :
    p.Bears trial.classify p.start before := by
  obtain ⟨failures, last, -, -, hcalls, -, hbears, -⟩ := trial.exists_calls p
  rw [Calls, hcalls] at h
  rcases call_cases h with ⟨rfl, -⟩ | ⟨_, _, -, rfl⟩
  · exact hbears
  · exact hbears.of_append.1

theorem Calls.counts_attempt {outcome : Except ε α} (h : trial.Calls p before outcome) :
    Counts (trial.counters p before).attempt :=
  Counters.counts_attempt h.bears.counted.2

/-- A run ends with the first failure that overflows a counter. -/
theorem Calls.ends_of_overflow (h : trial.Calls p before (.error cause))
    (hretry : trial.classify cause ≠ .fail)
    (hover : ¬ (trial.counters p before).Fits p (trial.classify cause)) :
    trial.calls p = before.map .error ++ [.error cause] ∧
      ((p.run trial.classify trial.sample trial.pause trial.overflow trial.operation).run
        trial.state).1 = .error (trial.overflow cause) := by
  obtain ⟨failures, last, result, hrun, hcalls, -, hbears, hcloses⟩ := trial.exists_calls p
  rw [Calls, hcalls] at h
  rcases call_cases h with ⟨rfl, rfl⟩ | ⟨_, _, ⟨⟩, rfl⟩
  · cases hcloses with
    | refused hfail => exact absurd hfail hretry
    | exhausted hfits => exact absurd hfits hover
    | overflowed => exact ⟨hcalls, hrun⟩
  · obtain ⟨-, hfits, -⟩ := hbears.of_append.2
    exact absurd hfits hover

/-- Where the attempts that are allowed at most fit in a word, no budget overflows. -/
theorem Calls.counts_budget (h : trial.Calls p before (.error cause))
    (hextends : (trial.counters p before).Extends p (trial.classify cause))
    (hword : p.allowance + p.maxExtensions.toNat < Word.size 32) :
    Counts (trial.counters p before).budget := by
  have hcounted := h.bears.counted.1
  have hfewer := UInt32.lt_iff_toNat_lt.mp hextends.2
  have hextensions := hcounted.extensions
  have hbudget := hcounted.budget
  unfold counters at hfewer ⊢
  unfold Policy.budget at hbudget
  exact counts_iff.mpr (by omega)

end Trial

/-- An operation that fails again and again, each time rate limited. -/
def throttled : Trial Unit Unit Unit :=
  ⟨fun _ => .rateLimited, fun _ => 0, fun _ s => s, id, Action.fail (), ()⟩

/-- If nothing overflows, the attempts of an operation that is throttled for good are as many as are
allowed at most. -/
theorem allowed_of_throttled (h : throttled.NeverOverflows p) :
    p.allowance + p.maxExtensions.toNat < Word.size 32 := by
  obtain ⟨failures, last, result, -, hcalls, ⟨_, rfl⟩, hbears, hcloses⟩ :=
    throttled.exists_calls p
  have hcall : throttled.Calls p failures (.error ()) := by
    rw [Trial.Calls, hcalls]
    exact List.prefix_refl _
  have hfits : (throttled.counters p failures).Fits p .rateLimited :=
    ⟨h.attempt hcall, fun hextends => ⟨h.extensions hcall hextends, h.budget hcall hextends⟩⟩
  have hcounted : Counted p throttled.classify (failures ++ [()])
      ((throttled.counters p failures).failed p .rateLimited) :=
    hbears.counted.1.failed hfits
  have hspent : ((throttled.counters p failures).failed p .rateLimited).budget ≤
      ((throttled.counters p failures).failed p .rateLimited).attempt := by
    cases hcloses with
    | refused hfail => cases hfail
    | exhausted _ hspent => exact hspent
    | overflowed hover => exact absurd hfits hover
  have hall : limited throttled.classify (failures ++ [()]) = (failures ++ [()]).length :=
    List.countP_eq_length.mpr fun _ _ => rfl
  have hle := UInt32.le_iff_toNat_le.mp hspent
  have hattempt := hcounted.attempt
  have hbudget := hcounted.budget
  have hword : ((throttled.counters p failures).failed p .rateLimited).attempt.toNat <
    Word.size 32 := UInt32.toNat_lt _
  have hone : 1 ≤ p.allowance := Nat.le_max_left 1 _
  rw [Policy.budget, hall] at hbudget
  omega

/-- Under a policy no addition ever overflows, whatever is tried and however its failures are
treated, just if the attempts that it allows at most fit in a word. The numbers of attempts and of
extensions never overflow; where the budget does, the run ends with the failure that was to extend
it. -/
theorem never_overflows_iff_allowed (p : Policy) :
    ((∀ {σ ε α : Type} (trial : Trial σ ε α), trial.NeverOverflows p) ↔
      p.allowance + p.maxExtensions.toNat < Word.size 32) ∧
    ∀ {σ ε α : Type} (trial : Trial σ ε α) (before : List ε),
      (∀ outcome, trial.Calls p before outcome → Counts (trial.counters p before).attempt) ∧
      ∀ cause, trial.Calls p before (.error cause) →
        (trial.counters p before).Extends p (trial.classify cause) →
        Counts (trial.counters p before).extensions ∧
        (¬ Counts (trial.counters p before).budget →
          trial.calls p = before.map .error ++ [.error cause] ∧
          ((p.run trial.classify trial.sample trial.pause trial.overflow trial.operation).run
            trial.state).1 = .error (trial.overflow cause)) := by
  refine ⟨⟨fun h => allowed_of_throttled (h throttled), fun hword _ _ _ trial => ?_⟩,
    fun trial before => ⟨fun _ hcall => hcall.counts_attempt, fun cause hcall hextends => ?_⟩⟩
  · exact ⟨fun hcall => hcall.counts_attempt, fun _ hextends => hextends.counts_extensions,
      fun hcall hextends => hcall.counts_budget hextends hword⟩
  · have hretry : trial.classify cause ≠ .fail := by
      rw [hextends.1]
      decide
    exact ⟨hextends.counts_extensions, fun hover =>
      hcall.ends_of_overflow hretry fun hfits => hover (hfits.2 hextends).2⟩

/-- As many attempts as a counter can count. -/
def tireless : Policy := { maxAttempts := 4294967295 }

def slow : Failure := .transient "cloud" "slow" true

def throttledOnce : Trial Nat Failure Nat :=
  ⟨Failure.decision, fun _ => 0, fun _ n => n, fun _ => .overflow,
    fun n => (if n = 0 then .error slow else .ok 42, n + 1), 0⟩

/-- The first failure is to extend the budget, and the program ends. -/
theorem overflows_tireless :
    ¬ throttledOnce.NeverOverflows tireless ∧
      throttledOnce.run tireless = (.error .overflow, 1, [.called (.error slow)]) := by
  have hfirst : throttledOnce.operation.run 0 = (.error slow, 1) := rfl
  have hdecision : Failure.decision slow = .rateLimited := rfl
  have hover : ¬ tireless.start.Fits tireless (Failure.decision slow) := by decide
  have hretry : Failure.decision slow ≠ .fail := by decide
  obtain ⟨more, hmore⟩ : ∃ more, Word.size 32 = more + 1 := ⟨Word.size 32 - 1, by decide⟩
  have hrun : throttledOnce.run tireless = (.error .overflow, 1, [.called (.error slow)]) := by
    unfold Trial.run Policy.run
    rw [hmore]
    exact run_attempts_overflowed more (run_noted hfirst []) hretry hover
  have hcall : throttledOnce.Calls tireless [] (.error slow) := by
    rw [Trial.Calls, Trial.calls, hrun]
    exact List.prefix_refl _
  have hextends : (throttledOnce.counters tireless []).Extends tireless
    (throttledOnce.classify slow) := ⟨hdecision, by decide⟩
  refine ⟨fun h => ?_, hrun⟩
  exact absurd (h.budget hcall hextends) (by decide)

end DesiredState.Retry
