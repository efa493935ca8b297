import DesiredState.Proofs.Retry.Budget

/-!
# How often a condition is evaluated

The evaluations of a wait and its pauses are written down as they happen. A condition is evaluated
until it holds, fails or has been evaluated as often as the policy says, with one pause between two
evaluations. Whether the condition can fail makes no difference as long as it does not.
-/

namespace DesiredState.Poll

open DesiredState.Action
open DesiredState.Retry (Event noted run_noted)

variable {σ ε : Type}

def notedPause (pause : Duration → σ → σ) (delay : Duration) (s : σ × List (Event ε Bool)) :
    σ × List (Event ε Bool) :=
  (pause delay s.1, s.2 ++ [.slept delay])

/-- A test whose results are written down. -/
def notedTest (test : σ → Bool × σ) (s : σ × List (Event ε Bool)) :
    Bool × σ × List (Event ε Bool) :=
  ((test s.1).1, (test s.1).2, s.2 ++ [.called (.ok (test s.1).1)])

/-- How often the condition is evaluated at most. -/
def Policy.allowance (p : Policy) : Nat := max 1 p.maxTries.toNat

/-- The rounds in which a condition did not hold, each with the pause after it, from a first pause
on, and the outcome of the last evaluation. -/
def history (factor : Float) (last : Except ε Bool) : Nat → Duration → List (Event ε Bool)
  | 0, _ => [.called last]
  | rounds + 1, delay =>
    .called (.ok false) :: .slept delay :: history factor last rounds (grow factor delay)

def pauses (factor : Float) : Nat → Duration → List Duration
  | 0, _ => []
  | rounds + 1, delay => delay :: pauses factor rounds (grow factor delay)

def sleeps (events : List (Event ε Bool)) : List Duration :=
  events.filterMap fun event =>
    match event with
    | .slept delay => some delay
    | _ => none

/-- The outcome of the last evaluation, after some rounds in which the condition did not hold. -/
inductive Policy.Course (p : Policy) (rounds : Nat) : Except ε Bool → Prop where
  | held (h : rounds < p.allowance) : p.Course rounds (.ok true)
  | failed (cause : ε) (h : rounds < p.allowance) : p.Course rounds (.error cause)
  | exhausted (h : rounds + 1 = p.allowance) : p.Course rounds (.ok false)

/-- What a wait answers after its last evaluation. -/
def Policy.verdict (p : Policy) (what : String) (timedOut : LockError → ε) :
    Except ε Bool → Except ε Bool
  | .ok false =>
    match p.onTimeout with
    | .returnFalse => .ok false
    | .fail => .error (timedOut (.timedOut what p.tries))
  | .ok true => .ok true
  | .error cause => .error cause

variable {p : Policy} {what : String} {timedOut : LockError → ε} {pause : Duration → σ → σ}
  {condition : Action σ ε Bool} {factor : Float} {last : Except ε Bool} {rounds : Nat}
  {delay : Duration} {s t : σ}

theorem Policy.toNat_tries (p : Policy) : p.tries.toNat = p.allowance :=
  Retry.toNat_max_one p.maxTries

theorem countP_isCall_history :
    (history factor last rounds delay).countP Event.isCall = rounds + 1 := by
  induction rounds generalizing delay with
  | zero => rfl
  | succ rounds ih => simp [history, List.countP_cons, Event.isCall, ih]

theorem sleeps_history :
    sleeps (history factor last rounds delay) = pauses factor rounds delay := by
  induction rounds generalizing delay with
  | zero => rfl
  | succ rounds ih => exact congrArg (delay :: ·) ih

theorem length_pauses : (pauses factor rounds delay).length = rounds := by
  induction rounds generalizing delay with
  | zero => rfl
  | succ rounds ih => exact congrArg (· + 1) ih

theorem head?_pauses (h : 0 < rounds) : (pauses factor rounds delay).head? = some delay := by
  cases rounds with
  | zero => exact absurd h (Nat.lt_irrefl 0)
  | succ rounds => rfl

/-- No pause grows out of none. -/
theorem pauses_zero : pauses factor rounds .zero = List.replicate rounds .zero := by
  induction rounds with
  | zero => rfl
  | succ rounds ih => rw [pauses, grow_zero, ih, List.replicate_succ]

theorem evaluations_true (left : Nat) (h : condition.run s = (.ok true, t)) :
    (evaluations factor pause condition (left + 1) delay).run s = (.ok true, t) := by
  cases left with
  | zero => exact h
  | succ left => exact run_bind_ok h

theorem evaluations_error (left : Nat) {cause : ε} (h : condition.run s = (.error cause, t)) :
    (evaluations factor pause condition (left + 1) delay).run s = (.error cause, t) := by
  cases left with
  | zero => exact h
  | succ left => exact run_bind_error h

theorem evaluations_false (left : Nat) (h : condition.run s = (.ok false, t)) :
    (evaluations factor pause condition (left + 2) delay).run s =
      (evaluations factor pause condition (left + 1) (grow factor delay)).run (pause delay t) :=
  run_bind_ok h

/-- Some rounds in which the condition does not hold come before an evaluation with another
outcome, or before the last one that is left. -/
theorem evaluations_course (factor : Float) (pause : Duration → σ → σ)
    (condition : Action σ ε Bool) (left : Nat) (delay : Duration) (s : σ)
    (log : List (Event ε Bool)) :
    ∃ rounds last t,
      (evaluations factor (notedPause pause) (noted condition) (left + 1) delay).run (s, log) =
        (last, t, log ++ history factor last rounds delay) ∧
      (evaluations factor pause condition (left + 1) delay).run s = (last, t) ∧
      rounds ≤ left ∧ (last = .ok false → rounds = left) := by
  induction left generalizing delay s log with
  | zero =>
    obtain ⟨last, t, hcall⟩ : ∃ last t, condition.run s = (last, t) := ⟨_, _, rfl⟩
    exact ⟨0, last, t, run_noted hcall log, hcall, Nat.le_refl 0, fun _ => rfl⟩
  | succ left ih =>
    obtain ⟨outcome, t, hcall⟩ : ∃ outcome t, condition.run s = (outcome, t) := ⟨_, _, rfl⟩
    have hnoted := run_noted hcall log
    match outcome with
    | .error cause =>
      exact ⟨0, .error cause, t, evaluations_error (left + 1) hnoted,
        evaluations_error (left + 1) hcall, Nat.zero_le _, nofun⟩
    | .ok true =>
      exact ⟨0, .ok true, t, evaluations_true (left + 1) hnoted,
        evaluations_true (left + 1) hcall, Nat.zero_le _, nofun⟩
    | .ok false =>
      obtain ⟨rounds, last, u, hlogged, hrun, hle, hlast⟩ :=
        ih (grow factor delay) (pause delay t) (log ++ [.called (.ok false)] ++ [.slept delay])
      refine ⟨rounds + 1, last, u, ?_, (evaluations_false left hcall).trans hrun,
        Nat.succ_le_succ hle, fun h => congrArg (· + 1) (hlast h)⟩
      rw [evaluations_false left hnoted]
      refine hlogged.trans ?_
      simp [history]

theorem Policy.run_await (p : Policy) (what : String) (timedOut : LockError → ε)
    (h : (evaluations p.factor pause condition p.tries.toNat p.initial).run s = (last, t)) :
    (p.await what timedOut pause condition).run s = (p.verdict what timedOut last, t) := by
  unfold Policy.await
  match last with
  | .error cause => exact run_bind_error h
  | .ok true => exact run_bind_ok h
  | .ok false =>
    refine (run_bind_ok h).trans ?_
    unfold Policy.verdict
    cases p.onTimeout <;> rfl

/-- A test comes to the same end whatever failures are. -/
theorem evaluations_sure (factor : Float) (pause : Duration → σ → σ) (test : σ → Bool × σ)
    (left : Nat) (delay : Duration) (s : σ) : ∃ held t, ∀ {δ : Type},
      (evaluations factor pause (sure test) left delay : Action σ δ Bool).run s =
        (.ok held, t) := by
  induction left using Nat.strongRecOn generalizing delay s with
  | ind left ih =>
    match left with
    | 0 => exact ⟨false, s, rfl⟩
    | 1 => exact ⟨(test s).1, (test s).2, rfl⟩
    | left + 2 =>
      cases htest : (test s).1 with
      | true =>
        refine ⟨true, (test s).2, fun {δ} => evaluations_true (left + 1) ?_⟩
        exact Prod.ext (congrArg Except.ok htest) rfl
      | false =>
        obtain ⟨held, t, hrun⟩ := ih (left + 1) (Nat.lt_succ_self _) (grow factor delay)
          (pause delay (test s).2)
        refine ⟨held, t, fun {δ} => (evaluations_false left ?_).trans hrun⟩
        exact Prod.ext (congrArg Except.ok htest) rfl

/-- Waiting for a test is waiting for a condition that happens not to fail. -/
theorem Policy.await_sure (p : Policy) (what : String) (timedOut : LockError → ε)
    (pause : Duration → σ → σ) (test : σ → Bool × σ) :
    p.await what timedOut pause (sure test) = mapError timedOut (p.awaitSure what pause test) := by
  funext s
  obtain ⟨held, t, hrun⟩ := evaluations_sure p.factor pause test p.tries.toNat p.initial s
  have hsure : (p.awaitSure what pause test).run s = (p.verdict what id (.ok held), t) :=
    p.run_await what id hrun
  refine (p.run_await what timedOut hrun).trans ?_
  change _ = (mapError timedOut (p.awaitSure what pause test)).run s
  rw [run_mapError, hsure]
  unfold Policy.verdict
  cases held with
  | true => rfl
  | false => cases p.onTimeout <;> rfl

/-- A condition is evaluated until it holds, fails or was evaluated as often as is allowed, at least
once, and what the last evaluation said is the answer, or that the time is up. There is one pause
between two evaluations and none after the last: the first is the initial one, and there are none
but empty pauses if that one is empty. A test that cannot fail is waited for with the same answer,
the same evaluations and the same pauses. -/
theorem Policy.await_counts (p : Policy) (what : String) (timedOut : LockError → ε)
    (pause : Duration → σ → σ) (condition : Action σ ε Bool) (s : σ) :
    (∃ rounds last t,
      (p.await what timedOut (notedPause pause) (noted condition)).run (s, []) =
        (p.verdict what timedOut last, t, history p.factor last rounds p.initial) ∧
      (p.await what timedOut pause condition).run s = (p.verdict what timedOut last, t) ∧
      p.Course rounds last ∧
      (history p.factor last rounds p.initial).countP Event.isCall = rounds + 1 ∧
      sleeps (history p.factor last rounds p.initial) = pauses p.factor rounds p.initial ∧
      (pauses p.factor rounds p.initial).length = rounds ∧
      (0 < rounds → (pauses p.factor rounds p.initial).head? = some p.initial) ∧
      (p.initial = .zero → ∀ delay ∈ pauses p.factor rounds p.initial, delay = .zero)) ∧
    p.tries.toNat = max 1 p.maxTries.toNat ∧
    ∀ test : σ → Bool × σ,
      p.await what timedOut pause (sure test) = mapError timedOut (p.awaitSure what pause test) ∧
      p.await what timedOut (notedPause pause) (noted (sure test)) =
        mapError timedOut (p.awaitSure what (notedPause pause) (notedTest test)) := by
  refine ⟨?_, p.toNat_tries, fun test => ⟨p.await_sure what timedOut pause test,
    p.await_sure what timedOut (notedPause pause) (notedTest test)⟩⟩
  obtain ⟨left, hleft⟩ : ∃ left, p.tries.toNat = left + 1 := by
    refine Nat.exists_eq_succ_of_ne_zero ?_
    rw [p.toNat_tries, Policy.allowance]
    omega
  obtain ⟨rounds, last, t, hlogged, hrun, hle, hlast⟩ :=
    evaluations_course p.factor pause condition left p.initial s []
  rw [← hleft] at hlogged hrun
  refine ⟨rounds, last, t, p.run_await what timedOut hlogged, p.run_await what timedOut hrun, ?_,
    countP_isCall_history, sleeps_history, length_pauses, head?_pauses, ?_⟩
  case refine_1 =>
    rw [p.toNat_tries] at hleft
    match last with
    | .ok true => exact .held (by omega)
    | .error cause => exact .failed cause (by omega)
    | .ok false => exact .exhausted (by rw [hlast rfl, hleft])
  case refine_2 =>
    intro hzero delay hdelay
    rw [hzero, pauses_zero] at hdelay
    exact List.eq_of_mem_replicate hdelay

/-- Without any tries the condition is evaluated once. -/
example : ((Policy.await { maxTries := 0 } "ready" id (notedPause fun _ n => n)
    (noted (sure fun n => (false, n + 1)))).run (0, [])) =
      (.error (.timedOut "ready" 1), 1, [.called (.ok false)]) := rfl

end DesiredState.Poll
