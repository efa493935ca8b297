import DesiredState.Proofs.Retry

/-!
# How often an operation is tried

The calls of a run, the notices and the sleeps are written down as they happen. An operation is
called until it succeeds, fails for good or has spent the attempts that are allowed. Failures that
count spend one attempt each, and so do rate-limited ones beyond the extensions; those before only
lengthen the budget that is reported.
-/

namespace DesiredState.Retry

open DesiredState.Action

variable {σ ε α : Type}

/-- Something that happens while an operation is tried. -/
inductive Event (ε α : Type) where
  | called (outcome : Except ε α)
  /-- The attempt with a number failed and is to be repeated, within a budget of attempts. -/
  | notified (attempt budget : Nat) (cause : ε) (delay : Duration)
  | slept (delay : Duration)

def Event.isCall : Event ε α → Bool
  | .called _ => true
  | _ => false

/-- An operation whose calls are written down. -/
def noted (operation : Action σ ε α) : Action (σ × List (Event ε α)) ε α := fun s =>
  let (outcome, t) := operation.run s.1
  (outcome, t, s.2 ++ [.called outcome])

/-- A pause that is written down: first the notice, then the sleep. -/
def notedPause (pause : Notice ε → σ → σ) (n : Notice ε) (s : σ × List (Event ε α)) :
    σ × List (Event ε α) :=
  (pause n s.1,
    s.2 ++ [.notified n.attempt.toNat n.budget.toNat n.cause n.delay, .slept n.delay])

theorem run_noted {operation : Action σ ε α} {s t : σ} {outcome : Except ε α}
    (h : operation.run s = (outcome, t)) (log : List (Event ε α)) :
    (noted operation).run (s, log) = (outcome, t, log ++ [.called outcome]) := by
  show (let (outcome, t) := operation.run s; (outcome, t, log ++ [Event.called outcome])) = _
  rw [h]

variable {p : Policy} {classify : ε → Decision} {sample : UInt32 → Float}
  {pause : Notice ε → σ → σ} {overflow : ε → ε} {operation : Action σ ε α}
  {before failures : List ε} {last result : Except ε α} {cause : ε} {c : Counters} {s t : σ}

def Counters.after (c : Counters) (p : Policy) (classify : ε → Decision) (causes : List ε) :
    Counters :=
  causes.foldl (fun c cause => c.failed p (classify cause)) c

/-- With these counters a last call with some outcome closes a run with some result. -/
inductive Policy.Closes (p : Policy) (classify : ε → Decision) (overflow : ε → ε) (c : Counters) :
    Except ε α → Except ε α → Prop where
  | succeeded (x : α) : p.Closes classify overflow c (.ok x) (.ok x)
  | refused {cause : ε} (h : classify cause = .fail) :
      p.Closes classify overflow c (.error cause) (.error cause)
  | exhausted {cause : ε} (hfits : c.Fits p (classify cause))
      (h : (c.failed p (classify cause)).budget ≤ (c.failed p (classify cause)).attempt) :
      p.Closes classify overflow c (.error cause) (.error cause)
  | overflowed {cause : ε} (h : ¬ c.Fits p (classify cause)) :
      p.Closes classify overflow c (.error cause) (.error (overflow cause))

/-- What happens while failures are each followed by another attempt. -/
def Policy.written (p : Policy) (classify : ε → Decision) (sample : UInt32 → Float) :
    Counters → List ε → List (Event ε α)
  | _, [] => []
  | c, cause :: rest =>
    let c := c.failed p (classify cause)
    let n := c.notice p sample cause
    .called (.error cause) :: .notified n.attempt.toNat n.budget.toNat cause n.delay ::
      .slept n.delay :: p.written classify sample c rest

variable (p classify sample pause overflow operation s) in
/-- With enough attempts to go, whatever the policy: failures that are borne, and then an outcome
that closes the run. -/
theorem attempts_closes {more : Nat} (log : List (Event ε α)) (hleft : c.attempt < c.budget)
    (hmore : Word.size 32 ≤ more + c.attempt.toNat) :
    ∃ failures last result t,
      (p.attempts classify sample (notedPause pause) overflow (noted operation) more c).run
          (s, log) =
        (result, t, log ++ (p.written classify sample c failures ++ [.called last])) ∧
      (p.attempts classify sample pause overflow operation more c).run s = (result, t) ∧
      (∃ u, (operation.run u).1 = last) ∧ p.Bears classify c failures ∧
      p.Closes classify overflow (c.after p classify failures) last result := by
  induction more generalizing c s log with
  | zero =>
    have hlt := UInt32.lt_iff_toNat_lt.mp hleft
    have hword : c.budget.toNat < Word.size 32 := c.budget.toNat_lt
    omega
  | succ more ih =>
    obtain ⟨outcome, t, hcall⟩ : ∃ outcome t, operation.run s = (outcome, t) := ⟨_, _, rfl⟩
    have hnoted := run_noted hcall log
    have hsource : ∃ u, (operation.run u).1 = outcome := ⟨s, congrArg Prod.fst hcall⟩
    cases outcome with
    | ok x =>
      exact ⟨[], .ok x, .ok x, t, run_attempts_ok hnoted, run_attempts_ok hcall, hsource, trivial,
        .succeeded x⟩
    | error cause =>
      by_cases hcause : classify cause = .fail
      · exact ⟨[], .error cause, .error cause, t, run_attempts_stop hnoted hcause,
          run_attempts_stop hcall hcause, hsource, trivial, .refused hcause⟩
      by_cases hfits : c.Fits p (classify cause)
      · by_cases hnext :
            (c.failed p (classify cause)).attempt < (c.failed p (classify cause)).budget
        · have hattempt : (c.failed p (classify cause)).attempt.toNat = c.attempt.toNat + 1 := by
            rw [Counters.failed_attempt]
            exact hfits.1
          rw [run_attempts_again more hnoted hcause hfits hnext,
            run_attempts_again more hcall hcause hfits hnext, notedPause]
          obtain ⟨failures, last, result, u, hlogged, hrun, hlast, hbears, hcloses⟩ :=
            ih _ _ hnext (by omega)
          refine ⟨cause :: failures, last, result, u, hlogged.trans ?_, hrun, hlast,
            ⟨hcause, hfits, hnext, hbears⟩, hcloses⟩
          simp [Policy.written, Counters.notice]
        · have hspent := UInt32.not_lt.mp hnext
          exact ⟨[], .error cause, .error cause, t,
            run_attempts_exhausted more hnoted hcause hfits hspent,
            run_attempts_exhausted more hcall hcause hfits hspent, hsource, trivial,
            .exhausted hfits hspent⟩
      · exact ⟨[], .error cause, .error (overflow cause), t,
          run_attempts_overflowed more hnoted hcause hfits,
          run_attempts_overflowed more hcall hcause hfits, hsource, trivial, .overflowed hfits⟩

/-- After some failures, further ones that are followed by another attempt, and the outcome of the
last call. -/
inductive Policy.Course (p : Policy) (classify : ε → Decision) :
    List ε → List ε → Except ε α → Prop where
  | succeeded {before : List ε} (x : α) : p.Course classify before [] (.ok x)
  | refused {before : List ε} {cause : ε} (h : classify cause = .fail) :
      p.Course classify before [] (.error cause)
  | exhausted {before : List ε} {cause : ε}
      (h : p.allowance ≤ p.spent classify (before ++ [cause])) :
      p.Course classify before [] (.error cause)
  | again {before rest : List ε} {cause : ε} {last : Except ε α} (hretry : classify cause ≠ .fail)
      (hleft : p.spent classify (before ++ [cause]) < p.allowance)
      (h : p.Course classify (before ++ [cause]) rest last) :
      p.Course classify before (cause :: rest) last

/-- What happens while failures, after some others, are each followed by another attempt. -/
def Policy.rounds (p : Policy) (classify : ε → Decision) (sample : UInt32 → Float) :
    List ε → List ε → List (Event ε α)
  | _, [] => []
  | before, cause :: rest =>
    let number := before.length + 1
    let delay := p.delay (.ofNat number) (sample (.ofNat number))
    .called (.error cause) ::
      .notified number (p.budget classify (before ++ [cause])) cause delay ::
      .slept delay :: p.rounds classify sample (before ++ [cause]) rest

/-- What happens in a run with these failures before its last call. -/
def Policy.history (p : Policy) (classify : ε → Decision) (sample : UInt32 → Float)
    (failures : List ε) (last : Except ε α) : List (Event ε α) :=
  p.rounds classify sample [] failures ++ [.called last]

/-- What is written down depends on the counters only through the failures that they count. -/
theorem Counted.written_eq (h : Counted p classify before c)
    (hbears : p.Bears classify c failures) :
    p.written (α := α) classify sample c failures = p.rounds classify sample before failures := by
  induction failures generalizing before c with
  | nil => rfl
  | cons cause rest ih =>
    obtain ⟨-, hfits, -, hrest⟩ := hbears
    have hnext := h.failed hfits
    have hattempt : (c.failed p (classify cause)).attempt.toNat = before.length + 1 := by
      rw [hnext.attempt, List.length_append]
      rfl
    have hnumber : UInt32.ofNat (before.length + 1) = (c.failed p (classify cause)).attempt := by
      rw [← hattempt, UInt32.ofNat_toNat]
    simp only [Policy.written, Policy.rounds, Counters.notice]
    rw [hattempt, hnumber, hnext.budget, ih hnext hrest]

/-- Where all attempts can be counted a run goes on as the counts say. -/
theorem Counted.course (hword : p.allowance + p.maxExtensions.toNat < Word.size 32)
    (h : Counted p classify before c) (hretry : ∀ cause ∈ before, classify cause ≠ .fail)
    (hspent : p.spent classify before < p.allowance) (hbears : p.Bears classify c failures)
    (hcloses : p.Closes classify overflow (c.after p classify failures) last result) :
    result = last ∧ p.Course classify before failures last := by
  induction failures generalizing before c with
  | nil =>
    cases hcloses with
    | succeeded x => exact ⟨rfl, .succeeded x⟩
    | refused hcause => exact ⟨rfl, .refused hcause⟩
    | @exhausted cause hfits hleft =>
      by_cases hcause : classify cause = .fail
      · exact ⟨rfl, .refused hcause⟩
      have hiff := (h.failed hfits).attempt_lt_budget_iff
        (List.forall_mem_append.mpr ⟨hretry, List.forall_mem_singleton.mpr hcause⟩)
      exact ⟨rfl, .exhausted (Nat.not_lt.mp fun hless =>
        absurd (hiff.mpr hless) (UInt32.not_lt.mpr hleft))⟩
    | overflowed hover => exact absurd (h.fits hword (length_lt_of_spent hretry hspent) _) hover
  | cons cause rest ih =>
    obtain ⟨hcause, hfits, hleft, hrest⟩ := hbears
    have hnext := h.failed hfits
    have hretry' : ∀ other ∈ before ++ [cause], classify other ≠ .fail :=
      List.forall_mem_append.mpr ⟨hretry, List.forall_mem_singleton.mpr hcause⟩
    have hspent' := (hnext.attempt_lt_budget_iff hretry').mp hleft
    obtain ⟨hresult, hcourse⟩ := ih hnext hretry' hspent' hrest hcloses
    exact ⟨hresult, .again hcause hspent' hcourse⟩

/-- The failures before the last call leave attempts. -/
theorem Policy.Course.length_lt (h : p.Course classify before failures last)
    (hretry : ∀ cause ∈ before, classify cause ≠ .fail)
    (hspent : p.spent classify before < p.allowance) :
    before.length + failures.length < p.allowance + p.maxExtensions.toNat := by
  induction h with
  | succeeded | refused | exhausted => exact length_lt_of_spent hretry hspent
  | @again before rest cause last hcause hleft _ ih =>
    have hretry' := List.forall_mem_append.mpr ⟨hretry, List.forall_mem_singleton.mpr hcause⟩
    have hlength := ih hretry' hleft
    simp only [List.length_append, List.length_cons, List.length_nil] at hlength ⊢
    omega

theorem countP_isCall_rounds : (p.rounds classify sample before failures).countP
    (Event.isCall (α := α)) = failures.length := by
  induction failures generalizing before with
  | nil => rfl
  | cons cause rest ih => simp [Policy.rounds, List.countP_cons, Event.isCall, ih]

theorem countP_isCall_history : (p.history classify sample failures last).countP Event.isCall =
    failures.length + 1 := by
  rw [Policy.history, List.countP_append, countP_isCall_rounds]
  rfl

theorem baseDelay_le_of_mem_rounds {delay : Duration}
    (h : .slept delay ∈ p.rounds (α := α) classify sample before failures) :
    p.baseDelay.nanos ≤ delay.nanos := by
  induction failures generalizing before with
  | nil => cases h
  | cons cause rest ih =>
    simp only [Policy.rounds, List.mem_cons, reduceCtorEq, false_or, Event.slept.injEq] at h
    rcases h with rfl | h
    · exact p.baseDelay_le_delay _ _
    · exact ih h

theorem baseDelay_le_of_mem_history {delay : Duration}
    (h : .slept delay ∈ p.history classify sample failures last) :
    p.baseDelay.nanos ≤ delay.nanos := by
  rcases List.mem_append.mp h with hrounds | hlast
  · exact baseDelay_le_of_mem_rounds hrounds
  · cases List.mem_singleton.mp hlast

/-- A run that may count all its attempts goes on as the counts say. -/
theorem Policy.run_course (p : Policy) (classify : ε → Decision) (sample : UInt32 → Float)
    (pause : Notice ε → σ → σ) (overflow : ε → ε) (operation : Action σ ε α) (s : σ)
    (hword : p.allowance + p.maxExtensions.toNat < Word.size 32) :
    ∃ failures last t,
      (p.run classify sample (notedPause pause) overflow (noted operation)).run (s, []) =
        (last, t, p.history classify sample failures last) ∧
      (p.run classify sample pause overflow operation).run s = (last, t) ∧
      p.Course classify [] failures last := by
  obtain ⟨failures, last, result, t, hlogged, hrun, -, hbears, hcloses⟩ :=
    attempts_closes p classify sample pause overflow operation s [] p.start_attempt_lt
      (Nat.le_add_right (Word.size 32) _)
  have hcounted := counted_start p classify
  obtain ⟨rfl, hcourse⟩ := hcounted.course hword (by simp) p.spent_nil_lt hbears hcloses
  rw [hcounted.written_eq hbears] at hlogged
  exact ⟨failures, result, t, hlogged, hrun, hcourse⟩

/-- The operation is called until the first success, failure for good or failure that spends the
last attempt that is allowed. Between two calls there is one notice, with the number of the call
and the budget of attempts so far, and one sleep that is not shorter than the fixed part. -/
theorem Policy.run_spends_exactly (p : Policy) (classify : ε → Decision) (sample : UInt32 → Float)
    (pause : Notice ε → σ → σ) (overflow : ε → ε) (operation : Action σ ε α) (s : σ)
    (hword : p.allowance + p.maxExtensions.toNat < Word.size 32) :
    ∃ failures last t,
      (p.run classify sample (notedPause pause) overflow (noted operation)).run (s, []) =
        (last, t, p.history classify sample failures last) ∧
      (p.run classify sample pause overflow operation).run s = (last, t) ∧
      p.Course classify [] failures last ∧
      (p.history classify sample failures last).countP Event.isCall = failures.length + 1 ∧
      failures.length + 1 ≤ p.allowance + p.maxExtensions.toNat ∧
      ∀ delay, .slept delay ∈ p.history classify sample failures last →
        p.baseDelay.nanos ≤ delay.nanos := by
  obtain ⟨failures, last, t, hlogged, hrun, hcourse⟩ :=
    p.run_course classify sample pause overflow operation s hword
  have hlength := hcourse.length_lt (by simp) p.spent_nil_lt
  refine ⟨failures, last, t, hlogged, hrun, hcourse, countP_isCall_history, ?_, ?_⟩
  · simpa using Nat.succ_le_of_lt hlength
  · intro delay hslept
    exact baseDelay_le_of_mem_history hslept

/-- Two attempts that count and one extension. -/
def twice : Policy := { maxAttempts := 2, maxExtensions := 1 }

/-- Rate limited, then failing, then rate limited again. -/
def crowded : Action Nat Decision Unit := fun n =>
  (.error (if n = 1 then .retry else .rateLimited), n + 1)

/-- The extension is used up by the first failure, the attempts by the others. -/
theorem run_crowded :
    (twice.run id (fun _ => 0) (notedPause fun _ n => n) id (noted crowded)).run (0, []) =
      (.error .rateLimited, 3, [.called (.error .rateLimited),
        .notified 1 3 .rateLimited (twice.delay 1 0), .slept (twice.delay 1 0),
        .called (.error .retry), .notified 2 3 .retry (twice.delay 2 0), .slept (twice.delay 2 0),
        .called (.error .rateLimited)]) := by
  have hfirst : crowded.run 0 = (.error .rateLimited, 1) := rfl
  have hsecond : crowded.run 1 = (.error .retry, 2) := rfl
  have hthird : crowded.run 2 = (.error .rateLimited, 3) := rfl
  have hextended : twice.start.failed twice (id .rateLimited) = ⟨1, 1, 3⟩ := by decide
  have hcounted : Counters.failed ⟨1, 1, 3⟩ twice (id .retry) = ⟨2, 1, 3⟩ := by decide
  obtain ⟨more, hmore⟩ : ∃ more, Word.size 32 = more + 1 + 1 + 1 := ⟨Word.size 32 - 3, by decide⟩
  unfold Policy.run
  rw [hmore, run_attempts_again (more + 2) (run_noted hfirst []) (by decide) (by decide)
      (by decide), hextended, notedPause,
    run_attempts_again (more + 1) (run_noted hsecond _) (by decide) (by decide) (by decide),
    hcounted, notedPause,
    run_attempts_exhausted more (run_noted hthird _) (by decide) (by decide) (by decide)]
  simp only [List.nil_append, List.cons_append, Counters.notice]
  rfl

/-- As many calls as are allowed at most. -/
theorem run_spends_exactly_crowded :
    twice.allowance + twice.maxExtensions.toNat < Word.size 32 ∧
    ∃ failures last,
      (twice.run id (fun _ => 0) (notedPause fun _ n => n) id (noted crowded)).run (0, []) =
        (last, 3, twice.history id (fun _ => 0) failures last) ∧
      twice.Course id [] failures last ∧
      failures.length + 1 = twice.allowance + twice.maxExtensions.toNat := by
  obtain ⟨failures, last, t, hlogged, -, hcourse, hcalls, -⟩ :=
    twice.run_spends_exactly id (fun _ => 0) (fun _ n => n) id crowded 0 (by decide)
  obtain ⟨-, hend⟩ := Prod.mk.inj (hlogged.symm.trans run_crowded)
  obtain ⟨rfl, hhistory⟩ := Prod.mk.inj hend
  refine ⟨by decide, failures, last, hlogged, hcourse, ?_⟩
  rw [← hcalls, hhistory]
  rfl

/-- A single attempt is the last one, unless its failure extends the budget. -/
theorem run_once {outcome : Except ε α} (hcall : operation.run s = (outcome, t))
    (h : ∀ cause, outcome = .error cause → classify cause ≠ .rateLimited) :
    (Policy.once.run classify sample pause overflow operation).run s = (outcome, t) := by
  obtain ⟨more, hmore⟩ : ∃ more, Word.size 32 = more + 1 := ⟨Word.size 32 - 1, by decide⟩
  unfold Policy.run
  rw [hmore]
  cases outcome with
  | ok x => exact run_attempts_ok hcall
  | error cause =>
    cases hd : classify cause with
    | retry =>
      apply run_attempts_exhausted more hcall <;>
      · rw [hd]
        decide
    | rateLimited => exact absurd hd (h cause rfl)
    | fail => exact run_attempts_stop hcall hd

/-- The first extension spends nothing. -/
theorem spent_once_lt (h : classify cause = .rateLimited) :
    Policy.once.spent classify [cause] < Policy.once.allowance := by
  simp only [Policy.spent, plain, limited, List.countP_singleton, h]
  decide

theorem eq_nil_of_history_eq_singleton {event : Event ε α}
    (h : p.history classify sample failures last = [event]) : failures = [] := by
  cases failures with
  | nil => rfl
  | cons cause rest => simp [Policy.history, Policy.rounds] at h

/-- A policy of one attempt calls the operation once and answers with its outcome just if that is no
rate-limited failure. -/
theorem once_calls_once_iff (classify : ε → Decision) (sample : UInt32 → Float)
    (pause : Notice ε → σ → σ) (overflow : ε → ε) (operation : Action σ ε α) (s : σ) :
    (Policy.once.run classify sample (notedPause pause) overflow (noted operation)).run (s, []) =
        ((operation.run s).1, (operation.run s).2, [.called (operation.run s).1]) ↔
      ∀ cause, (operation.run s).1 = .error cause → classify cause ≠ .rateLimited := by
  constructor
  · intro hsingle cause hcause hlimited
    obtain ⟨failures, last, t, hlogged, -, hcourse⟩ :=
      Policy.once.run_course classify sample pause overflow operation s (by decide)
    rw [hsingle, hcause] at hlogged
    obtain ⟨rfl, rfl, hhistory⟩ : .error cause = last ∧ (operation.run s).2 = t ∧ _ := by
      simpa using hlogged
    cases eq_nil_of_history_eq_singleton hhistory.symm
    cases hcourse with
    | refused hfail => cases hlimited.symm.trans hfail
    | exhausted hspent => exact absurd (spent_once_lt hlimited) (Nat.not_lt.mpr hspent)
  · exact run_once (run_noted rfl [])

/-- Rate limited at first, and getting through when called again. -/
def limitedFirst : Action Nat Decision Nat := fun n =>
  (if n = 0 then .error .rateLimited else .ok 42, n + 1)

/-- It is called twice, with a pause between. -/
theorem run_limitedFirst :
    (Policy.once.run id (fun _ => 0) (notedPause fun _ n => n) id (noted limitedFirst)).run
        (0, []) =
      (.ok 42, 2, [.called (.error .rateLimited),
        .notified 1 2 .rateLimited (Policy.once.delay 1 0), .slept (Policy.once.delay 1 0),
        .called (.ok 42)]) := by
  have hfirst : limitedFirst.run 0 = (.error .rateLimited, 1) := rfl
  have hsecond : limitedFirst.run 1 = (.ok 42, 2) := rfl
  have hcounters : Policy.once.start.failed .once (id .rateLimited) = ⟨1, 1, 2⟩ := by decide
  obtain ⟨more, hmore⟩ : ∃ more, Word.size 32 = more + 1 + 1 := ⟨Word.size 32 - 2, by decide⟩
  unfold Policy.run
  rw [hmore, run_attempts_again (more + 1) (run_noted hfirst []) (by decide) (by decide)
    (by decide), hcounters, notedPause, run_attempts_ok (run_noted hsecond _)]
  simp only [List.nil_append, List.cons_append, Counters.notice]
  rfl

theorem not_once_calls_once :
    (Policy.once.run id (fun _ => 0) (notedPause fun _ n => n) id (noted limitedFirst)).run
        (0, []) ≠
      ((limitedFirst.run 0).1, (limitedFirst.run 0).2, [.called (limitedFirst.run 0).1]) := by
  rw [run_limitedFirst]
  intro h
  cases congrArg Prod.fst h

end DesiredState.Retry
