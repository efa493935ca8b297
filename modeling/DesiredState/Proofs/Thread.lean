import DesiredState.Proofs.World
import Mathlib.Logic.Function.Basic

/-!
# Actions that take turns

A thread is an action cut into turns; alone it is that action again. Threads side by side share one
state, and an order says which of them takes the next turn. From everywhere they can come to their
ends, for instance one after the other.
-/

namespace DesiredState

open DesiredState.Action

/-- What is left of an action that takes turns with others: its outcome, or a turn, which changes
the state and goes on as the state before it says. -/
inductive Thread (σ ε α : Type) where
  | ended (outcome : Except ε α)
  | turn (next : σ → Thread σ ε α) (leave : σ → σ)

namespace Thread

variable {σ ε δ α β : Type}

/-- Turn after turn without any other thread in between. -/
def alone : Thread σ ε α → Action σ ε α
  | ended outcome => ofExcept outcome
  | turn next leave => fun s => (next s).alone.run (leave s)

/-- Go on with the value that a thread returns. -/
def andThen : Thread σ ε α → (α → Thread σ ε β) → Thread σ ε β
  | ended (.ok x), f => f x
  | ended (.error e), _ => ended (.error e)
  | turn next leave, f => turn (fun s => (next s).andThen f) leave

instance : Monad (Thread σ ε) where
  pure x := ended (.ok x)
  bind := andThen

def fail (e : ε) : Thread σ ε α := ended (.error e)

def once (a : Action σ ε α) : Thread σ ε α :=
  turn (fun s => ended (a.run s).1) fun s => (a.run s).2

def attempt : Thread σ ε α → Thread σ δ (Except ε α)
  | ended outcome => ended (.ok outcome)
  | turn next leave => turn (fun s => (next s).attempt) leave

/-- A thread for each member in turn, stopping at the first failure. -/
def forEach (f : β → Thread σ ε Unit) : List β → Thread σ ε Unit
  | [] => pure ()
  | x :: xs => do
    f x
    forEach f xs

/-- Attempts from given counters on, each of them and each pause with turns of its own. -/
def attempts (p : Retry.Policy) (classify : ε → Retry.Decision) (sample : UInt32 → Float)
    (pause : Retry.Notice ε → σ → σ) (overflow : ε → ε) (operation : Thread σ ε α) :
    Nat → Retry.Counters → Thread σ ε α
  | 0, _ => operation
  | more + 1, c => do
    match ← operation.attempt with
    | .ok x => pure x
    | .error cause =>
      match classify cause with
      | .fail => fail cause
      | decision =>
        if c.Fits p decision then
          let c := c.failed p decision
          if c.budget ≤ c.attempt then fail cause
          else
            let delay := p.delay c.attempt (sample c.attempt)
            once (update (pause ⟨c.attempt, c.budget, cause, delay⟩))
            attempts p classify sample pause overflow operation more c
        else fail (overflow cause)

@[simp] theorem alone_pure (x : α) : (pure x : Thread σ ε α).alone = pure x := rfl

@[simp] theorem alone_fail (e : ε) : (fail e : Thread σ ε α).alone = Action.fail e := rfl

@[simp] theorem alone_once (a : Action σ ε α) : (once a).alone = a := rfl

@[simp] theorem alone_bind (a : Thread σ ε α) (f : α → Thread σ ε β) :
    (a >>= f).alone = a.alone >>= fun x => (f x).alone := by
  induction a with
  | ended outcome => cases outcome <;> rfl
  | turn next leave ih => exact funext fun s => congrFun (ih s) (leave s)

@[simp] theorem alone_attempt (a : Thread σ ε α) :
    (a.attempt : Thread σ δ (Except ε α)).alone = a.alone.attempt := by
  induction a with
  | ended outcome => rfl
  | turn next leave ih => exact funext fun s => congrFun (ih s) (leave s)

@[simp] theorem alone_forEach (f : β → Thread σ ε Unit) (xs : List β) :
    (forEach f xs).alone = Action.forEach (fun x => (f x).alone) xs := by
  induction xs with
  | nil => rfl
  | cons x xs ih =>
    rw [forEach, alone_bind, ih]
    rfl

/-- Without other threads the attempts are those of the policy. -/
theorem alone_attempts (p : Retry.Policy) (classify : ε → Retry.Decision)
    (sample : UInt32 → Float) (pause : Retry.Notice ε → σ → σ) (overflow : ε → ε)
    (operation : Thread σ ε α) (more : Nat) (c : Retry.Counters) :
    (attempts p classify sample pause overflow operation more c).alone =
      p.attempts classify sample pause overflow operation.alone more c := by
  induction more generalizing c with
  | zero => rfl
  | succ more ih =>
    funext s
    cases houtcome : operation.alone s with | mk outcome t
    have hattempt : (operation.attempt : Thread σ ε _).alone.run s = (.ok outcome, t) := by
      rw [alone_attempt, run_attempt]
      unfold Action.run
      rw [houtcome]
    rw [attempts, alone_bind, Retry.Policy.attempts]
    refine (run_bind_ok hattempt).trans ?_
    simp only [houtcome]
    cases outcome with
    | ok x => rfl
    | error cause =>
      -- whether a failure is rate-limited matters to the counters alone
      cases hdecision : classify cause <;> simp only [hdecision]
      case fail => rfl
      all_goals
        split
        · split
          · rfl
          · rw [alone_bind, ih]
            rfl
        · rfl

/-- The states that a thread passes alone, one after each turn. -/
def passed : Thread σ ε α → σ → List σ
  | ended _, _ => []
  | turn next leave, s => leave s :: (next s).passed (leave s)

theorem passed_bind (a : Thread σ ε α) (f : α → Thread σ ε β) (s : σ) :
    (a >>= f).passed s = a.passed s ++
      match a.alone.run s with
      | (.ok x, t) => (f x).passed t
      | (.error _, _) => [] := by
  induction a generalizing s with
  | ended outcome => cases outcome <;> rfl
  | turn next leave ih => exact congrArg (leave s :: ·) (ih s (leave s))

theorem passed_once (a : Action σ ε α) (s : σ) : (once a).passed s = [(a.run s).2] := rfl

theorem passed_attempt (a : Thread σ ε α) (s : σ) :
    (a.attempt : Thread σ δ (Except ε α)).passed s = a.passed s := by
  induction a generalizing s with
  | ended outcome => rfl
  | turn next leave ih => exact congrArg (leave s :: ·) (ih s (leave s))

/-- The state that a thread leaves is the last one that it passes. -/
theorem getLast?_passed (a : Thread σ ε α) (s : σ) :
    (s :: a.passed s).getLast? = some (a.alone.run s).2 := by
  induction a generalizing s with
  | ended outcome => rfl
  | turn next leave ih =>
    rw [passed, List.getLast?_cons_cons]
    exact ih s (leave s)

/-- No turn changes what is seen of the state. -/
def Leaves {τ : Type} (see : σ → τ) : Thread σ ε α → Prop
  | ended _ => True
  | turn next leave => ∀ s, see (leave s) = see s ∧ Leaves see (next s)

/-- What is seen of the state changes in a single turn, if it does. -/
def ChangesAtOnce {τ : Type} (see : σ → τ) (a : Thread σ ε α) (s : σ) : Prop :=
  ∃ m n, (a.passed s).map see =
    List.replicate m (see s) ++ List.replicate n (see (a.alone.run s).2)

section

variable {τ : Type} {see : σ → τ}

theorem leaves_pure (x : α) : Leaves see (pure x : Thread σ ε α) := trivial

theorem leaves_fail (e : ε) : Leaves see (Thread.fail e : Thread σ ε α) := trivial

theorem leaves_once {a : Action σ ε α} (h : ∀ s, see (a.run s).2 = see s) :
    (once a).Leaves see := fun s => ⟨h s, trivial⟩

theorem Leaves.bind {a : Thread σ ε α} {f : α → Thread σ ε β} (h : a.Leaves see)
    (hf : ∀ x, (f x).Leaves see) : (a >>= f).Leaves see := by
  induction a with
  | ended outcome =>
    cases outcome with
    | ok x => exact hf x
    | error e => trivial
  | turn next leave ih => exact fun s => ⟨(h s).1, ih s (h s).2⟩

theorem Leaves.attempt {a : Thread σ ε α} (h : a.Leaves see) :
    (a.attempt : Thread σ δ (Except ε α)).Leaves see := by
  induction a with
  | ended outcome => trivial
  | turn next leave ih => exact fun s => ⟨(h s).1, ih s (h s).2⟩

/-- Attempts leave what each of them and the pauses leave. -/
theorem leaves_attempts {p : Retry.Policy} {classify : ε → Retry.Decision}
    {sample : UInt32 → Float} {pause : Retry.Notice ε → σ → σ} {overflow : ε → ε}
    {operation : Thread σ ε α} (hpause : ∀ notice s, see (pause notice s) = see s)
    (h : operation.Leaves see) (more : Nat) (c : Retry.Counters) :
    (attempts p classify sample pause overflow operation more c).Leaves see := by
  induction more generalizing c with
  | zero => exact h
  | succ more ih =>
    refine h.attempt.bind fun outcome => ?_
    cases outcome with
    | ok x => exact leaves_pure x
    | error cause =>
      cases hdecision : classify cause <;> simp only [hdecision]
      case fail => exact leaves_fail cause
      all_goals
        split
        · split
          · exact leaves_fail cause
          · exact (leaves_once (hpause _)).bind fun _ => ih _
        · exact leaves_fail _

theorem Leaves.map_passed {a : Thread σ ε α} (h : a.Leaves see) (s : σ) :
    (∃ n, (a.passed s).map see = List.replicate n (see s)) ∧ see (a.alone.run s).2 = see s := by
  induction a generalizing s with
  | ended outcome => exact ⟨⟨0, rfl⟩, rfl⟩
  | turn next leave ih =>
    obtain ⟨hleave, hnext⟩ := h s
    obtain ⟨⟨n, hpassed⟩, hend⟩ := ih s hnext (leave s)
    refine ⟨⟨n + 1, ?_⟩, hend.trans hleave⟩
    rw [passed, List.map_cons, hpassed, hleave]
    rfl

theorem Leaves.changesAtOnce {a : Thread σ ε α} (h : a.Leaves see) (s : σ) :
    a.ChangesAtOnce see s := by
  obtain ⟨⟨n, hpassed⟩, -⟩ := h.map_passed s
  exact ⟨n, 0, hpassed.trans (List.append_nil _).symm⟩

/-- One turn may change something, if nothing is changed after it. -/
theorem changesAtOnce_once_bind (a : Action σ ε α) {f : α → Thread σ ε β}
    (hf : ∀ x, (f x).Leaves see) (s : σ) : (once a >>= f).ChangesAtOnce see s := by
  obtain ⟨outcome, t, hrun⟩ : ∃ outcome t, a.run s = (outcome, t) := ⟨_, _, rfl⟩
  cases outcome with
  | error e =>
    refine ⟨0, 1, ?_⟩
    rw [passed_bind, alone_bind, alone_once, run_bind_error hrun, hrun]
    change [see (a.run s).2] = _
    rw [hrun]
    rfl
  | ok x =>
    obtain ⟨⟨n, hpassed⟩, hend⟩ := (hf x).map_passed t
    refine ⟨0, n + 1, ?_⟩
    rw [passed_bind, alone_bind, alone_once, run_bind_ok hrun, hrun, hend, List.map_append, hpassed]
    change see (a.run s).2 :: _ = _
    rw [hrun]
    rfl

/-- What comes before the change may take any number of turns. -/
theorem Leaves.bind_changesAtOnce {a : Thread σ ε α} {f : α → Thread σ ε β} (h : a.Leaves see)
    {s : σ} (hf : ∀ x t, a.alone.run s = (.ok x, t) → (f x).ChangesAtOnce see t) :
    (a >>= f).ChangesAtOnce see s := by
  obtain ⟨⟨k, hpassed⟩, hend⟩ := h.map_passed s
  obtain ⟨outcome, t, hrun⟩ : ∃ outcome t, a.alone.run s = (outcome, t) := ⟨_, _, rfl⟩
  cases outcome with
  | error e =>
    refine ⟨k, 0, ?_⟩
    rw [passed_bind, hrun, List.map_append, hpassed]
    rfl
  | ok x =>
    obtain ⟨m, n, hrest⟩ := hf x t hrun
    rw [hrun] at hend
    refine ⟨k + m, n, ?_⟩
    rw [passed_bind, alone_bind, run_bind_ok hrun, hrun, List.map_append, hpassed, hrest, hend,
      ← List.replicate_append_replicate, List.append_assoc]

end

end Thread

/-- Threads and the state that they share. -/
structure Pool (ι σ ε α : Type) where
  threads : ι → Thread σ ε α
  state : σ

namespace Pool

variable {ι σ ε α : Type} {p : Pool ι σ ε α}

/-- A thread takes its next turn, if it has one. -/
def advance [DecidableEq ι] (p : Pool ι σ ε α) (i : ι) : Pool ι σ ε α :=
  match p.threads i with
  | .ended _ => p
  | .turn next leave => ⟨Function.update p.threads i (next p.state), leave p.state⟩

/-- The threads take turns in an order. -/
def follow [DecidableEq ι] (p : Pool ι σ ε α) (order : List ι) : Pool ι σ ε α :=
  order.foldl advance p

def Over (p : Pool ι σ ε α) : Prop := ∀ i, ∃ outcome, p.threads i = .ended outcome

def inTurn (threads : ι → Thread σ ε α) : List ι → σ → List (Except ε α) × σ
  | [], s => ([], s)
  | i :: rest, s =>
    let first := (threads i).alone.run s
    let others := inTurn threads rest first.2
    (first.1 :: others.1, others.2)

theorem inTurn_congr {threads others : ι → Thread σ ε α} {l : List ι}
    (h : ∀ i ∈ l, others i = threads i) (s : σ) : inTurn others l s = inTurn threads l s := by
  induction l generalizing s with
  | nil => rfl
  | cons i rest ih =>
    rw [inTurn, inTurn, h i List.mem_cons_self]
    simp only [ih fun j hj => h j (List.mem_cons_of_mem _ hj)]

theorem over_of_map {all : List ι} (hall : ∀ i, i ∈ all) {outcomes : List (Except ε α)}
    (h : all.map p.threads = outcomes.map .ended) : p.Over := fun i => by
  have hi : p.threads i ∈ outcomes.map .ended := h ▸ List.mem_map_of_mem (hall i)
  obtain ⟨outcome, -, houtcome⟩ := List.mem_map.mp hi
  exact ⟨outcome, houtcome.symm⟩

variable [DecidableEq ι] {i : ι}

theorem advance_ended {outcome : Except ε α} (h : p.threads i = .ended outcome) :
    p.advance i = p := by
  rw [advance, h]

section

variable {next : σ → Thread σ ε α} {leave : σ → σ}

theorem threads_advance (h : p.threads i = .turn next leave) :
    (p.advance i).threads = Function.update p.threads i (next p.state) := by
  rw [advance, h]

theorem state_advance (h : p.threads i = .turn next leave) :
    (p.advance i).state = leave p.state := by
  rw [advance, h]

end

theorem threads_advance_ne {j : ι} (h : j ≠ i) : (p.advance i).threads j = p.threads j := by
  cases hi : p.threads i with
  | ended outcome => rw [advance_ended hi]
  | turn next leave => rw [threads_advance hi, Function.update_of_ne h]

theorem follow_append (p : Pool ι σ ε α) (order more : List ι) :
    p.follow (order ++ more) = (p.follow order).follow more := List.foldl_append

/-- What takes no turn is as it was. -/
theorem threads_follow_of_notMem {order : List ι} (h : i ∉ order) :
    (p.follow order).threads i = p.threads i := by
  induction order generalizing p with
  | nil => rfl
  | cons j rest ih =>
    obtain ⟨hj, hrest⟩ := not_or.mp (List.mem_cons.not.mp h)
    exact (ih hrest).trans (threads_advance_ne hj)

/-- A thread that has ended stays so. -/
theorem threads_follow_ended {outcome : Except ε α} (h : p.threads i = .ended outcome)
    (order : List ι) : (p.follow order).threads i = .ended outcome := by
  induction order generalizing p with
  | nil => exact h
  | cons j rest ih =>
    refine ih ?_
    by_cases hj : i = j
    · rw [← hj, advance_ended h, h]
    · rw [threads_advance_ne hj, h]

theorem Over.follow (h : p.Over) (order : List ι) : p.follow order = p := by
  induction order with
  | nil => rfl
  | cons j rest ih =>
    obtain ⟨outcome, hj⟩ := h j
    exact (congrArg (·.follow rest) (advance_ended hj)).trans ih

/-- A thread that takes enough turns in a row comes to its end. -/
theorem exists_alone (p : Pool ι σ ε α) (i : ι) :
    ∃ n, (p.follow (List.replicate n i)).threads =
        Function.update p.threads i (.ended ((p.threads i).alone.run p.state).1) ∧
      (p.follow (List.replicate n i)).state = ((p.threads i).alone.run p.state).2 := by
  generalize ha : p.threads i = a
  induction a generalizing p with
  | ended outcome =>
    refine ⟨0, ?_, rfl⟩
    change p.threads = Function.update p.threads i (.ended outcome)
    rw [← ha, Function.update_eq_self]
  | turn next leave ih =>
    have hthreads := threads_advance ha
    obtain ⟨n, hended, hstate⟩ :=
      ih p.state (p.advance i) (by rw [hthreads, Function.update_self])
    rw [hthreads, Function.update_idem, state_advance ha] at hended
    rw [state_advance ha] at hstate
    exact ⟨n + 1, hended, hstate⟩

/-- One thread after the other is an order of turns. -/
theorem exists_inTurn {l : List ι} (hl : l.Nodup) (p : Pool ι σ ε α) :
    ∃ order, (p.follow order).state = (inTurn p.threads l p.state).2 ∧
      l.map (p.follow order).threads = (inTurn p.threads l p.state).1.map .ended := by
  induction l generalizing p with
  | nil => exact ⟨[], rfl, rfl⟩
  | cons i rest ih =>
    obtain ⟨hi, hrest⟩ := List.nodup_cons.mp hl
    obtain ⟨n, hended, hafter⟩ := p.exists_alone i
    obtain ⟨order, hstate, hthreads⟩ := ih hrest (p.follow (List.replicate n i))
    have hothers : ∀ j ∈ rest, (p.follow (List.replicate n i)).threads j = p.threads j := by
      intro j hj
      rw [hended, Function.update_of_ne (ne_of_mem_of_not_mem hj hi)]
    have hfirst := threads_follow_ended (congrFun hended i |>.trans (Function.update_self ..)) order
    rw [inTurn_congr hothers, hafter] at hstate hthreads
    refine ⟨List.replicate n i ++ order, ?_, ?_⟩
    · rw [follow_append, hstate]
      rfl
    · rw [follow_append, List.map_cons, hfirst, hthreads]
      rfl

variable {all : List ι}

/-- Whatever turns were taken, the threads can come to their ends. -/
theorem exists_over (hall : ∀ i, i ∈ all) (hnodup : all.Nodup) (p : Pool ι σ ε α) :
    ∃ order, (p.follow order).Over := by
  obtain ⟨order, -, hthreads⟩ := exists_inTurn hnodup p
  exact ⟨order, over_of_map hall hthreads⟩

end Pool

end DesiredState
