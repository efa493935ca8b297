import DesiredState.Proofs.Outcome
import DesiredState.World.Basic

/-!
# How tasks on a world end

Trying again, waiting and holding a mutex add nothing of their own to what an operation does:
whatever the operation keeps when it fails is kept until its last attempt.
-/

namespace DesiredState

open DesiredState.Action

section

variable {σ ε α : Type} {p : Retry.Policy} {classify : ε → Retry.Decision}
  {sample : UInt32 → Float} {pause : Retry.Notice ε → σ → σ} {overflow : ε → ε}
  {operation : Action σ ε α} {more : Nat} {c : Retry.Counters} {s t : σ}

theorem run_attempts_ok {x : α} (h : operation.run s = (.ok x, t)) :
    (p.attempts classify sample pause overflow operation (more + 1) c).run s = (.ok x, t) := by
  unfold run at h ⊢
  rw [Retry.Policy.attempts]
  simp only [h]

/-- After a failure an operation gives up, or pauses and goes on. -/
theorem run_attempts_error {cause : ε} (h : operation.run s = (.error cause, t)) :
    (∃ e, (p.attempts classify sample pause overflow operation (more + 1) c).run s =
      (.error e, t)) ∨
      ∃ d notice, (p.attempts classify sample pause overflow operation (more + 1) c).run s =
        (p.attempts classify sample pause overflow operation more d).run (pause notice t) := by
  unfold run at h ⊢
  rw [Retry.Policy.attempts]
  simp only [h]
  split
  · exact Or.inl ⟨_, rfl⟩
  · split
    · split
      · exact Or.inl ⟨_, rfl⟩
      · exact Or.inr ⟨_, _, rfl⟩
    · exact Or.inl ⟨_, rfl⟩

variable {I : σ → Prop} {Q : α → σ → Prop}

/-- An operation that keeps `I` when it fails starts every attempt with `I`. -/
theorem attempts_ends (hpause : ∀ notice s, I s → I (pause notice s))
    (hop : ∀ s, I s → operation.Ends s Q fun _ t => I t) (h : I s) :
    (p.attempts classify sample pause overflow operation more c).Ends s Q fun _ t => I t := by
  induction more generalizing c s with
  | zero => exact hop s h
  | succ more ih =>
    refine (hop s h).elim (fun x t hr q => Ends.of_ok (run_attempts_ok hr) q)
      fun cause t hr he => ?_
    rcases run_attempts_error hr with ⟨e, hstop⟩ | ⟨d, notice, hagain⟩
    · exact Ends.of_error hstop he
    · exact (ih (hpause notice t he)).of_run hagain

/-- Operations that do the same as long as `I` holds are tried again alike. -/
theorem attempts_same {other : Action σ ε α} (hpause : ∀ notice s, I s → I (pause notice s))
    (hsame : ∀ s, I s → other.run s = operation.run s)
    (hop : ∀ s, I s → operation.Ends s Q fun _ t => I t) (h : I s) :
    (p.attempts classify sample pause overflow other more c).run s =
      (p.attempts classify sample pause overflow operation more c).run s := by
  induction more generalizing c s with
  | zero => exact hsame s h
  | succ more ih =>
    refine (hop s h).elim (fun x t hr _ => ?_) fun cause t hr he => ?_
    · rw [run_attempts_ok hr, run_attempts_ok ((hsame s h).trans hr)]
    · have hother := (hsame s h).trans hr
      unfold run at hr hother ⊢
      rw [Retry.Policy.attempts, Retry.Policy.attempts]
      simp only [hr, hother]
      split
      · rfl
      · split
        · split
          · rfl
          · exact ih (hpause _ t he)
        · rfl

end

section

variable {σ ε : Type} {I : σ → Prop} {condition : Action σ ε Bool} {pause : Duration → σ → σ}

theorem evaluations_ends (hpause : ∀ delay s, I s → I (pause delay s))
    (hop : ∀ s, I s → condition.Ends s (fun _ t => I t) fun _ t => I t) (factor : Float)
    (left : Nat) (delay : Duration) {s : σ} (h : I s) :
    (Poll.evaluations factor pause condition left delay).Ends s (fun _ t => I t)
      fun _ t => I t := by
  induction left using Nat.strongRecOn generalizing delay s with
  | ind left ih =>
    match left with
    | 0 => exact ends_pure h
    | 1 => exact hop s h
    | left + 2 =>
      rw [Poll.evaluations]
      refine Ends.bind ((hop s h).imp fun held t ht => ?_)
      cases held with
      | true => exact ends_pure ht
      | false =>
        refine Ends.bind (ends_update ?_)
        exact ih (left + 1) (by omega) _ (hpause delay t ht)

/-- Waiting keeps what each evaluation of the condition keeps. -/
theorem await_ends (p : Poll.Policy) (what : String) {timedOut : LockError → ε}
    (hpause : ∀ delay s, I s → I (pause delay s))
    (hop : ∀ s, I s → condition.Ends s (fun _ t => I t) fun _ t => I t) {s : σ} (h : I s) :
    (p.await what timedOut pause condition).Ends s (fun _ t => I t) fun _ t => I t := by
  unfold Poll.Policy.await
  refine Ends.bind ((evaluations_ends hpause hop _ _ _ h).imp fun held t ht => ?_)
  cases held with
  | true => exact ends_pure ht
  | false =>
    cases p.onTimeout with
    | returnFalse => exact ends_pure ht
    | fail => exact ends_fail ht

end

/-- What is hindered fails and changes nothing. -/
theorem Obstacles.run_guard_changing {ε α : Type} [StoreFailure ε] (fault : DatabaseFault)
    (a : Action Store ε α) (s : Store) :
    (Obstacles.guard ⟨none, some fault⟩ a).run s =
      if hinders fault s (a.run s).2 (a.run s).1 then
        (.error (StoreFailure.ofStore (.database fault)), s)
      else a.run s := rfl

/-- A result is the one of the store itself, with nothing in the way if anything changed, and a
failure leaves the store if the action itself does so. -/
theorem Obstacles.guard_ends {ε α : Type} [StoreFailure ε] (o : Obstacles)
    {a : Action Store ε α} {s : Store}
    (h : a.Ends s (fun _ _ => True) fun _ t => t = s) :
    (o.guard a).Ends s (fun x t => a.run s = (.ok x, t) ∧ (t ≠ s → o = {})) fun _ t => t = s := by
  obtain ⟨reading, changing⟩ := o
  cases reading with
  | some fault => exact Ends.of_error rfl rfl
  | none =>
    cases changing with
    | none =>
      rw [Obstacles.guard_none]
      exact ⟨fun hr => ⟨hr, fun _ => rfl⟩, h.error⟩
    | some fault =>
      have hrun := run_guard_changing fault a s
      by_cases hinder : hinders fault s (a.run s).2 (a.run s).1
      · exact Ends.of_error (hrun.trans (if_pos hinder)) rfl
      · rw [if_neg hinder] at hrun
        refine Ends.of_run ?_ hrun
        refine h.elim (fun x t hr _ => Ends.of_ok hr ⟨hr, fun hne => ?_⟩) fun e t hr ht =>
          Ends.of_error hr ht
        simp [hinders, hr, hne] at hinder

namespace World

variable {ρ ε α : Type} {w : World ρ} {Q : α → World ρ → Prop} {E : ε → World ρ → Prop}

/-- Lines for the log change nothing but the journal. -/
theorem run_forEach_log {β : Type} (level : LogLevel) (source : LogSource) (text : β → String)
    (xs : List β) (w : World ρ) : ∃ journal,
      (forEach (fun x => log level source (text x)) xs : Action (World ρ) ε Unit).run w =
        (.ok (), { w with journal := journal }) := by
  induction xs generalizing w with
  | nil => exact ⟨w.journal, rfl⟩
  | cons x xs ih => exact ih _

/-- Nothing in the way of the store, an action on it is what it is. -/
theorem run_onStore [StoreFailure ε] (hw : w.obstacles = {}) (a : Action Store ε α) :
    (onStore a : Action (World ρ) ε α).run w =
      ((a.run w.store).1, { w with store := (a.run w.store).2 }) := by
  have hguard : w.obstacles.guard a = a := by rw [hw, Obstacles.guard_none]
  unfold run onStore
  rw [hguard]
  rfl

theorem onStore_ends [StoreFailure ε] {a : Action Store ε α} (hw : w.obstacles = {})
    (h : a.Ends w.store (fun x s => Q x { w with store := s })
      fun e s => E e { w with store := s }) : (onStore a).Ends w Q E := by
  have hrun := run_onStore hw a
  refine h.elim (fun x s hr q => ?_) fun e s hr q => ?_
  · exact Ends.of_ok (by rw [hrun, hr]) q
  · exact Ends.of_error (by rw [hrun, hr]) q

/-- Reading the store leaves the world as it is. -/
theorem onStore_run [StoreFailure ε] {a : Action Store ε α} {x : α} (hw : w.obstacles = {})
    (h : a.run w.store = (.ok x, w.store)) : (onStore a).run w = (.ok x, w) := by
  rw [run_onStore hw, h]

/-- What only reads the store leaves the world as it is, whatever is in the way. -/
theorem onStore_reads [StoreFailure ε] {a : Action Store ε α} (h : a.Reads) :
    (onStore a : Action (World ρ) ε α).Reads := by
  intro w
  have hguard : (w.obstacles.guard a).run w.store = ((w.obstacles.guard a w.store).1, w.store) := by
    unfold run Obstacles.guard
    split
    · rfl
    · exact Prod.ext rfl (h w.store)
    · simp only
      split
      · rfl
      · exact Prod.ext rfl (h w.store)
  unfold run at hguard ⊢
  unfold onStore zoom
  rw [hguard]

/-- Whatever is in the way of the store: a result is the one of the store itself, with nothing in
the way if anything changed, and a failure leaves the world if the action leaves the store. -/
theorem onStore_ends_any [StoreFailure ε] {a : Action Store ε α}
    (h : a.Ends w.store (fun _ _ => True) fun _ s => s = w.store) :
    (onStore a).Ends w
      (fun x t => a.run w.store = (.ok x, t.store) ∧ t = { w with store := t.store } ∧
        (t.store ≠ w.store → w.obstacles = {}))
      fun _ t => t = w := by
  refine (w.obstacles.guard_ends h).elim (fun x s hr hs => ?_) fun e s hr hs => ?_
  · refine Ends.of_ok (t := { w with store := s }) ?_ ⟨hs.1, rfl, hs.2⟩
    unfold run at hr ⊢
    rw [onStore, zoom, hr]
  · refine Ends.of_error (e := e) (t := { w with store := s }) ?_ (by rw [hs])
    unfold run at hr ⊢
    rw [onStore, zoom, hr]

theorem onStore_reads_ends [StoreFailure ε] {a : Action Store ε α} (h : a.Reads) :
    (onStore a).Ends w (fun x t => a.run w.store = (.ok x, w.store) ∧ t = w) fun _ t => t = w := by
  have hsame := h w.store
  refine (onStore_ends_any ((ends_of_state hsame).imp fun _ _ _ => trivial)).imp
    fun x t ⟨hrun, hleft, _⟩ => ?_
  rw [hrun] at hsame
  have hstore : t.store = w.store := hsame
  exact ⟨hstore ▸ hrun, by rw [hleft, hstore]⟩

/-- With nothing in the way of the store, what only reads it fails as the reading does. -/
theorem onStore_reads_fails [StoreFailure ε] {a : Action Store ε α} (h : a.Reads) :
    (onStore a).Ends w (fun x t => a.run w.store = (.ok x, w.store) ∧ t = w)
      fun e t => t = w ∧ (w.obstacles = {} → a.run w.store = (.error e, w.store)) := by
  have hends := onStore_reads_ends (w := w) h
  refine ⟨hends.ok, fun {e t} hr => ⟨hends.error hr, fun hclear => ?_⟩⟩
  rw [run_onStore hclear] at hr
  exact Prod.ext (Prod.mk.inj hr).1 (h w.store)

theorem onRemote_ends {a : Action ρ ε α}
    (h : a.Ends w.remote (fun x c => Q x { w with remote := c })
      fun e c => E e { w with remote := c }) : (onRemote a).Ends w Q E :=
  Ends.zoom h

variable {I : World ρ → Prop} {E : Failure → World ρ → Prop}

theorem run_retrying (label : String) (operation : Task ρ α) (w : World ρ) :
    (retrying label operation).run w =
      (w.services.retry.attempts Failure.decision w.services.sample (pauseAttempt label)
        (fun _ => .overflow) operation (Word.size 32) w.services.retry.start).run w := by
  unfold run retrying Retry.Policy.run
  rfl

theorem retrying_ends {label : String} {operation : Task ρ α}
    (hpause : ∀ entry w, I w → I (record entry w))
    (hop : ∀ w, I w → operation.Ends w Q fun _ t => I t) (h : I w) :
    (retrying label operation).Ends w Q fun _ t => I t :=
  have hpauses : ∀ notice w, I w → I (pauseAttempt label notice w) :=
    fun _ _ hw => hpause _ _ (hpause _ _ hw)
  (attempts_ends hpauses hop h).of_run (run_retrying label operation w)

theorem retrying_same {label : String} {operation other : Task ρ α}
    (hpause : ∀ entry w, I w → I (record entry w))
    (hsame : ∀ w, I w → other.run w = operation.run w)
    (hop : ∀ w, I w → operation.Ends w Q fun _ t => I t) (h : I w) :
    (retrying label other).run w = (retrying label operation).run w := by
  have hpauses : ∀ notice w, I w → I (pauseAttempt label notice w) :=
    fun _ _ hw => hpause _ _ (hpause _ _ hw)
  rw [run_retrying, run_retrying]
  exact attempts_same hpauses hsame hop h

theorem polling_ends {what : String} {condition : Task ρ Bool}
    (hpause : ∀ entry w, I w → I (record entry w))
    (hop : ∀ w, I w → condition.Ends w (fun _ t => I t) fun _ t => I t) (h : I w) :
    (polling what condition).Ends w (fun _ t => I t) fun _ t => I t :=
  (await_ends w.services.poll what (fun _ _ hw => hpause _ _ hw) hop h).of_run
    (by unfold run polling; rfl)

/-- A mutex is taken before an operation and given back after it, however it ends. -/
theorem exclusive_ends {key : LockKey} {operation : Task ρ α}
    (h : operation.Ends { w with mutexes := w.mutexes.take key }
      (fun x t => Q x { t with mutexes := t.mutexes.release key })
      fun e t => E e { t with mutexes := t.mutexes.release key }) :
    (exclusive key operation).Ends w Q E := by
  refine h.elim (fun x t hr q => ?_) fun e t hr q => ?_
  · exact Ends.of_ok (by unfold run at *; rw [exclusive, Mutexes.exclusive, hr]) q
  · exact Ends.of_error (by unfold run at *; rw [exclusive, Mutexes.exclusive, hr]) q

end World

/-- The answer is no just if the user says so, and a question changes nothing but the journal. -/
theorem Confirmation.ask_ends {ρ : Type} (confirm : Confirmation) (question : String)
    (w : World ρ) : (confirm.ask question).Ends w
      (fun yes t => (yes = false ↔ confirm = .answered false) ∧
        t = { w with journal := t.journal })
      fun _ t => (∃ reason, confirm = .unanswerable reason) ∧
        t = { w with journal := t.journal } := by
  refine Ends.bind (ends_update ?_)
  cases confirm with
  | answered yes => exact ends_pure ⟨by simp, rfl⟩
  | assumed => exact Ends.bind (ends_update (ends_pure ⟨by simp, rfl⟩))
  | unanswerable reason => exact ends_fail ⟨⟨reason, rfl⟩, rfl⟩

end DesiredState
