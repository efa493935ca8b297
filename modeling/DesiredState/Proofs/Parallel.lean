import DesiredState.Proofs.World

/-!
# Two actions side by side

Two actions run side by side from states that are related. They are parallel if they come to the
same outcome and leave related states again. The relation after them may say more than the one
before, or less. A property of single states is the relation of a state to itself, so that what
actions keep is the case of an action beside itself.
-/

namespace DesiredState

open DesiredState.Action

namespace Action

variable {σ ε δ α β γ : Type} {I I' J J' K : σ → σ → Prop}

/-- From states related by `I` both actions come to the same outcome, and they leave states related
by `J`. -/
structure Parallel (I J : σ → σ → Prop) (a b : Action σ ε α) : Prop where
  outcome : ∀ {s t}, I s t → (b.run t).1 = (a.run s).1
  states : ∀ {s t}, I s t → J (a.run s).2 (b.run t).2

variable {a b : Action σ ε α}

theorem Parallel.mono (h : Parallel I J a b) (hI : ∀ {s t}, I' s t → I s t)
    (hJ : ∀ {s t}, J s t → J' s t) : Parallel I' J' a b :=
  ⟨fun hs => h.outcome (hI hs), fun hs => hJ (h.states (hI hs))⟩

theorem parallel_of_both (h : ∀ {s t}, I s t →
    (b.run t).1 = (a.run s).1 ∧ J (a.run s).2 (b.run t).2) : Parallel I J a b :=
  ⟨fun hs => (h hs).1, fun hs => (h hs).2⟩

/-- The second action ends as the first one ended. -/
theorem Parallel.ends (h : Parallel I J a b) {s t : σ} (hs : I s t) :
    b.Ends t (fun x u => (a.run s).1 = .ok x ∧ J (a.run s).2 u)
      fun e u => (a.run s).1 = .error e ∧ J (a.run s).2 u := by
  have houtcome := h.outcome hs
  have hstates := h.states hs
  refine ⟨fun hr => ?_, fun hr => ?_⟩
  · rw [hr] at houtcome hstates
    exact ⟨houtcome.symm, hstates⟩
  · rw [hr] at houtcome hstates
    exact ⟨houtcome.symm, hstates⟩

theorem parallel_of_ends (h : ∀ {s t}, I s t →
    b.Ends t (fun x u => (a.run s).1 = .ok x ∧ J (a.run s).2 u)
      fun e u => (a.run s).1 = .error e ∧ J (a.run s).2 u) : Parallel I J a b :=
  parallel_of_both fun hs => (h hs).elim (fun x u hr hx => by rw [hr, hx.1]; exact ⟨rfl, hx.2⟩)
    fun e u hr he => by rw [hr, he.1]; exact ⟨rfl, he.2⟩

/-- What relates the states may be used to show that actions are parallel. -/
theorem parallel_of (h : ∀ {s t}, I s t → Parallel I J a b) : Parallel I J a b :=
  ⟨fun hs => (h hs).outcome hs, fun hs => (h hs).states hs⟩

theorem parallel_pure (x : α) : Parallel I I (pure x : Action σ ε α) (pure x) :=
  ⟨fun _ => rfl, fun h => h⟩

theorem parallel_fail (e : ε) : Parallel I I (fail e : Action σ ε α) (fail e) :=
  ⟨fun _ => rfl, fun h => h⟩

theorem parallel_ofExcept (x : Except ε α) : Parallel I I (ofExcept x) (ofExcept x) :=
  ⟨fun _ => rfl, fun h => h⟩

theorem parallel_update {f g : σ → σ} (h : ∀ {s t}, I s t → J (f s) (g t)) :
    Parallel I J (update f : Action σ ε Unit) (update g) := ⟨fun _ => rfl, h⟩

theorem parallel_reading {f : σ → Except ε α} (h : ∀ {s t}, I s t → f t = f s) :
    Parallel I I (reading f) (reading f) := ⟨h, fun hs => hs⟩

theorem parallel_view {f : σ → α} (h : ∀ {s t}, I s t → f t = f s) :
    Parallel I I (view f : Action σ ε α) (view f) :=
  ⟨fun hs => congrArg Except.ok (h hs), fun hs => hs⟩

/-- A sequence may stop after its first part, so what holds then must be enough in the end. -/
theorem Parallel.andThen {f g : α → Action σ ε β} (h : Parallel I J a b)
    (hf : ∀ x, Parallel J K (f x) (g x)) (hJ : ∀ {s t}, J s t → K s t) :
    Parallel I K (a >>= f) (b >>= g) := by
  refine parallel_of_both fun {s t} hs => ?_
  have houtcome := h.outcome hs
  have hstates := h.states hs
  rw [run_bind, run_bind]
  cases hb : b.run t with
  | mk outcome' t' =>
    cases ha : a.run s with
    | mk outcome s' =>
      rw [ha, hb] at houtcome hstates
      obtain rfl : outcome' = outcome := houtcome
      cases outcome' with
      | error e => exact ⟨rfl, hJ hstates⟩
      | ok x => exact ⟨(hf x).outcome hstates, (hf x).states hstates⟩

theorem Parallel.bind {f g : α → Action σ ε β} (h : Parallel I J a b)
    (hf : ∀ x, Parallel J J (f x) (g x)) : Parallel I J (a >>= f) (b >>= g) :=
  h.andThen hf id

/-- What goes on with a result may rely on what the result is. -/
theorem parallel_ofExcept_bind {x : Except ε α} {f g : α → Action σ ε β}
    (h : ∀ y, x = .ok y → Parallel I I (f y) (g y)) :
    Parallel I I (ofExcept x >>= f) (ofExcept x >>= g) := by
  cases x with
  | error e => exact parallel_fail e
  | ok y => exact h y rfl

/-- Where the states do not show the same, the two sides go on with different values. -/
theorem parallel_view_bind {f : σ → γ} {g g' : γ → Action σ ε β}
    (h : ∀ x y, Parallel (fun s t => I s t ∧ f s = x ∧ f t = y) J (g x) (g' y)) :
    Parallel I J (view f >>= g) (view f >>= g') :=
  ⟨fun hs => (h _ _).outcome ⟨hs, rfl, rfl⟩, fun hs => (h _ _).states ⟨hs, rfl, rfl⟩⟩

theorem Parallel.attempt (h : Parallel I J a b) :
    Parallel I J (attempt a : Action σ δ (Except ε α)) (attempt b) :=
  ⟨fun hs => congrArg Except.ok (h.outcome hs), h.states⟩

theorem Parallel.mapError {f : ε → δ} (h : Parallel I J a b) :
    Parallel I J (mapError f a) (mapError f b) :=
  ⟨fun hs => congrArg (Except.mapError f) (h.outcome hs), h.states⟩

theorem parallel_forEach {f g : β → Action σ ε Unit} {xs : List β}
    (h : ∀ x ∈ xs, Parallel I I (f x) (g x)) : Parallel I I (forEach f xs) (forEach g xs) := by
  induction xs with
  | nil => exact parallel_pure ()
  | cons x xs ih =>
    exact (h x List.mem_cons_self).bind fun _ => ih fun y hy => h y (List.mem_cons_of_mem _ hy)

/-- Transactions that fail go back to where they started. -/
theorem Parallel.transaction (h : Parallel I I a b) :
    Parallel I I (transaction a) (transaction b) := by
  refine parallel_of_both fun {s t} hs => ?_
  have houtcome := h.outcome hs
  have hstates := h.states hs
  rw [run_transaction, run_transaction]
  cases hb : b.run t with
  | mk outcome' t' =>
    cases ha : a.run s with
    | mk outcome s' =>
      rw [ha, hb] at houtcome hstates
      obtain rfl : outcome' = outcome := houtcome
      cases outcome' with
      | error e => exact ⟨rfl, hs⟩
      | ok x => exact ⟨rfl, hstates⟩

/-- A state with a property beside itself. -/
def Alone (P : σ → Prop) (s t : σ) : Prop := t = s ∧ P s

variable {P Q : σ → Prop}

/-- What leads from one property to another leads there beside itself. -/
theorem parallel_alone (h : ∀ s, P s → Q (a.run s).2) : Parallel (Alone P) (Alone Q) a a where
  outcome := by
    rintro _ s ⟨rfl, -⟩
    rfl
  states := by
    rintro _ s ⟨rfl, hs⟩
    exact ⟨rfl, h s hs⟩

theorem Parallel.alone (h : Parallel (Alone P) (Alone Q) a b) {s : σ} (hs : P s) :
    Q (a.run s).2 := (h.states ⟨rfl, hs⟩).2

theorem Reads.parallel_alone (h : a.Reads) : Parallel (Alone P) (Alone P) a a :=
  Action.parallel_alone fun s hs => by rwa [h s]

end Action

section

variable {σ ε : Type} {I : σ → σ → Prop} {condition : Action σ ε Bool}
  {pause : Duration → σ → σ}

theorem evaluations_parallel (hpause : ∀ delay {s t}, I s t → I (pause delay s) (pause delay t))
    (hop : Parallel I I condition condition) (factor : Float) (left : Nat) (delay : Duration) :
    Parallel I I (Poll.evaluations factor pause condition left delay)
      (Poll.evaluations factor pause condition left delay) := by
  induction left using Nat.strongRecOn generalizing delay with
  | ind left ih =>
    match left with
    | 0 => exact parallel_pure false
    | 1 => exact hop
    | left + 2 =>
      rw [Poll.evaluations]
      refine hop.bind fun held => ?_
      cases held with
      | true => exact parallel_pure true
      | false =>
        refine (parallel_update fun hs => hpause delay hs).bind fun _ => ?_
        exact ih (left + 1) (by omega) _

theorem await_parallel (p : Poll.Policy) (what : String) {timedOut : LockError → ε}
    (hpause : ∀ delay {s t}, I s t → I (pause delay s) (pause delay t))
    (hop : Parallel I I condition condition) :
    Parallel I I (p.await what timedOut pause condition)
      (p.await what timedOut pause condition) := by
  unfold Poll.Policy.await
  refine (evaluations_parallel hpause hop _ _ _).bind fun held => ?_
  cases held with
  | true => exact parallel_pure true
  | false =>
    cases p.onTimeout with
    | returnFalse => exact parallel_pure false
    | fail => exact parallel_fail _

end

namespace World

variable {ρ : Type} {I : World ρ → World ρ → Prop}

/-- Waiting under one policy is parallel if asking is. -/
theorem polling_parallel (hservices : ∀ {w w'}, I w w' → w'.services = w.services)
    (hrecord : ∀ entry {w w'}, I w w' → I (record entry w) (record entry w'))
    {condition : Task ρ Bool} (h : Parallel I I condition condition) (what : String) :
    Parallel I I (polling what condition) (polling what condition) := by
  have hawait : ∀ p : Poll.Policy, Parallel I I
      (p.await what Failure.lock (fun delay w => record (.slept delay) w) condition)
      (p.await what Failure.lock (fun delay w => record (.slept delay) w) condition) :=
    fun p => await_parallel p what (fun delay _ _ hw => hrecord (.slept delay) hw) h
  have hrun : ∀ w : World ρ, (polling what condition).run w = (w.services.poll.await what
      Failure.lock (fun delay w => record (.slept delay) w) condition).run w := by
    intro w
    unfold run polling
    rfl
  constructor
  · intro w w' hw
    rw [hrun w, hrun w', hservices hw]
    exact (hawait _).outcome hw
  · intro w w' hw
    rw [hrun w, hrun w', hservices hw]
    exact (hawait _).states hw

end World

end DesiredState
