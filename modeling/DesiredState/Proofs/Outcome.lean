import DesiredState.Action

/-!
# How actions end

An action from a state ends with a value or with a cause of failure, and leaves a state in either
case. `Ends` names both endings at once, so that a sequence of actions is followed step by step
and every early exit is accounted for.
-/

namespace DesiredState.Action

variable {σ τ ε δ α β : Type}

theorem run_mapError (f : ε → δ) (a : Action σ ε α) (s : σ) :
    run (mapError f a) s = ((run a s).1.mapError f, (run a s).2) := rfl

theorem run_attempt (a : Action σ ε α) (s : σ) :
    run (attempt a : Action σ δ (Except ε α)) s = (.ok (run a s).1, (run a s).2) := rfl

theorem run_transaction (a : Action σ ε α) (s : σ) :
    run (transaction a) s =
      match run a s with
      | (.ok x, t) => (.ok x, t)
      | (.error e, _) => (.error e, s) := rfl

/-- A sequence that returns went through both of its parts. -/
theorem bind_eq_ok {x : Except ε α} {f : α → Except ε β} {y : β} (h : x.bind f = .ok y) :
    ∃ a, x = .ok a ∧ f a = .ok y := by
  cases x with
  | error e => cases h
  | ok a => exact ⟨a, rfl, h⟩

theorem ok_of_toOption {x : Except ε α} {a : α} (h : x.toOption = some a) : x = .ok a := by
  cases x with
  | error e => cases h
  | ok b => exact congrArg Except.ok (Option.some.inj h)

theorem run_of_toOption {a : Action σ ε α} {s : σ} {x : α} (h : (a.run s).1.toOption = some x) :
    a.run s = (.ok x, (a.run s).2) := by
  rw [← ok_of_toOption h]

/-- From `s` the action returns with `Q` or fails with `E`. -/
structure Ends (a : Action σ ε α) (s : σ) (Q : α → σ → Prop) (E : ε → σ → Prop) : Prop where
  ok : ∀ {x t}, a.run s = (.ok x, t) → Q x t
  error : ∀ {e t}, a.run s = (.error e, t) → E e t

variable {a : Action σ ε α} {s t : σ} {Q Q' : α → σ → Prop} {E E' : ε → σ → Prop}

theorem Ends.of_ok {x : α} (h : a.run s = (.ok x, t)) (q : Q x t) : a.Ends s Q E where
  ok hr := by
    rw [h] at hr
    cases hr
    exact q
  error hr := by
    rw [h] at hr
    cases hr

theorem Ends.of_error {e : ε} (h : a.run s = (.error e, t)) (q : E e t) : a.Ends s Q E where
  ok hr := by
    rw [h] at hr
    cases hr
  error hr := by
    rw [h] at hr
    cases hr
    exact q

/-- An action that runs like another one ends like it. -/
theorem Ends.of_run {b : Action σ ε α} (h : b.Ends t Q E) (hr : a.run s = b.run t) :
    a.Ends s Q E where
  ok hx := h.ok (hr ▸ hx)
  error hx := h.error (hr ▸ hx)

/-- One of the two endings applies. -/
theorem Ends.elim {P : Prop} (h : a.Ends s Q E) (hQ : ∀ x t, a.run s = (.ok x, t) → Q x t → P)
    (hE : ∀ e t, a.run s = (.error e, t) → E e t → P) : P := by
  rcases hr : a.run s with ⟨e | x, t⟩
  · exact hE e t hr (h.error hr)
  · exact hQ x t hr (h.ok hr)

theorem Ends.mono (h : a.Ends s Q E) (hQ : ∀ x t, Q x t → Q' x t) (hE : ∀ e t, E e t → E' e t) :
    a.Ends s Q' E' where
  ok hr := hQ _ _ (h.ok hr)
  error hr := hE _ _ (h.error hr)

/-- A weaker result; the failures stay. -/
theorem Ends.imp (h : a.Ends s Q E) (hQ : ∀ x t, Q x t → Q' x t) : a.Ends s Q' E :=
  h.mono hQ fun _ _ he => he

/-- What holds of the state in both endings holds of the state that is left. -/
theorem Ends.state {P : σ → Prop} (h : a.Ends s (fun _ t => P t) fun _ t => P t) :
    P (a.run s).2 :=
  h.elim (fun _ _ hr p => by rwa [hr]) fun _ _ hr p => by rwa [hr]

/-- What holds of the state that is left holds of it in both endings. -/
theorem ends_of_state {P : σ → Prop} (h : P (a.run s).2) :
    a.Ends s (fun _ t => P t) fun _ t => P t where
  ok hr := by rwa [hr] at h
  error hr := by rwa [hr] at h

theorem ends_pure {x : α} (q : Q x s) : (pure x : Action σ ε α).Ends s Q E := Ends.of_ok rfl q

theorem ends_fail {e : ε} (q : E e s) : (fail e : Action σ ε α).Ends s Q E := Ends.of_error rfl q

theorem ends_view {f : σ → α} (q : Q (f s) s) : (view f : Action σ ε α).Ends s Q E :=
  Ends.of_ok rfl q

theorem ends_update {f : σ → σ} {Q : Unit → σ → Prop} (q : Q () (f s)) :
    (update f : Action σ ε Unit).Ends s Q E := Ends.of_ok rfl q

theorem ends_ofExcept {r : Except ε α} (hQ : ∀ x, r = .ok x → Q x s)
    (hE : ∀ e, r = .error e → E e s) : (ofExcept r).Ends s Q E where
  ok hr := by
    cases hr
    exact hQ _ rfl
  error hr := by
    cases hr
    exact hE _ rfl

theorem ends_reading {f : σ → Except ε α} (hQ : ∀ x, f s = .ok x → Q x s)
    (hE : ∀ e, f s = .error e → E e s) : (reading f).Ends s Q E where
  ok hr := by
    rw [run_reading] at hr
    injection hr with hf ht
    exact ht ▸ hQ _ hf
  error hr := by
    rw [run_reading] at hr
    injection hr with hf ht
    exact ht ▸ hE _ hf

/-- The second action starts where the first returned. -/
theorem Ends.bind {f : α → Action σ ε β} {R : β → σ → Prop}
    (h : a.Ends s (fun x t => (f x).Ends t R E) E) : (a >>= f).Ends s R E := by
  refine h.elim (fun x t hr hf => ?_) fun e t hr he => ?_
  · constructor <;> rw [run_bind_ok hr]
    · exact hf.ok
    · exact hf.error
  · exact Ends.of_error (run_bind_error hr) he

/-- Where failures do not matter, neither does what the first action does. -/
theorem Ends.bind_any {f : α → Action σ ε β} {R : β → σ → Prop}
    (h : ∀ x t, (f x).Ends t R fun _ _ => True) : (a >>= f).Ends s R fun _ _ => True :=
  Ends.bind ⟨fun _ => h _ _, fun _ => trivial⟩

/-- An outcome is handed on whichever it is. -/
theorem Ends.attempt {R : Except ε α → σ → Prop} {F : δ → σ → Prop}
    (h : a.Ends s (fun x t => R (.ok x) t) fun e t => R (.error e) t) :
    (attempt a : Action σ δ (Except ε α)).Ends s R F := by
  refine h.elim (fun x t hr q => ?_) fun e t hr q => ?_
  · exact Ends.of_ok (by rw [run_attempt, hr]) q
  · exact Ends.of_ok (by rw [run_attempt, hr]) q

theorem Ends.mapError {f : ε → δ} {F : δ → σ → Prop} (h : a.Ends s Q fun e t => F (f e) t) :
    (mapError f a).Ends s Q F := by
  refine h.elim (fun x t hr q => ?_) fun e t hr q => ?_
  · exact Ends.of_ok (by rw [run_mapError, hr]; rfl) q
  · exact Ends.of_error (by rw [run_mapError, hr]; rfl) q

theorem run_zoom (get : σ → τ) (put : τ → σ → σ) (a : Action τ ε α) (s : σ) :
    run (zoom get put a) s = ((run a (get s)).1, put (run a (get s)).2 s) := rfl

/-- An action on a part of the state ends as it does on that part. -/
theorem Ends.zoom {get : σ → τ} {put : τ → σ → σ} {a : Action τ ε α}
    (h : a.Ends (get s) (fun x u => Q x (put u s)) fun e u => E e (put u s)) :
    (Action.zoom get put a).Ends s Q E := by
  refine h.elim (fun x u hr q => ?_) fun e u hr q => ?_
  · exact Ends.of_ok (by rw [run_zoom, hr]) q
  · exact Ends.of_error (by rw [run_zoom, hr]) q

/-- A transaction that fails leaves what was there. -/
theorem Ends.transaction (h : a.Ends s Q E) :
    (transaction a).Ends s Q fun e t => t = s ∧ ∃ u, E e u := by
  refine h.elim (fun x t hr q => ?_) fun e t hr q => ?_
  · exact Ends.of_ok (by unfold run Action.transaction at *; rw [hr]) q
  · exact Ends.of_error (by unfold run Action.transaction at *; rw [hr]) ⟨rfl, t, q⟩

/-- A result comes with the run that it is the result of. -/
theorem Ends.traced (h : a.Ends s Q E) : a.Ends s (fun x t => a.run s = (.ok x, t) ∧ Q x t) E :=
  ⟨fun hr => ⟨hr, h.ok hr⟩, h.error⟩

/-- What cannot fail may be said to fail in any way. -/
theorem Ends.of_never (h : a.Ends s Q fun _ _ => False) : a.Ends s Q E :=
  h.mono (fun _ _ q => q) fun _ _ q => q.elim

theorem Ends.transaction_never (h : a.Ends s Q fun _ _ => False) :
    (Action.transaction a).Ends s Q E :=
  Ends.of_never (h.transaction.mono (fun _ _ q => q) fun _ _ ⟨_, _, q⟩ => q)

/-- The state is left as it is, whatever the outcome. -/
def Reads (a : Action σ ε α) : Prop := ∀ s, (a.run s).2 = s

theorem reads_pure (x : α) : (pure x : Action σ ε α).Reads := fun _ => rfl

theorem reads_ofExcept (r : Except ε α) : (ofExcept r : Action σ ε α).Reads := fun _ => rfl

theorem reads_reading (f : σ → Except ε α) : (reading f).Reads := fun _ => rfl

theorem Reads.mapError {f : ε → δ} (h : a.Reads) : (mapError f a).Reads := h

theorem Reads.bind {f : α → Action σ ε β} (h : a.Reads) (hf : ∀ x, (f x).Reads) :
    (a >>= f).Reads := by
  intro s
  rw [run_bind]
  cases hr : a.run s with
  | mk outcome t =>
    have ht := h s
    rw [hr] at ht
    obtain rfl : t = s := ht
    cases outcome with
    | error e => rfl
    | ok x => exact hf x t

theorem Reads.ends (h : a.Reads) (s : σ) :
    a.Ends s (fun x t => a.run s = (.ok x, s) ∧ t = s) fun _ t => t = s := by
  have hs := h s
  refine ⟨fun hr => ?_, fun hr => ?_⟩ <;> rw [hr] at hs <;> subst hs
  · exact ⟨hr, rfl⟩
  · rfl

end DesiredState.Action
