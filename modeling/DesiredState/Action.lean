/-!
# Computations that may fail and keep their state

An action reads and writes one state and either returns a value or fails with a cause. A
failure does not undo anything by itself: the state an action has reached is kept, and only
`transaction` goes back to where it started.
-/

namespace DesiredState

/-- A computation over states `σ` that returns an `α` or fails with an `ε`. -/
def Action (σ ε α : Type) : Type := σ → Except ε α × σ

namespace Action

variable {σ τ ε δ α β : Type}

/-- The outcome of an action and the state it leaves. -/
def run (a : Action σ ε α) (s : σ) : Except ε α × σ := a s

/-- Return a value and touch nothing. -/
def ret (x : α) : Action σ ε α := fun s => (.ok x, s)

/-- Run the second action on the value of the first; stop if the first fails. -/
def andThen (a : Action σ ε α) (f : α → Action σ ε β) : Action σ ε β := fun s =>
  match a s with
  | (.ok x, t) => f x t
  | (.error e, t) => (.error e, t)

instance : Monad (Action σ ε) where
  pure := ret
  bind := andThen

def fail (e : ε) : Action σ ε α := fun s => (.error e, s)

def current : Action σ ε σ := fun s => (.ok s, s)

/-- Something read off the current state. -/
def view (f : σ → α) : Action σ ε α := fun s => (.ok (f s), s)

def update (f : σ → σ) : Action σ ε Unit := fun s => (.ok (), f s)

def ofExcept (r : Except ε α) : Action σ ε α := fun s => (r, s)

def reading (f : σ → Except ε α) : Action σ ε α := fun s => (f s, s)

/-- The same action with its causes renamed. -/
def mapError (f : ε → δ) (a : Action σ ε α) : Action σ δ α := fun s =>
  ((a s).1.mapError f, (a s).2)

/-- Run to the end and hand the outcome on, whichever it is. -/
def attempt (a : Action σ ε α) : Action σ δ (Except ε α) := fun s => (.ok (a s).1, (a s).2)

def zoom (get : σ → τ) (put : τ → σ → σ) (a : Action τ ε α) : Action σ ε α := fun s =>
  ((a (get s)).1, put (a (get s)).2 s)

/-- All or nothing: a failure leaves the state as it was. -/
def transaction (a : Action σ ε α) : Action σ ε α := fun s =>
  match a s with
  | (.ok x, t) => (.ok x, t)
  | (.error e, _) => (.error e, s)

/-- Run an action on each member in turn, stopping at the first failure. -/
def forEach (f : α → Action σ ε Unit) : List α → Action σ ε Unit
  | [] => ret ()
  | x :: xs => andThen (f x) fun _ => forEach f xs

@[simp] theorem run_pure (x : α) (s : σ) : run (pure x : Action σ ε α) s = (.ok x, s) := rfl

@[simp] theorem run_ret (x : α) (s : σ) : run (ret x : Action σ ε α) s = (.ok x, s) := rfl

@[simp] theorem run_fail (e : ε) (s : σ) : run (fail e : Action σ ε α) s = (.error e, s) := rfl

@[simp] theorem run_view (f : σ → α) (s : σ) :
    run (view f : Action σ ε α) s = (.ok (f s), s) := rfl

@[simp] theorem run_update (f : σ → σ) (s : σ) :
    run (update f : Action σ ε Unit) s = (.ok (), f s) := rfl

@[simp] theorem run_reading (f : σ → Except ε α) (s : σ) : run (reading f) s = (f s, s) := rfl

@[simp] theorem run_ofExcept (r : Except ε α) (s : σ) :
    run (ofExcept r : Action σ ε α) s = (r, s) := rfl

theorem run_bind (a : Action σ ε α) (f : α → Action σ ε β) (s : σ) :
    run (a >>= f) s =
      match run a s with
      | (.ok x, t) => run (f x) t
      | (.error e, t) => (.error e, t) := rfl

theorem run_bind_ok {a : Action σ ε α} {f : α → Action σ ε β} {s t : σ} {x : α}
    (h : run a s = (.ok x, t)) : run (a >>= f) s = run (f x) t := by
  rw [run_bind, h]

theorem run_bind_error {a : Action σ ε α} {f : α → Action σ ε β} {s t : σ} {e : ε}
    (h : run a s = (.error e, t)) : run (a >>= f) s = (.error e, t) := by
  rw [run_bind, h]

theorem id_map (a : Action σ ε α) : id <$> a = a := by
  funext s
  show (match a s with | (.ok x, t) => _ | (.error e, t) => _) = a s
  rcases a s with ⟨_ | _, _⟩ <;> rfl

theorem bind_assoc {γ : Type} (a : Action σ ε α) (f : α → Action σ ε β)
    (g : β → Action σ ε γ) : a >>= f >>= g = a >>= fun x => f x >>= g := by
  funext s
  show (match (match a s with | (.ok x, t) => f x t | (.error e, t) => (.error e, t)) with
    | (.ok x, t) => g x t | (.error e, t) => (.error e, t)) =
    match a s with
    | (.ok x, t) => (match f x t with | (.ok x, t) => g x t | (.error e, t) => (.error e, t))
    | (.error e, t) => (.error e, t)
  rcases a s with ⟨_ | _, _⟩ <;> rfl

instance : LawfulMonad (Action σ ε) :=
  LawfulMonad.mk' (Action σ ε) id_map (fun _ _ => rfl) bind_assoc

end Action

end DesiredState
