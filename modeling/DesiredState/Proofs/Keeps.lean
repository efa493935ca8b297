import DesiredState.Proofs.World
import Mathlib.Order.Defs.Unbundled

/-!
# What every action keeps

An action keeps a relation if the state that it starts from and the state that it leaves are always
related, however it ends. For a relation that is reflexive and transitive it is enough that every
part of the action keeps it, whatever values the parts hand on.
-/

namespace DesiredState

open DesiredState.Action

namespace Action

variable {σ τ ε δ α β : Type} {R : σ → σ → Prop}

/-- Each state is related to the one that the action leaves behind, however it ends. -/
def Keeps (R : σ → σ → Prop) (a : Action σ ε α) : Prop := ∀ s, R s (a.run s).2

variable {a : Action σ ε α}

theorem Keeps.ends (h : Keeps R a) (s : σ) : a.Ends s (fun _ t => R s t) fun _ t => R s t where
  ok hr := by
    have hs := h s
    rwa [hr] at hs
  error hr := by
    have hs := h s
    rwa [hr] at hs

theorem keeps_of_ends (h : ∀ s, a.Ends s (fun _ t => R s t) fun _ t => R s t) : Keeps R a :=
  fun s => (h s).state

theorem Keeps.mono {S : σ → σ → Prop} (h : Keeps R a) (hRS : ∀ s t, R s t → S s t) :
    Keeps S a := fun s => hRS s _ (h s)

theorem keeps_update {f : σ → σ} (h : ∀ s, R s (f s)) : Keeps R (update f : Action σ ε Unit) := h

theorem Keeps.mapError {f : ε → δ} (h : Keeps R a) : Keeps R (mapError f a) := h

theorem Keeps.attempt (h : Keeps R a) : Keeps R (attempt a : Action σ δ (Except ε α)) := h

/-- The relation between two states that if one satisfies a property, so does the other. -/
def Preserves (I : σ → Prop) (s t : σ) : Prop := I s → I t

instance (I : σ → Prop) : IsPreorder σ (Preserves I) where
  refl _ := id
  trans _ _ _ h k := k ∘ h

theorem Keeps.ends_of {I : σ → Prop} (h : Keeps (Preserves I) a) {s : σ} (hs : I s) :
    a.Ends s (fun _ t => I t) fun _ t => I t := ends_of_state (h s hs)

theorem keeps_preserves {I : σ → Prop}
    (h : ∀ s, I s → a.Ends s (fun _ t => I t) fun _ t => I t) : Keeps (Preserves I) a :=
  fun s hs => (h s hs).state

section Preorder

variable [IsPreorder σ R]

/-- What leaves the state as it is keeps every such relation. -/
theorem Reads.keeps (h : a.Reads) : Keeps R a := fun s => by
  rw [h s]
  exact refl_of R s

theorem keeps_pure (x : α) : Keeps R (pure x : Action σ ε α) := (reads_pure x).keeps

theorem keeps_fail (e : ε) : Keeps R (fail e : Action σ ε α) := (reads_ofExcept (.error e)).keeps

theorem keeps_view (f : σ → α) : Keeps R (view f : Action σ ε α) :=
  (reads_reading fun s => .ok (f s)).keeps

theorem keeps_reading (f : σ → Except ε α) : Keeps R (reading f) := (reads_reading f).keeps

theorem keeps_ofExcept (r : Except ε α) : Keeps R (ofExcept r : Action σ ε α) :=
  (reads_ofExcept r).keeps

theorem Keeps.bind {f : α → Action σ ε β} (h : Keeps R a) (hf : ∀ x, Keeps R (f x)) :
    Keeps R (a >>= f) := by
  intro s
  have hs := h s
  rw [run_bind]
  cases hr : a.run s with
  | mk outcome t =>
    rw [hr] at hs
    cases outcome with
    | error e => exact hs
    | ok x => exact trans_of R hs (hf x t)

/-- What goes on unless it is refused. -/
theorem Keeps.unless {c : Prop} [Decidable c] {e : ε} (h : Keeps R a) :
    Keeps R (if c then (fail e : Action σ ε β) >>= fun _ => a else a) := by
  split
  · exact (keeps_fail e).bind fun _ => h
  · exact h

/-- What goes on with a result may rely on what the result is. -/
theorem keeps_ofExcept_bind {r : Except ε α} {f : α → Action σ ε β}
    (h : ∀ x, r = .ok x → Keeps R (f x)) : Keeps R (ofExcept r >>= f) := by
  cases r with
  | error e => exact keeps_fail e
  | ok x => exact h x rfl

/-- A transaction does what its action does, or nothing. -/
theorem Keeps.transaction (h : Keeps R a) : Keeps R (transaction a) := by
  intro s
  have hs := h s
  rw [run_transaction]
  cases hr : a.run s with
  | mk outcome t =>
    rw [hr] at hs
    cases outcome with
    | error e => exact refl_of R s
    | ok x => exact hs

theorem keeps_forEach {f : β → Action σ ε Unit} {xs : List β} (h : ∀ x ∈ xs, Keeps R (f x)) :
    Keeps R (forEach f xs) := by
  induction xs with
  | nil => exact keeps_pure ()
  | cons x xs ih =>
    exact (h x List.mem_cons_self).bind fun _ => ih fun y hy => h y (List.mem_cons_of_mem _ hy)

end Preorder

end Action

namespace World

variable {ρ ε α : Type}

/-- A relation between worlds in which the journal and the mutexes have no part. -/
class Quiet (R : World ρ → World ρ → Prop) : Prop extends IsPreorder (World ρ) R where
  record : ∀ entry w, R w (World.record entry w)
  mutexes : ∀ m w, R w { w with mutexes := m }

section Quiet

variable {R : World ρ → World ρ → Prop} [Quiet R]

theorem record_keeps (entry : JournalEntry) :
    Keeps R (update (World.record entry) : Action (World ρ) ε Unit) := Quiet.record entry

/-- Trying again keeps what the operation keeps. -/
theorem retrying_keeps {operation : Task ρ α} (h : Keeps R operation) (label : String) :
    Keeps R (retrying label operation) :=
  keeps_of_ends fun w => retrying_ends (I := R w)
    (fun entry t ht => trans_of R ht (Quiet.record entry t))
    (fun t ht => (h.ends t).mono (fun _ _ hu => trans_of R ht hu) fun _ _ hu => trans_of R ht hu)
    (refl_of R w)

/-- Waiting keeps what looking at the condition keeps. -/
theorem polling_keeps {condition : Task ρ Bool} (h : Keeps R condition) (what : String) :
    Keeps R (polling what condition) :=
  keeps_of_ends fun w => polling_ends (I := R w)
    (fun entry t ht => trans_of R ht (Quiet.record entry t))
    (fun t ht => (h.ends t).mono (fun _ _ hu => trans_of R ht hu) fun _ _ hu => trans_of R ht hu)
    (refl_of R w)

/-- Holding a mutex keeps what the operation keeps. -/
theorem exclusive_keeps {operation : Task ρ α} (h : Keeps R operation) (key : LockKey) :
    Keeps R (exclusive key operation) := by
  refine keeps_of_ends fun w => exclusive_ends ?_
  have haround : ∀ t, R { w with mutexes := w.mutexes.take key } t →
      R w { t with mutexes := t.mutexes.release key } := fun t ht =>
    trans_of R (trans_of R (Quiet.mutexes _ w) ht) (Quiet.mutexes _ t)
  exact (h.ends _).mono (fun _ t ht => haround t ht) fun _ t ht => haround t ht

theorem ask_keeps (confirm : Confirmation) (question : String) :
    Keeps R (confirm.ask question : Task ρ Bool) := by
  refine (record_keeps _).bind fun _ => ?_
  cases confirm with
  | answered yes => exact keeps_pure yes
  | assumed => exact (record_keeps _).bind fun _ => keeps_pure true
  | unanswerable reason => exact keeps_fail _

end Quiet

/-- A relation between worlds that looks at the remote side only. -/
def Remotely (R : ρ → ρ → Prop) (w t : World ρ) : Prop := R w.remote t.remote

section Remotely

variable {R : ρ → ρ → Prop}

theorem onRemote_keeps {a : Action ρ ε α} (h : Keeps R a) : Keeps (Remotely R) (onRemote a) :=
  fun w => h w.remote

variable [IsPreorder ρ R]

instance : Quiet (Remotely R) where
  refl w := refl_of R w.remote
  trans _ _ _ h k := trans_of R h k
  record _ w := refl_of R w.remote
  mutexes _ w := refl_of R w.remote

theorem onStore_keeps [StoreFailure ε] (a : Action Store ε α) :
    Keeps (Remotely R) (onStore a : Action (World ρ) ε α) := fun w => refl_of R w.remote

end Remotely

/-- A relation between worlds that looks at the records only. -/
def Recorded (R : Store → Store → Prop) (w t : World ρ) : Prop := R w.store t.store

section Recorded

variable {R : Store → Store → Prop} [IsPreorder Store R]

theorem recorded_of_store {w t : World ρ} (h : t.store = w.store) : w.Recorded R t := by
  unfold Recorded
  rw [h]
  exact refl_of R w.store

instance : IsPreorder (World ρ) (Recorded R) where
  refl w := refl_of R w.store
  trans _ _ _ h k := trans_of R h k

/-- What an action keeps of the store it keeps whatever is in its way. -/
theorem onStore_keeps_store [StoreFailure ε] {a : Action Store ε α} (h : Keeps R a) :
    Keeps (Recorded R) (onStore a : Action (World ρ) ε α) := by
  intro w
  change R w.store ((w.obstacles.guard a).run w.store).2
  unfold run Obstacles.guard
  split
  · exact refl_of R w.store
  · exact h w.store
  · simp only
    split
    · exact refl_of R w.store
    · exact h w.store

end Recorded

end World

end DesiredState
