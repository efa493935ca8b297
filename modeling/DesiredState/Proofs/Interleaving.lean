import DesiredState.Proofs.Thread
import Mathlib.Order.Defs.Unbundled

/-!
# Threads that keep apart

If what a turn of a thread does is the thread's own, commutes with what is others' own and takes no
notice of it, then all orders in which threads come to their ends are one: neighbouring turns of two
threads can be swapped, so the turns of a thread can be brought to the front.
-/

namespace DesiredState

open DesiredState.Action

/-- How threads keep apart that share a state: each of them has changes of its own, and two changes
of different threads come to the same in either order. -/
structure Separation (ι σ : Type) where
  /-- What is true of the state all the time. -/
  Sound : σ → Prop
  /-- States that are the same to every thread. -/
  Same : σ → σ → Prop
  /-- What a thread may do to the state. -/
  Own : ι → (σ → σ) → Prop
  equivalence : Equivalence Same
  sound {i change s} : Own i change → Sound s → Sound (change s)
  same {i change s t} : Own i change → Same s t → Same (change s) (change t)
  commute {i j change other} (s : σ) : i ≠ j → Own i change → Own j other →
    Same (change (other s)) (other (change s))

namespace Separation

variable {ι σ ε δ α β : Type} (S : Separation ι σ) (i : ι)

/-- A thread takes no notice of the difference: there is none, or another thread made it. -/
def Unseen (s t : σ) : Prop :=
  S.Same s t ∨ ∃ j change, j ≠ i ∧ S.Own j change ∧ change s = t

/-- What is seen of the state and what is done to it are the thread's own: both are the same, and
the change is one that the thread may make, whatever others did before. -/
def Private (see : σ → β) (leave : σ → σ) (s : σ) : Prop :=
  ∃ change, S.Own i change ∧ ∀ t, S.Unseen i s t → see t = see s ∧ leave t = change t

/-- Every turn of the thread is private. -/
def Within : Thread σ ε α → Prop
  | .ended _ => True
  | .turn next leave => ∀ s, S.Sound s → S.Private i next leave s ∧ Within (next s)

/-- An action is private wherever the state is sound. -/
def Local (a : Action σ ε α) : Prop :=
  ∀ s, S.Sound s → S.Private i (fun s => (a.run s).1) (fun s => (a.run s).2) s

variable {S i}

theorem Unseen.refl (s : σ) : S.Unseen i s s := Or.inl (S.equivalence.refl s)

theorem Private.imp {γ : Type} {see : σ → β} {leave : σ → σ} {s : σ}
    (h : S.Private i see leave s) (f : β → γ) : S.Private i (fun s => f (see s)) leave s := by
  obtain ⟨change, hown, hchange⟩ := h
  exact ⟨change, hown, fun t ht => ⟨congrArg f (hchange t ht).1, (hchange t ht).2⟩⟩

theorem within_pure (x : α) : S.Within i (pure x : Thread σ ε α) := trivial

theorem within_fail (e : ε) : S.Within i (Thread.fail e : Thread σ ε α) := trivial

theorem within_once {a : Action σ ε α} (h : S.Local i a) : S.Within i (Thread.once a) :=
  fun s hs => ⟨(h s hs).imp Thread.ended, trivial⟩

theorem Within.bind {a : Thread σ ε α} {f : α → Thread σ ε β} (h : S.Within i a)
    (hf : ∀ x, S.Within i (f x)) : S.Within i (a >>= f) := by
  induction a with
  | ended outcome =>
    cases outcome with
    | ok x => exact hf x
    | error e => trivial
  | turn next leave ih => exact fun s hs => ⟨(h s hs).1.imp (· >>= f), ih s (h s hs).2⟩

theorem Within.attempt {a : Thread σ ε α} (h : S.Within i a) :
    S.Within i (a.attempt : Thread σ δ (Except ε α)) := by
  induction a with
  | ended outcome => trivial
  | turn next leave ih => exact fun s hs => ⟨(h s hs).1.imp Thread.attempt, ih s (h s hs).2⟩

theorem within_forEach {f : β → Thread σ ε Unit} {xs : List β}
    (h : ∀ x ∈ xs, S.Within i (f x)) : S.Within i (Thread.forEach f xs) := by
  induction xs with
  | nil => trivial
  | cons x xs ih =>
    exact (h x List.mem_cons_self).bind fun _ => ih fun y hy => h y (List.mem_cons_of_mem _ hy)

/-- Attempts keep to themselves if each of them and the pauses do. -/
theorem within_attempts {p : Retry.Policy} {classify : ε → Retry.Decision}
    {sample : UInt32 → Float} {pause : Retry.Notice ε → σ → σ} {overflow : ε → ε}
    {operation : Thread σ ε α}
    (hpause : ∀ notice, S.Local i (update (pause notice) : Action σ ε Unit))
    (h : S.Within i operation) (more : Nat) (c : Retry.Counters) :
    S.Within i (Thread.attempts p classify sample pause overflow operation more c) := by
  induction more generalizing c with
  | zero => exact h
  | succ more ih =>
    refine h.attempt.bind fun outcome => ?_
    cases outcome with
    | ok x => exact within_pure x
    | error cause =>
      have hagain : ∀ c notice, S.Within i (do
          Thread.once (update (pause notice))
          Thread.attempts p classify sample pause overflow operation more c) :=
        fun c notice => (within_once (hpause notice)).bind fun _ => ih c
      cases hdecision : classify cause <;> simp only [hdecision]
      case fail => exact within_fail cause
      all_goals
        split
        · split
          · exact within_fail cause
          · exact hagain _ _
        · exact within_fail _

/-- A thread alone keeps what each of its changes keeps. -/
theorem Within.alone_keeps {R : σ → σ → Prop} [IsPreorder σ R] {a : Thread σ ε α}
    (h : S.Within i a) (hown : ∀ change s, S.Own i change → R s (change s)) {s : σ}
    (hs : S.Sound s) : R s (a.alone.run s).2 := by
  induction a generalizing s with
  | ended outcome => exact refl_of R s
  | turn next leave ih =>
    obtain ⟨⟨change, hchange, hprivate⟩, hnext⟩ := h s hs
    have hleave := (hprivate s (.refl s)).2
    refine trans_of R (hown change s hchange) ?_
    rw [← hleave]
    exact ih s hnext (hleave ▸ S.sound hchange hs)

/-- The threads of a pool keep apart. -/
structure Apart (S : Separation ι σ) (p : Pool ι σ ε α) : Prop where
  sound : S.Sound p.state
  within : ∀ i, S.Within i (p.threads i)

/-- The same threads, with states that are the same to them. -/
structure Alike (S : Separation ι σ) (p q : Pool ι σ ε α) : Prop where
  threads : q.threads = p.threads
  state : S.Same p.state q.state

variable {p q u : Pool ι σ ε α}

theorem Alike.refl (p : Pool ι σ ε α) : S.Alike p p := ⟨rfl, S.equivalence.refl p.state⟩

theorem Alike.symm (h : S.Alike p q) : S.Alike q p :=
  ⟨h.threads.symm, S.equivalence.symm h.state⟩

theorem Alike.trans (h : S.Alike p q) (h' : S.Alike q u) : S.Alike p u :=
  ⟨h'.threads.trans h.threads, S.equivalence.trans h.state h'.state⟩

theorem Alike.over (h : S.Alike p q) (hp : p.Over) : q.Over := fun i => by
  rw [h.threads]
  exact hp i

variable [DecidableEq ι] {j : ι} {order : List ι}

/-- A turn makes a change of the thread's own, and is the same turn after changes of others. -/
theorem Apart.exists_change {next : σ → Thread σ ε α} {leave : σ → σ} (h : S.Apart p)
    (hi : p.threads i = .turn next leave) :
    ∃ change, S.Own i change ∧ (p.advance i).state = change p.state ∧
      S.Within i ((p.advance i).threads i) ∧
      ∀ q : Pool ι σ ε α, q.threads i = p.threads i → S.Unseen i p.state q.state →
        (q.advance i).threads i = (p.advance i).threads i ∧
        (q.advance i).state = change q.state := by
  have hwithin := h.within i
  rw [hi] at hwithin
  obtain ⟨⟨change, hown, hchange⟩, hnext⟩ := hwithin p.state h.sound
  have hself : (p.advance i).threads i = next p.state := by
    rw [Pool.threads_advance hi, Function.update_self]
  refine ⟨change, hown, (Pool.state_advance hi).trans (hchange _ (.refl _)).2, hself ▸ hnext,
    fun q hq hunseen => ?_⟩
  obtain ⟨hsee, hleave⟩ := hchange q.state hunseen
  have hqi := hq.trans hi
  exact ⟨by rw [hself, Pool.threads_advance hqi, Function.update_self, hsee],
    (Pool.state_advance hqi).trans hleave⟩

theorem Apart.advance (h : S.Apart p) (i : ι) : S.Apart (p.advance i) := by
  cases hi : p.threads i with
  | ended outcome => rwa [Pool.advance_ended hi]
  | turn next leave =>
    obtain ⟨change, hown, hstate, hnext, -⟩ := h.exists_change hi
    constructor
    · rw [hstate]
      exact S.sound hown h.sound
    · intro j
      by_cases hj : j = i
      · rwa [hj]
      · rw [Pool.threads_advance_ne hj]
        exact h.within j

theorem Apart.follow (h : S.Apart p) (order : List ι) : S.Apart (p.follow order) := by
  induction order generalizing p with
  | nil => exact h
  | cons i rest ih => exact ih (h.advance i)

theorem Alike.advance (h : S.Alike p q) (hp : S.Apart p) (i : ι) :
    S.Alike (p.advance i) (q.advance i) := by
  cases hi : p.threads i with
  | ended outcome =>
    rwa [Pool.advance_ended hi, Pool.advance_ended ((congrFun h.threads i).trans hi)]
  | turn next leave =>
    obtain ⟨change, hown, hstate, -, hagain⟩ := hp.exists_change hi
    obtain ⟨hthread, hstate'⟩ := hagain q (congrFun h.threads i) (Or.inl h.state)
    constructor
    · funext j
      by_cases hj : j = i
      · rw [hj, hthread]
      · rw [Pool.threads_advance_ne hj, Pool.threads_advance_ne hj, h.threads]
    · rw [hstate, hstate']
      exact S.same hown h.state

theorem Alike.follow (h : S.Alike p q) (hp : S.Apart p) (order : List ι) :
    S.Alike (p.follow order) (q.follow order) := by
  induction order generalizing p q with
  | nil => exact h
  | cons i rest ih => exact ih (h.advance hp i) (hp.advance i)

/-- Turns of two threads may be swapped. -/
theorem Apart.swap (h : S.Apart p) (hne : i ≠ j) :
    S.Alike ((p.advance i).advance j) ((p.advance j).advance i) := by
  cases hi : p.threads i with
  | ended outcome =>
    have hi' : (p.advance j).threads i = .ended outcome := by
      rw [Pool.threads_advance_ne hne, hi]
    rw [Pool.advance_ended hi, Pool.advance_ended hi']
    exact .refl _
  | turn next leave =>
    cases hj : p.threads j with
    | ended outcome =>
      have hj' : (p.advance i).threads j = .ended outcome := by
        rw [Pool.threads_advance_ne hne.symm, hj]
      rw [Pool.advance_ended hj, Pool.advance_ended hj']
      exact .refl _
    | turn next' leave' =>
      obtain ⟨change, hown, hstate, -, hagain⟩ := h.exists_change hi
      obtain ⟨change', hown', hstate', -, hagain'⟩ := h.exists_change hj
      obtain ⟨hthread, hafter⟩ := hagain (p.advance j) (Pool.threads_advance_ne hne)
        (Or.inr ⟨j, _, hne.symm, hown', hstate'.symm⟩)
      obtain ⟨hthread', hafter'⟩ := hagain' (p.advance i) (Pool.threads_advance_ne hne.symm)
        (Or.inr ⟨i, _, hne, hown, hstate.symm⟩)
      constructor
      · funext k
        by_cases hki : k = i
        · rw [hki, hthread, Pool.threads_advance_ne hne]
        · by_cases hkj : k = j
          · rw [hkj, Pool.threads_advance_ne hne.symm, hthread']
          · rw [Pool.threads_advance_ne hki, Pool.threads_advance_ne hkj,
              Pool.threads_advance_ne hkj, Pool.threads_advance_ne hki]
      · rw [hafter, hafter', hstate, hstate']
        exact S.equivalence.symm (S.commute _ hne hown hown')

/-- A turn may be taken before turns of other threads. -/
theorem Apart.bring (h : S.Apart p) (hi : i ∉ order) :
    S.Alike ((p.advance i).follow order) ((p.follow order).advance i) := by
  induction order generalizing p with
  | nil => exact .refl _
  | cons j rest ih =>
    obtain ⟨hj, hrest⟩ := not_or.mp (List.mem_cons.not.mp hi)
    exact ((h.swap hj).follow ((h.advance i).advance j) rest).trans (ih (h.advance j) hrest)

/-- All orders in which the threads come to their ends are one. -/
theorem Apart.confluent (h : S.Apart p) {order other : List ι} (ho : (p.follow order).Over)
    (ho' : (p.follow other).Over) : S.Alike (p.follow order) (p.follow other) := by
  induction order generalizing p other with
  | nil =>
    have hsame : p.follow other = p := Pool.Over.follow ho other
    rw [hsame]
    exact .refl _
  | cons i rest ih =>
    cases hi : p.threads i with
    | ended outcome =>
      have hsame : p.follow (i :: rest) = p.follow rest :=
        congrArg (·.follow rest) (Pool.advance_ended hi)
      rw [hsame] at ho ⊢
      exact ih h ho ho'
    | turn next leave =>
      have hmem : i ∈ other := by
        by_contra hnot
        obtain ⟨outcome, hended⟩ := ho' i
        rw [Pool.threads_follow_of_notMem hnot, hi] at hended
        cases hended
      obtain ⟨before, after, rfl, hbefore⟩ := List.eq_append_cons_of_mem hmem
      -- the first turn of the thread comes first in the other order too
      have hfront : S.Alike (p.follow (before ++ i :: after))
          ((p.advance i).follow (before ++ after)) := by
        rw [Pool.follow_append, Pool.follow_append]
        exact ((h.bring hbefore).follow ((h.advance i).follow before) after).symm
      exact (ih (h.advance i) ho (hfront.over ho')).trans hfront.symm

variable {all : List ι}

/-- In the end every thread has the outcome that it has alone. -/
theorem Apart.outcome_alone (h : S.Apart p) (hall : ∀ i, i ∈ all) (hnodup : all.Nodup)
    (ho : (p.follow order).Over) (i : ι) :
    (p.follow order).threads i = .ended ((p.threads i).alone.run p.state).1 := by
  obtain ⟨n, hended, -⟩ := p.exists_alone i
  obtain ⟨more, hmore⟩ := Pool.exists_over hall hnodup (p.follow (List.replicate n i))
  have hfirst := Pool.threads_follow_ended (congrFun hended i |>.trans (Function.update_self ..))
    more
  rw [← Pool.follow_append] at hmore hfirst
  rw [(h.confluent hmore ho).threads, hfirst]

/-- In the end it is as if the threads had run one after the other. -/
theorem Apart.as_inTurn (h : S.Apart p) (hall : ∀ i, i ∈ all) (hnodup : all.Nodup)
    (ho : (p.follow order).Over) :
    all.map (p.follow order).threads = (Pool.inTurn p.threads all p.state).1.map .ended ∧
      S.Same (Pool.inTurn p.threads all p.state).2 (p.follow order).state := by
  obtain ⟨other, hstate, hthreads⟩ := Pool.exists_inTurn hnodup p
  have halike := h.confluent (Pool.over_of_map hall hthreads) ho
  rw [← hstate, ← hthreads, halike.threads]
  exact ⟨rfl, halike.state⟩

end Separation

end DesiredState
