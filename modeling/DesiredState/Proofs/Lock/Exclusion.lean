import DesiredState.Proofs.Lock.Taking
import DesiredState.Proofs.Thread
import Mathlib.Data.List.Chain
import Mathlib.Data.List.Perm.Basic

/-!
# Programs that work with locks

A program takes locks, tries to, drops the guards that it keeps, and runs something while a lock is
held, which again works with locks and may fail. The guard of such a call is out of reach of what
it runs. At every moment the locks that are taken are those of the live guards, and no lock file is
removed; a call that runs something under a lock holds it from beginning to end and gives it back.
-/

namespace DesiredState.StoreLock

open DesiredState.Action

/-- A disk and the guards that a program has for lock files on it. -/
structure Guards where
  disk : Disk
  /-- The guards that the program keeps, the latest first. -/
  kept : List StoreLock
  /-- The guards of the calls that run something under a lock, the innermost first. -/
  scopes : List StoreLock

namespace Guards

variable {ε α : Type}

/-- No guards yet, on a disk that nobody works on. -/
def ofFiles (files : FileTree) : Guards := ⟨.ofFiles files, [], []⟩

def live (g : Guards) : List StoreLock := g.scopes ++ g.kept

/-- Whether there is a live guard for the lock file of a store. -/
def Guarded (g : Guards) (store : String) : Prop := ∃ lock ∈ g.live, lock.path = lockPath store

def Opens (g : Guards) (store : String) : Prop :=
  ∃ place t, (openFile (lockPath store)).run g.disk = (.ok place, t)

def withDisk (disk : Disk) (g : Guards) : Guards := { g with disk := disk }

def onDisk (a : Action Disk ε α) : Action Guards ε α := Action.zoom Guards.disk withDisk a

def keep (lock : StoreLock) (g : Guards) : Guards := { g with kept := lock :: g.kept }

/-- Something starts to run under a lock. -/
def push (lock : StoreLock) (g : Guards) : Guards := { g with scopes := lock :: g.scopes }

def pop (g : Guards) : Guards := { g with scopes := g.scopes.tail }

def acquire (store : String) : Action Guards LockError Unit := do
  let lock ← onDisk (StoreLock.acquire store)
  Action.update (keep lock)

/-- Take the lock of a store if it is free, and keep the guard; whether it was free. -/
def tryAcquire (store : String) : Action Guards LockError Bool := do
  match ← onDisk (StoreLock.tryAcquire store) with
  | some lock => do
    Action.update (keep lock)
    return true
  | none => return false

def drop (i : Nat) : Action Guards LockError Unit := fun g =>
  match g.kept[i]? with
  | some lock => (onDisk lock.release).run { g with kept := g.kept.eraseIdx i }
  | none => (.ok (), g)

/-- Take the lock of a store for something that is to run under it. -/
def enter (store : String) : Action Guards LockError StoreLock := do
  let lock ← onDisk (StoreLock.acquire store)
  Action.update (push lock)
  return lock

/-- Give the lock back when what ran under it is over. -/
def leave (lock : StoreLock) : Action Guards ε Unit := do
  Action.update pop
  onDisk lock.release

/-- What is left when what ran under a lock is over. -/
def left (lock : StoreLock) (g : Guards) : Guards :=
  { g with
    disk := { g.disk with taken := g.disk.taken.erase lock.place }
    scopes := g.scopes.tail }

def holding (ofLock : LockError → ε) (store : String) (a : Action Guards ε Unit) :
    Action Guards ε Unit :=
  StoreLock.holding Guards.disk withDisk ofLock store fun lock => do
    Action.update (push lock)
    let outcome ← a.attempt
    Action.update pop
    Action.ofExcept outcome

/-- To hold a lock meanwhile is to take it first and to give it back in the end. -/
theorem holding_eq (ofLock : LockError → ε) (store : String) (a : Action Guards ε Unit) :
    holding ofLock store a = (do
      let lock ← (enter store).mapError ofLock
      let outcome ← a.attempt
      leave lock
      Action.ofExcept outcome) := by
  funext g
  change run (Action.zoom _ _ ((StoreLock.acquire store).mapError ofLock) >>= _) g =
    run ((enter store).mapError ofLock >>= _) g
  cases hacquire : (StoreLock.acquire store).run g.disk with
  | mk outcome disk =>
    have hdisk : (onDisk (StoreLock.acquire store)).run g = (outcome, withDisk disk g) := by
      rw [onDisk, run_zoom, hacquire]
    have hmapped :
        (Action.zoom Guards.disk withDisk ((StoreLock.acquire store).mapError ofLock)).run g =
          (outcome.mapError ofLock, withDisk disk g) := by
      rw [run_zoom, run_mapError, hacquire]
    cases outcome with
    | error cause =>
      have henter : ((enter store).mapError ofLock).run g =
          (.error (ofLock cause), withDisk disk g) := by
        rw [run_mapError, enter, run_bind_error hdisk]
        rfl
      rw [run_bind_error hmapped, run_bind_error henter]
    | ok lock =>
      have henter : ((enter store).mapError ofLock).run g =
          (.ok lock, push lock (withDisk disk g)) := by
        rw [run_mapError, enter, run_bind_ok hdisk]
        rfl
      rw [run_bind_ok hmapped, run_bind_ok henter]
      rfl

end Guards

/-- What a program does with locks, step after step; what comes next may depend on how a step
ended. Taking a lock that is held would wait for ever, which counts as a failure here. -/
inductive Script (ε : Type) where
  | finish (outcome : Except ε Unit)
  | acquire (store : String) (next : Except LockError Unit → Script ε)
  | tryAcquire (store : String) (next : Except LockError Bool → Script ε)
  | drop (i : Nat) (next : Script ε)
  | holding (store : String) (body : Script ε) (next : Except ε Unit → Script ε)

variable {ε δ : Type}

/-- What a script does from one end to the other. -/
def Script.perform (ofLock : LockError → ε) : Script ε → Action Guards ε Unit
  | finish outcome => Action.ofExcept outcome
  | acquire store next => do ((next (← (Guards.acquire store).attempt)).perform ofLock)
  | tryAcquire store next => do ((next (← (Guards.tryAcquire store).attempt)).perform ofLock)
  | drop i next => do
    let _ ← (Guards.drop i).attempt
    next.perform ofLock
  | holding store body next => do
    ((next (← (Guards.holding ofLock store (body.perform ofLock)).attempt)).perform ofLock)

open Thread (once ended)

/-- A thread that takes its turns while the lock of a store is held. -/
def under (ofLock : LockError → ε) (store : String) (a : Thread Guards ε Unit) :
    Thread Guards ε Unit := do
  let lock ← once ((Guards.enter store).mapError ofLock)
  let outcome ← a.attempt
  once (Guards.leave lock)
  ended outcome

theorem alone_under (ofLock : LockError → ε) (store : String) (a : Thread Guards ε Unit) :
    (under ofLock store a).alone = Guards.holding ofLock store a.alone := by
  rw [Guards.holding_eq]
  simp only [under, Thread.alone_bind, Thread.alone_once, Thread.alone_attempt]
  rfl

namespace Script

/-- A script cut into turns, one for each step. -/
def thread (ofLock : LockError → ε) : Script ε → Thread Guards ε Unit
  | finish outcome => ended outcome
  | acquire store next => do
    ((next (← (once (Guards.acquire store)).attempt)).thread ofLock)
  | tryAcquire store next => do
    ((next (← (once (Guards.tryAcquire store)).attempt)).thread ofLock)
  | drop i next => do
    let _ ← (once (Guards.drop i)).attempt
    next.thread ofLock
  | holding store body next => do
    ((next (← (under ofLock store (body.thread ofLock)).attempt)).thread ofLock)

theorem alone_thread (ofLock : LockError → ε) (s : Script ε) :
    (s.thread ofLock).alone = s.perform ofLock := by
  induction s with
  | finish outcome => rfl
  | acquire store next ih | tryAcquire store next ih =>
    simp only [thread, perform, Thread.alone_bind, Thread.alone_attempt, Thread.alone_once, ih]
  | drop i next ih =>
    simp only [thread, perform, Thread.alone_bind, Thread.alone_attempt, Thread.alone_once, ih]
  | holding store body next hbody ih =>
    simp only [thread, perform, Thread.alone_bind, Thread.alone_attempt, alone_under, hbody, ih]

/-- The moments of a script: where it starts, and where each turn leads. -/
def moments (ofLock : LockError → ε) (s : Script ε) (g : Guards) : List Guards :=
  g :: (s.thread ofLock).passed g

def Over (stores : Set String) : Script ε → Prop
  | finish _ => True
  | acquire store next => store ∈ stores ∧ ∀ outcome, (next outcome).Over stores
  | tryAcquire store next => store ∈ stores ∧ ∀ outcome, (next outcome).Over stores
  | drop _ next => next.Over stores
  | holding store body next =>
    store ∈ stores ∧ body.Over stores ∧ ∀ outcome, (next outcome).Over stores

end Script

variable {stores : Set String} {start : Place} {g t : Guards} {store : String} {lock : StoreLock}
  {ofLock : LockError → ε} {s body : Script ε} {α β : Type}

/-- The locks that are taken are those of the live guards. -/
def Guards.Coherent (stores : Set String) (start : Place) (g : Guards) : Prop :=
  Accounts stores start g.disk g.live

/-- A step that leaves the calls as they are that run something under a lock. -/
structure Steps (stores : Set String) (start : Place) (g t : Guards) : Prop where
  coherent : t.Coherent stores start
  scopes : t.scopes = g.scopes
  grows : g.disk.files.Grows t.disk.files

theorem coherent_ofFiles (stores : Set String) (files : FileTree) :
    (Guards.ofFiles files).Coherent stores files.start :=
  accounts_ofFiles stores files

theorem Guards.live_keep (lock : StoreLock) (disk : Disk) (g : Guards) :
    (lock :: g.live).Perm (keep lock (withDisk disk g)).live := List.perm_middle.symm

theorem Guards.Coherent.acquire (hg : g.Coherent stores start) (hstore : store ∈ stores) :
    Steps stores start g ((Guards.acquire store).run g).2 := by
  refine Ends.state (Ends.bind (Ends.zoom ((Accounts.acquire_ends hg hstore).mono ?_ ?_)))
  · rintro lock disk ⟨hgrows, haccounts, -⟩
    exact ends_update ⟨haccounts.perm (g.live_keep lock disk), rfl, hgrows⟩
  · rintro cause disk ⟨hgrows, haccounts⟩
    exact ⟨haccounts, rfl, hgrows⟩

theorem Guards.Coherent.tryAcquire (hg : g.Coherent stores start) (hstore : store ∈ stores) :
    Steps stores start g ((Guards.tryAcquire store).run g).2 := by
  refine Ends.state (Ends.bind (Ends.zoom ((Accounts.tryAcquire_ends hg hstore).mono ?_ ?_)))
  · rintro (_ | lock) disk ⟨hgrows, haccounts, -⟩
    · exact ends_pure ⟨haccounts, rfl, hgrows⟩
    · have hcoherent := haccounts.perm (g.live_keep lock disk)
      exact Ends.bind (ends_update (ends_pure ⟨hcoherent, rfl, hgrows⟩))
  · rintro cause disk ⟨hgrows, haccounts⟩
    exact ⟨haccounts, rfl, hgrows⟩

theorem Guards.Coherent.drop (hg : g.Coherent stores start) (i : Nat) :
    Steps stores start g ((Guards.drop i).run g).2 := by
  unfold run Guards.drop
  split
  · rename_i lock hlock
    obtain ⟨hi, rfl⟩ := List.getElem?_eq_some_iff.mp hlock
    have hfirst : g.live.Perm (g.kept[i] :: (g.scopes ++ g.kept.eraseIdx i)) :=
      ((List.getElem_cons_eraseIdx_perm hi).symm.append_left _).trans List.perm_middle
    exact ⟨(Accounts.perm hg hfirst).release, rfl, .refl _⟩
  · exact ⟨hg, rfl, .refl _⟩

theorem Guards.Coherent.enter_ends (hg : g.Coherent stores start) (hstore : store ∈ stores) :
    (Guards.enter store).Ends g
      (fun lock t => t.Coherent stores start ∧ t.scopes = lock :: g.scopes ∧ t.kept = g.kept ∧
        g.disk.files.Grows t.disk.files ∧ lock.path = lockPath store)
      fun _ t => Steps stores start g t := by
  refine Ends.bind (Ends.zoom ((Accounts.acquire_ends hg hstore).mono ?_ ?_))
  · rintro lock disk ⟨hgrows, haccounts, hpath⟩
    exact Ends.bind (ends_update (ends_pure ⟨haccounts, rfl, rfl, hgrows, hpath⟩))
  · rintro cause disk ⟨hgrows, haccounts⟩
    exact ⟨haccounts, rfl, hgrows⟩

theorem Guards.live_eq {outer : List StoreLock} (hscopes : g.scopes = lock :: outer) :
    g.live = lock :: (outer ++ g.kept) := by
  rw [live, hscopes, List.cons_append]

theorem Guards.Coherent.left (hg : g.Coherent stores start) {outer : List StoreLock}
    (hscopes : g.scopes = lock :: outer) :
    (g.left lock).Coherent stores start ∧ (g.left lock).scopes = outer := by
  have htail : (g.left lock).scopes = outer := congrArg List.tail hscopes
  refine ⟨?_, htail⟩
  have hrelease := (Accounts.perm hg (.of_eq (live_eq hscopes))).release
  rwa [← htail] at hrelease

/-- After a lock was given back there is no guard for its file, which can still be opened. -/
theorem Guards.Coherent.free_left (hg : g.Coherent stores start) {outer : List StoreLock}
    (hscopes : g.scopes = lock :: outer) (hpath : lock.path = lockPath store) :
    ¬ (g.left lock).Guarded store ∧ (g.left lock).Opens store := by
  have hlive := live_eq hscopes
  constructor
  · rintro ⟨other, hother, heq⟩
    have houter : other ∈ outer ++ g.kept := by
      rwa [live, (hg.left hscopes).2] at hother
    exact (Accounts.perm hg (.of_eq hlive)).path_ne other houter (heq.trans hpath.symm)
  · have hmem : lock ∈ g.live := hlive ▸ List.mem_cons_self
    have hopens := (Accounts.genuine hg lock hmem).filed.opens (g.left lock).disk (.refl _)
    exact ⟨_, _, hpath ▸ hopens⟩

/-- How turns go on from somewhere: all calls that are under way stay so at every moment, and in
the end there are no others. -/
structure Course (stores : Set String) (start : Place) (g : Guards)
    (a : Thread Guards ε α) : Prop where
  coherent : ∀ m ∈ a.passed g, m.Coherent stores start
  scopes : ∀ m ∈ a.passed g, g.scopes <:+ m.scopes
  restored : (a.alone.run g).2.scopes = g.scopes
  grows : (g :: a.passed g).IsChain fun m n => m.disk.files.Grows n.disk.files

theorem course_ended (outcome : Except ε α) : Course stores start g (ended outcome) where
  coherent _ h := nomatch h
  scopes _ h := nomatch h
  restored := rfl
  grows := .singleton g

theorem course_once {a : Action Guards ε α} (h : Steps stores start g (a.run g).2) :
    Course stores start g (once a) where
  coherent m hm := List.mem_singleton.mp hm ▸ h.coherent
  scopes m hm := by
    obtain rfl := List.mem_singleton.mp hm
    exact h.scopes ▸ List.suffix_rfl
  restored := h.scopes
  grows := .cons_cons h.grows (.singleton _)

theorem Course.mem_final (a : Thread Guards ε α) (g : Guards) :
    (a.alone.run g).2 ∈ g :: a.passed g :=
  List.mem_of_getLast? (a.getLast?_passed g)

theorem Course.final {a : Thread Guards ε α} (h : Course stores start g a)
    (hg : g.Coherent stores start) : (a.alone.run g).2.Coherent stores start := by
  rcases List.mem_cons.mp (Course.mem_final a g) with hfinal | hfinal
  · rwa [hfinal]
  · exact h.coherent _ hfinal

theorem passed_attempt_bind (a : Thread Guards ε α)
    (f : Except ε α → Thread Guards δ β) (g : Guards) :
    (a.attempt >>= f).passed g = a.passed g ++ (f (a.alone.run g).1).passed (a.alone.run g).2 := by
  rw [Thread.passed_bind, Thread.passed_attempt, Thread.alone_attempt, run_attempt]

/-- Turns in a row join to a chain. -/
theorem isChain_join {R : Guards → Guards → Prop} (a : Thread Guards ε α)
    {rest : List Guards} (h : (g :: a.passed g).IsChain R)
    (hrest : ((a.alone.run g).2 :: rest).IsChain R) : (g :: (a.passed g ++ rest)).IsChain R := by
  rw [← List.cons_append, List.isChain_append]
  obtain ⟨hhead, htail⟩ := List.isChain_cons.mp hrest
  refine ⟨h, htail, fun m hm n hn => ?_⟩
  rw [a.getLast?_passed g] at hm
  exact Option.some.inj hm ▸ hhead n hn

theorem Course.bind {a : Thread Guards ε α}
    {f : Except ε α → Thread Guards δ β} (h : Course stores start g a)
    (hf : Course stores start (a.alone.run g).2 (f (a.alone.run g).1)) :
    Course stores start g (a.attempt >>= f) where
  coherent m hm := by
    rw [passed_attempt_bind] at hm
    exact (List.mem_append.mp hm).elim (h.coherent m) (hf.coherent m)
  scopes m hm := by
    rw [passed_attempt_bind] at hm
    rcases List.mem_append.mp hm with hm | hm
    · exact h.scopes m hm
    · exact h.restored ▸ hf.scopes m hm
  restored := by
    rw [Thread.alone_bind, Thread.alone_attempt, run_bind, run_attempt]
    exact hf.restored.trans h.restored
  grows := by
    rw [passed_attempt_bind]
    exact isChain_join a h.grows hf.grows

theorem under_error {cause : LockError} (ofLock : LockError → ε) (a : Thread Guards ε Unit)
    (henter : (Guards.enter store).run g = (.error cause, t)) :
    (under ofLock store a).passed g = [t] ∧
      (under ofLock store a).alone.run g = (.error (ofLock cause), t) := by
  have hmapped : ((Guards.enter store).mapError ofLock).run g = (.error (ofLock cause), t) := by
    rw [run_mapError, henter]
    rfl
  constructor
  · rw [under, Thread.passed_bind, Thread.passed_once, Thread.alone_once, hmapped, List.append_nil]
  · rw [under, Thread.alone_bind, Thread.alone_once, run_bind_error hmapped]

theorem under_ok {entered : Guards} (ofLock : LockError → ε) (a : Thread Guards ε Unit)
    (henter : (Guards.enter store).run g = (.ok lock, entered)) :
    (under ofLock store a).passed g = entered :: (a.passed entered ++
        [(a.alone.run entered).2.left lock]) ∧
      (under ofLock store a).alone.run g =
        ((a.alone.run entered).1, (a.alone.run entered).2.left lock) := by
  have hmapped : ((Guards.enter store).mapError ofLock).run g = (.ok lock, entered) := by
    rw [run_mapError, henter]
    rfl
  constructor
  · rw [under, Thread.passed_bind, Thread.passed_once, Thread.alone_once, hmapped]
    exact congrArg (entered :: ·) (passed_attempt_bind a _ entered)
  · rw [under, Thread.alone_bind, Thread.alone_once, run_bind_ok hmapped, Thread.alone_bind,
      Thread.alone_attempt, run_bind, run_attempt]
    rfl

theorem course_under {a : Thread Guards ε Unit} (ofLock : LockError → ε)
    (hg : g.Coherent stores start) (hstore : store ∈ stores)
    (ha : ∀ entered, entered.Coherent stores start → Course stores start entered a) :
    Course stores start g (under ofLock store a) := by
  refine (hg.enter_ends hstore).elim (fun lock entered henter hentered => ?_)
    fun cause t henter hsteps => ?_
  · obtain ⟨hcoherent, hscopes, -, hgrows, -⟩ := hentered
    obtain ⟨hpassed, halone⟩ := under_ok ofLock a henter
    have hcourse := ha entered hcoherent
    have hinside := hcourse.restored.trans hscopes
    obtain ⟨hleft, houter⟩ := (hcourse.final hcoherent).left hinside
    have hsuffix : g.scopes <:+ entered.scopes := hscopes ▸ List.suffix_cons lock g.scopes
    constructor
    · rw [hpassed, List.forall_mem_cons, List.forall_mem_append, List.forall_mem_singleton]
      exact ⟨hcoherent, hcourse.coherent, hleft⟩
    · rw [hpassed, List.forall_mem_cons, List.forall_mem_append, List.forall_mem_singleton]
      exact ⟨hsuffix, fun m hm => hsuffix.trans (hcourse.scopes m hm), houter ▸ List.suffix_rfl⟩
    · rw [halone]
      exact houter
    · rw [hpassed]
      exact .cons_cons hgrows (isChain_join a hcourse.grows (.cons_cons (.refl _) (.singleton _)))
  · obtain ⟨hpassed, halone⟩ := under_error ofLock a henter
    constructor
    · rw [hpassed, List.forall_mem_singleton]
      exact hsteps.coherent
    · rw [hpassed, List.forall_mem_singleton]
      exact hsteps.scopes ▸ List.suffix_rfl
    · rw [halone]
      exact hsteps.scopes
    · rw [hpassed]
      exact .cons_cons hsteps.grows (.singleton t)

/-- Whatever a script does, step after step. -/
theorem Script.course (ofLock : LockError → ε) (hover : s.Over stores)
    (hg : g.Coherent stores start) :
    Course stores start g (s.thread ofLock) := by
  induction s generalizing g with
  | finish outcome => exact course_ended outcome
  | acquire store next ih =>
    have hfirst := course_once (hg.acquire hover.1)
    exact hfirst.bind (ih _ (hover.2 _) (hfirst.final hg))
  | tryAcquire store next ih =>
    have hfirst := course_once (hg.tryAcquire hover.1)
    exact hfirst.bind (ih _ (hover.2 _) (hfirst.final hg))
  | drop i next ih =>
    have hfirst := course_once (hg.drop i)
    exact hfirst.bind (ih hover (hfirst.final hg))
  | holding store body next hbody ih =>
    have hfirst := course_under ofLock hg hover.1 fun entered hentered => hbody hover.2.1 hentered
    exact hfirst.bind (ih _ (hover.2.2 _) (hfirst.final hg))

theorem Script.coherent_of_mem (hover : s.Over stores) (hg : g.Coherent stores start)
    {m : Guards} (hm : m ∈ s.moments ofLock g) : m.Coherent stores start := by
  rcases List.mem_cons.mp hm with rfl | hm
  · exact hg
  · exact (s.course ofLock hover hg).coherent m hm

/-- A call that was under way before a script is so at every moment of it. -/
theorem Script.scopes_of_mem (hover : s.Over stores) (hg : g.Coherent stores start)
    (hlock : lock ∈ g.scopes) {m : Guards} (hm : m ∈ s.moments ofLock g) : lock ∈ m.scopes := by
  rcases List.mem_cons.mp hm with rfl | hm
  · exact hlock
  · exact ((s.course ofLock hover hg).scopes m hm).mem hlock

/-- How a script runs under the lock of a store. The lock is taken before it and given back after
it, however it ends, and nothing else is done with guards besides what the script does. -/
structure Under (ofLock : LockError → ε) (store : String) (body : Script ε) (g : Guards)
    (lock : StoreLock) (entered inside after : Guards) (outcome : Except ε Unit) : Prop where
  path : lock.path = lockPath store
  entered_kept : entered.kept = g.kept
  entered_scopes : entered.scopes = lock :: g.scopes
  entered_others : ∀ place ≠ lock.place, place ∈ entered.disk.taken ↔ place ∈ g.disk.taken
  body_run : (body.perform ofLock).run entered = (outcome, inside)
  run : (Guards.holding ofLock store (body.perform ofLock)).run g = (outcome, after)
  /-- The lock is held at every moment of the script. -/
  held : ∀ m ∈ body.moments ofLock entered, lock ∈ m.scopes ∧ lock.IsHeld m.disk ∧
    ((StoreLock.tryAcquire store).run m.disk).1 = .ok none
  after_kept : after.kept = inside.kept
  after_scopes : after.scopes = g.scopes
  /-- The lock is free afterwards. -/
  free : ¬ after.Guarded store ∧ ∃ again t,
    (StoreLock.tryAcquire store).run after.disk = (.ok (some again), t)
  /-- Other locks are as they were at the end of the script. -/
  others : ∀ place ≠ lock.place, place ∈ after.disk.taken ↔ place ∈ inside.disk.taken

theorem Guards.Coherent.under (hg : g.Coherent stores start) (hdistinct : Distinct start stores)
    (hstore : store ∈ stores) (hbody : body.Over stores) (hfree : ¬ g.Guarded store)
    (hopens : g.Opens store) :
    ∃ lock entered inside after outcome,
      Under ofLock store body g lock entered inside after outcome := by
  obtain ⟨place, opened, hopen⟩ := hopens
  obtain ⟨lock, disk, htry⟩ := Accounts.exists_tryAcquire hg hdistinct hstore hopen hfree
  have henter : (Guards.enter store).run g = (.ok lock, push lock (withDisk disk g)) := by
    have hacquire : (StoreLock.acquire store).run g.disk = (.ok lock, disk) := run_bind_ok htry
    have hdisk : (onDisk (StoreLock.acquire store)).run g = (.ok lock, withDisk disk g) := by
      rw [onDisk, run_zoom, hacquire]
    exact run_bind_ok hdisk
  obtain ⟨hentered, hscopes, hkept, -, hpath⟩ := (hg.enter_ends hstore).ok henter
  have hcourse := body.course ofLock hbody hentered
  have hinside := hcourse.final hentered
  have hinsideScopes := hcourse.restored.trans hscopes
  obtain ⟨hafter, hafterScopes⟩ := hinside.left hinsideScopes
  have hrun := (under_ok ofLock (body.thread ofLock) henter).2
  rw [alone_under, body.alone_thread] at hrun
  rw [body.alone_thread] at hinside hinsideScopes hafter hafterScopes
  refine ⟨lock, _, _, _, _, hpath, hkept, hscopes, ?_, rfl, hrun, ?_, rfl, hafterScopes,
    ⟨?_, ?_⟩, ?_⟩
  · intro other hother
    rw [Accounts.mem_taken_iff hentered, Accounts.mem_taken_iff hg, live_eq hscopes, hkept,
      List.exists_mem_cons_iff]
    exact or_iff_right (Ne.symm hother)
  · intro m hm
    have hcoherent := body.coherent_of_mem hbody hentered hm
    have hmem := body.scopes_of_mem hbody hentered List.mem_cons_self hm
    have hlive : lock ∈ m.live := List.mem_append_left _ hmem
    exact ⟨hmem, (Accounts.mem_taken_iff hcoherent).mpr ⟨lock, hlive, rfl⟩,
      (Accounts.tryAcquire_none_iff hcoherent hdistinct hstore).mpr ⟨lock, hlive, hpath⟩⟩
  · exact (hinside.free_left hinsideScopes hpath).1
  · obtain ⟨hunguarded, again, reopened, hreopen⟩ := hinside.free_left hinsideScopes hpath
    exact Accounts.exists_tryAcquire hafter hdistinct hstore hreopen hunguarded
  · intro other hother
    exact List.mem_erase_of_ne hother

/-- Programs over stores with different lock files start with no guards. At every moment there is at
most one live guard for a lock file, trying to take a lock fails to get it just if there is one,
and no lock file is removed from one moment to the next. Something that runs under a lock, at any
of these moments, holds it throughout and sets it free, and touches no other guards. -/
theorem locks_exclude (ofLock : LockError → ε) (files : FileTree)
    (hdistinct : Distinct files.start stores) (hover : s.Over stores) :
    Function.Injective lockPath ∧
    (s.moments ofLock (.ofFiles files)).IsChain (fun g t => g.disk.files.Grows t.disk.files) ∧
    ∀ g ∈ s.moments ofLock (.ofFiles files),
      (g.live.map StoreLock.path).Nodup ∧
      (∀ lock ∈ g.live, lock.IsHeld g.disk ∧
        ∃ number, g.disk.files.at? lock.place = some (.file number)) ∧
      (∀ store ∈ stores,
        ((StoreLock.tryAcquire store).run g.disk).1 = .ok none ↔ g.Guarded store) ∧
      ∀ store ∈ stores, ∀ body : Script ε, body.Over stores → ¬ g.Guarded store → g.Opens store →
        ∃ lock entered inside after outcome,
          Under ofLock store body g lock entered inside after outcome := by
  have hstart := coherent_ofFiles stores files
  refine ⟨fun _ _ => lockPath_injective, (s.course ofLock hover hstart).grows, fun g hg => ?_⟩
  have hcoherent := s.coherent_of_mem hover hstart hg
  refine ⟨Accounts.nodup_paths hcoherent, fun lock hlock => ⟨?_, ?_⟩, fun store hstore => ?_,
    fun store hstore body hbody hfree hopens => ?_⟩
  · exact (Accounts.mem_taken_iff hcoherent).mpr ⟨lock, hlock, rfl⟩
  · exact (Accounts.genuine hcoherent lock hlock).filed.stands
  · exact Accounts.tryAcquire_none_iff hcoherent hdistinct hstore
  · exact hcoherent.under hdistinct hstore hbody hfree hopens

/-- Under the lock of one store the lock of another one is tried, which is taken. -/
def nested : Script LockError :=
  .acquire "/a" fun _ => .holding "/b" (.tryAcquire "/a" fun got =>
    .finish (if got.toOption = some true then .ok () else .error (.timedOut "/a" 1)))
    fun _ => .drop 0 (.finish (.ok ()))

theorem locks_exclude_nested :
    Distinct [] {"/a", "/b"} ∧ nested.Over {"/a", "/b"} ∧
      ∀ g ∈ nested.moments id (.ofFiles (.empty [])), (g.live.map StoreLock.path).Nodup ∧
        (((StoreLock.tryAcquire "/a").run g.disk).1 = .ok none ↔ g.Guarded "/a") := by
  have hdistinct : Distinct [] {"/a", "/b"} := by
    rintro a (rfl | rfl) b (rfl | rfl) hne
    · exact absurd rfl hne
    · decide
    · decide
    · exact absurd rfl hne
  have hover : nested.Over {"/a", "/b"} := by simp [nested, Script.Over]
  refine ⟨hdistinct, hover, fun g hg => ?_⟩
  obtain ⟨hnodup, -, htry, -⟩ := (locks_exclude id (.empty []) hdistinct hover).2.2 g hg
  exact ⟨hnodup, htry "/a" (Set.mem_insert ..)⟩

example : (nested.moments id (.ofFiles (.empty []))).map (fun g => g.live.map StoreLock.path) =
    [[], ["/a.lock"], ["/b.lock", "/a.lock"], ["/b.lock", "/a.lock"], ["/a.lock"], []] := by
  decide

end DesiredState.StoreLock
