import DesiredState.Proofs.Retry
import DesiredState.Proofs.Store.Retimed
import DesiredState.Proofs.Volume.Parallel
import DesiredState.Proofs.Volume.Run

/-!
# Transient faults leave no trace

A pass whose calls to the provider first fail transiently, no more often than the retry policy
bears, is followed beside the same pass without these failures. The first call of a pass is tried
again until the failures are over, so the one call that is not tried again, the question whether a
new volume is ready, never meets one. The two passes may run at different times, which shows in the
recorded time of creation only.
-/

namespace DesiredState.Volume

open DesiredState.Action

/-- Two providers have the same volumes. Calls to the first one do not fail, calls to the second one
fail as `F` says. -/
structure Twins (F : List Failure → Prop) (c c' : Cloud) : Prop where
  volumes : c'.volumes = c.volumes
  created : c'.created = c.created
  settle : c'.settlePolls = c.settlePolls
  calm : c.failures = []
  faults : F c'.failures

abbrev Calm (faults : List Failure) : Prop := faults = []

variable {F F' : List Failure → Prop}

theorem call_twins (name : String) :
    Parallel (Twins Calm) (Twins Calm) (Cloud.call name) (Cloud.call name) where
  outcome h := by rw [run_call_calm h.calm, run_call_calm h.faults]
  states h := by
    rw [run_call_calm h.calm, run_call_calm h.faults]
    exact ⟨h.volumes, h.created, h.settle, h.calm, h.faults⟩

theorem Twins.volume? {c c' : Cloud} (h : Twins F c c') (id : String) :
    c'.volume? id = c.volume? id := by rw [Cloud.volume?, Cloud.volume?, h.volumes]

theorem withVolume_twins {α : Type} (id : String) (f : CloudVolume → α × CloudVolume) :
    Parallel (Twins F) (Twins F) (Cloud.withVolume id f) (Cloud.withVolume id f) := by
  refine parallel_of_both fun {c c'} h => ?_
  have hsame := h.volume? id
  cases hv : c.volume? id with
  | none =>
    rw [withVolume_none hv, withVolume_none (hsame.trans hv)]
    exact ⟨rfl, h⟩
  | some v =>
    rw [withVolume_some hv, withVolume_some (hsame.trans hv)]
    exact ⟨rfl, by simp only [h.volumes], h.created, h.settle, h.calm, h.faults⟩

theorem Twins.forget {c c' : Cloud} (h : Twins F c c') (id : String) :
    Twins F (c.forget id) (c'.forget id) :=
  ⟨congrArg (KeyMap.erase · id) h.volumes, h.created, h.settle, h.calm, h.faults⟩

/-- Trying again does not help against the failures of an action. -/
def FailsForGood {α : Type} (f : Cloud.Call α) : Prop :=
  ∀ c, f.Ends c (fun _ _ => True) fun cause _ => cause.decision = .fail

theorem withVolume_failsForGood {α : Type} (id : String) (f : CloudVolume → α × CloudVolume) :
    FailsForGood (Cloud.withVolume id f) := by
  intro c
  cases hv : c.volume? id with
  | none => exact Ends.of_error (withVolume_none hv f) rfl
  | some v => exact Ends.of_ok (withVolume_some hv f) trivial

/-- Tasks share certain services, nothing is in the way of the store, and the time fits a word. -/
structure Orderly (services : Services) (w : World Cloud) : Prop where
  shared : w.services = services
  clear : w.obstacles = {}
  timely : w.now < Word.size 64

/-- Two worlds agree but for failures of the provider, stores related by `K`, and the time. -/
structure Twin (services : Services) (K : Store → Store → Prop) (F : List Failure → Prop)
    (w w' : World Cloud) : Prop where
  store : K w.store w'.store
  remote : Twins F w.remote w'.remote
  orderly : Orderly services w
  orderly' : Orderly services w'
  mutexes : w'.mutexes = w.mutexes
  steps : w'.journal.steps = w.journal.steps
  questions : w'.journal.questions = w.journal.questions

section

variable {services : Services} {K K' : Store → Store → Prop} {w w' : World Cloud} {α : Type}

theorem Orderly.record (h : Orderly services w) (entry : JournalEntry) :
    Orderly services (w.record entry) := ⟨h.shared, h.clear, h.timely⟩

theorem steps_record (w : World Cloud) (entry : JournalEntry) :
    (w.record entry).journal.steps = w.journal.steps ++ Journal.steps [entry] :=
  List.filterMap_append ..

theorem questions_record (w : World Cloud) (entry : JournalEntry) :
    (w.record entry).journal.questions = w.journal.questions ++ Journal.questions [entry] :=
  List.filterMap_append ..

theorem Twin.imp (h : Twin services K F w w') (hK : K' w.store w'.store)
    (hF : F' w'.remote.failures) : Twin services K' F' w w' :=
  ⟨hK, ⟨h.remote.volumes, h.remote.created, h.remote.settle, h.remote.calm, hF⟩, h.orderly,
    h.orderly', h.mutexes, h.steps, h.questions⟩

theorem Twin.record (h : Twin services K F w w') (entry : JournalEntry) :
    Twin services K F (w.record entry) (w'.record entry) := by
  refine ⟨h.store, h.remote, h.orderly.record entry, h.orderly'.record entry, h.mutexes, ?_, ?_⟩
  · rw [steps_record, steps_record, h.steps]
  · rw [questions_record, questions_record, h.questions]

/-- The second world alone reports a failed attempt and pauses. -/
theorem Twin.pause (h : Twin services K F w w') (label : String) (notice : Retry.Notice Failure) :
    Twin services K F w (World.pauseAttempt label notice w') := by
  refine ⟨h.store, h.remote, h.orderly, (h.orderly'.record _).record _, h.mutexes, ?_, ?_⟩
  · rw [World.pauseAttempt, steps_record, steps_record, h.steps]
    simp [Journal.steps]
  · rw [World.pauseAttempt, questions_record, questions_record, h.questions]
    simp [Journal.questions]

theorem twin_onStore {a b : Action Store Failure α} (h : Parallel K K a b) :
    Parallel (Twin services K F) (Twin services K F) (World.onStore a) (World.onStore b) := by
  refine parallel_of_both fun {w w'} hw => ?_
  rw [World.run_onStore hw.orderly.clear, World.run_onStore hw.orderly'.clear]
  exact ⟨h.outcome hw.store, h.states hw.store, hw.remote,
    ⟨hw.orderly.shared, hw.orderly.clear, hw.orderly.timely⟩,
    ⟨hw.orderly'.shared, hw.orderly'.clear, hw.orderly'.timely⟩, hw.mutexes, hw.steps,
    hw.questions⟩

theorem twin_onRemote {a : Cloud.Call α} (h : Parallel (Twins F) (Twins F') a a) :
    Parallel (Twin services K F) (Twin services K F') (World.onRemote a) (World.onRemote a) where
  outcome hw := h.outcome hw.remote
  states hw := ⟨hw.store, h.states hw.remote,
    ⟨hw.orderly.shared, hw.orderly.clear, hw.orderly.timely⟩,
    ⟨hw.orderly'.shared, hw.orderly'.clear, hw.orderly'.timely⟩, hw.mutexes, hw.steps,
    hw.questions⟩

theorem Twin.onMutexes (h : Twin services K F w w') (f : Mutexes → Mutexes) :
    Twin services K F { w with mutexes := f w.mutexes } { w' with mutexes := f w'.mutexes } :=
  ⟨h.store, h.remote, ⟨h.orderly.shared, h.orderly.clear, h.orderly.timely⟩,
    ⟨h.orderly'.shared, h.orderly'.clear, h.orderly'.timely⟩, congrArg f h.mutexes, h.steps,
    h.questions⟩

theorem twin_exclusive {key : LockKey} {a : Task Cloud α}
    (h : Parallel (Twin services K F) (Twin services K F') a a) :
    Parallel (Twin services K F) (Twin services K F') (World.exclusive key a)
      (World.exclusive key a) where
  outcome hw := h.outcome (hw.onMutexes fun m => m.take key)
  states hw := (h.states (hw.onMutexes fun m => m.take key)).onMutexes fun m => m.release key

end

section

variable {services : Services} {K : Store → Store → Prop} {α : Type}

/-- Failures that the retry policy bears. -/
abbrev Borne (services : Services) (faults : List Failure) : Prop :=
  services.retry.Bears Failure.decision services.retry.start faults

/-- A call to the provider, made once. -/
abbrev once (name : String) (f : Cloud.Call α) : Task Cloud α :=
  World.onRemote (Cloud.call name >>= fun _ => f)

variable {f : Cloud.Call α} {w w' : World Cloud}

theorem twin_once (hf : Parallel (Twins Calm) (Twins Calm) f f) (name : String) :
    Parallel (Twin services K Calm) (Twin services K Calm) (once name f) (once name f) :=
  twin_onRemote ((call_twins name).bind fun _ => hf)

theorem once_stops (hgood : FailsForGood f) (hw : w.remote.failures = []) (name : String) :
    (once name f).Ends w (fun _ _ => True) fun cause _ => cause.decision = .fail :=
  World.onRemote_ends (Ends.bind (Ends.of_ok (run_call_calm hw name) (hgood _)))

/-- A call that fails does nothing else. -/
theorem once_fails {cause : Failure} {rest : List Failure}
    (hw : Twin services K (· = cause :: rest) w w') (name : String) :
    (once name f).Ends w' (fun _ _ => False)
      fun e t => e = cause ∧ Twin services K (· = rest) w t := by
  refine World.onRemote_ends (Ends.bind (Ends.of_error (run_call_failing hw.remote.faults name) ?_))
  exact ⟨rfl, hw.store, ⟨hw.remote.volumes, hw.remote.created, hw.remote.settle, hw.remote.calm,
    rfl⟩, hw.orderly, ⟨hw.orderly'.shared, hw.orderly'.clear, hw.orderly'.timely⟩, hw.mutexes,
    hw.steps, hw.questions⟩

theorem Borne.length_le {faults : List Failure} (h : Borne services faults) :
    faults.length ≤ Word.size 32 := by
  have hlength := Retry.Policy.Bears.length_lt h
  omega

/-- Where no call fails, one attempt is enough. -/
theorem run_remotely_calm (hgood : FailsForGood f) (hw : w.remote.failures = [])
    (label name : String) :
    (remotely label (Cloud.call name >>= fun _ => f)).run w = (once name f).run w := by
  rw [remotely, World.run_retrying]
  refine (once_stops hgood hw name).elim (fun x t hrun _ => ?_) fun cause t hrun hstop => ?_
  · rw [hrun]
    exact run_attempts_ok hrun
  · rw [hrun]
    exact Retry.run_attempts_stop hrun hstop

/-- Once a call got through there is no failure left. -/
theorem twin_remotely (hf : Parallel (Twins Calm) (Twins Calm) f f) (hgood : FailsForGood f)
    (label name : String) :
    Parallel (Twin services K (Borne services)) (Twin services K Calm)
      (remotely label (Cloud.call name >>= fun _ => f))
      (remotely label (Cloud.call name >>= fun _ => f)) := by
  refine parallel_of_ends fun {w w'} hw => ?_
  have hrun := World.run_retrying label (once name f) w'
  rw [hw.orderly'.shared] at hrun
  rw [run_remotely_calm hgood hw.remote.calm]
  refine Ends.of_run (Retry.attempts_outlast
    (D := fun faults t => Twin services K (· = faults) w t) (fun notice faults t ht => ?_)
    (fun cause faults t ht => once_fails ht name) (fun t ht => (twin_once hf name).ends ht)
    (fun cause t hcause => ?_) hw.remote.faults hw.remote.faults.length_le
    (hw.imp hw.store rfl)) hrun
  · exact ht.pause _ _
  · exact (once_stops hgood hw.remote.calm name).error (Prod.ext hcause.1 rfl)

end

section

variable {services : Services} {K : Store → Store → Prop} {r : ResourceRecord} {d : Definition}

theorem Twin.borne {w w' : World Cloud} (h : Twin services K Calm w w') :
    Twin services K (Borne services) w w' := by
  refine h.imp h.store ?_
  rw [h.remote.faults]
  trivial

theorem twin_retried {α : Type} {f : Cloud.Call α} (hf : Parallel (Twins Calm) (Twins Calm) f f)
    (hgood : FailsForGood f) (label name : String) :
    Parallel (Twin services K (Borne services)) (Twin services K (Borne services))
      (remotely label (Cloud.call name >>= fun _ => f))
      (remotely label (Cloud.call name >>= fun _ => f)) :=
  (twin_remotely hf hgood label name).mono id Twin.borne

/-- Steps of tasks go side by side. -/
theorem twin_conduct (services : Services) (hK : Local r.id K) :
    Conduct r K (Twin services K (Borne services)) where
  store := hK
  record entry _ _ h := h.record entry
  onStore h := twin_onStore h
  exclusive h := twin_exclusive h
  describe label id := twin_retried (parallel_view fun h => h.volume? id)
    (fun _ => ends_view trivial) label _
  resize label id _ := twin_retried (withVolume_twins id _) (withVolume_failsForGood id _)
    label _
  setTags label id _ := twin_retried (withVolume_twins id _) (withVolume_failsForGood id _)
    label _
  attach label id _ := twin_retried (withVolume_twins id _) (withVolume_failsForGood id _)
    label _
  deleteVolume label id := twin_retried (parallel_update fun h => h.forget id)
    (fun _ => ends_update trivial) label _

theorem local_retimed (i : Int) : Local i (Store.Retimed i) where
  get hk := Store.get_retimed fun _ => hk
  set v hk := Store.set_retimed hk v
  delete key := Store.delete_retimed key

/-- Identity and outputs are recorded alike, at whatever time. -/
theorem recordCreated_retimed {n n' : Nat} (hn : n < Word.size 64) (hn' : n' < Word.size 64)
    (id region : String) :
    Parallel (Store.Retimed r.id) (Store.Retimed r.id)
      (State.recordCreated r n id (outputs region d))
      (State.recordCreated r n' id (outputs region d)) := by
  unfold State.recordCreated State.attempt
  refine Parallel.transaction ((Store.set_retimed (by decide) _).mapError.bind fun _ => ?_)
  refine (Store.setTime_retimed hn hn').mapError.bind fun _ => Parallel.mapError ?_
  exact parallel_forEach fun entry he =>
    Store.set_retimed (key_ne_of_mem_outputs he (by decide)) entry.2

theorem createVolume_twin (region : String) (size : Int) (tags : KeyMap String) (label : String) :
    Parallel (Twin services K (Borne services)) (Twin services K Calm)
      (remotely label (Cloud.createVolume region size tags))
      (remotely label (Cloud.createVolume region size tags)) := by
  unfold Cloud.createVolume
  refine twin_remotely ⟨fun {c c'} h => ?_, fun {c c'} h => ?_⟩ (fun c => Ends.of_ok rfl trivial)
    label "create"
  · exact congrArg (fun n => Except.ok (Cloud.volumeId (n + 1))) h.created
  · refine ⟨?_, congrArg (· + 1) h.created, h.settle, h.calm, h.faults⟩
    simp only [run, h.volumes, h.created, h.settle]

/-- A volume is created once the failures are over, so waiting for it meets none. -/
theorem createNew_twin (region : String) :
    Parallel (Twin services (Store.Retimed r.id) (Borne services))
      (Twin services (Store.Retimed r.id) (Borne services)) (createNew r d region)
      (createNew r d region) := by
  unfold createNew
  refine ((createVolume_twin _ _ _ _).bind fun id => parallel_view_bind fun now now' =>
    parallel_of fun {w w'} h => ?_).mono (fun h => h) Twin.borne
  obtain ⟨hw, rfl, rfl⟩ := h
  have hrecord : Parallel (Twin services (Store.Retimed r.id) Calm)
      (Twin services (Store.Retimed r.id) Calm)
      (World.onStore (State.recordCreated r w.now id (outputs region d)))
      (World.onStore (State.recordCreated r w'.now id (outputs region d))) :=
    twin_onStore (recordCreated_retimed hw.orderly.timely hw.orderly'.timely id region)
  refine (hrecord.bind fun _ => Parallel.bind ?_ fun _ => parallel_pure ()).mono (fun h => h.1)
    fun h => h
  exact World.polling_parallel (fun h => h.orderly'.shared.trans h.orderly.shared.symm)
    (fun entry _ _ h => h.record entry)
    (twin_onRemote ((call_twins "describe").bind fun _ => withVolume_twins id _)) _

theorem attachmentTarget_twin :
    Parallel (Twin services (Store.Retimed r.id) F) (Twin services (Store.Retimed r.id) F)
      (attachmentTarget r d) (attachmentTarget r d) where
  outcome := by
    intro w w' hw
    unfold attachmentTarget
    split
    · rfl
    · rfl
    · rename_i target _
      rw [run_bind, run_bind, World.run_onStore hw.orderly.clear,
        World.run_onStore hw.orderly'.clear]
      rcases Store.resolve_retimed hw.store r.deployment target with hsame | ⟨n, n', hn, hn'⟩
      · rw [hsame]
        cases ((State.resolve r.deployment target).run w.store).1 with
        | error cause => rfl
        | ok found => cases found <;> rfl
      · rw [hn, hn']
        rfl
  states := by
    intro w w' hw
    rw [attachmentTarget_reads w, attachmentTarget_reads w']
    exact hw

theorem difference_twin :
    Parallel (Twin services (Alone (Store.Knows r.id)) F)
      (Twin services (Alone (Store.Knows r.id)) F)
      ((resource r).difference d (resource r).siblings)
      ((resource r).difference d (resource r).siblings) := by
  have hsnapshot : (State.snapshot r).Reads := (reads_reading _).mapError
  unfold Resource.difference
  refine (twin_onStore hsnapshot.parallel_alone).bind fun current => parallel_reading fun hw => ?_
  rw [hw.store.1]

end

/-- A task on a volume comes to the same end in two worlds: it returns the same value or fails with
the same cause, reports the same progress, asks the same questions, and leaves the same volumes and
the same store, the time of creation of the volume apart. -/
structure SameEnd {α : Type} (r : ResourceRecord) (a : Task Cloud α) (w w' : World Cloud) :
    Prop where
  outcome : (a.run w').1 = (a.run w).1
  store : Store.timeless r.id (a.run w').2.store = Store.timeless r.id (a.run w).2.store
  volumes : (a.run w').2.remote.volumes = (a.run w).2.remote.volumes
  created : (a.run w').2.remote.created = (a.run w).2.remote.created
  mutexes : (a.run w').2.mutexes = (a.run w).2.mutexes
  steps : (a.run w').2.journal.steps = (a.run w).2.journal.steps
  questions : (a.run w').2.journal.questions = (a.run w).2.journal.questions

theorem sameEnd_of_parallel {α : Type} {services : Services} {K K' : Store → Store → Prop}
    {F F' : List Failure → Prop} {r : ResourceRecord} {a : Task Cloud α} {w w' : World Cloud}
    (ha : Parallel (Twin services K F) (Twin services K' F') a a)
    (hK : ∀ {s t}, K' s t → Store.timeless r.id s = Store.timeless r.id t)
    (h : Twin services K F w w') : SameEnd r a w w' :=
  have hstates := ha.states h
  ⟨ha.outcome h, (hK hstates.store).symm, hstates.remote.volumes, hstates.remote.created,
    hstates.mutexes, hstates.steps, hstates.questions⟩

/-- A world in which certain calls to the provider are going to fail. -/
def withFaults (faults : List Failure) (w : World Cloud) : World Cloud :=
  { w with remote := { w.remote with failures := faults } }

/-- Failures that are worth another attempt, no more of them than the retry policy bears, leave no
trace in what a pass returns and leaves, whenever it is made. -/
theorem faults_invisible {deployment : String} {w : World Cloud} (hw : Reached deployment w)
    {r : ResourceRecord} (hr : Declared deployment w r) {faults : List Failure}
    (hretry : ∀ cause ∈ faults, cause.decision ≠ .fail)
    (hword : (max w.services.retry.maxAttempts 1).toNat + w.services.retry.maxExtensions.toNat <
      Word.size 32)
    (hfew : Retry.plain Failure.decision faults +
      (Retry.limited Failure.decision faults - w.services.retry.maxExtensions.toNat) <
        (max w.services.retry.maxAttempts 1).toNat) (now : UInt64) :
    (∀ d options, SameEnd r ((resource r).create d options) (withFaults [] w)
      (withFaults faults (atTime now w))) ∧
    SameEnd r (resource r).check (withFaults [] w) (withFaults faults (atTime now w)) ∧
    ∀ wipe confirm, SameEnd r ((resource r).destroy wipe confirm) (withFaults [] w)
      (withFaults faults (atTime now w)) := by
  obtain ⟨ledger, h⟩ := hw.mirrored
  obtain ⟨e, he⟩ := h.entry_of_declared hr
  have hborne : Borne w.services faults :=
    Retry.bears_of_counts (by simpa [Retry.Policy.start] using hword)
      (by simpa [Retry.Policy.start] using hfew) hretry
  have htwin : Twin w.services (Alone (Store.Knows r.id)) (Borne w.services) (withFaults [] w)
      (withFaults faults (atTime now w)) :=
    ⟨⟨rfl, _, h.records he⟩, ⟨rfl, rfl, rfl, rfl, hborne⟩, ⟨rfl, h.clear, h.timely⟩,
      ⟨rfl, h.clear, now.toNat_lt⟩, rfl, rfl, rfl⟩
  have halone := twin_conduct w.services (local_alone r.id)
  have hretimed := twin_conduct w.services (local_retimed r.id)
  have hsame : ∀ {s t}, Alone (Store.Knows r.id) s t →
      Store.timeless r.id s = Store.timeless r.id t := fun hst => by rw [hst.1]
  refine ⟨fun d options => ?_, sameEnd_of_parallel halone.check hsame htwin, fun wipe confirm =>
    sameEnd_of_parallel (halone.destroy wipe confirm) hsame htwin⟩
  refine sameEnd_of_parallel (halone.create hretimed (fun hw => ?_) difference_twin createNew_twin
    attachmentTarget_twin) Store.Retimed.same htwin
  refine hw.imp ?_ hw.remote.faults
  rw [hw.store.1]
  exact Store.retimed_self hw.store.2

/-- A call that fails once and is throttled once. -/
def flaky : List Failure :=
  [.transient "data" "connection reset" false, .transient "data" "too many requests" true]

theorem faults_invisible_flaky :
    Reached "dep" declaredWorld ∧ Declared "dep" declaredWorld firstVolume ∧
    (∀ cause ∈ flaky, cause.decision ≠ .fail) ∧
    (max declaredWorld.services.retry.maxAttempts 1).toNat +
      declaredWorld.services.retry.maxExtensions.toNat < Word.size 32 ∧
    Retry.plain Failure.decision flaky + (Retry.limited Failure.decision flaky -
      declaredWorld.services.retry.maxExtensions.toNat) <
        (max declaredWorld.services.retry.maxAttempts 1).toNat ∧
    (∀ d options, SameEnd firstVolume ((resource firstVolume).create d options)
      (withFaults [] declaredWorld) (withFaults flaky (atTime 7 declaredWorld))) ∧
    SameEnd firstVolume (resource firstVolume).check (withFaults [] declaredWorld)
      (withFaults flaky (atTime 7 declaredWorld)) ∧
    ∀ wipe confirm, SameEnd firstVolume ((resource firstVolume).destroy wipe confirm)
      (withFaults [] declaredWorld) (withFaults flaky (atTime 7 declaredWorld)) := by
  have hw : Reached "dep" declaredWorld := ⟨0, {}, 0, _, by decide, rfl⟩
  have hr : Declared "dep" declaredWorld firstVolume := by decide +kernel
  have hretry : ∀ cause ∈ flaky, cause.decision ≠ .fail := by decide
  have hword : (max declaredWorld.services.retry.maxAttempts 1).toNat +
      declaredWorld.services.retry.maxExtensions.toNat < Word.size 32 := by decide +kernel
  have hfew : Retry.plain Failure.decision flaky + (Retry.limited Failure.decision flaky -
      declaredWorld.services.retry.maxExtensions.toNat) <
        (max declaredWorld.services.retry.maxAttempts 1).toNat := by decide +kernel
  exact ⟨hw, hr, hretry, hword, hfew, faults_invisible hw hr hretry hword hfew 7⟩

end DesiredState.Volume
