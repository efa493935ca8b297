import DesiredState.Proofs.Interleaving
import DesiredState.Proofs.Store.Retouch
import DesiredState.Proofs.Volume.Site
import DesiredState.Resource.CheckAll
import DesiredState.Volume.Basic

/-!
# Checks that take turns

The check of a volume is cut into its calls to the store and to the provider and its lines for the
log. It asks for one volume and reads and corrects one resource, so that checks of different
resources keep apart while no failure of the provider is pending.
-/

namespace DesiredState

open DesiredState.Action

namespace Cloud

/-- The provider after a number of questions for volumes. -/
def asked (n : Nat) (c : Cloud) : Cloud :=
  { c with calls := c.calls ++ List.replicate n "describe" }

theorem asked_zero (c : Cloud) : c.asked 0 = c := by simp [asked]

theorem asked_asked (m n : Nat) (c : Cloud) : (c.asked m).asked n = c.asked (m + n) := by
  simp [asked, List.replicate_append_replicate]

/-- Without failures to come a volume is found if it exists. -/
theorem run_describe_calm {c : Cloud} (h : c.failures = []) (id : String) :
    (describe id).run c = (.ok (c.volume? id), c.asked 1) :=
  run_bind_ok (Volume.run_call_calm h "describe")

end Cloud

namespace World

/-- The same world, with the journal in another order. -/
structure Reordered {ρ : Type} (w v : World ρ) : Prop where
  rest : v = { w with journal := v.journal }
  journal : w.journal.Perm v.journal

/-- What a check does to the world: it changes the attributes of one resource, asks for volumes and
writes to the journal. -/
def moved (i : Int) (f : KeyMap String → KeyMap String) (questions : Nat)
    (entries : List JournalEntry) (w : World Cloud) : World Cloud :=
  { w with
    store := w.store.retouch (Store.only i f)
    remote := w.remote.asked questions
    journal := w.journal ++ entries }

/-- Worlds that differ in nothing that the check of one resource sees. -/
structure Hidden (i : Int) (w v : World Cloud) : Prop where
  store : ∃ edits : Int → KeyMap String → KeyMap String, edits i = id ∧
    v.store = w.store.retouch edits
  volumes : v.remote.volumes = w.remote.volumes
  failures : v.remote.failures = w.remote.failures
  services : v.services = w.services
  obstacles : v.obstacles = w.obstacles

theorem Reordered.equivalence {ρ : Type} : Equivalence (Reordered (ρ := ρ)) where
  refl w := ⟨rfl, .refl _⟩
  symm {w v} h := ⟨by rw [h.rest], h.journal.symm⟩
  trans {u v w} h k := ⟨by rw [k.rest, h.rest], h.journal.trans k.journal⟩

theorem Reordered.moved {w v : World Cloud} (h : w.Reordered v) (i : Int)
    (f : KeyMap String → KeyMap String) (n : Nat) (entries : List JournalEntry) :
    (w.moved i f n entries).Reordered (v.moved i f n entries) where
  rest := by rw [h.rest]; rfl
  journal := h.journal.append_right entries

theorem Reordered.hidden {w v : World Cloud} (h : w.Reordered v) (i : Int) : Hidden i w v := by
  rw [h.rest]
  exact ⟨⟨fun _ => id, rfl, (Store.retouch_id _).symm⟩, rfl, rfl, rfl, rfl⟩

theorem hidden_moved {i j : Int} (h : i ≠ j) (f : KeyMap String → KeyMap String) (n : Nat)
    (entries : List JournalEntry) (w : World Cloud) : Hidden i w (w.moved j f n entries) :=
  ⟨⟨Store.only j f, Store.only_of_ne h, rfl⟩, rfl, rfl, rfl, rfl⟩

instance (i : Int) : IsPreorder (World Cloud) (Hidden i) where
  refl w := (Reordered.equivalence.refl w).hidden i
  trans u v w h k := by
    obtain ⟨edits, he, hstore⟩ := h.store
    obtain ⟨others, ho, hstore'⟩ := k.store
    refine ⟨⟨fun i m => others i (edits i m), ?_, ?_⟩, k.volumes.trans h.volumes,
      k.failures.trans h.failures, k.services.trans h.services, k.obstacles.trans h.obstacles⟩
    · simp only [he, ho, id]
      rfl
    · rw [hstore', hstore, Store.retouch_retouch]

theorem moved_entries (i : Int) (entries : List JournalEntry) (w : World Cloud) :
    w.moved i id 0 entries = { w with journal := w.journal ++ entries } := by
  rw [moved, Store.only_id, Store.retouch_id, Cloud.asked_zero]

/-- Checks of different resources may be moved past each other. -/
theorem moved_comm {i j : Int} (h : i ≠ j) (f g : KeyMap String → KeyMap String) (m n : Nat)
    (entries others : List JournalEntry) (w : World Cloud) :
    ((w.moved j g n others).moved i f m entries).Reordered
      ((w.moved i f m entries).moved j g n others) where
  rest := by
    unfold moved
    simp only [Store.retouch_only_comm (Store.only_of_ne h), Cloud.asked_asked, Nat.add_comm]
  journal := by
    show (w.journal ++ others ++ entries).Perm (w.journal ++ entries ++ others)
    rw [List.append_assoc, List.append_assoc]
    exact List.perm_append_comm.append_left _

/-- The checks of resources with different ids keep apart while no failure is pending. -/
def apart {ι : Type} (key : ι → Int) (hkey : Function.Injective key) :
    Separation ι (World Cloud) where
  Sound w := w.remote.failures = []
  Same := Reordered
  Own k change := ∃ f n entries, change = moved (key k) f n entries
  equivalence := Reordered.equivalence
  sound := by
    rintro k _ w ⟨f, n, entries, rfl⟩ hw
    exact hw
  same := by
    rintro k _ w v ⟨f, n, entries, rfl⟩ h
    exact h.moved (key k) f n entries
  commute := by
    rintro k l _ _ w hne ⟨f, m, entries, rfl⟩ ⟨g, n, others, rfl⟩
    exact moved_comm (hkey.ne hne) f g m n entries others w

section

variable {ι ε α : Type} {key : ι → Int} {hkey : Function.Injective key} {k : ι}

theorem hidden_of_unseen {w v : World Cloud} (h : (apart key hkey).Unseen k w v) :
    Hidden (key k) w v := by
  obtain h | ⟨l, _, hne, ⟨f, n, entries, rfl⟩, rfl⟩ := h
  · exact h.hidden (key k)
  · exact hidden_moved (hkey.ne hne.symm) f n entries w

theorem local_of {a : Action (World Cloud) ε α} (h : ∀ w, w.remote.failures = [] →
    ∃ outcome f n entries, ∀ v, Hidden (key k) w v →
      a.run v = (outcome, v.moved (key k) f n entries)) : (apart key hkey).Local k a := by
  intro w hw
  obtain ⟨outcome, f, n, entries, hrun⟩ := h w hw
  refine ⟨_, ⟨f, n, entries, rfl⟩, fun v hv => ?_⟩
  have hsee := hrun w ((Reordered.equivalence.refl w).hidden (key k))
  have hother := hrun v (hidden_of_unseen hv)
  exact ⟨(congrArg Prod.fst hother).trans (congrArg Prod.fst hsee).symm, congrArg Prod.snd hother⟩

/-- What is done to the attributes of the resource is the same in all those worlds. -/
theorem run_onStore_hidden [StoreFailure ε] {i : Int} {a : Action Store ε α}
    (h : Store.KeepsTo i a) (w : World Cloud) : ∃ outcome f, ∀ v, Hidden i w v →
      (onStore a : Action (World Cloud) ε α).run v = (outcome, v.moved i f 0 []) := by
  obtain ⟨outcome, f, hf⟩ := h.guard w.obstacles w.store
  refine ⟨outcome, f, fun v hv => ?_⟩
  obtain ⟨edits, he, hstore⟩ := hv.store
  have hrun := hf edits he
  rw [← hstore, ← hv.obstacles] at hrun
  unfold run at hrun
  simp [run, onStore, zoom, hrun, moved, Cloud.asked_zero]

theorem local_onStore [StoreFailure ε] {i : Int} (hi : key k = i) {a : Action Store ε α}
    (h : Store.KeepsTo i a) : (apart key hkey).Local k (onStore a) := by
  subst hi
  refine local_of fun w _ => ?_
  obtain ⟨outcome, f, hrun⟩ := run_onStore_hidden h w
  exact ⟨outcome, f, 0, [], hrun⟩

/-- What is only written to the journal. -/
theorem local_update (entries : List JournalEntry) {f : World Cloud → World Cloud}
    (hf : ∀ w, f w = { w with journal := w.journal ++ entries }) :
    (apart key hkey).Local k (update f : Action (World Cloud) ε Unit) :=
  local_of fun w _ => ⟨.ok (), id, 0, entries, fun v _ => by
    rw [run_update, hf, moved_entries]⟩

theorem local_log (level : LogLevel) (source : LogSource) (text : String) :
    (apart key hkey).Local k (log level source text : Action (World Cloud) ε Unit) :=
  local_update [.logged ⟨level, source, text⟩] fun _ => rfl

theorem local_services : (apart key hkey).Local k (view services : Action (World Cloud) ε _) :=
  local_of fun w _ => ⟨.ok w.services, id, 0, [], fun v hv => by
    rw [run_view, hv.services, moved_entries, List.append_nil]⟩

/-- Looking for a volume. -/
theorem local_describe (volume : String) :
    (apart key hkey).Local k (onRemote (Cloud.describe volume) : Task Cloud _) :=
  local_of fun w hw => ⟨.ok (w.remote.volume? volume), id, 1, [], fun v hv => by
    have hcalm : v.remote.failures = [] := hv.failures.trans hw
    have hcall := Cloud.run_describe_calm hcalm volume
    unfold run at hcall
    simp [run, onRemote, zoom, hcall, moved, Store.only_id, Store.retouch_id, Cloud.volume?,
      hv.volumes]⟩

/-- A remote call in turns, with the pauses between its attempts. -/
def retryingTurns {ρ : Type} (label : String) (operation : Thread (World ρ) Failure α) :
    Thread (World ρ) Failure α := do
  let shared ← Thread.once (view services)
  Thread.attempts shared.retry Failure.decision shared.sample (pauseAttempt label)
    (fun _ => .overflow) operation (Word.size 32) shared.retry.start

theorem alone_retryingTurns {ρ : Type} (label : String)
    (operation : Thread (World ρ) Failure α) :
    (retryingTurns label operation).alone = retrying label operation.alone := by
  funext w
  rw [retryingTurns, Thread.alone_bind]
  refine (run_bind_ok (run_view services w)).trans ?_
  rw [Thread.alone_attempts]
  exact (run_retrying label operation.alone w).symm

theorem within_retryingTurns {label : String} {operation : Thread (World Cloud) Failure α}
    (h : (apart key hkey).Within k operation) :
    (apart key hkey).Within k (retryingTurns label operation) :=
  (Separation.within_once local_services).bind fun _ =>
    Separation.within_attempts (fun notice => local_update
      [.logged ⟨.warn, .engine, notice.text label Failure.message⟩, .slept notice.delay]
      fun w => by simp [pauseAttempt, record]) h _ _

end

end World

namespace Volume

/-- The turns of comparing the records with a volume that exists: one for each call. -/
def compareTurns (r : ResourceRecord) (observed : CloudVolume) :
    Thread (World Cloud) Failure CheckReport := do
  let size ← Thread.once (recorded r "size" Json.expectInt64)
  let target ← Thread.once (recorded r "attachedTo" Json.expectString)
  let drift := sizeDrift size observed.size ++ attachmentDrift target observed.attachedTo
  Thread.once (absorb r drift)
  return ⟨← Thread.once (World.onStore (State.status r)), drift⟩

/-- The turns of checking a volume: one for each call to the store and to the provider, and one
for each line of the log. -/
def checkTurns (r : ResourceRecord) : Thread (World Cloud) Failure CheckReport := do
  match ← Thread.once (World.onStore (State.resourceId r)) with
  | none => return .inSync (← Thread.once (World.onStore (State.status r)))
  | some id =>
    match ← World.retryingTurns "describe volume"
        (Thread.once (World.onRemote (Cloud.describe id))) with
    | some observed => compareTurns r observed
    | none =>
      Thread.once (World.log .warn .engine (r.name ++ ": volume " ++ id ++ " no longer exists"))
      Thread.once (World.onStore (State.markDestroyed r ownedKeys))
      return .inSync .missing

def warnTurns (r : ResourceRecord) (outcome : Except Failure CheckReport) :
    Thread (World Cloud) Failure Unit :=
  match outcome with
  | .ok report =>
    Thread.forEach (fun d => Thread.once (World.log .warn .engine (Resource.driftText r.name d)))
      report.drift
  | .error .overflow => pure ()
  | .error cause =>
    Thread.once (World.log .warn .engine (r.name ++ ": check failed: " ++ cause.message))

/-- The turns of checking a volume and warning of drift or of the failure. -/
def reportTurns (r : ResourceRecord) :
    Thread (World Cloud) Failure (String × Except Failure CheckReport) := do
  let outcome ← (checkTurns r).attempt
  warnTurns r outcome
  return (r.name, outcome)

theorem alone_compareTurns (r : ResourceRecord) (observed : CloudVolume) :
    (compareTurns r observed).alone = compare r observed := by
  simp only [compareTurns, Thread.alone_bind, Thread.alone_once, Thread.alone_pure]
  rfl

theorem alone_checkTurns (r : ResourceRecord) : (checkTurns r).alone = check r := by
  unfold checkTurns check
  rw [Thread.alone_bind, Thread.alone_once]
  congr 1
  funext found
  cases found with
  | none => simp only [Thread.alone_bind, Thread.alone_once, Thread.alone_pure]
  | some id =>
    simp only [Thread.alone_bind, World.alone_retryingTurns, Thread.alone_once]
    unfold remotely
    congr 1
    funext observed
    cases observed with
    | some observed => exact alone_compareTurns r observed
    | none => simp only [Thread.alone_bind, Thread.alone_once, Thread.alone_pure]

theorem alone_warnTurns (r : ResourceRecord) (outcome : Except Failure CheckReport) :
    (warnTurns r outcome).alone = (resource r).warnOutcome outcome := by
  cases outcome with
  | ok report => exact Thread.alone_forEach _ report.drift
  | error cause => cases cause <;> rfl

theorem alone_reportTurns (r : ResourceRecord) :
    (reportTurns r).alone = (resource r).checkReporting := by
  unfold reportTurns Resource.checkReporting
  rw [Thread.alone_bind, Thread.alone_attempt, alone_checkTurns]
  congr 1
  funext outcome
  rw [Thread.alone_bind, alone_warnTurns, Thread.alone_pure]
  rfl

section

variable {ι : Type} {key : ι → Int} {hkey : Function.Injective key} {k : ι} {r : ResourceRecord}

theorem local_recorded (hr : key k = r.id) {α : Type} (name : String)
    (expect : Json → Except Json.DecodeError α) :
    (World.apart key hkey).Local k (recorded r name expect) :=
  World.local_onStore hr ((Store.keepsTo_getAs r.id name expect).mapError Failure.store)

theorem keepsTo_resourceId (r : ResourceRecord) : Store.KeepsTo r.id (State.resourceId r) :=
  (Store.keepsTo_getAs r.id _ _).mapError Failure.store

theorem keepsTo_status (r : ResourceRecord) : Store.KeepsTo r.id (State.status r) :=
  ((Store.keepsTo_get r.id _).mapError Failure.store).bind fun _ => Store.keepsTo_ofExcept _

theorem keepsTo_markDestroyed (r : ResourceRecord) (keys : List String) :
    Store.KeepsTo r.id (State.markDestroyed r keys) := by
  refine Store.KeepsTo.transaction ((Store.keepsTo_forEach fun key _ => ?_).bind fun _ => ?_)
  · exact (Store.keepsTo_delete r.id key).mapError Failure.store
  · exact (Store.keepsTo_set r.id _ _).mapError Failure.store

theorem local_absorb (hr : key k = r.id) (drift : List Drift) :
    (World.apart key hkey).Local k (absorb r drift) :=
  World.local_onStore hr ((Store.keepsTo_forEach fun _ _ =>
    Store.keepsTo_set r.id _ _).transaction.mapError Failure.store)

/-- A check keeps to its resource. -/
theorem within_checkTurns (hr : key k = r.id) : (World.apart key hkey).Within k (checkTurns r) := by
  have hstatus : (World.apart key hkey).Within k
      (Thread.once (World.onStore (State.status r)) : Thread (World Cloud) Failure _) :=
    Separation.within_once (World.local_onStore hr (keepsTo_status r))
  refine (Separation.within_once (World.local_onStore hr (keepsTo_resourceId r))).bind
    fun found => ?_
  cases found with
  | none => exact hstatus.bind fun _ => Separation.within_pure _
  | some id =>
    refine (World.within_retryingTurns
      (Separation.within_once (World.local_describe id))).bind fun observed => ?_
    cases observed with
    | none =>
      refine (Separation.within_once (World.local_log _ _ _)).bind fun _ => ?_
      have hdestroyed := keepsTo_markDestroyed r ownedKeys
      exact (Separation.within_once (World.local_onStore hr hdestroyed)).bind
        fun _ => Separation.within_pure _
    | some observed =>
      refine (Separation.within_once (local_recorded hr _ _)).bind fun size => ?_
      refine (Separation.within_once (local_recorded hr _ _)).bind fun target => ?_
      refine (Separation.within_once (local_absorb hr _)).bind fun _ => ?_
      exact hstatus.bind fun _ => Separation.within_pure _

theorem within_warnTurns (outcome : Except Failure CheckReport) :
    (World.apart key hkey).Within k (warnTurns r outcome) := by
  have hlog : ∀ text, (World.apart key hkey).Within k
      (Thread.once (World.log .warn .engine text) : Thread (World Cloud) Failure Unit) :=
    fun text => Separation.within_once (World.local_log _ _ text)
  unfold warnTurns
  split
  · exact Separation.within_forEach fun d _ => hlog _
  · exact Separation.within_pure ()
  · exact hlog _

theorem within_reportTurns (hr : key k = r.id) :
    (World.apart key hkey).Within k (reportTurns r) :=
  (within_checkTurns hr).attempt.bind fun outcome =>
    (within_warnTurns outcome).bind fun _ => Separation.within_pure _

end

end Volume

end DesiredState
