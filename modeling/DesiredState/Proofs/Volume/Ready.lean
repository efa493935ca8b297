import DesiredState.Proofs.Volume.Parallel
import DesiredState.Proofs.Volume.Run

/-!
# Whether a volume that is up is ready

A volume is waited for when it is created, as often as the policy allows, and never again. So how
often it would still say that it is not ready depends only on how long new volumes take and on the
policy, whatever happened since. A pass that gave up waiting leaves the volume recorded, and the
next one finds nothing to do and marks it up.
-/

namespace DesiredState.Volume

open DesiredState.Action

/-- All volumes were waited for. -/
structure Waited (n tries : Nat) (c : Cloud) : Prop where
  settle : c.settlePolls = n
  pending : ∀ {id v}, c.volume? id = some v → v.pendingPolls = n - tries

/-- One volume would still say `k` times that it is not ready, all others were waited for. No call
fails. -/
structure Waiting (n tries : Nat) (id : String) (k : Nat) (c : Cloud) : Prop where
  settle : c.settlePolls = n
  calm : c.failures = []
  asked : ∃ v, c.volume? id = some v ∧ v.pendingPolls = k
  others : ∀ {other v}, other ≠ id → c.volume? other = some v → v.pendingPolls = n - tries

variable {n tries k : Nat} {c : Cloud} {id : String}

theorem Waiting.waited (h : Waiting n tries id (n - tries) c) : Waited n tries c where
  settle := h.settle
  pending := by
    intro other v hv
    by_cases ho : other = id
    · subst ho
      obtain ⟨asked, hasked, hpending⟩ := h.asked
      obtain rfl := Option.some.inj (hasked.symm.trans hv)
      exact hpending
    · exact h.others ho hv

theorem waited_call (name : String) :
    Parallel (Alone (Waited n tries)) (Alone (Waited n tries)) (Cloud.call name)
      (Cloud.call name) := by
  refine parallel_alone fun c h => Ends.state ((call_ends name c).mono ?_ ?_)
  · rintro _ d ⟨-, rfl⟩
    exact ⟨h.settle, h.pending⟩
  · rintro cause d ⟨rest, -, rfl⟩
    exact ⟨h.settle, h.pending⟩

theorem Waited.insert (h : Waited n tries c) {v : CloudVolume} (hv : v.pendingPolls = n - tries) :
    Waited n tries { c with volumes := c.volumes.insert id v } where
  settle := h.settle
  pending := by
    intro other v' hv'
    simp only [Cloud.volume?, KeyMap.find?_insert] at hv'
    split at hv'
    · obtain rfl := Option.some.inj hv'
      exact hv
    · exact h.pending hv'

theorem Waited.forget (h : Waited n tries c) (id : String) : Waited n tries (c.forget id) where
  settle := h.settle
  pending := by
    intro other v hv
    simp only [Cloud.volume?, Cloud.forget, KeyMap.find?_erase] at hv
    split at hv
    · cases hv
    · exact h.pending hv

theorem waited_withVolume {α : Type} {f : CloudVolume → α × CloudVolume}
    (hf : ∀ v, (f v).2.pendingPolls = v.pendingPolls) (id : String) :
    Parallel (Alone (Waited n tries)) (Alone (Waited n tries)) (Cloud.withVolume id f)
      (Cloud.withVolume id f) := by
  refine parallel_alone fun c h => ?_
  cases hv : c.volume? id with
  | none =>
    rw [withVolume_none hv]
    exact h
  | some v =>
    rw [withVolume_some hv]
    exact h.insert ((hf v).trans (h.pending hv))

/-- Where a volume can be created no call fails, so that waiting for it can begin. -/
theorem Waited.createVolume (h : Waited n tries c) (region : String) (size : Int)
    (tags : KeyMap String) :
    (Cloud.createVolume region size tags).Ends c (fun id d => Waiting n tries id n d)
      fun _ d => Waited n tries d := by
  unfold Cloud.createVolume
  refine Ends.bind ((call_ends "create" c).mono ?_ ?_)
  · rintro _ d ⟨hcalm, rfl⟩
    refine Ends.of_ok rfl ⟨h.settle, hcalm, ⟨⟨region, size, tags, none, c.settlePolls⟩, ?_,
      h.settle⟩, fun {other v} ho hv => ?_⟩
    · simp [Cloud.volume?]
    · simp only [Cloud.volume?, KeyMap.find?_insert, if_neg ho] at hv
      exact h.pending hv
  · rintro cause d ⟨rest, -, rfl⟩
    exact ⟨h.settle, h.pending⟩

/-- The volume is asked, and says so only if it is ready. -/
theorem Waiting.isReady (h : Waiting n tries id k c) {E : Failure → Cloud → Prop} :
    (Cloud.isReady id).Ends c
      (fun held d => Waiting n tries id (k - 1) d ∧ (held = true → k = 0)) E := by
  obtain ⟨v, hv, rfl⟩ := h.asked
  unfold Cloud.isReady
  refine Ends.bind ((call_ends "describe" c).mono ?_ ?_)
  · rintro _ d ⟨-, rfl⟩
    have hothers : ∀ v' {other v''}, other ≠ id →
        (c.volumes.insert id v').find? other = some v'' → v''.pendingPolls = n - tries := by
      intro v' other v'' ho hv''
      rw [KeyMap.find?_insert, if_neg ho] at hv''
      exact h.others ho hv''
    have hfound : { c with calls := c.calls ++ ["describe"] }.volume? id = some v := hv
    refine Ends.of_ok (withVolume_some hfound _) ?_
    by_cases hready : v.pendingPolls = 0
    · simp only [if_pos hready]
      refine ⟨⟨h.settle, h.calm, ⟨v, ?_, by omega⟩, hothers v⟩, fun _ => hready⟩
      simp [Cloud.volume?]
    · simp only [if_neg hready]
      refine ⟨⟨h.settle, h.calm, ⟨{ v with pendingPolls := v.pendingPolls - 1 }, ?_, rfl⟩,
        hothers _⟩, fun hheld => by cases hheld⟩
      simp [Cloud.volume?]
  · rintro cause d ⟨rest, hfail, -⟩
    rw [h.calm] at hfail
    cases hfail

/-- A world in which a resource is there, nothing is in the way of the store, and the provider is
as `C` says. -/
structure Staged (i : Int) (services : Services) (C : Cloud → Prop) (w : World Cloud) :
    Prop where
  known : Store.Knows i w.store
  clear : w.obstacles = {}
  shared : w.services = services
  remote : C w.remote

section

variable {i : Int} {services : Services} {C D : Cloud → Prop} {w : World Cloud}

theorem Staged.record (h : Staged i services C w) (entry : JournalEntry) :
    Staged i services C (w.record entry) := ⟨h.known, h.clear, h.shared, h.remote⟩

theorem Staged.imp (h : Staged i services C w) (hCD : ∀ c, C c → D c) : Staged i services D w :=
  ⟨h.known, h.clear, h.shared, hCD _ h.remote⟩

theorem staged_onStore {α : Type} {a b : Action Store Failure α}
    (h : Parallel (Alone (Store.Knows i)) (Alone (Store.Knows i)) a b) :
    Parallel (Alone (Staged i services C)) (Alone (Staged i services C)) (World.onStore a)
      (World.onStore b) where
  outcome := by
    rintro w _ ⟨rfl, hw⟩
    rw [World.run_onStore hw.clear, World.run_onStore hw.clear]
    exact h.outcome ⟨rfl, hw.known⟩
  states := by
    rintro w _ ⟨rfl, hw⟩
    rw [World.run_onStore hw.clear, World.run_onStore hw.clear]
    obtain ⟨hsame, hknown⟩ := h.states ⟨rfl, hw.known⟩
    exact ⟨by rw [hsame], hknown, hw.clear, hw.shared, hw.remote⟩

theorem staged_exclusive {α : Type} {key : LockKey} {a : Task Cloud α}
    (h : Parallel (Alone (Staged i services C)) (Alone (Staged i services C)) a a) :
    Parallel (Alone (Staged i services C)) (Alone (Staged i services C)) (World.exclusive key a)
      (World.exclusive key a) := by
  refine parallel_alone fun w hw => Ends.state (World.exclusive_ends ?_)
  have hmutexes : ∀ {t : World Cloud} mutexes, Staged i services C t →
      Staged i services C { t with mutexes := mutexes } :=
    fun _ ht => ⟨ht.known, ht.clear, ht.shared, ht.remote⟩
  exact (ends_of_state (h.alone (hmutexes _ hw))).mono (fun _ _ ht => hmutexes _ ht)
    fun _ _ ht => hmutexes _ ht

theorem staged_remotely {α : Type} {call : Cloud.Call α}
    (h : Parallel (Alone C) (Alone C) call call) (label : String) :
    Parallel (Alone (Staged i services C)) (Alone (Staged i services C)) (remotely label call)
      (remotely label call) := by
  refine parallel_alone fun w hw => Ends.state (World.retrying_ends
    (I := Staged i services C) (fun entry _ ht => ht.record entry) (fun t ht => ?_) hw)
  have hcall : call.Ends t.remote (fun _ c => C c) fun _ c => C c :=
    ends_of_state (h.alone ht.remote)
  exact World.onRemote_ends (hcall.mono
    (fun _ _ hc => ⟨ht.known, ht.clear, ht.shared, hc⟩)
    fun _ _ hc => ⟨ht.known, ht.clear, ht.shared, hc⟩)

/-- Each time a volume is asked there is one answer less to wait for. -/
theorem evaluations_waiting (factor : Float) (left : Nat) (delay : Duration)
    (h : Staged i services (Waiting n tries id k) w) {E : Failure → World Cloud → Prop} :
    (Poll.evaluations factor (fun delay w => w.record (.slept delay))
        (World.onRemote (Cloud.isReady id)) left delay).Ends w
      (fun _ t => Staged i services (Waiting n tries id (k - left)) t) E := by
  have hask : ∀ {k w}, Staged i services (Waiting n tries id k) w →
      (World.onRemote (Cloud.isReady id)).Ends w (fun held t =>
        Staged i services (Waiting n tries id (k - 1)) t ∧ (held = true → k = 0)) E :=
    fun hw => World.onRemote_ends (hw.remote.isReady.imp fun _ _ hd =>
      ⟨⟨hw.known, hw.clear, hw.shared, hd.1⟩, hd.2⟩)
  induction left using Nat.strongRecOn generalizing delay k w with
  | ind left ih =>
    rcases left with _ | _ | left
    · exact ends_pure h
    · exact (hask h).imp fun _ _ ht => ht.1
    · rw [Poll.evaluations]
      refine Ends.bind ((hask h).imp ?_)
      rintro held t ⟨ht, hheld⟩
      cases held with
      | true =>
        have hzero : k - (left + 2) = k - 1 := by
          have := hheld rfl
          omega
        rw [hzero]
        exact ends_pure ht
      | false =>
        have hrest : k - (left + 2) = k - 1 - (left + 1) := by omega
        rw [hrest]
        exact Ends.bind (ends_update (ih (left + 1) (by omega) _ (ht.record _)))

end

section

variable {r : ResourceRecord} {services : Services} {w : World Cloud} {d : Definition}

/-- The volumes of a provider were waited for under the policy that a process shares. -/
abbrev WaitedBy (n : Nat) (services : Services) : Cloud → Prop :=
  Waited n services.poll.tries.toNat

/-- However waiting ends, the volume was asked as often as the policy allows. -/
theorem polling_waited {what : String} (h : Staged r.id services
      (Waiting n services.poll.tries.toNat id n) w) :
    (World.polling what (World.onRemote (Cloud.isReady id))).Ends w
      (fun _ t => Staged r.id services (WaitedBy n services) t)
      fun _ t => Staged r.id services (WaitedBy n services) t := by
  have hawait : (services.poll.await what Failure.lock (fun delay w => w.record (.slept delay))
      (World.onRemote (Cloud.isReady id))).Ends w
        (fun _ t => Staged r.id services (WaitedBy n services) t)
        fun _ t => Staged r.id services (WaitedBy n services) t := by
    unfold Poll.Policy.await
    refine Ends.bind ((evaluations_waiting _ _ _ h).imp fun held t ht => ?_)
    have hwaited := ht.imp fun _ hc => hc.waited
    cases held with
    | true => exact ends_pure hwaited
    | false =>
      cases services.poll.onTimeout with
      | returnFalse => exact ends_pure hwaited
      | fail => exact ends_fail hwaited
  refine hawait.of_run ?_
  rw [← h.shared]
  unfold run World.polling
  rfl

theorem createNew_waited (region : String) :
    Parallel (Alone (Staged r.id services (WaitedBy n services)))
      (Alone (Staged r.id services (WaitedBy n services))) (createNew r d region)
      (createNew r d region) := by
  refine parallel_alone fun w hw => Ends.state ?_
  unfold createNew
  refine Ends.bind ((World.retrying_ends (I := Staged r.id services (WaitedBy n services))
    (Q := fun id t => Staged r.id services (Waiting n services.poll.tries.toNat id n) t)
    (fun entry _ ht => ht.record entry) (fun t ht => ?_) hw).imp fun id t ht => ?_)
  · exact World.onRemote_ends ((ht.remote.createVolume _ _ _).mono
      (fun _ _ hc => ⟨ht.known, ht.clear, ht.shared, hc⟩)
      fun _ _ hc => ⟨ht.known, ht.clear, ht.shared, hc⟩)
  · refine Ends.bind (ends_view (Ends.bind ?_))
    obtain ⟨look, hlook⟩ := ht.known
    refine World.onStore_ends ht.clear ((recordCreated_becomes hlook _ id _).imp fun _ s hs => ?_)
    have hrecorded : Staged r.id services (Waiting n services.poll.tries.toNat id n)
        { t with store := s } := ⟨⟨_, hs.records⟩, ht.clear, ht.shared, ht.remote⟩
    exact Ends.bind ((polling_waited hrecorded).imp fun _ _ hu => ends_pure hu)

theorem waited_conduct (r : ResourceRecord) (n : Nat) (services : Services) :
    Conduct r (Alone (Store.Knows r.id)) (Alone (Staged r.id services (WaitedBy n services))) where
  store := local_alone r.id
  record entry _ _ h := ⟨by rw [h.1], h.2.record entry⟩
  onStore h := staged_onStore h
  exclusive h := staged_exclusive h
  describe label id := staged_remotely
    ((waited_call _).bind fun _ => (reads_reading _).parallel_alone) label
  resize label id size := staged_remotely
    ((waited_call _).bind fun _ => waited_withVolume (fun _ => rfl) id) label
  setTags label id tags := staged_remotely
    ((waited_call _).bind fun _ => waited_withVolume (fun _ => rfl) id) label
  attach label id target := staged_remotely
    ((waited_call _).bind fun _ => waited_withVolume (fun _ => rfl) id) label
  deleteVolume label id := staged_remotely
    ((waited_call _).bind fun _ => parallel_update fun h => ⟨by rw [h.1], h.2.forget id⟩) label

/-- Nothing that is done with a volume changes how much waiting is left. -/
theorem Pass.waited (h : Staged r.id services (WaitedBy n services) w) (p : Pass) :
    Staged r.id services (WaitedBy n services) (p.run (resource r) w) := by
  have hconduct := waited_conduct r n services
  cases p with
  | create d options =>
    exact (hconduct.create hconduct id ((resource r).difference_reads d _).parallel_alone
      createNew_waited attachmentTarget_reads.parallel_alone).alone h
  | check => exact hconduct.check.alone h
  | destroy wipe confirm => exact (hconduct.destroy wipe confirm).alone h

end

/-- A volume that is up has an identity. -/
def Entry.Placed (e : Entry) : Prop := e.state = .up → e.placement.isSome

section

variable {intact : Prop} {others : String → Prop} {background : String → Option Live}
  {p q : Site} {d : Definition} {consent : Consent} {now : Nat} {r : ResourceRecord}
  {w₀ : World Cloud}

theorem placed_remove (p : Site) (id : String) : (p.remove id).entry.Placed :=
  fun hup => by cases hup

theorem Site.settled_placed (h : p.entry.Placed) : p.settled.entry.Placed := by
  unfold Site.settled
  split
  · rename_i hs
    exact fun _ => hs.1
  · exact h

theorem Site.begun_placed (h : p.entry.Placed) : p.begun.entry.Placed := by
  unfold Site.begun
  split
  · exact h
  · exact fun hup => by cases hup

/-- Every handler that ends well leaves a volume. -/
theorem Handled.isSome (h : Handled d consent now p q) : q.entry.placement.isSome := by
  cases h with
  | provisioned h =>
    cases h with
    | kept hp => exact Option.isSome_of_eq_some hp
    | created => rfl
    | moved => rfl
  | resized h =>
    cases h with
    | dropped => rfl
    | kept hp => exact Option.isSome_of_eq_some hp
    | grown => rfl
  | tagged h => cases h with | tagged => rfl
  | attached h => cases h with | attached => rfl

theorem Stopped.placed (h : Stopped d consent now p q) (hp : p.entry.Placed) :
    q.entry.Placed := by
  cases h with
  | untouched => exact hp
  | created => exact fun _ => rfl
  | removed => exact placed_remove p _
  | moved => exact fun _ => rfl

/-- Handlers, at least one, leave a volume. -/
theorem handlers_placed {handlers : List (Handler (Handling Cloud))}
    (hm : ∀ handler ∈ handlers, handler ∈ (registry r).handlers) (hne : handlers ≠ [])
    (h : Sound intact others background p) (hp : p.entry.Placed) :
    Leads r w₀ (Action.forEach ((resource r).runHandler d consent) handlers) p
      (fun _ q => Sound intact others background q ∧ q.entry.placement.isSome)
      fun q => Sound intact others background q ∧ q.entry.Placed := by
  have hstep : ∀ handler ∈ handlers, ∀ q, Sound intact others background q → q.entry.Placed →
      Leads r w₀ ((resource r).runHandler d consent handler) q
        (fun _ q => Sound intact others background q ∧ q.entry.placement.isSome)
        fun q => Sound intact others background q ∧ q.entry.Placed :=
    fun handler hmem q hq hplaced => runHandler_leads ((operation_leads (hm handler hmem)).mono
      (fun _ _ hk => ⟨hq.handled hk, hk.isSome⟩) fun _ hk => ⟨hq.stopped hk, hk.placed hplaced⟩)
  cases handlers with
  | nil => exact absurd rfl hne
  | cons handler rest =>
    refine Leads.bind ((hstep handler List.mem_cons_self p h hp).imp fun _ q hq => ?_)
    refine leads_forEach (I := fun q => Sound intact others background q ∧
      q.entry.placement.isSome) (fun next hnext q' hq' => ?_) hq
    exact hstep next (List.mem_cons_of_mem _ hnext) q' hq'.1 fun _ => hq'.2

theorem create_placed (d : Definition) (options : PassOptions)
    (h : Sound intact others background p) (hp : p.entry.Placed) :
    Leads r w₀ ((resource r).create d options) p
      (fun _ q => Sound intact others background q ∧ q.entry.Placed)
      fun q => Sound intact others background q ∧ q.entry.Placed := by
  refine create_leads (fun _ => h.agrees) ⟨h, hp⟩ fun q hq _ => ?_
  have hsound := h.checked hq
  have hplaced : q.entry.Placed := by
    cases hq with
    | kept => exact hp
    | gone => exact placed_remove p _
  refine pass_leads_of (J := fun _ q => Sound intact others background q ∧
      q.entry.placement.isSome) ⟨hsound, hplaced⟩
    (fun _ _ _ _ _ => ⟨hsound.settled, Site.settled_placed hplaced⟩)
    (fun diff plan _ hplan hne => ?_) fun _ _ q' _ hq' => ⟨hq'.1.withStatus _, fun _ => hq'.2⟩
  exact handlers_placed (fun handler hm => Plan.mem_registry_of_make hplan hm) hne hsound.begun
    (Site.begun_placed hplaced)

theorem check_placed (h : Sound intact others background p) (hp : p.entry.Placed) :
    Leads r w₀ (check r) p (fun _ q => Sound intact others background q ∧ q.entry.Placed)
      fun q => Sound intact others background q ∧ q.entry.Placed := by
  refine (check_leads h.agrees).mono (fun _ q hq => ⟨h.checked hq, ?_⟩) ?_
  · cases hq with
    | kept => exact hp
    | gone => exact placed_remove p _
  · rintro _ rfl
    exact ⟨h, hp⟩

theorem destroy_placed {wipe : Bool} {confirm : Confirmation}
    (h : Sound intact others background p) (hp : p.entry.Placed) :
    Leads r w₀ (destroy r wipe confirm) p
      (fun _ q => Sound intact others background q ∧ q.entry.Placed)
      fun q => Sound intact others background q ∧ q.entry.Placed := by
  refine destroy_leads.mono (fun _ q hq => ⟨h.destroyed hq, ?_⟩) ?_
  · cases hq with
    | refused => exact hp
    | blank => exact fun hup => by cases hup
    | removed => exact placed_remove p _
  · rintro _ (rfl | rfl)
    · exact ⟨h, hp⟩
    · exact ⟨h.withStatus _, fun hup => by cases hup⟩

end

/-- What every run keeps: volumes that are up have an identity, and all volumes were waited for
under the one policy of the process. -/
structure Kept (n : Nat) (services : Services) (ledger : Int → Option Entry) (w : World Cloud) :
    Prop where
  mirrored : Mirrored True ledger w
  placed : ∀ {i e}, ledger i = some e → e.Placed
  shared : w.services = services
  waited : WaitedBy n services w.remote

section

variable {n : Nat} {services : Services} {ledger : Int → Option Entry} {w : World Cloud}
  {r : ResourceRecord} {e : Entry}

theorem placed_enter {i j : Int} {e' : Entry} (h : ∀ {i e}, ledger i = some e → e.Placed)
    (he : e.Placed) (hj : enter ledger i e j = some e') : e'.Placed := by
  by_cases hji : j = i
  · subst hji
    rw [enter, Function.update_self] at hj
    cases hj
    exact he
  · rw [enter, Function.update_of_ne hji] at hj
    exact h hj

theorem Kept.pass (h : Kept n services ledger w) (he : ledger r.id = some e) (p : Pass) :
    ∃ e', Kept n services (enter ledger r.id e') (p.run (resource r) w) := by
  have hsound := h.mirrored.sound he
  have hplaced := h.placed he
  have hstaged : Staged r.id services (WaitedBy n services) w :=
    ⟨⟨_, h.mirrored.records he⟩, h.mirrored.clear, h.shared, h.waited⟩
  have hwaited := p.waited hstaged
  suffices hq : ∃ q, Shows r w q (p.run (resource r) w) ∧
      Sound True (Others ledger r.id) (provided w) q ∧ q.entry.Placed by
    obtain ⟨q, hshows, hsound', hplaced'⟩ := hq
    exact ⟨q.entry, h.mirrored.step he hshows hsound', placed_enter h.placed hplaced',
      hwaited.shared, hwaited.remote⟩
  cases p with
  | create d options => exact h.mirrored.lead he (create_placed d options hsound hplaced)
  | check => exact h.mirrored.lead he (check_placed hsound hplaced)
  | destroy wipe confirm => exact h.mirrored.lead he (destroy_placed hsound hplaced)

theorem Kept.declare (h : Kept n services ledger w) (deployment name : String) :
    (Volume.declare deployment name volumeType).Ends w
      (fun v t => ∃ r ledger' e, v = resource r ∧ ledger' r.id = some e ∧
        Kept n services ledger' t)
      fun _ t => t = w := by
  refine (h.mirrored.declares deployment name).imp ?_
  rintro v t ⟨r, ledger', e, rfl, he, h', hledger, ht⟩
  rw [ht] at h' ⊢
  refine ⟨r, ledger', e, rfl, he, h', ?_, h.shared, h.waited⟩
  rcases hledger with rfl | ⟨i, rfl⟩
  · exact h.placed
  · exact placed_enter h.placed fun hup => by cases hup

theorem Kept.event (h : Kept n services ledger w) (deployment : String) {event : Event}
    (hintact : event.tampers = false) :
    ∃ ledger', Kept n services ledger' (event.run deployment w) := by
  cases event with
  | declare name =>
    refine Ends.state (P := fun t => ∃ ledger', Kept n services ledger' t)
      ((h.declare deployment name).mono ?_ ?_)
    · rintro _ t ⟨_, ledger', _, _, _, h'⟩
      exact ⟨ledger', h'⟩
    · rintro _ t rfl
      exact ⟨ledger, h⟩
  | pass name p =>
    refine (h.declare deployment name).elim ?_ ?_
    · rintro _ t hrun ⟨r, ledger', e, rfl, he, h'⟩
      simp only [Event.run, hrun]
      obtain ⟨e', h''⟩ := h'.pass he p
      exact ⟨_, h''⟩
    · rintro _ t hrun rfl
      simp only [Event.run, hrun]
      exact ⟨ledger, h⟩
  | fail cause =>
    exact ⟨ledger, h.mirrored.failing cause, h.placed, h.shared, h.waited.settle,
      h.waited.pending⟩
  | forget id => cases hintact
  | clock now => exact ⟨ledger, h.mirrored.atTime now, h.placed, h.shared, h.waited⟩

theorem kept_fixture (deployment : String) (n : Nat) (services : Services) (now : UInt64) :
    Kept n services (fun _ => none) (fixture deployment n services now) where
  mirrored := mirrored_fixture deployment n services now
  placed he := by cases he
  shared := rfl
  waited := ⟨rfl, fun hv => by cases hv⟩

theorem kept_after (h : Kept n services ledger w) (deployment : String) {events : List Event}
    (hintact : ∀ event ∈ events, event.tampers = false) :
    ∃ ledger', Kept n services ledger' (after deployment events w) := by
  induction events generalizing ledger w with
  | nil => exact ⟨ledger, h⟩
  | cons event events ih =>
    obtain ⟨hfirst, hrest⟩ := List.forall_mem_cons.mp hintact
    obtain ⟨ledger', h'⟩ := h.event deployment hfirst
    exact ih h' hrest

/-- A volume that is up exists, and it would still say that it is not ready as often as it was not
asked when it was created. -/
theorem Kept.pending (h : Kept n services ledger w) (he : ledger r.id = some e)
    (hup : ((State.status r).run w.store).1 = .ok .up) :
    ∃ id v, ((State.resourceId r).run w.store).1 = .ok (some id) ∧
      w.remote.volume? id = some v ∧ v.pendingPolls = n - services.poll.tries.toNat := by
  have hstate : e.state = .up := Except.ok.inj ((h.mirrored.status he).symm.trans hup)
  obtain ⟨placement, hp⟩ := Option.isSome_iff_exists.mp (h.placed he hstate)
  have halive := h.mirrored.alive trivial ⟨e, placement, he, hp, rfl⟩
  obtain ⟨v, hv⟩ := Option.isSome_iff_exists.mp (Option.isSome_map.symm.trans halive)
  refine ⟨placement.id, v, ?_, hv, h.waited.pending hv⟩
  rw [h.mirrored.resourceId he, hp]
  rfl

end

/-- When a creating pass returns and leaves a volume up, the provider has the volume, and it is
ready just if a new volume is ready after as many questions as the policy allows. -/
theorem up_is_ready_iff {deployment : String} {settlePolls : Nat} {services : Services}
    {now : UInt64} {events : List Event} (hintact : ∀ event ∈ events, event.tampers = false)
    {r : ResourceRecord}
    (hr : Declared deployment
      (after deployment events (fixture deployment settlePolls services now)) r)
    {d : Definition} {options : PassOptions} {summary : Summary} {t : World Cloud}
    (hrun : ((resource r).create d options).run
      (after deployment events (fixture deployment settlePolls services now)) = (.ok summary, t))
    (hup : ((State.status r).run t.store).1 = .ok .up) :
    ∃ id v, ((State.resourceId r).run t.store).1 = .ok (some id) ∧
      t.remote.volume? id = some v ∧
      (v.pendingPolls = 0 ↔ settlePolls ≤ services.poll.tries.toNat) := by
  obtain ⟨ledger, h⟩ :=
    kept_after (kept_fixture deployment settlePolls services now) deployment hintact
  obtain ⟨e, he⟩ := h.mirrored.entry_of_declared hr
  obtain ⟨e', h'⟩ := h.pass he (.create d options)
  have ht : Pass.run (resource r) (after deployment events
      (fixture deployment settlePolls services now)) (.create d options) = t :=
    congrArg Prod.snd hrun
  rw [ht] at h'
  obtain ⟨id, v, hid, hv, hpending⟩ := h'.pending (Function.update_self ..) hup
  refine ⟨id, v, hid, hv, ?_⟩
  rw [hpending]
  exact Nat.sub_eq_zero_iff_le

/-- A new volume is not ready when it is asked first, nor the next two times. -/
def slow : World Cloud := fixture "dep" 3 { poll := { maxTries := 1 } } 0

/-- The volume is created, and nobody waits until it is ready. -/
def impatient : List Event := [.pass "data" (.create (placedIn "us-east-1") {})]

abbrev creatingAgain : Task Cloud Summary := (resource firstVolume).create (placedIn "us-east-1") {}

theorem creatingAgain_run : creatingAgain.run (after "dep" impatient slow) =
    (.ok .unchanged, (creatingAgain.run (after "dep" impatient slow)).2) :=
  run_of_toOption (by decide +kernel)

theorem creatingAgain_status : ((State.status firstVolume).run
    (creatingAgain.run (after "dep" impatient slow)).2.store).1 = .ok .up :=
  ok_of_toOption (by decide +kernel)

theorem up_is_ready_iff_impatient :
    let t := (creatingAgain.run (after "dep" impatient slow)).2
    (∀ event ∈ impatient, event.tampers = false) ∧
    Declared "dep" (after "dep" impatient slow) firstVolume ∧
    creatingAgain.run (after "dep" impatient slow) = (.ok .unchanged, t) ∧
    ((State.status firstVolume).run t.store).1 = .ok .up ∧
    ∃ id v, ((State.resourceId firstVolume).run t.store).1 = .ok (some id) ∧
      t.remote.volume? id = some v ∧ (v.pendingPolls = 0 ↔ 3 ≤ 1) := by
  have hintact : ∀ event ∈ impatient, event.tampers = false := by decide
  have hr : Declared "dep" (after "dep" impatient slow) firstVolume := by decide +kernel
  exact ⟨hintact, hr, creatingAgain_run, creatingAgain_status,
    up_is_ready_iff hintact hr creatingAgain_run creatingAgain_status⟩

/-- The next pass finds nothing to do, and the volume is up while it would say twice more that it is
not ready. -/
theorem not_up_is_ready_impatient :
    ¬ ∀ deployment settlePolls services now events, (∀ event ∈ events, event.tampers = false) →
      ∀ r, Declared deployment
        (after deployment events (fixture deployment settlePolls services now)) r →
      ∀ d options summary t, ((resource r).create d options).run
        (after deployment events (fixture deployment settlePolls services now)) =
          (.ok summary, t) → ((State.status r).run t.store).1 = .ok .up →
      ∃ id v, ((State.resourceId r).run t.store).1 = .ok (some id) ∧
        t.remote.volume? id = some v ∧ v.pendingPolls = 0 := by
  intro hready
  obtain ⟨id, v, hid, hv, hzero⟩ := hready "dep" 3 { poll := { maxTries := 1 } } 0 impatient
    (by decide) firstVolume (by decide +kernel) (placedIn "us-east-1") {} .unchanged _
    creatingAgain_run creatingAgain_status
  have hrecorded : ((State.resourceId firstVolume).run
      (creatingAgain.run (after "dep" impatient slow)).2.store).1 = .ok (some "vol-1") :=
    ok_of_toOption (by decide +kernel)
  have hpending : ((creatingAgain.run (after "dep" impatient slow)).2.remote.volume?
      "vol-1").map CloudVolume.pendingPolls = some 2 := by decide +kernel
  obtain rfl := Option.some.inj (Except.ok.inj (hrecorded.symm.trans hid))
  rw [hv, Option.map_some, hzero] at hpending
  cases hpending

end DesiredState.Volume
