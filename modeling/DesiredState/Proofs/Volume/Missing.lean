import DesiredState.Proofs.Volume.Run

/-!
# A volume that is missing

Where a volume is recorded as missing, nothing else should be recorded of it and the provider
should have nothing that was created for it. A pass that recreates a volume marks it as missing
in between. If it fails after the new volume was recorded, the volume stays marked as missing
although it exists, and this is the only way in which that can happen.
-/

namespace DesiredState.Volume

open DesiredState.Action

/-- Nothing but the status is recorded of a volume that is missing. -/
def Entry.MissingIsBare (e : Entry) : Prop := e.state = .missing → e.placement = none

/-- One volume was recorded before and another one is now. -/
def Replaced (before after : Entry) : Prop := ∃ old new,
  before.placement = some old ∧ after.placement = some new ∧ new.id ≠ old.id

/-- Where handlers can have taken a volume during a pass that started at `p`. -/
structure Underway (others : String → Prop) (background : String → Option Live) (d : Definition)
    (p q : Site) : Prop where
  sound : Sound True others background q
  grown : p.created ≤ q.created
  /-- Only a deletion marks a volume as missing. -/
  missing : q.entry.state = .missing → ∃ old, p.entry.placement = some old ∧
    ∀ new, q.entry.placement = some new → new.id ≠ old.id
  /-- A deletion is not followed by another status before the end of the pass. -/
  marked : ∀ {old}, p.entry.placement = some old →
    (∀ new, q.entry.placement = some new → new.id ≠ old.id) → q.entry.state = .missing
  /-- A volume created in this pass is where the definition wants it. -/
  placed : p.entry.placement = none → ∀ {new}, q.entry.placement = some new →
    d.string? "region" = some new.region

variable {others : String → Prop} {background : String → Option Live} {d : Definition}
  {consent : Consent} {now : Nat} {p q q' : Site}

/-- A handler that keeps the status, the identity and the region. -/
theorem Underway.reshape (h : Underway others background d p q)
    (hq : Sound True others background q') (hc : q'.created = q.created)
    (hstate : q'.entry.state = q.entry.state) {placement placement' : Placement}
    (hp : q.entry.placement = some placement) (hp' : q'.entry.placement = some placement')
    (hid : placement'.id = placement.id) (hr : placement'.region = placement.region) :
    Underway others background d p q' where
  sound := hq
  grown := by
    rw [hc]
    exact h.grown
  missing := by
    intro hm
    obtain ⟨old, hold, hne⟩ := h.missing (hstate ▸ hm)
    refine ⟨old, hold, fun new hnew => ?_⟩
    obtain rfl := Option.some.inj (hp'.symm.trans hnew)
    rw [hid]
    exact hne placement hp
  marked := by
    intro old hold hne
    rw [hstate]
    refine h.marked hold fun new hnew => ?_
    obtain rfl := Option.some.inj (hp.symm.trans hnew)
    rw [← hid]
    exact hne placement' hp'
  placed := by
    intro hnone new hnew
    obtain rfl := Option.some.inj (hp'.symm.trans hnew)
    rw [hr]
    exact h.placed hnone hp

theorem Underway.remove (h : Underway others background d p q) {placement : Placement}
    {region : String} (hp : q.entry.placement = some placement)
    (hr : d.string? "region" = some region) (hne : placement.region ≠ region) :
    Underway others background d p (q.remove placement.id) where
  sound := h.sound.remove hp
  grown := h.grown
  missing := by
    intro _
    cases hold : p.entry.placement with
    | some old => exact ⟨old, rfl, fun new hnew => by cases hnew⟩
    | none =>
      have hsame := (h.placed hold hp).symm.trans hr
      exact absurd (Option.some.inj hsame) hne
  marked _ _ := rfl
  placed := by
    intro _ new hnew
    cases hnew

theorem Underway.create (h : Underway others background d p q)
    (hsound : Sound True others background p) (hp : q.entry.placement = none) {region : String}
    (hr : d.string? "region" = some region) (now : Nat) :
    Underway others background d p (q.create d region now) where
  sound := h.sound.create hp d region now
  grown := Nat.le_succ_of_le h.grown
  missing := by
    intro hm
    obtain ⟨old, hold, -⟩ := h.missing hm
    refine ⟨old, hold, fun new hnew => ?_⟩
    obtain rfl := Option.some.inj hnew
    exact ((hsound.numbered hold).ne_volumeId (Nat.lt_succ_of_le h.grown)).symm
  marked := by
    intro old hold _
    exact h.marked hold fun new hnew => by rw [hp] at hnew; cases hnew
  placed := by
    intro _ new hnew
    obtain rfl := Option.some.inj hnew
    exact hr

theorem Underway.handled (h : Underway others background d p q)
    (hsound : Sound True others background p) (hq : Handled d consent now q q') :
    Underway others background d p q' := by
  have hsound' := h.sound.handled hq
  cases hq with
  | provisioned hq =>
    cases hq with
    | kept => exact h
    | created hp hr => exact h.create hsound hp hr now
    | moved hp hr hne => exact (h.remove hp hr hne).create hsound rfl hr now
  | resized hq =>
    cases hq with
    | dropped hp => exact h.reshape hsound' rfl rfl hp rfl rfl rfl
    | kept => exact h
    | grown hp => exact h.reshape hsound' rfl rfl hp rfl rfl rfl
  | tagged hq =>
    obtain ⟨hp, -⟩ := hq
    exact h.reshape hsound' rfl rfl hp rfl rfl rfl
  | attached hq =>
    obtain ⟨hp, -, -⟩ := hq
    exact h.reshape hsound' rfl rfl hp rfl rfl rfl

theorem Underway.stopped (h : Underway others background d p q)
    (hsound : Sound True others background p) (hq : Stopped d consent now q q') :
    Underway others background d p q' := by
  cases hq with
  | untouched => exact h
  | created hp hr => exact h.create hsound hp hr now
  | removed hp hr hne => exact h.remove hp hr hne
  | moved hp hr hne => exact (h.remove hp hr hne).create hsound rfl hr now

theorem underway_begun (h : Sound True others background p) :
    Underway others background d p p.begun := by
  have hstate : p.begun.entry.state ≠ .missing := by
    unfold Site.begun
    split
    · rename_i hup
      simp [hup]
    · simp [Site.withStatus, Site.withEntry, Entry.state]
  refine ⟨h.begun, Nat.le_of_eq p.begun_created.symm, fun hm => absurd hm hstate, ?_, ?_⟩
  · intro old hold hne
    rw [p.begun_placement] at hne
    exact absurd rfl (hne old hold)
  · intro hnone new hnew
    rw [p.begun_placement, hnone] at hnew
    cases hnew

/-- A volume that is underway is missing with something recorded just if it was replaced. -/
theorem Underway.missingIsBare_iff (h : Underway others background d p q) :
    q.entry.MissingIsBare ↔ ¬ Replaced p.entry q.entry := by
  constructor
  · rintro hbare ⟨old, new, hold, hnew, hne⟩
    have hm := h.marked hold fun new' hnew' => by
      obtain rfl := Option.some.inj (hnew.symm.trans hnew')
      exact hne
    rw [hbare hm] at hnew
    cases hnew
  · intro hnot hm
    obtain ⟨old, hold, hne⟩ := h.missing hm
    cases hnew : q.entry.placement with
    | none => rfl
    | some new => exact absurd ⟨old, new, hold, hnew, hne new hnew⟩ hnot

variable {r : ResourceRecord} {w₀ : World Cloud}

theorem not_replaced (e : Entry) : ¬ Replaced e e := by
  rintro ⟨old, new, hold, hnew, hne⟩
  obtain rfl := Option.some.inj (hold.symm.trans hnew)
  exact hne rfl

/-- How a creating pass can end if the provider was not tampered with. -/
theorem create_missing (d : Definition) (options : PassOptions)
    (h : Sound True others background p) (hbare : p.entry.MissingIsBare) :
    Leads r w₀ ((resource r).create d options) p
      (fun _ q => Sound True others background q ∧ q.entry.MissingIsBare)
      fun q => Sound True others background q ∧
        (q.entry.MissingIsBare ↔ ¬ Replaced p.entry q.entry) := by
  have hstay : Sound True others background p ∧
      (p.entry.MissingIsBare ↔ ¬ Replaced p.entry p.entry) :=
    ⟨h, fun _ => not_replaced _, fun _ => hbare⟩
  refine create_leads (fun _ => h.agrees) hstay fun q hq _ => ?_
  obtain rfl := h.eq_of_checked hq
  refine pass_leads (J := Underway others background d q) hstay (fun _ _ _ _ _ => ⟨h.settled, ?_⟩)
    (fun diff plan _ hplan => ?_) fun _ _ q' _ hq' => ⟨hq'.sound.withStatus _, ?_⟩
  · unfold Site.settled
    split
    · intro hm
      cases hm
    · exact hbare
  · have hrun : Leads r w₀ (Action.forEach ((resource r).runHandler d options.consent)
        plan.handlers) q.begun (fun _ q' => Underway others background d q q')
        fun q' => Underway others background d q q' := by
      refine leads_forEach (fun handler hm q' hq' => runHandler_leads ?_) (underway_begun h)
      exact (operation_leads (Plan.mem_registry_of_make hplan hm)).mono
        (fun _ _ hk => hq'.handled h hk) fun _ hk => hq'.stopped h hk
    exact hrun.mono (fun _ _ hq' => hq') fun q' hq' => ⟨hq'.sound, hq'.missingIsBare_iff⟩
  · intro hm
    cases hm

theorem check_missing (h : Sound True others background p) (hbare : p.entry.MissingIsBare) :
    Leads r w₀ (check r) p
      (fun _ q => Sound True others background q ∧ q.entry.MissingIsBare)
      fun q => Sound True others background q ∧ q.entry.MissingIsBare := by
  refine (check_leads h.agrees).mono (fun _ q hq => ?_) ?_
  · obtain rfl := h.eq_of_checked hq
    exact ⟨h, hbare⟩
  · rintro _ rfl
    exact ⟨h, hbare⟩

theorem destroy_missing {wipe : Bool} {confirm : Confirmation}
    (h : Sound True others background p) (hbare : p.entry.MissingIsBare) :
    Leads r w₀ (destroy r wipe confirm) p
      (fun _ q => Sound True others background q ∧ q.entry.MissingIsBare)
      fun q => Sound True others background q ∧ q.entry.MissingIsBare := by
  refine destroy_leads.mono (fun _ q hq => ⟨h.destroyed hq, ?_⟩) ?_
  · cases hq with
    | refused => exact hbare
    | blank => exact fun _ => rfl
    | removed => exact fun _ => rfl
  · rintro _ (rfl | rfl)
    · exact ⟨h, hbare⟩
    · refine ⟨h.withStatus _, fun hm => ?_⟩
      cases hm

/-- A volume recorded as missing has no identity, and none of the volumes that the provider
created after the first ones exists. -/
def MissingIsGone (r : ResourceRecord) (created : Nat) (w : World Cloud) : Prop :=
  ((State.status r).run w.store).1 = .ok .missing →
    ((State.resourceId r).run w.store).1 = .ok none ∧
      ∀ n, created < n → w.remote.volume? (Cloud.volumeId n) = none

/-- A creating pass failed, and another volume is recorded than before. -/
def Botched (r : ResourceRecord) (w : World Cloud) (d : Definition) (options : PassOptions) :
    Prop :=
  ∃ cause t old new, ((resource r).create d options).run w = (.error cause, t) ∧
    ((State.resourceId r).run w.store).1 = .ok (some old) ∧
      ((State.resourceId r).run t.store).1 = .ok (some new) ∧ new ≠ old

variable {ledger : Int → Option Entry} {w t : World Cloud} {e e' : Entry}

theorem Mirrored.missingIsGone_iff (h : Mirrored True ledger w) (he : ledger r.id = some e)
    {created : Nat} (hothers : ∀ id, Others ledger r.id id → Numbered created id) :
    MissingIsGone r created w ↔ e.MissingIsBare := by
  rw [MissingIsGone, h.status he, h.resourceId he]
  constructor
  · intro hgone hm
    obtain ⟨hid, -⟩ := hgone (by rw [hm])
    exact Option.map_eq_none_iff.mp (Except.ok.inj hid)
  · intro hbare hm
    have hnone := hbare (Except.ok.inj hm)
    refine ⟨by rw [hnone]; rfl, fun n hn => ?_⟩
    cases hv : w.remote.volume? (Cloud.volumeId n) with
    | none => rfl
    | some v =>
      have hlive : provided w (Cloud.volumeId n) = some v.live := by rw [provided, hv]; rfl
      obtain ⟨i, hi⟩ := h.owned hlive
      by_cases hir : i = r.id
      · subst hir
        obtain ⟨e', placement, he', hp, -⟩ := hi
        obtain rfl := Option.some.inj (he.symm.trans he')
        rw [hnone] at hp
        cases hp
      · exact absurd rfl ((hothers _ ⟨i, hir, hi⟩).ne_volumeId hn)

/-- A failed pass was botched just if it replaced the volume. -/
theorem botched_iff {options : PassOptions} {cause : Failure}
    (hrun : ((resource r).create d options).run w = (.error cause, t))
    (hw : ((State.resourceId r).run w.store).1 = .ok (e.placement.map Placement.id))
    (ht : ((State.resourceId r).run t.store).1 = .ok (e'.placement.map Placement.id)) :
    Botched r w d options ↔ Replaced e e' := by
  constructor
  · rintro ⟨cause', t', oldId, newId, hrun', hold, hnew, hne⟩
    rw [hrun] at hrun'
    cases hrun'
    rw [hw] at hold
    rw [ht] at hnew
    obtain ⟨old, he, rfl⟩ := Option.map_eq_some_iff.mp (Except.ok.inj hold)
    obtain ⟨new, he', rfl⟩ := Option.map_eq_some_iff.mp (Except.ok.inj hnew)
    exact ⟨old, new, he, he', hne⟩
  · rintro ⟨old, new, hold, hnew, hne⟩
    rw [hold] at hw
    rw [hnew] at ht
    exact ⟨cause, t, old.id, new.id, hrun, hw, ht, hne⟩

/-- A task that leaves nothing but the status of a missing volume. -/
theorem Mirrored.bare_task {α : Type} {a : Task Cloud α} (h : Mirrored True ledger w)
    (he : ledger r.id = some e)
    (ha : Leads r w a (siteOf w e)
      (fun _ q => Sound True (Others ledger r.id) (provided w) q ∧ q.entry.MissingIsBare)
      fun q => Sound True (Others ledger r.id) (provided w) q ∧ q.entry.MissingIsBare) :
    ∃ e', Mirrored True (enter ledger r.id e') (a.run w).2 ∧ e'.MissingIsBare := by
  obtain ⟨q, hq, hsound, hbare⟩ := h.lead he ha
  exact ⟨q.entry, h.step he hq hsound, hbare⟩

/-- What a turn leaves, and when it leaves the volume missing with something recorded. -/
theorem Mirrored.turn (h : Mirrored True ledger w) (he : ledger r.id = some e)
    (hbare : e.MissingIsBare) (turn : Turn) :
    ∃ e', Mirrored True (enter ledger r.id e') (turn.run (resource r) w) ∧
      (e'.MissingIsBare ↔
        ∀ d options, turn = .pass (.create d options) → ¬ Botched r w d options) := by
  have hsound := h.sound he
  cases turn with
  | fail cause =>
    refine ⟨e, ?_, fun _ _ _ ht => (by cases ht), fun _ => hbare⟩
    rw [enter_self he]
    exact h.failing cause
  | clock now =>
    refine ⟨e, ?_, fun _ _ _ ht => (by cases ht), fun _ => hbare⟩
    rw [enter_self he]
    exact h.atTime now
  | pass p =>
    cases p with
    | check =>
      obtain ⟨e', h', hbare'⟩ := h.bare_task he (check_missing hsound hbare)
      exact ⟨e', h', fun _ _ _ ht => (by cases ht), fun _ => hbare'⟩
    | destroy wipe confirm =>
      obtain ⟨e', h', hbare'⟩ := h.bare_task he (destroy_missing hsound hbare)
      exact ⟨e', h', fun _ _ _ ht => (by cases ht), fun _ => hbare'⟩
    | create d options =>
      refine (create_missing d options hsound hbare w (h.shows he)).elim ?_ ?_
      · rintro s t hrun ⟨q, hq, hsound', hbare'⟩
        refine ⟨q.entry, ?_, fun _ d' options' ht => ?_, fun _ => hbare'⟩
        · simp only [Turn.run, Pass.run, hrun]
          exact h.step he hq hsound'
        · cases ht
          rintro ⟨cause, t', -, -, hrun', -⟩
          rw [hrun] at hrun'
          cases hrun'
      · rintro cause t hrun ⟨q, hq, hsound', hiff⟩
        have h' := h.step he hq hsound'
        have hbotched := botched_iff hrun (h.resourceId he)
          (h'.resourceId (Function.update_self ..))
        refine ⟨q.entry, ?_, ?_⟩
        · simp only [Turn.run, Pass.run, hrun]
          exact h'
        · have hiff' : q.entry.MissingIsBare ↔ ¬ Replaced e q.entry := hiff
          rw [hiff', ← hbotched]
          constructor
          · intro hnot d' options' ht
            cases ht
            exact hnot
          · intro hall
            exact hall d options rfl

/-- Missing volumes are gone after every turn just if no creating pass is botched. -/
theorem Mirrored.missing_iff (h : Mirrored True ledger w) (he : ledger r.id = some e)
    (hbare : e.MissingIsBare) {created : Nat}
    (hothers : ∀ id, Others ledger r.id id → Numbered created id) (turns : List Turn) :
    (∀ before, before <+: turns → MissingIsGone r created (taking (resource r) before w)) ↔
      ∀ before d options, before ++ [.pass (.create d options)] <+: turns →
        ¬ Botched r (taking (resource r) before w) d options := by
  -- The entry is bare before each turn, so the first turn that leaves it otherwise was botched.
  induction turns generalizing ledger w e with
  | nil =>
    constructor
    · intro _ before d options hb
      have := hb.length_le
      simp at this
    · intro _ before hb
      obtain rfl := List.prefix_nil.mp hb
      exact (h.missingIsGone_iff he hothers).mpr hbare
  | cons turn turns ih =>
    obtain ⟨e', h', hiff⟩ := h.turn he hbare turn
    have hothers' : ∀ id, Others (enter ledger r.id e') r.id id → Numbered created id := by
      rintro id ⟨j, hj, ho⟩
      rcases owns_enter ho with ⟨hjr, -⟩ | ⟨-, ho⟩
      · exact absurd hjr hj
      · exact hothers id ⟨j, hj, ho⟩
    have hself : enter ledger r.id e' r.id = some e' := Function.update_self ..
    constructor
    · intro hgone before d options hb
      have hbare' : e'.MissingIsBare := (h'.missingIsGone_iff hself hothers').mp
        (hgone [turn] (by simp))
      cases before with
      | nil =>
        obtain ⟨rfl, -⟩ := List.cons_prefix_cons.mp hb
        exact hiff.mp hbare' d options rfl
      | cons first before =>
        obtain ⟨rfl, htail⟩ := List.cons_prefix_cons.mp hb
        refine (ih h' hself hbare' hothers').mp (fun before' hb' => ?_) before d options htail
        exact hgone (first :: before') (List.cons_prefix_cons.mpr ⟨rfl, hb'⟩)
    · intro hnot before hb
      have hbare' : e'.MissingIsBare := hiff.mpr fun d options ht =>
        hnot [] d options (by rw [ht]; simp)
      cases before with
      | nil => exact (h.missingIsGone_iff he hothers).mpr hbare
      | cons first before =>
        obtain ⟨rfl, htail⟩ := List.cons_prefix_cons.mp hb
        refine (ih h' hself hbare' hothers').mpr (fun before' d options hb' => ?_) before htail
        exact hnot (first :: before') d options (List.cons_prefix_cons.mpr ⟨rfl, hb'⟩)

/-- On a volume that was not created, without tampering, "missing" means gone after every pass just
if no creating pass fails after it replaced the volume by another one. -/
theorem missing_is_gone_iff {deployment : String} {w : World Cloud} (hw : Reached deployment w)
    {r : ResourceRecord} (hr : Declared deployment w r)
    (hnew : ((State.resourceId r).run w.store).1 = .ok none) (turns : List Turn) :
    (∀ before, before <+: turns →
      MissingIsGone r w.remote.created (taking (resource r) before w)) ↔
    ∀ before d options, before ++ [.pass (.create d options)] <+: turns →
      ¬ Botched r (taking (resource r) before w) d options := by
  obtain ⟨ledger, h⟩ := hw.mirrored
  obtain ⟨e, he⟩ := h.entry_of_declared hr
  have hnone := h.placement_of_new he hnew
  refine h.missing_iff he (fun _ => hnone) (fun id ho => ?_) turns
  obtain ⟨j, -, ho⟩ := ho
  exact h.numbered ho

/-- The volume gets ready between two passes, and a third one recreates it. -/
def recreation : List Turn :=
  [.pass (.create (placedIn "us-east-1") {}), .pass (.create (placedIn "us-east-1") {}),
    .pass (.create (placedIn "eu-west-1") { consent := { allowRecreate := true } })]

theorem missing_is_gone_iff_recreation :
    Reached "dep" hasty ∧ Declared "dep" hasty firstVolume ∧
    ((State.resourceId firstVolume).run hasty.store).1 = .ok none ∧
    ((∀ before, before <+: recreation →
        MissingIsGone firstVolume hasty.remote.created
          (taking (resource firstVolume) before hasty)) ↔
      ∀ before d options, before ++ [.pass (.create d options)] <+: recreation →
        ¬ Botched firstVolume (taking (resource firstVolume) before hasty) d options) := by
  have hw : Reached "dep" hasty := ⟨1, { poll := { maxTries := 1 } }, 0, _, by decide, rfl⟩
  have hr : Declared "dep" hasty firstVolume := by decide +kernel
  have hnew : ((State.resourceId firstVolume).run hasty.store).1 = .ok none :=
    ok_of_toOption (by decide +kernel)
  exact ⟨hw, hr, hnew, missing_is_gone_iff hw hr hnew recreation⟩

/-- The new volume was recorded before the pass timed out, and its status is missing. -/
theorem not_missing_is_gone_recreation :
    ¬ ∀ before, before <+: recreation →
      MissingIsGone firstVolume hasty.remote.created
        (taking (resource firstVolume) before hasty) := by
  intro hgone
  have hnone := (hgone recreation (List.prefix_refl _) (ok_of_toOption (by decide +kernel))).1
  have hid : ((State.resourceId firstVolume).run
      (taking (resource firstVolume) recreation hasty).store).1 = .ok (some "vol-2") :=
    ok_of_toOption (by decide +kernel)
  rw [hnone] at hid
  cases hid

end DesiredState.Volume
