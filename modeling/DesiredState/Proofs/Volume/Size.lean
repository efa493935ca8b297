import DesiredState.Proofs.Volume.Run

/-!
# The sizes of volumes

A volume is to grow only, and resizing refuses to go below the size that is recorded. Where no size
is recorded there is nothing to go by: a volume got a size by default, or its definition gave none
for a while. A pass over a definition that gives one again takes it whatever it is, and this is the
only way in which a volume can get smaller.
-/

namespace DesiredState.Volume

open DesiredState.Action

/-- Where handlers can have taken a volume during a pass that started at `p`, as far as its size is
concerned. -/
structure Sizing (others : String → Prop) (background : String → Option Live) (d : Definition)
    (p q : Site) : Prop where
  sound : Sound True others background q
  created : p.created ≤ q.created
  /-- No volume comes back. -/
  identity : ∀ {new}, q.entry.placement = some new →
    (∃ old, p.entry.placement = some old ∧ new.id = old.id) ∨
      ∃ n, p.created < n ∧ new.id = Cloud.volumeId n
  record : ∀ {old new}, p.entry.placement = some old → q.entry.placement = some new →
    new.id = old.id → new.size = old.size ∨ new.size = wantedSize? d
  /-- Only a volume without a recorded size may get smaller, and its size is recorded then. -/
  size : ∀ {old new l l'}, p.entry.placement = some old → q.entry.placement = some new →
    new.id = old.id → p.live old.id = some l → q.live old.id = some l' →
      l.size ≤ l'.size ∨ old.size = none ∧ new.size.isSome

variable {others : String → Prop} {background : String → Option Live} {d : Definition}
  {consent : Consent} {now : Nat} {p q q' : Site}

theorem sizing_self (h : Sound True others background p) :
    Sizing others background d p p where
  sound := h
  created := Nat.le_refl _
  identity hnew := Or.inl ⟨_, hnew, rfl⟩
  record := by
    intro old new hold hnew _
    obtain rfl := Option.some.inj (hold.symm.trans hnew)
    exact Or.inl rfl
  size := by
    intro old new l l' hold hnew _ hl hl'
    obtain rfl := Option.some.inj (hl.symm.trans hl')
    exact Or.inl (Int.le_refl _)

theorem Sizing.withStatus (h : Sizing others background d p q) (status : Status) :
    Sizing others background d p (q.withStatus status) :=
  ⟨h.sound.withStatus status, h.created, h.identity, h.record, h.size⟩

/-- A step that keeps the identity. -/
theorem Sizing.reshape (h : Sizing others background d p q)
    (hq : Sound True others background q') (hc : q'.created = q.created)
    {placement placement' : Placement} (hp : q.entry.placement = some placement)
    (hp' : q'.entry.placement = some placement') (hid : placement'.id = placement.id)
    (hrecord : placement'.size = placement.size ∨ placement'.size = wantedSize? d)
    (hsize : ∀ {old l l' m}, p.entry.placement = some old → placement.id = old.id →
      p.live old.id = some l → q.live old.id = some m → q'.live old.id = some l' →
        l.size ≤ l'.size ∨ old.size = none ∧ placement'.size.isSome) :
    Sizing others background d p q' where
  sound := hq
  created := by
    rw [hc]
    exact h.created
  identity := by
    intro new hnew
    obtain rfl := Option.some.inj (hp'.symm.trans hnew)
    rw [hid]
    exact h.identity hp
  record := by
    intro old new hold hnew hsame
    obtain rfl := Option.some.inj (hp'.symm.trans hnew)
    rcases hrecord with hkept | hwanted
    · rw [hkept]
      exact h.record hold hp (hid.symm.trans hsame)
    · exact Or.inr hwanted
  size := by
    intro old new l l' hold hnew hsame hl hl'
    obtain rfl := Option.some.inj (hp'.symm.trans hnew)
    have hsame : placement.id = old.id := hid.symm.trans hsame
    obtain ⟨m, hm⟩ := Option.isSome_iff_exists.mp (h.sound.alive trivial hp)
    rw [hsame] at hm
    exact hsize hold hsame hl hm hl'

/-- A step that leaves the size, as it is and as it is recorded. -/
theorem Sizing.keep (h : Sizing others background d p q)
    (hq : Sound True others background q') (hc : q'.created = q.created)
    {placement placement' : Placement} (hp : q.entry.placement = some placement)
    (hp' : q'.entry.placement = some placement') (hid : placement'.id = placement.id)
    (hs : placement'.size = placement.size)
    (hlive : (q'.live placement.id).map Live.size = (q.live placement.id).map Live.size) :
    Sizing others background d p q' := by
  refine h.reshape hq hc hp hp' hid (Or.inl hs) fun {old l l' m} hold hsame hl hm hl' => ?_
  rw [hsame, hm, hl'] at hlive
  have hsizes : l'.size = m.size := Option.some.inj hlive
  rw [hsizes, hs]
  exact h.size hold hp hsame hl hm

theorem Sizing.remove (h : Sizing others background d p q) {placement : Placement}
    (hp : q.entry.placement = some placement) :
    Sizing others background d p (q.remove placement.id) where
  sound := h.sound.remove hp
  created := h.created
  identity := by
    intro new hnew
    cases hnew
  record := by
    intro old new _ hnew
    cases hnew
  size := by
    intro old new l l' _ hnew
    cases hnew

theorem Sizing.create (h : Sizing others background d p q)
    (hsound : Sound True others background p) (hp : q.entry.placement = none) (region : String)
    (now : Nat) : Sizing others background d p (q.create d region now) := by
  have hlt : p.created < q.created + 1 := Nat.lt_succ_of_le h.created
  have hnew : ∀ {old new}, p.entry.placement = some old →
      (q.create d region now).entry.placement = some new → new.id ≠ old.id := by
    intro old new hold hnew
    obtain rfl := Option.some.inj hnew
    exact ((hsound.numbered hold).ne_volumeId hlt).symm
  exact {
    sound := h.sound.create hp d region now
    created := Nat.le_succ_of_le h.created
    identity := fun hnew => by
      obtain rfl := Option.some.inj hnew
      exact Or.inr ⟨q.created + 1, hlt, rfl⟩
    record := fun hold h' hsame => absurd hsame (hnew hold h')
    size := fun hold h' hsame => absurd hsame (hnew hold h') }

theorem Sizing.provisioned (h : Sizing others background d p q)
    (hsound : Sound True others background p) (hq : Provisioned d consent now q q') :
    Sizing others background d p q' := by
  cases hq with
  | kept => exact h
  | created hp => exact h.create hsound hp _ now
  | moved hp => exact (h.remove hp).create hsound rfl _ now

theorem Sizing.stopped (h : Sizing others background d p q)
    (hsound : Sound True others background p) (hq : Stopped d consent now q q') :
    Sizing others background d p q' := by
  cases hq with
  | untouched => exact h
  | created hp => exact h.create hsound hp _ now
  | removed hp => exact h.remove hp
  | moved hp => exact (h.remove hp).create hsound rfl _ now

theorem Sizing.resized (h : Sizing others background d p q)
    (hq : Resized d q q') (hnot : NotReduced q q') :
    Sizing others background d p q' := by
  have hsound' := h.sound.resized hq
  cases hq with
  | kept => exact h
  | @dropped placement hp hd =>
    refine h.reshape hsound' rfl hp rfl rfl (Or.inr hd.symm)
      fun {old l l' m} hold hsame hl hm hl' => Or.inl ?_
    obtain rfl := Option.some.inj (hm.symm.trans hl')
    rcases h.size hold hp hsame hl hm with hle | ⟨hnone, hsome⟩
    · exact hle
    · -- A size that this pass recorded comes from the definition, which gives none.
      rcases h.record hold hp hsame with hs | hs
      · rw [hs, hnone] at hsome
        cases hsome
      · rw [hs, hd] at hsome
        cases hsome
  | @grown placement size live hp hd hl₀ =>
    refine h.reshape hsound' rfl hp rfl rfl (Or.inr hd.symm)
      fun {old l l' m} hold hsame hl hm hl' => ?_
    have hsize : l'.size = size.val := by
      simp only [Site.grow, Site.withPlacement, Site.withEntry, Site.put, hsame,
        Function.update_self, Option.some.injEq] at hl'
      rw [← hl']
    cases hs : old.size with
    | none => exact Or.inr ⟨rfl, rfl⟩
    | some before =>
      left
      have hle : l.size ≤ m.size := by
        rcases h.size hold hp hsame hl hm with hle | ⟨hnone, -⟩
        · exact hle
        · rw [hs] at hnone
          cases hnone
      -- The recorded size is the one that the volume has, and the guard compares with it.
      obtain ⟨recorded, hrecorded⟩ : ∃ recorded, placement.size = some recorded := by
        rcases h.record hold hp hsame with hsize | hsize
        · exact ⟨before, hsize.trans hs⟩
        · exact ⟨size, hsize.trans hd⟩
      have hm' : q.live placement.id = some m := hsame ▸ hm
      obtain ⟨-, -, hagrees⟩ := h.sound.agrees placement m hp hm'
      have hguard := hnot placement _ hp rfl recorded size hrecorded rfl
      rw [hsize]
      have hval := hagrees recorded hrecorded
      omega

theorem Sizing.tagged (h : Sizing others background d p q) (hq : Tagged d q q') :
    Sizing others background d p q' := by
  have hsound := h.sound.tagged hq
  obtain ⟨hp, -⟩ := hq
  exact h.keep hsound rfl hp rfl rfl rfl rfl

theorem Sizing.attached (h : Sizing others background d p q) (hq : Attached d q q') :
    Sizing others background d p q' := by
  have hsound := h.sound.attached hq
  obtain ⟨hp, hl, -⟩ := hq
  refine h.keep hsound rfl hp rfl rfl rfl ?_
  rw [hl]
  simp [Site.attach, Site.withPlacement, Site.withEntry, Site.put]

variable {r : ResourceRecord} {w₀ : World Cloud}

theorem Sizing.operation (h : Sizing others background d p q)
    (hsound : Sound True others background p) {handler : Handler (Handling Cloud)}
    (hh : handler ∈ (registry r).handlers) :
    Leads r w₀ (handler.operation d consent) q (fun _ q' => Sizing others background d p q')
      fun q' => Sizing others background d p q' := by
  have hstop : ∀ q', q' = q → Sizing others background d p q' := by
    rintro _ rfl
    exact h
  simp only [registry, List.mem_cons, List.not_mem_nil, or_false] at hh
  rcases hh with rfl | rfl | rfl | rfl
  · exact provision_leads.mono (fun _ _ hq => h.provisioned hsound hq)
      fun _ hq => h.stopped hsound hq
  · exact resize_notReduced.mono (fun _ _ hq => h.resized hq.1 hq.2) hstop
  · exact (tag_leads consent).mono (fun _ _ hq => h.tagged hq) hstop
  · exact (attach_leads consent).mono (fun _ _ hq => h.attached hq) hstop

/-- What a creating pass can do to sizes. -/
theorem create_sizing (d : Definition) (options : PassOptions)
    (h : Sound True others background p) :
    Leads r w₀ ((resource r).create d options) p (fun _ q => Sizing others background d p q)
      fun q => Sizing others background d p q := by
  have hself := sizing_self (d := d) h
  refine create_leads (fun _ => h.agrees) hself fun q hq _ => ?_
  obtain rfl := h.eq_of_checked hq
  refine pass_leads (J := Sizing others background d q) hself
    (fun _ _ _ _ _ => Site.settled_of hself hself.withStatus)
    (fun diff plan _ hplan => ?_) fun _ _ q' _ hq' => hq'.withStatus .up
  refine leads_forEach (fun handler hm q' hq' => runHandler_leads ?_)
    (Site.begun_of hself hself.withStatus)
  exact hq'.operation h (Plan.mem_registry_of_make hplan hm)

/-- Only a volume without a recorded size may have got smaller, and its size is recorded now. -/
theorem Sizing.sizes (h : Sizing others background d p q)
    (hsound : Sound True others background p) {id : String} {l l' : Live}
    (hl : p.live id = some l) (hl' : q.live id = some l') : l.size ≤ l'.size ∨
      ∃ old new size, p.entry.placement = some old ∧ q.entry.placement = some new ∧
        old.id = id ∧ new.id = id ∧ old.size = none ∧ new.size = some size ∧
          l'.size = size.val := by
  rcases hsound.owned hl with hother | ⟨old, hold, rfl⟩
  · rw [h.sound.untouched hother, ← hsound.untouched hother, hl] at hl'
    obtain rfl := Option.some.inj hl'
    exact Or.inl (Int.le_refl _)
  rcases h.sound.owned hl' with hother | ⟨new, hnew, hid⟩
  · exact absurd hother (hsound.apart hold)
  refine (h.size hold hnew hid hl hl').imp_right ?_
  rintro ⟨hnone, hsome⟩
  obtain ⟨size, hsize⟩ := Option.isSome_iff_exists.mp hsome
  obtain ⟨-, -, hagrees⟩ := h.sound.agrees new l' hnew (hid ▸ hl')
  exact ⟨old, new, size, hold, hnew, rfl, hid, hnone, hsize, hagrees size hsize⟩

/-- A volume that was created before and exists now existed all the time. -/
theorem Sizing.live (h : Sizing others background d p q)
    (hsound : Sound True others background p) {id : String} (hid : Numbered p.created id)
    (hq : (q.live id).isSome) : (p.live id).isSome := by
  obtain ⟨l, hl⟩ := Option.isSome_iff_exists.mp hq
  rcases h.sound.owned hl with hother | ⟨new, hnew, rfl⟩
  · rwa [h.sound.untouched hother, ← hsound.untouched hother] at hq
  · rcases h.identity hnew with ⟨old, hold, hsame⟩ | ⟨n, hlt, hsame⟩
    · rw [hsame]
      exact hsound.alive trivial hold
    · exact absurd hsame (hid.ne_volumeId hlt)

/-- Nothing is created and nothing changed, but volumes may be deleted. -/
structure Fewer (p q : Site) : Prop where
  created : q.created = p.created
  live : ∀ {id l}, q.live id = some l → p.live id = some l

theorem fewer_remove (p : Site) (id : String) : Fewer p (p.remove id) where
  created := rfl
  live := by
    intro other l hl
    by_cases hid : other = id
    · subst hid
      simp [Site.remove, Site.withEntry, Site.put] at hl
    · simpa [Site.remove, Site.withEntry, Site.put, Function.update_of_ne hid] using hl

theorem check_fewer (h : Sound True others background p) :
    Leads r w₀ (check r) p (fun _ q => Sound True others background q ∧ Fewer p q)
      fun q => Sound True others background q ∧ Fewer p q := by
  have hself : Sound True others background p ∧ Fewer p p := ⟨h, rfl, id⟩
  refine (check_leads h.agrees).mono (fun _ q hq => ?_) ?_
  · obtain rfl := h.eq_of_checked hq
    exact hself
  · rintro _ rfl
    exact hself

theorem destroy_fewer {wipe : Bool} {confirm : Confirmation}
    (h : Sound True others background p) :
    Leads r w₀ (destroy r wipe confirm) p
      (fun _ q => Sound True others background q ∧ Fewer p q)
      fun q => Sound True others background q ∧ Fewer p q := by
  refine destroy_leads.mono (fun _ q hq => ⟨h.destroyed hq, ?_⟩) ?_
  · cases hq with
    | refused => exact ⟨rfl, id⟩
    | blank => exact ⟨rfl, id⟩
    | removed => exact fewer_remove p _
  · rintro _ (rfl | rfl)
    · exact ⟨h, rfl, id⟩
    · exact ⟨h.withStatus _, rfl, id⟩

/-- No volume that exists in both worlds is smaller in the second one. -/
def NeverSmaller (w t : World Cloud) : Prop := ∀ id v v', w.remote.volume? id = some v →
  t.remote.volume? id = some v' → v.size ≤ v'.size

def sizeIn (r : ResourceRecord) (w : World Cloud) : Except StoreError (Option Int) :=
  ((Store.getAs r.scope "size" Json.expectInt64).run w.store).1

/-- A creating pass leaves a volume with a recorded size, although no size was recorded before and
the volume was larger. -/
def Undercuts (r : ResourceRecord) (w : World Cloud) (d : Definition) (options : PassOptions) :
    Prop :=
  ∃ id v size, ((State.resourceId r).run w.store).1 = .ok (some id) ∧ sizeIn r w = .ok none ∧
    w.remote.volume? id = some v ∧ size < v.size ∧
      let t := (((resource r).create d options).run w).2
      ((State.resourceId r).run t.store).1 = .ok (some id) ∧ sizeIn r t = .ok (some size)

/-- Volumes are only added, under new ids, or deleted. -/
structure Succeeds (w t : World Cloud) : Prop where
  created : w.remote.created ≤ t.remote.created
  live : ∀ {id}, Numbered w.remote.created id → (provided t id).isSome → (provided w id).isSome

variable {ledger : Int → Option Entry} {u w t : World Cloud} {e e' : Entry}

theorem Succeeds.refl (w : World Cloud) : Succeeds w w := ⟨Nat.le_refl _, fun _ h => h⟩

theorem Succeeds.trans (h : Succeeds u w) (k : Succeeds w t) : Succeeds u t :=
  ⟨Nat.le_trans h.created k.created,
    fun hid hl => h.live hid (k.live (hid.mono h.created) hl)⟩

theorem isSome_provided {id : String} : (provided w id).isSome = (w.remote.volume? id).isSome :=
  Option.isSome_map

theorem provided_eq {id : String} {v : CloudVolume} (hv : w.remote.volume? id = some v) :
    provided w id = some v.live := by rw [provided, hv, Option.map_some]

/-- What exists in the end existed in between. -/
theorem NeverSmaller.trans (hnumbered : ∀ id, (provided u id).isSome →
    Numbered u.remote.created id) (h : NeverSmaller u w) (hw : Succeeds u w)
    (k : NeverSmaller w t) (ht : Succeeds w t) : NeverSmaller u t := by
  intro id v v' hv hv'
  have hid : Numbered u.remote.created id :=
    hnumbered id (by rw [provided_eq hv, Option.isSome_some])
  have hbetween := ht.live (hid.mono hw.created) (by rw [provided_eq hv', Option.isSome_some])
  rw [isSome_provided] at hbetween
  obtain ⟨m, hm⟩ := Option.isSome_iff_exists.mp hbetween
  exact Int.le_trans (h id v m hv hm) (k id m v' hm hv')

theorem Mirrored.numbered_of_provided (h : Mirrored True ledger w) {id : String}
    (hl : (provided w id).isSome) : Numbered w.remote.created id := by
  obtain ⟨l, hl⟩ := Option.isSome_iff_exists.mp hl
  obtain ⟨i, hi⟩ := h.owned hl
  exact h.numbered hi

theorem Mirrored.sizeIn (h : Mirrored True ledger w) (he : ledger r.id = some e) :
    sizeIn r w = .ok ((e.placement.bind Placement.size).map Subtype.val) := by
  unfold Volume.sizeIn
  rw [getAs_size (h.records he)]

/-- A volume got smaller in a creating pass just if the pass undercuts it. -/
theorem Mirrored.neverSmaller_iff (h : Mirrored True ledger w) (he : ledger r.id = some e)
    {options : PassOptions} (ht : (((resource r).create d options).run w).2 = t)
    (hs : Shows r w q t)
    (hq : Sizing (Others ledger r.id) (provided w) d (siteOf w e) q) :
    NeverSmaller w t ↔ ¬ Undercuts r w d options := by
  have hsound : Sound True (Others ledger r.id) (provided w) (siteOf w e) := h.sound he
  have h' := h.step he hs hq.sound
  have he' : enter ledger r.id q.entry r.id = some q.entry := Function.update_self ..
  constructor
  · rintro hnever ⟨id, v, size, -, -, hv, hlt, hid', hsize'⟩
    rw [ht, h'.resourceId he'] at hid'
    rw [ht, h'.sizeIn he'] at hsize'
    obtain ⟨new, hnew, rfl⟩ := Option.map_eq_some_iff.mp (Except.ok.inj hid')
    rw [hnew, Option.bind_some] at hsize'
    obtain ⟨size', hsome, rfl⟩ := Option.map_eq_some_iff.mp (Except.ok.inj hsize')
    obtain ⟨l', hl'⟩ := Option.isSome_iff_exists.mp (hq.sound.alive trivial hnew)
    obtain ⟨-, -, hagrees⟩ := hq.sound.agrees new l' hnew hl'
    rw [← hs.provides.live] at hl'
    obtain ⟨v', hv', rfl⟩ := Option.map_eq_some_iff.mp hl'
    have hle := hnever _ v v' hv hv'
    have hval : v'.size = size'.val := hagrees size' hsome
    omega
  · intro hnot id v v' hv hv'
    have hl' : q.live id = some v'.live := by rw [← hs.provides.live, hv', Option.map_some]
    rcases hq.sizes hsound (provided_eq hv) hl' with
      hle | ⟨old, new, size, hold, hnew, hid, hid', hnone, hsize, hval⟩
    · exact hle
    · have hold' : e.placement = some old := hold
      have hval' : v'.size = size.val := hval
      by_contra hlt
      refine hnot ⟨id, v, size, ?_, ?_, hv, by omega, ?_, ?_⟩
      · rw [h.resourceId he, hold', ← hid]
        rfl
      · rw [h.sizeIn he, hold', Option.bind_some, hnone]
        rfl
      · rw [ht, h'.resourceId he', hnew, ← hid']
        rfl
      · rw [ht, h'.sizeIn he', hnew, Option.bind_some, hsize]
        rfl

theorem Fewer.succeeds (h : Fewer (siteOf w e) q) (hs : Shows r w q t) :
    Succeeds w t ∧ NeverSmaller w t := by
  refine ⟨⟨?_, fun {id} _ hl => ?_⟩, fun id v v' hv hv' => ?_⟩
  · rw [hs.provides.created, h.created]
    exact Nat.le_refl _
  · rw [provided, hs.provides.live] at hl
    obtain ⟨l, hl⟩ := Option.isSome_iff_exists.mp hl
    have hlive : provided w id = some l := h.live hl
    rw [hlive, Option.isSome_some]
  · have hl' : q.live id = some v'.live := by rw [← hs.provides.live, hv', Option.map_some]
    have hsame := (provided_eq hv).symm.trans (h.live hl')
    have hsize : v.size = v'.size := congrArg Live.size (Option.some.inj hsame)
    exact Int.le_of_eq hsize

theorem Sizing.succeeds (h : Sizing others background d (siteOf w e) q)
    (hsound : Sound True others background (siteOf w e)) (hs : Shows r w q t) :
    Succeeds w t := by
  refine ⟨?_, fun {id} hid hl => ?_⟩
  · rw [hs.provides.created]
    exact h.created
  · rw [provided, hs.provides.live] at hl
    exact h.live hsound hid hl

/-- Where the provider has the same volumes as before nothing got smaller. -/
theorem neverSmaller_of_volumes (h : t.remote.volumes = w.remote.volumes) : NeverSmaller w t := by
  intro id v v' hv hv'
  rw [Cloud.volume?, h] at hv'
  obtain rfl := Option.some.inj (hv.symm.trans hv')
  exact Int.le_refl _

/-- What a turn leaves, and when it leaves a volume smaller. -/
theorem Mirrored.sizing_turn (h : Mirrored True ledger w) (he : ledger r.id = some e)
    (turn : Turn) :
    ∃ e', Mirrored True (enter ledger r.id e') (turn.run (resource r) w) ∧
      Succeeds w (turn.run (resource r) w) ∧
      (NeverSmaller w (turn.run (resource r) w) ↔
        ∀ d options, turn = .pass (.create d options) → ¬ Undercuts r w d options) := by
  have hsound := h.sound he
  cases turn with
  | fail cause =>
    refine ⟨e, ?_, ⟨Nat.le_refl _, fun _ hl => hl⟩, fun _ _ _ ht => (by cases ht),
      fun _ => neverSmaller_of_volumes rfl⟩
    rw [enter_self he]
    exact h.failing cause
  | clock now =>
    refine ⟨e, ?_, ⟨Nat.le_refl _, fun _ hl => hl⟩, fun _ _ _ ht => (by cases ht),
      fun _ => neverSmaller_of_volumes rfl⟩
    rw [enter_self he]
    exact h.atTime now
  | pass p =>
    cases p with
    | check =>
      obtain ⟨q, hq, hsound', hfewer⟩ := h.lead he (check_fewer hsound)
      obtain ⟨hsucceeds, hnever⟩ := hfewer.succeeds hq
      exact ⟨q.entry, h.step he hq hsound', hsucceeds, fun _ _ _ ht => (by cases ht),
        fun _ => hnever⟩
    | destroy wipe confirm =>
      obtain ⟨q, hq, hsound', hfewer⟩ := h.lead he (destroy_fewer hsound)
      obtain ⟨hsucceeds, hnever⟩ := hfewer.succeeds hq
      exact ⟨q.entry, h.step he hq hsound', hsucceeds, fun _ _ _ ht => (by cases ht),
        fun _ => hnever⟩
    | create d options =>
      obtain ⟨q, hq, hsizing⟩ := h.lead he (create_sizing d options hsound)
      have hiff := h.neverSmaller_iff he rfl hq hsizing
      refine ⟨q.entry, h.step he hq hsizing.sound, hsizing.succeeds hsound hq, ?_⟩
      refine Iff.trans hiff ⟨fun hnot d' options' ht => ?_, fun hall => hall d options rfl⟩
      cases ht
      exact hnot

theorem Mirrored.sizing_run (h : Mirrored True ledger w) (he : ledger r.id = some e)
    (turns : List Turn) :
    ∃ e', Mirrored True (enter ledger r.id e') (taking (resource r) turns w) ∧
      Succeeds w (taking (resource r) turns w) ∧
      ((∀ before d options, before ++ [.pass (.create d options)] <+: turns →
          ¬ Undercuts r (taking (resource r) before w) d options) →
        NeverSmaller w (taking (resource r) turns w)) := by
  induction turns generalizing ledger w e with
  | nil => exact ⟨e, by rwa [enter_self he], Succeeds.refl w, fun _ => neverSmaller_of_volumes rfl⟩
  | cons turn turns ih =>
    obtain ⟨e', h', hfirst, hiff⟩ := h.sizing_turn he turn
    obtain ⟨e'', h'', hrest, hnever⟩ := ih h' (Function.update_self ..)
    refine ⟨e'', by rwa [enter, enter, Function.update_idem] at h'', hfirst.trans hrest,
      fun hnot => ?_⟩
    refine NeverSmaller.trans (fun id hl => h.numbered_of_provided hl) (hiff.mpr ?_) hfirst
      (hnever ?_) hrest
    · intro d options ht
      exact hnot [] d options (by simp [ht])
    · intro before d options hb
      exact hnot (turn :: before) d options (List.cons_prefix_cons.mpr ⟨rfl, hb⟩)

theorem taking_append (v : Resource Cloud) (before later : List Turn) (w : World Cloud) :
    taking v (before ++ later) w = taking v later (taking v before w) :=
  List.foldl_append ..

/-- In a run over one volume without tampering, no volume ever gets smaller as long as it exists
just if no creating pass goes below the size of a volume without a recorded one. -/
theorem never_smaller_iff {deployment : String} {w : World Cloud} (hw : Reached deployment w)
    {r : ResourceRecord} (hr : Declared deployment w r) (turns : List Turn) :
    (∀ before later, before ++ later <+: turns →
      NeverSmaller (taking (resource r) before w) (taking (resource r) (before ++ later) w)) ↔
    ∀ before d options, before ++ [.pass (.create d options)] <+: turns →
      ¬ Undercuts r (taking (resource r) before w) d options := by
  obtain ⟨ledger, h⟩ := hw.mirrored
  obtain ⟨e, he⟩ := h.entry_of_declared hr
  constructor
  · intro hnever before d options hb
    obtain ⟨e', h', -, -⟩ := h.sizing_run he before
    obtain ⟨-, -, -, hiff⟩ := h'.sizing_turn (Function.update_self ..) (.pass (.create d options))
    have hstep := hnever before [.pass (.create d options)] hb
    rw [taking_append] at hstep
    exact hiff.mp hstep d options rfl
  · intro hnot before later hb
    obtain ⟨e', h', -, -⟩ := h.sizing_run he before
    obtain ⟨-, -, -, hnever⟩ := h'.sizing_run (Function.update_self ..) later
    rw [taking_append]
    refine hnever fun first d options hfirst => ?_
    rw [← taking_append]
    refine hnot (before ++ first) d options ?_
    rw [List.append_assoc]
    exact ((List.prefix_append_right_inj before).mpr hfirst).trans hb

/-- A definition of the first volume with a size. -/
def sizedAs (size : Int) : Definition :=
  (placedIn "us-east-1").withSetting "size" (.value (.ofInt size))

/-- The volume gets a size, which is dropped from its definition and then given again, lower. -/
def resizing : List Turn :=
  [.pass (.create (sizedAs 20) {}), .pass (.create (placedIn "us-east-1") {}),
    .pass (.create (sizedAs 10) {})]

theorem never_smaller_iff_resizing :
    Reached "dep" declaredWorld ∧ Declared "dep" declaredWorld firstVolume ∧
    ((∀ before later, before ++ later <+: resizing →
        NeverSmaller (taking (resource firstVolume) before declaredWorld)
          (taking (resource firstVolume) (before ++ later) declaredWorld)) ↔
      ∀ before d options, before ++ [.pass (.create d options)] <+: resizing →
        ¬ Undercuts firstVolume (taking (resource firstVolume) before declaredWorld) d
          options) := by
  have hw : Reached "dep" declaredWorld := ⟨0, {}, 0, _, by decide, rfl⟩
  have hr : Declared "dep" declaredWorld firstVolume := by decide +kernel
  exact ⟨hw, hr, never_smaller_iff hw hr resizing⟩

/-- The volume is created with 20 and ends with 10. -/
theorem not_never_smaller_resizing :
    ¬ ∀ before later, before ++ later <+: resizing →
      NeverSmaller (taking (resource firstVolume) before declaredWorld)
        (taking (resource firstVolume) (before ++ later) declaredWorld) := by
  intro hnever
  have hshrunk : ((taking (resource firstVolume) (resizing.take 1) declaredWorld).remote.volume?
      "vol-1").map CloudVolume.size = some 20 ∧
      ((taking (resource firstVolume) resizing declaredWorld).remote.volume?
        "vol-1").map CloudVolume.size = some 10 := by decide +kernel
  obtain ⟨hfirst, hlast⟩ := hshrunk
  obtain ⟨v, hv, hsize⟩ := Option.map_eq_some_iff.mp hfirst
  obtain ⟨v', hv', hsize'⟩ := Option.map_eq_some_iff.mp hlast
  have hle := hnever (resizing.take 1) (resizing.drop 1) (List.prefix_refl _) "vol-1" v v' hv hv'
  omega

end DesiredState.Volume
