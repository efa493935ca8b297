import DesiredState.Proofs.Volume.Pass

/-!
# Records and provider agree

A site is sound among other volumes when its records and the provider tell the same story: a live
volume belongs to somebody, an identity is recorded once, and a recorded volume is set up as it is
recorded. Every way in which a pass can end keeps a site sound.
-/

namespace DesiredState.Volume

theorem volumeId_injective {m n : Nat} (h : Cloud.volumeId m = Cloud.volumeId n) : m = n := by
  unfold Cloud.volumeId at h
  have hlist := congrArg String.toList h
  simp only [String.toList_append, String.toList_ofList, List.append_cancel_left_eq] at hlist
  rw [← Nat.ofDigitChars_ten_toDigits (n := m), hlist, Nat.ofDigitChars_ten_toDigits]

def Numbered (created : Nat) (id : String) : Prop :=
  ∃ n, n ≤ created ∧ id = Cloud.volumeId n

theorem Numbered.mono {m n : Nat} {id : String} (h : Numbered m id) (hle : m ≤ n) :
    Numbered n id := by
  obtain ⟨k, hk, rfl⟩ := h
  exact ⟨k, Nat.le_trans hk hle, rfl⟩

theorem Numbered.ne_volumeId {m n : Nat} {id : String} (h : Numbered m id) (hlt : m < n) :
    id ≠ Cloud.volumeId n := by
  obtain ⟨k, hk, rfl⟩ := h
  intro he
  have := volumeId_injective he
  omega

/-- A site among volumes recorded for `others`, which are as in `background`. Unless somebody
tampered with the provider, a recorded volume is alive. -/
structure Sound (intact : Prop) (others : String → Prop) (background : String → Option Live)
    (p : Site) : Prop where
  agrees : p.Agrees
  owned : ∀ {id l}, p.live id = some l →
    others id ∨ ∃ placement, p.entry.placement = some placement ∧ placement.id = id
  apart : ∀ {placement}, p.entry.placement = some placement → ¬ others placement.id
  numbered : ∀ {placement}, p.entry.placement = some placement →
    Numbered p.created placement.id
  numberedOthers : ∀ {id}, others id → Numbered p.created id
  untouched : ∀ {id}, others id → p.live id = background id
  alive : intact → ∀ {placement}, p.entry.placement = some placement →
    (p.live placement.id).isSome

variable {intact : Prop} {others : String → Prop} {background : String → Option Live}
  {p q : Site} {d : Definition} {consent : Consent} {now : Nat}

/-- The status has no part in soundness. -/
theorem Sound.withStatus (h : Sound intact others background p) (status : Status) :
    Sound intact others background (p.withStatus status) :=
  ⟨h.agrees, h.owned, h.apart, h.numbered, h.numberedOthers, h.untouched, h.alive⟩

theorem Sound.begun (h : Sound intact others background p) :
    Sound intact others background p.begun := Site.begun_of h h.withStatus

theorem Sound.settled (h : Sound intact others background p) :
    Sound intact others background p.settled := Site.settled_of h h.withStatus

/-- A volume may be set up differently if it is recorded so. -/
theorem Sound.reshape (h : Sound intact others background p) {placement placement' : Placement}
    (hp : p.entry.placement = some placement) (hq : q.entry.placement = some placement')
    (hid : placement'.id = placement.id) (hc : q.created = p.created)
    (hne : ∀ id, id ≠ placement.id → q.live id = p.live id)
    (hlive : ∀ l, q.live placement.id = some l → (p.live placement.id).isSome ∧
      l.region = placement'.region ∧ l.attachedTo = placement'.attachedTo ∧
        ∀ size, placement'.size = some size → l.size = size.val)
    (halive : (p.live placement.id).isSome → (q.live placement.id).isSome) :
    Sound intact others background q where
  agrees := by
    intro pl l hpl hl
    obtain rfl := Option.some.inj (hq.symm.trans hpl)
    rw [hid] at hl
    exact (hlive l hl).2
  owned := by
    intro id l hl
    by_cases hi : id = placement.id
    · exact Or.inr ⟨placement', hq, hid.trans hi.symm⟩
    · rw [hne id hi] at hl
      refine (h.owned hl).imp_right ?_
      rintro ⟨pl, hpl, rfl⟩
      obtain rfl := Option.some.inj (hp.symm.trans hpl)
      exact absurd rfl hi
  apart := by
    intro pl hpl
    obtain rfl := Option.some.inj (hq.symm.trans hpl)
    rw [hid]
    exact h.apart hp
  numbered := by
    intro pl hpl
    obtain rfl := Option.some.inj (hq.symm.trans hpl)
    rw [hid, hc]
    exact h.numbered hp
  numberedOthers := by
    intro id ho
    rw [hc]
    exact h.numberedOthers ho
  untouched := by
    intro id ho
    have hi : id ≠ placement.id := fun he => h.apart hp (he ▸ ho)
    rw [hne id hi]
    exact h.untouched ho
  alive := by
    intro hi pl hpl
    obtain rfl := Option.some.inj (hq.symm.trans hpl)
    rw [hid]
    exact halive (h.alive hi hp)

theorem Sound.remove (h : Sound intact others background p) {placement : Placement}
    (hp : p.entry.placement = some placement) :
    Sound intact others background (p.remove placement.id) where
  agrees := by
    intro pl l hpl
    cases hpl
  owned := by
    intro id l hl
    by_cases hi : id = placement.id
    · subst hi
      simp [Site.remove, Site.withEntry, Site.put] at hl
    · simp only [Site.remove, Site.withEntry, Site.put, Function.update_of_ne hi] at hl
      refine (h.owned hl).imp_right ?_
      rintro ⟨pl, hpl, rfl⟩
      obtain rfl := Option.some.inj (hp.symm.trans hpl)
      exact absurd rfl hi
  apart := by
    intro pl hpl
    cases hpl
  numbered := by
    intro pl hpl
    cases hpl
  numberedOthers := h.numberedOthers
  untouched := by
    intro id ho
    have hi : id ≠ placement.id := fun he => h.apart hp (he ▸ ho)
    simp only [Site.remove, Site.withEntry, Site.put, Function.update_of_ne hi]
    exact h.untouched ho
  alive := by
    intro _ pl hpl
    cases hpl

theorem Sound.create (h : Sound intact others background p) (hp : p.entry.placement = none)
    (d : Definition) (region : String) (now : Nat) :
    Sound intact others background (p.create d region now) where
  agrees := by
    intro pl l hpl hl
    obtain rfl := Option.some.inj hpl
    have hl' : (p.create d region now).live (Cloud.volumeId (p.created + 1)) = some l := hl
    simp only [Site.create, Function.update_self, Option.some.injEq] at hl'
    subst hl'
    refine ⟨rfl, rfl, fun size hs => ?_⟩
    rw [definedSize?_of_wanted hs]
    rfl
  owned := by
    intro id l hl
    by_cases hi : id = Cloud.volumeId (p.created + 1)
    · exact Or.inr ⟨_, rfl, hi.symm⟩
    · simp only [Site.create, Function.update_of_ne hi] at hl
      refine (h.owned hl).imp_right ?_
      rintro ⟨pl, hpl, -⟩
      rw [hp] at hpl
      cases hpl
  apart := by
    intro pl hpl ho
    obtain rfl := Option.some.inj hpl
    exact (h.numberedOthers ho).ne_volumeId (Nat.lt_succ_self _) rfl
  numbered := by
    intro pl hpl
    obtain rfl := Option.some.inj hpl
    exact ⟨p.created + 1, Nat.le_refl _, rfl⟩
  numberedOthers ho := (h.numberedOthers ho).mono (Nat.le_succ _)
  untouched := by
    intro id ho
    have hi := (h.numberedOthers ho).ne_volumeId (Nat.lt_succ_self p.created)
    simp only [Site.create, Function.update_of_ne hi]
    exact h.untouched ho
  alive := by
    intro _ pl hpl
    obtain rfl := Option.some.inj hpl
    simp [Site.create, newPlacement]

theorem Sound.provisioned (h : Sound intact others background p)
    (hq : Provisioned d consent now p q) : Sound intact others background q := by
  cases hq with
  | kept => exact h
  | created hp => exact h.create hp d _ now
  | moved hp => exact (h.remove hp).create rfl d _ now

theorem Sound.stopped (h : Sound intact others background p) (hq : Stopped d consent now p q) :
    Sound intact others background q := by
  cases hq with
  | untouched => exact h
  | created hp => exact h.create hp d _ now
  | removed hp => exact h.remove hp
  | moved hp => exact (h.remove hp).create rfl d _ now

/-- Records that the provider does not mirror may change freely. -/
theorem Sound.rerecord (h : Sound intact others background p) {placement placement' : Placement}
    (hp : p.entry.placement = some placement) (hid : placement'.id = placement.id)
    (hr : placement'.region = placement.region)
    (ha : placement'.attachedTo = placement.attachedTo)
    (hs : ∀ size, placement'.size = some size → placement.size = some size) :
    Sound intact others background (p.withPlacement (some placement')) := by
  refine h.reshape hp rfl hid rfl (fun _ _ => rfl) (fun l hl => ?_) fun hl => hl
  have hl' : p.live placement.id = some l := hl
  obtain ⟨hregion, hattached, hsize⟩ := h.agrees placement l hp hl'
  exact ⟨by rw [hl']; rfl, hregion.trans hr.symm, hattached.trans ha.symm,
    fun size hsome => hsize size (hs size hsome)⟩

/-- The provider's volume and its record change together. -/
theorem Sound.change (h : Sound intact others background p) {placement placement' : Placement}
    {l l' : Live} (hp : p.entry.placement = some placement) (hl : p.live placement.id = some l)
    (hid : placement'.id = placement.id) (hr : l'.region = placement'.region)
    (ha : l'.attachedTo = placement'.attachedTo)
    (hs : ∀ size, placement'.size = some size → l'.size = size.val) :
    Sound intact others background
      ((p.put placement.id (some l')).withPlacement (some placement')) := by
  refine h.reshape hp rfl hid rfl (fun id hi => Function.update_of_ne hi _ _) (fun l'' hl'' => ?_)
    fun _ => ?_
  · have hself : (p.put placement.id (some l')).live placement.id = some l'' := hl''
    simp only [Site.put, Function.update_self, Option.some.injEq] at hself
    subst hself
    exact ⟨by rw [hl]; rfl, hr, ha, hs⟩
  · simp [Site.withPlacement, Site.withEntry, Site.put]

theorem Sound.resized (h : Sound intact others background p) (hq : Resized d p q) :
    Sound intact others background q := by
  cases hq with
  | dropped hp => exact h.rerecord hp rfl rfl rfl fun size hs => by cases hs
  | kept => exact h
  | grown hp _ hl =>
    obtain ⟨hregion, hattached, -⟩ := h.agrees _ _ hp hl
    exact h.change hp hl rfl hregion hattached fun size hs => by cases hs; rfl

theorem Sound.tagged (h : Sound intact others background p) (hq : Tagged d p q) :
    Sound intact others background q := by
  obtain ⟨hp, -⟩ := hq
  exact h.rerecord hp rfl rfl rfl fun size hs => hs

theorem Sound.attached (h : Sound intact others background p) (hq : Attached d p q) :
    Sound intact others background q := by
  obtain ⟨hp, hl, -⟩ := hq
  obtain ⟨hregion, -, hsize⟩ := h.agrees _ _ hp hl
  exact h.change hp hl rfl hregion rfl hsize

theorem Sound.handled (h : Sound intact others background p) (hq : Handled d consent now p q) :
    Sound intact others background q := by
  cases hq with
  | provisioned hq => exact h.provisioned hq
  | resized hq => exact h.resized hq
  | tagged hq => exact h.tagged hq
  | attached hq => exact h.attached hq

theorem Sound.checked (h : Sound intact others background p) (hq : Checked p q) :
    Sound intact others background q := by
  cases hq with
  | kept => exact h
  | gone hp => exact h.remove hp

/-- Checking finds every recorded volume if nobody tampered with the provider. -/
theorem Sound.eq_of_checked (h : Sound True others background p) (hq : Checked p q) : q = p := by
  cases hq with
  | kept => rfl
  | gone hp hl =>
    have := h.alive trivial hp
    rw [hl] at this
    cases this

theorem Sound.destroyed (h : Sound intact others background p) (hq : Destroyed p q) :
    Sound intact others background q := by
  cases hq with
  | refused => exact h
  | removed hp => exact h.remove hp
  | blank hp =>
    rw [← hp]
    exact h.withStatus .missing

variable {r : ResourceRecord} {w₀ : World Cloud}

theorem create_sound {options : PassOptions} (h : Sound intact others background p) :
    Leads r w₀ ((resource r).create d options) p (fun _ q => Sound intact others background q)
      fun q => Sound intact others background q := by
  refine create_leads (fun _ => h.agrees) h fun q hq _ => ?_
  have hsound := h.checked hq
  refine pass_leads (J := Sound intact others background) hsound (fun _ _ _ _ _ => hsound.settled)
    (fun diff plan _ hplan => ?_) fun _ _ q _ hq => hq.withStatus _
  refine leads_forEach (fun handler hm q hq => runHandler_leads ?_) hsound.begun
  exact (operation_leads (Plan.mem_registry_of_make hplan hm)).mono (fun _ _ hk => hq.handled hk)
    fun _ hk => hq.stopped hk

theorem check_sound (h : Sound intact others background p) :
    Leads r w₀ (check r) p (fun _ q => Sound intact others background q)
      fun q => Sound intact others background q := by
  refine (check_leads h.agrees).mono (fun _ _ hq => h.checked hq) ?_
  rintro _ rfl
  exact h

theorem destroy_sound {wipe : Bool} {confirm : Confirmation}
    (h : Sound intact others background p) :
    Leads r w₀ (destroy r wipe confirm) p (fun _ q => Sound intact others background q)
      fun q => Sound intact others background q := by
  refine destroy_leads.mono (fun _ _ hq => h.destroyed hq) ?_
  rintro _ (rfl | rfl)
  · exact h
  · exact h.withStatus _

end DesiredState.Volume
