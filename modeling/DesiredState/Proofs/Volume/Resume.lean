import DesiredState.Proofs.Volume.Converge
import DesiredState.Proofs.Volume.Run

/-!
# Creating a volume in several passes

Passes over one definition may fail at any call. Whatever they leave behind, nothing was created
yet or one volume was, in the region of the definition and with its size, and the next pass goes on
from there. A pass that ends well therefore leaves exactly one volume, as it was defined.
-/

namespace DesiredState.Volume

open DesiredState.Action

/-- Nothing was created after the first volumes, or one volume that is recorded. -/
inductive AtMostOne (d : Definition) (created : Nat) (p : Site) : Prop where
  | nothing (hp : p.entry.placement = none) (hc : p.created = created)
  | one {placement : Placement} {l : Live} (hp : p.entry.placement = some placement)
      (hc : p.created = created + 1) (hid : placement.id = Cloud.volumeId (created + 1))
      (hr : d.string? "region" = some placement.region)
      (hl : p.live placement.id = some l) (hs : l.size = (definedSize? d).getD defaultSize)

variable {d : Definition} {created now : Nat} {consent : Consent} {p q : Site}

/-- The status has no part in it. -/
theorem AtMostOne.withStatus (h : AtMostOne d created p) (status : Status) :
    AtMostOne d created (p.withStatus status) := by
  cases h with
  | nothing hp hc => exact .nothing hp hc
  | one hp hc hid hr hl hs => exact .one hp hc hid hr hl hs

theorem AtMostOne.begun (h : AtMostOne d created p) : AtMostOne d created p.begun :=
  Site.begun_of h h.withStatus

theorem AtMostOne.settled (h : AtMostOne d created p) : AtMostOne d created p.settled :=
  Site.settled_of h h.withStatus

theorem AtMostOne.create (h : AtMostOne d created p) (hp : p.entry.placement = none)
    {region : String} (hr : d.string? "region" = some region) :
    AtMostOne d created (p.create d region now) := by
  cases h with
  | nothing _ hc =>
    refine .one rfl (congrArg (· + 1) hc) ?_ hr (Function.update_self ..) rfl
    rw [newPlacement, hc]
  | one hp' =>
    rw [hp] at hp'
    cases hp'

/-- The recorded volume is where the definition wants it. -/
theorem AtMostOne.region (h : AtMostOne d created p) {placement : Placement}
    (hp : p.entry.placement = some placement) : d.string? "region" = some placement.region := by
  cases h with
  | nothing hp' =>
    rw [hp] at hp'
    cases hp'
  | one hp' _ _ hr =>
    obtain rfl := Option.some.inj (hp.symm.trans hp')
    exact hr

theorem AtMostOne.provisioned (h : AtMostOne d created p)
    (hq : Provisioned d consent now p q) : AtMostOne d created q := by
  cases hq with
  | kept => exact h
  | created hp hr => exact h.create hp hr
  | moved hp hr hne => exact absurd (Option.some.inj ((h.region hp).symm.trans hr)) hne

theorem AtMostOne.stopped (h : AtMostOne d created p) (hq : Stopped d consent now p q) :
    AtMostOne d created q := by
  cases hq with
  | untouched => exact h
  | created hp hr => exact h.create hp hr
  | removed hp hr hne => exact absurd (Option.some.inj ((h.region hp).symm.trans hr)) hne
  | moved hp hr hne => exact absurd (Option.some.inj ((h.region hp).symm.trans hr)) hne

/-- The recorded volume may be set up differently in its place, as long as it has its size. -/
theorem AtMostOne.reshape (h : AtMostOne d created p) {placement placement' : Placement}
    (hp : p.entry.placement = some placement) (hq : q.entry.placement = some placement')
    (hid : placement'.id = placement.id) (hr : placement'.region = placement.region)
    (hc : q.created = p.created)
    (hl : ∀ l, p.live placement.id = some l → l.size = (definedSize? d).getD defaultSize →
      ∃ l', q.live placement.id = some l' ∧ l'.size = (definedSize? d).getD defaultSize) :
    AtMostOne d created q := by
  cases h with
  | nothing hp' =>
    rw [hp] at hp'
    cases hp'
  | one hp' hc' hid' hr' hl' hs =>
    obtain rfl := Option.some.inj (hp.symm.trans hp')
    obtain ⟨l', hl', hs'⟩ := hl _ hl' hs
    exact .one hq (hc.trans hc') (hid.trans hid') (by rw [hr, hr']) (by rw [hid, hl']) hs'

theorem AtMostOne.handled (h : AtMostOne d created p) (hq : Handled d consent now p q) :
    AtMostOne d created q := by
  cases hq with
  | provisioned hq => exact h.provisioned hq
  | resized hq =>
    cases hq with
    | dropped hp => exact h.reshape hp rfl rfl rfl rfl fun l hl hs => ⟨l, hl, hs⟩
    | kept => exact h
    | grown hp hw hl =>
      refine h.reshape hp rfl rfl rfl rfl fun _ _ _ => ⟨_, Function.update_self .., ?_⟩
      rw [definedSize?_of_wanted hw]
      rfl
  | tagged hq =>
    obtain ⟨hp, -⟩ := hq
    exact h.reshape hp rfl rfl rfl rfl fun l hl hs => ⟨l, hl, hs⟩
  | attached hq =>
    obtain ⟨hp, hl, -⟩ := hq
    refine h.reshape hp rfl rfl rfl rfl fun l hl' hs => ⟨_, Function.update_self .., ?_⟩
    obtain rfl := Option.some.inj (hl.symm.trans hl')
    exact hs

variable {r : ResourceRecord} {w₀ : World Cloud} {others : String → Prop}
  {background : String → Option Live}

theorem create_atMostOne {options : PassOptions} (h : Sound True others background p)
    (hone : AtMostOne d created p) :
    Leads r w₀ ((resource r).create d options) p
      (fun _ q => Sound True others background q ∧ AtMostOne d created q)
      fun q => Sound True others background q ∧ AtMostOne d created q := by
  refine create_leads (fun _ => h.agrees) ⟨h, hone⟩ fun q hq _ => ?_
  obtain rfl := h.eq_of_checked hq
  refine pass_leads (J := fun q => Sound True others background q ∧ AtMostOne d created q)
    ⟨h, hone⟩ (fun _ _ _ _ _ => ⟨h.settled, hone.settled⟩) (fun diff plan _ hplan => ?_)
    fun _ _ _ _ hq => ⟨hq.1.withStatus _, hq.2.withStatus _⟩
  refine leads_forEach (fun handler hm q' hq' => runHandler_leads ?_) ⟨h.begun, hone.begun⟩
  exact (operation_leads (Plan.mem_registry_of_make hplan hm)).mono
    (fun _ _ hk => ⟨hq'.1.handled hk, hq'.2.handled hk⟩)
    fun _ hk => ⟨hq'.1.stopped hk, hq'.2.stopped hk⟩

/-- The turn makes no pass, or one that creates the volume as it is defined. -/
def Turn.Creates (d : Definition) : Turn → Prop
  | .pass (.create d' _) => d' = d
  | .pass _ => False
  | .fail _ => True
  | .clock _ => True

variable {ledger : Int → Option Entry} {w : World Cloud} {e : Entry}

theorem Mirrored.creates (h : Mirrored True ledger w) (he : ledger r.id = some e)
    (hone : AtMostOne d created (siteOf w e)) {turn : Turn} (hturn : turn.Creates d) :
    ∃ ledger' e', ledger' r.id = some e' ∧ Mirrored True ledger' (turn.run (resource r) w) ∧
      AtMostOne d created (siteOf (turn.run (resource r) w) e') := by
  cases turn with
  | fail cause => exact ⟨ledger, e, he, h.failing cause, hone⟩
  | clock now => exact ⟨ledger, e, he, h.atTime now, hone⟩
  | pass p =>
    cases p with
    | check => exact hturn.elim
    | destroy wipe confirm => exact hturn.elim
    | create d' options =>
      obtain rfl : d' = d := hturn
      refine Ends.state (P := fun t => ∃ ledger' e', ledger' r.id = some e' ∧
        Mirrored True ledger' t ∧ AtMostOne d' created (siteOf t e'))
        ((create_atMostOne (h.sound he) hone w (h.shows he)).mono ?_ ?_)
      · rintro _ t ⟨q, hq, hsound, hone'⟩
        exact ⟨_, q.entry, Function.update_self .., h.step he hq hsound, hq.siteOf.symm ▸ hone'⟩
      · rintro _ t ⟨q, hq, hsound, hone'⟩
        exact ⟨_, q.entry, Function.update_self .., h.step he hq hsound, hq.siteOf.symm ▸ hone'⟩

/-- However many turns are taken, at most one volume is created. -/
theorem Mirrored.creates_run (h : Mirrored True ledger w) (he : ledger r.id = some e)
    (hone : AtMostOne d created (siteOf w e)) {turns : List Turn}
    (hturns : ∀ turn ∈ turns, turn.Creates d) :
    ∃ ledger' e', ledger' r.id = some e' ∧ Mirrored True ledger' (taking (resource r) turns w) ∧
      AtMostOne d created (siteOf (taking (resource r) turns w) e') := by
  induction turns generalizing ledger w e with
  | nil => exact ⟨ledger, e, he, h, hone⟩
  | cons turn turns ih =>
    obtain ⟨ledger', e', he', h', hone'⟩ := h.creates he hone (hturns turn List.mem_cons_self)
    exact ih h' he' hone' fun turn' hm => hturns turn' (List.mem_cons_of_mem _ hm)

/-- Passes over one definition that fail anywhere, until one ends well, create one volume as it is
defined, and record what is defined. -/
theorem create_exactly_once {deployment : String} {w : World Cloud} (hw : Reached deployment w)
    {r : ResourceRecord} (hr : Declared deployment w r)
    (hnew : ((State.resourceId r).run w.store).1 = .ok none) {d : Definition} (hd : Asks d)
    {turns : List Turn} (hturns : ∀ turn ∈ turns, turn.Creates d) {options : PassOptions}
    {s : Summary} {t : World Cloud}
    (hok : ((resource r).create d options).run (taking (resource r) turns w) = (.ok s, t)) :
    ((State.status r).run t.store).1 = .ok .up ∧
    (∀ key, key ∉ State.reservedKeys →
      ((Store.get r.scope key).run t.store).1 = .ok (d.value? key)) ∧
    t.remote.created = w.remote.created + 1 ∧
    ∃ v, ((State.resourceId r).run t.store).1 =
        .ok (some (Cloud.volumeId (w.remote.created + 1))) ∧
      t.remote.volume? (Cloud.volumeId (w.remote.created + 1)) = some v ∧
      d.string? "region" = some v.region ∧ v.size = (definedSize? d).getD defaultSize ∧
      v.attachedTo = d.string? "attachedTo" := by
  obtain ⟨ledger, h⟩ := hw.mirrored
  obtain ⟨e, he⟩ := h.entry_of_declared hr
  have hnone := h.placement_of_new he hnew
  obtain ⟨ledger', e', he', h', hone⟩ :=
    h.creates_run he (.nothing hnone rfl : AtMostOne d w.remote.created (siteOf w e)) hturns
  obtain ⟨q, hq, hup, hadvanced⟩ :=
    (create_advances hd h'.timely (h'.sound he') _ (h'.shows he')).ok hok
  obtain ⟨q', hq', hsound, hone'⟩ :=
    (create_atMostOne (h'.sound he') hone _ (h'.shows he')).ok hok
  -- Both sites describe the same world, so they have the same texts.
  have htext : ∀ key, q'.entry.text? key = q.entry.text? key := fun key =>
    (hq'.records.textOf? key).symm.trans (hq.records.textOf? key)
  have hroot : ¬ e'.Uprooted d := by
    rintro ⟨placement, -, hp, hne, -⟩
    exact hne (hone.region hp)
  have hsync : ∀ key ∉ State.reservedKeys, q'.entry.InSync d key := fun key hk =>
    (inSync_congr (htext key)).mpr (hadvanced.inSync hd hroot hk)
  refine ⟨by rw [status_run hq.records, hup], fun key hk => ?_, ?_⟩
  · rw [ResourceRecord.scope, Store.get_run hq'.records]
    exact hsync key hk
  cases hone' with
  | nothing hp =>
    obtain ⟨region, hregion⟩ := Option.isSome_iff_exists.mp hd.region
    have hrecorded := (inSync_region_iff hregion).mp (hsync _ (by decide))
    rw [hp] at hrecorded
    cases hrecorded
  | @one placement l hp hc hid hr hl hs =>
    obtain ⟨hregion, hattached, -⟩ := hsound.agrees placement l hp hl
    obtain ⟨v, hv, rfl⟩ := Option.map_eq_some_iff.mp ((hq'.provides.live placement.id).trans hl)
    have htarget := (inSync_attachedTo_iff hd).mp (hsync _ (by decide))
    rw [hp, Option.bind_some] at htarget
    refine ⟨hq'.provides.created.trans hc, v, ?_, hid ▸ hv, ?_, hs, hattached.trans htarget⟩
    · rw [resourceId_run hq'.records, hp, Option.map_some, hid]
    · rw [hr]
      exact congrArg some hregion.symm

/-- The first pass times out after the volume was created, and the second one attaches it. -/
def attaching : Task Cloud Summary := (resource firstVolume).create (attachedIn "us-east-1") {}

theorem create_exactly_once_attaching :
    let first : List Turn := [.pass (.create (attachedIn "us-east-1") {})]
    let t := (attaching.run (taking (resource firstVolume) first hasty)).2
    attaching.run (taking (resource firstVolume) first hasty) =
      (.ok ⟨["attach"], ["attachedTo"]⟩, t) ∧
    ((State.status firstVolume).run t.store).1 = .ok .up ∧
    t.remote.created = hasty.remote.created + 1 := by
  intro first t
  have hw : Reached "dep" hasty := ⟨1, { poll := { maxTries := 1 } }, 0, _, by decide, rfl⟩
  have hr : Declared "dep" hasty firstVolume := by decide +kernel
  have hnew : ((State.resourceId firstVolume).run hasty.store).1 = .ok none :=
    ok_of_toOption (by decide +kernel)
  have hd : Asks (attachedIn "us-east-1") := by decide +kernel
  have hturns : ∀ turn ∈ first, turn.Creates (attachedIn "us-east-1") := by
    intro turn hm
    obtain rfl := List.mem_singleton.mp hm
    rfl
  have hok : attaching.run (taking (resource firstVolume) first hasty) =
      (.ok ⟨["attach"], ["attachedTo"]⟩, t) := run_of_toOption (by decide +kernel)
  obtain ⟨hup, -, hcreated, -⟩ := create_exactly_once hw hr hnew hd hturns hok
  exact ⟨hok, hup, hcreated⟩

end DesiredState.Volume
