import DesiredState.Proofs.Volume.Site

/-!
# What the handlers of a volume do

Each handler is described by the sites it can end on. A call to the provider and the record of it
are two steps, but nothing can fail between them, so a handler that fails stops before such a
pair or after it.
-/

namespace DesiredState.Volume

open DesiredState.Action

namespace Site

def create (p : Site) (d : Definition) (region : String) (now : Nat) : Site where
  entry := ⟨p.entry.status,
    some (newPlacement d (Cloud.volumeId (p.created + 1)) now region)⟩
  live := Function.update p.live (Cloud.volumeId (p.created + 1))
    (some ⟨region, (definedSize? d).getD defaultSize, none⟩)
  created := p.created + 1

/-- The volume with an id was deleted and forgotten. -/
def remove (p : Site) (id : String) : Site := (p.put id none).withEntry ⟨some .missing, none⟩

end Site

variable {r : ResourceRecord} {w₀ : World Cloud} {p : Site} {d : Definition} {consent : Consent}

inductive Provisioned (d : Definition) (consent : Consent) (now : Nat) (p : Site) :
    Site → Prop where
  | kept {placement : Placement} (hp : p.entry.placement = some placement)
      (hr : d.string? "region" = some placement.region) : Provisioned d consent now p p
  | created {region : String} (hp : p.entry.placement = none)
      (hr : d.string? "region" = some region) :
      Provisioned d consent now p (p.create d region now)
  | moved {placement : Placement} {region : String} (hp : p.entry.placement = some placement)
      (hr : d.string? "region" = some region) (hne : placement.region ≠ region)
      (allowed : consent.allowRecreate = true) :
      Provisioned d consent now p ((p.remove placement.id).create d region now)

inductive Stopped (d : Definition) (consent : Consent) (now : Nat) (p : Site) : Site → Prop where
  | untouched : Stopped d consent now p p
  /-- The new volume did not become ready. -/
  | created {region : String} (hp : p.entry.placement = none)
      (hr : d.string? "region" = some region) : Stopped d consent now p (p.create d region now)
  /-- The old volume is deleted and the new one could not be created. -/
  | removed {placement : Placement} {region : String} (hp : p.entry.placement = some placement)
      (hr : d.string? "region" = some region) (hne : placement.region ≠ region)
      (allowed : consent.allowRecreate = true) : Stopped d consent now p (p.remove placement.id)
  /-- The old volume is deleted and the new one did not become ready. -/
  | moved {placement : Placement} {region : String} (hp : p.entry.placement = some placement)
      (hr : d.string? "region" = some region) (hne : placement.region ≠ region)
      (allowed : consent.allowRecreate = true) :
      Stopped d consent now p ((p.remove placement.id).create d region now)

theorem createNew_leads (hp : p.entry.placement = none) (d : Definition) (region : String) :
    Leads r w₀ (createNew r d region) p (fun _ q => q = p.create d region w₀.now)
      fun q => q = p ∨ q = p.create d region w₀.now := by
  unfold createNew
  refine Leads.bind (leads_remotely (fun c hc => ?_) (Or.inl rfl))
  refine (hc.createVolume _ _ _).imp fun id c hid => ⟨_, hid.2, rfl, ?_⟩
  obtain rfl := hid.1
  refine Leads.bind (leads_now ?_)
  refine Leads.bind (leads_change
    (fun s hs => recordCreated_ends hs hp d _ _ region) ?_)
  exact Leads.bind (leads_polling (fun _ => leads_pure rfl) (Or.inr rfl))

theorem deleteOld_leads (id region : String) :
    Leads r w₀ (deleteOld r id region) p (fun _ q => q = p.remove id) fun q => q = p := by
  unfold deleteOld
  refine Leads.bind (leads_record (Leads.bind (leads_remotely (fun c hc => ?_) rfl)))
  refine (hc.deleteVolume id).imp fun _ c hd => ⟨_, hd, rfl, ?_⟩
  exact leads_change (fun s hs => markDestroyed_ends hs) rfl

theorem provision_leads :
    Leads r w₀ (provision r d consent) p (fun _ q => Provisioned d consent w₀.now p q)
      fun q => Stopped d consent w₀.now p q := by
  unfold provision
  cases hr : d.string? "region" with
  | none => exact leads_fail .untouched
  | some region =>
    refine Leads.bind (leads_onStore (fun s hs => resourceId_run hs) ?_)
    cases hp : p.entry.placement with
    | none =>
      refine (createNew_leads hp d region).mono ?_ ?_
      · rintro _ _ rfl
        exact .created hp hr
      · rintro _ (rfl | rfl)
        · exact .untouched
        · exact .created hp hr
    | some placement =>
      refine Leads.bind (leads_inStore (fun s hs => getAs_region hs) ?_)
      rw [hp]
      by_cases hsame : placement.region = region
      · simp only [Option.map_some, hsame, if_true]
        exact leads_pure (.kept hp (hsame ▸ hr))
      have hne : some placement.region ≠ some region := by simpa using hsame
      simp only [Option.map_some, if_neg hne]
      by_cases hallowed : consent.allowRecreate = true
      · simp only [hallowed, not_true_eq_false, if_false]
        refine Leads.bind ((deleteOld_leads placement.id region).mono ?_ ?_)
        · rintro _ _ rfl
          refine (createNew_leads rfl d region).mono ?_ ?_
          · rintro _ _ rfl
            exact .moved hp hr hsame hallowed
          · rintro _ (rfl | rfl)
            · exact .removed hp hr hsame hallowed
            · exact .moved hp hr hsame hallowed
        · rintro _ rfl
          exact .untouched
      · rw [if_pos hallowed]
        exact leads_fail .untouched

theorem requireId_leads {Q : String → Site → Prop} {E : Site → Prop}
    (hQ : ∀ placement, p.entry.placement = some placement → Q placement.id p) (hE : E p) :
    Leads r w₀ (requireId r) p Q E := by
  unfold requireId
  refine Leads.bind (leads_onStore (fun s hs => resourceId_run hs) ?_)
  cases hp : p.entry.placement with
  | none => exact leads_fail hE
  | some placement => exact leads_pure (hQ placement hp)

namespace Site

/-- The volume got another size, which was recorded. -/
def grow (p : Site) (placement : Placement) (l : Live) (size : Size) : Site :=
  (p.put placement.id (some { l with size := size })).withPlacement
    (some { placement with size := some size })

/-- The volume was attached to something else or detached, which was recorded. -/
def attach (p : Site) (placement : Placement) (l : Live) (target : Option String) : Site :=
  (p.put placement.id (some { l with attachedTo := target })).withPlacement
    (some { placement with attachedTo := target })

end Site

inductive Resized (d : Definition) (p : Site) : Site → Prop where
  | dropped {placement : Placement} (hp : p.entry.placement = some placement)
      (hd : wantedSize? d = none) :
      Resized d p (p.withPlacement (some { placement with size := none }))
  | kept {placement : Placement} {size : Size} (hp : p.entry.placement = some placement)
      (hd : wantedSize? d = some size) (hs : placement.size = some size) : Resized d p p
  | grown {placement : Placement} {size : Size} {l : Live}
      (hp : p.entry.placement = some placement) (hd : wantedSize? d = some size)
      (hl : p.live placement.id = some l) : Resized d p (p.grow placement l size)

theorem wantedSize?_of_none (h : definedSize? d = none) : wantedSize? d = none := by
  have hmap := map_wantedSize? d id
  rw [h] at hmap
  exact Option.map_eq_none_iff.mp hmap

theorem wantedSize?_of_some {i : Int} (h : definedSize? d = some i) :
    wantedSize? d = some ⟨i, fits_definedSize h⟩ := by
  simp [wantedSize?, h]

/-- A recorded size does not fall. -/
def NotReduced (p q : Site) : Prop := ∀ old new : Placement, p.entry.placement = some old →
  q.entry.placement = some new → ∀ size size' : Size, old.size = some size →
    new.size = some size' → size.val ≤ size'.val

/-- Resizing does not reduce a size that is recorded. -/
theorem resize_notReduced :
    Leads r w₀ (resize r d consent) p (fun _ q => Resized d p q ∧ NotReduced p q)
      fun q => q = p := by
  unfold resize
  refine Leads.bind (requireId_leads (fun placement hp => ?_) rfl)
  cases hd : definedSize? d with
  | none =>
    refine leads_write (fun s hs => Store.delete_ends hs "size") (Entry.update_size hp none)
      ⟨.dropped hp (wantedSize?_of_none hd), fun old new _ hnew _ size' _ hs' => ?_⟩
    obtain rfl := Option.some.inj hnew
    cases hs'
  | some i =>
    have hwanted := wantedSize?_of_some hd
    refine Leads.bind (leads_inStore (fun s hs => getAs_size hs) ?_)
    rw [hp, Option.bind_some]
    by_cases hsame : placement.size.map Subtype.val = some i
    · rw [if_pos hsame]
      obtain ⟨size, hsize, hval⟩ := Option.map_eq_some_iff.mp hsame
      refine leads_pure ⟨.kept hp hwanted (by rw [hsize]; exact congrArg some (Subtype.ext hval)),
        fun old new hold hnew size size' hs hs' => ?_⟩
      obtain rfl := Option.some.inj (hold.symm.trans hnew)
      obtain rfl := Option.some.inj (hs.symm.trans hs')
      exact Int.le_refl _
    rw [if_neg hsame]
    split
    · exact leads_fail rfl
    rename_i hguard
    refine Leads.bind (leads_inStore (fun s hs => get_attachedTo hs) ?_)
    split
    · exact leads_fail rfl
    refine Leads.bind (leads_remotely (fun c hc => ?_) rfl)
    refine (hc.resize placement.id i).imp fun _ c ⟨l, hl, hc⟩ => ⟨_, hc, rfl, ?_⟩
    refine leads_write (fun s hs => Store.set_ends hs "size" _)
      (Entry.update_size hp (some ⟨i, fits_definedSize hd⟩))
      ⟨.grown hp hwanted hl, fun old new hold hnew size size' hs hs' => ?_⟩
    obtain rfl := Option.some.inj (hp.symm.trans hold)
    obtain rfl := Option.some.inj hnew
    obtain rfl := Option.some.inj hs'
    rw [hs] at hguard
    simpa using hguard

theorem resize_leads :
    Leads r w₀ (resize r d consent) p (fun _ q => Resized d p q) fun q => q = p :=
  resize_notReduced.imp fun _ _ hq => hq.1

theorem stored_tags (d : Definition) :
    Store.stored ((d.value? "tags").getD .null) = wantedTags? d := by
  unfold wantedTags?
  cases d.value? "tags" <;> rfl

/-- How tagging ends well. -/
inductive Tagged (d : Definition) (p : Site) : Site → Prop where
  | tagged {placement : Placement} {l : Live} (hp : p.entry.placement = some placement)
      (hl : p.live placement.id = some l) :
      Tagged d p (p.withPlacement (some { placement with tags := wantedTags? d }))

theorem tag_leads (consent : Consent) :
    Leads r w₀ (tag r d consent) p (fun _ q => Tagged d p q) fun q => q = p := by
  unfold tag
  refine Leads.bind (requireId_leads (fun placement hp => ?_) rfl)
  refine Leads.bind (leads_remotely (fun c hc => ?_) rfl)
  refine (hc.setTags placement.id _).imp fun _ c ⟨⟨l, hl⟩, hc⟩ => ⟨_, hc, rfl, ?_⟩
  exact leads_write (fun s hs => Store.set_ends hs "tags" _)
    (by rw [stored_tags]; exact Entry.update_tags hp (wantedTags? d)) (.tagged hp hl)

theorem stored_target (target : Option String) :
    Store.stored (Json.ofOption Json.str target) =
      target.map fun target => (Json.str target).render := by
  cases target <;> rfl

/-- What a setting asks to attach a volume to; a reference may lead to anything. -/
def Targets : Option Setting → Option String → Prop
  | none, target => target = none
  | some (.value v), target => target = v.string?
  | some (.reference _), _ => True

inductive Attached (d : Definition) (p : Site) : Site → Prop where
  | attached {placement : Placement} {l : Live} {target : Option String}
      (hp : p.entry.placement = some placement) (hl : p.live placement.id = some l)
      (ht : Targets (d.get? "attachedTo") target) : Attached d p (p.attach placement l target)

/-- Resolving a reference only reads. -/
theorem resolve_ends (deployment : String) (target : Reference) (s : Store) :
    (State.resolve deployment target).Ends s (fun _ t => t = s) fun _ t => t = s := by
  unfold State.resolve
  refine Ends.bind (Ends.mapError (ends_view ?_))
  split
  · exact ends_pure rfl
  · refine Ends.bind ?_
    unfold State.status State.readStatus
    refine Ends.bind (Ends.mapError (ends_reading (fun _ _ => ?_) fun _ _ => rfl))
    refine ends_ofExcept (fun status _ => ?_) fun _ _ => rfl
    split
    · exact ends_pure rfl
    · refine Ends.bind (Ends.mapError (ends_reading (fun found _ => ?_) fun _ _ => rfl))
      cases found with
      | none => exact ends_pure rfl
      | some v => exact ends_pure rfl

theorem attachmentTarget_leads {Q : Option String → Site → Prop} {E : Site → Prop}
    (hQ : ∀ target, Targets (d.get? "attachedTo") target → Q target p) (hE : E p) :
    Leads r w₀ (attachmentTarget r d) p Q E := by
  unfold attachmentTarget
  cases hd : d.get? "attachedTo" with
  | none => exact leads_pure (hQ none (by rw [hd]; rfl))
  | some setting =>
    cases setting with
    | value v => exact leads_pure (hQ v.string? (by rw [hd]; rfl))
    | reference target =>
      have hany : ∀ target', Q target' p := fun target' => hQ target' (by rw [hd]; trivial)
      refine Leads.bind (leads_look (fun s _ => ((resolve_ends _ target s).imp
        fun found t ht => ⟨ht, ?_⟩)) hE)
      cases found with
      | ready v => exact leads_pure (hany _)
      | pending => exact leads_fail hE
      | unknown => exact leads_fail hE

theorem attachmentTarget_reads : (attachmentTarget r d).Reads := by
  unfold attachmentTarget
  split
  · exact reads_pure none
  · exact reads_pure _
  · rename_i target _
    have hresolve : (State.resolve r.deployment target).Reads := fun s =>
      Ends.state (P := fun t => t = s) (resolve_ends _ target s)
    refine (World.onStore_reads hresolve).bind fun found => ?_
    cases found with
    | ready v => exact reads_pure _
    | pending => exact reads_ofExcept (.error _)
    | unknown => exact reads_ofExcept (.error _)

theorem attach_leads (consent : Consent) :
    Leads r w₀ (attach r d consent) p (fun _ q => Attached d p q) fun q => q = p := by
  unfold attach
  refine Leads.bind (requireId_leads (fun placement hp => ?_) rfl)
  refine Leads.bind (attachmentTarget_leads (fun target ht => ?_) rfl)
  refine Leads.bind (leads_exclusive (leads_remotely (fun c hc => ?_) rfl))
  refine (hc.attach placement.id target).imp fun _ c ⟨l, hl, hc⟩ => ⟨_, hc, rfl, ?_⟩
  exact leads_write (fun s hs => Store.set_ends hs "attachedTo" _)
    (by rw [stored_target]; exact Entry.update_attachedTo hp target) (.attached hp hl ht)

/-- How a handler of the registry ends well. -/
inductive Handled (d : Definition) (consent : Consent) (now : Nat) (p : Site) : Site → Prop where
  | provisioned {q : Site} (h : Provisioned d consent now p q) : Handled d consent now p q
  | resized {q : Site} (h : Resized d p q) : Handled d consent now p q
  | tagged {q : Site} (h : Tagged d p q) : Handled d consent now p q
  | attached {q : Site} (h : Attached d p q) : Handled d consent now p q

theorem operation_leads {h : Handler (Handling Cloud)} (hh : h ∈ (registry r).handlers) :
    Leads r w₀ (h.operation d consent) p (fun _ q => Handled d consent w₀.now p q)
      fun q => Stopped d consent w₀.now p q := by
  have hstop : ∀ q, q = p → Stopped d consent w₀.now p q := by
    rintro _ rfl
    exact .untouched
  simp only [registry, List.mem_cons, List.not_mem_nil, or_false] at hh
  rcases hh with rfl | rfl | rfl | rfl
  · exact provision_leads.imp fun _ _ hq => .provisioned hq
  · exact resize_leads.mono (fun _ _ hq => .resized hq) hstop
  · exact (tag_leads consent).mono (fun _ _ hq => .tagged hq) hstop
  · exact (attach_leads consent).mono (fun _ _ hq => .attached hq) hstop

end DesiredState.Volume
