import DesiredState.Proofs.Plan
import DesiredState.Proofs.Volume.Handlers
import DesiredState.Resource.Converge

/-!
# What passes over a volume do

Checking, destroying and creating are followed from site to site. A pass that creates is described
by what holds while its handlers run: it holds once the volume is marked as starting, and every
handler of the registry keeps it, whether it ends well or stops.
-/

namespace DesiredState.Volume

open DesiredState.Action

namespace Site

def withStatus (p : Site) (status : Status) : Site :=
  p.withEntry { p.entry with status := some status }

/-- While handlers run a volume is starting, unless it is up. -/
def begun (p : Site) : Site := if p.entry.state = .up then p else p.withStatus .starting

/-- With nothing left to do, a volume that exists is up. -/
def settled (p : Site) : Site :=
  if p.entry.placement.isSome ∧ p.entry.state ≠ .up then p.withStatus .up else p

theorem begun_of {P : Site → Prop} {p : Site} (h : P p) (hs : ∀ status, P (p.withStatus status)) :
    P p.begun := by
  unfold begun
  split
  · exact h
  · exact hs _

theorem settled_of {P : Site → Prop} {p : Site} (h : P p)
    (hs : ∀ status, P (p.withStatus status)) : P p.settled := by
  unfold settled
  split
  · exact hs _
  · exact h

/-- Only the status may have changed when handlers begin. -/
theorem begun_placement (p : Site) : p.begun.entry.placement = p.entry.placement :=
  begun_of (P := fun q => q.entry.placement = p.entry.placement) rfl fun _ => rfl

theorem begun_created (p : Site) : p.begun.created = p.created :=
  begun_of (P := fun q => q.created = p.created) rfl fun _ => rfl

/-- The provider's volume is set up as it is recorded. -/
def Agrees (p : Site) : Prop := ∀ placement l, p.entry.placement = some placement →
  p.live placement.id = some l → l.region = placement.region ∧
    l.attachedTo = placement.attachedTo ∧ ∀ size, placement.size = some size → l.size = size.val

end Site

variable {r : ResourceRecord} {w₀ : World Cloud} {p : Site} {d : Definition} {consent : Consent}

theorem setStatus_leads {status : Status} {Q : Unit → Site → Prop} {E : Site → Prop}
    (hQ : Q () (p.withStatus status)) :
    Leads r w₀ (World.onStore (State.setStatus r status)) p Q E :=
  leads_change (fun _ hs => writeStatus_ends hs status) hQ

/-- How a check ends well. -/
inductive Checked (p : Site) : Site → Prop where
  | kept : Checked p p
  /-- The recorded volume is gone. -/
  | gone {placement : Placement} (hp : p.entry.placement = some placement)
      (hl : p.live placement.id = none) : Checked p (p.remove placement.id)

theorem compare_leads {observed : CloudVolume} {placement : Placement}
    (hp : p.entry.placement = some placement) (hl : p.live placement.id = some observed.live)
    (h : p.Agrees) {E : Site → Prop} :
    Leads r w₀ (compare r observed) p (fun _ q => q = p) E := by
  obtain ⟨-, hattached, hsize⟩ := h placement _ hp hl
  unfold compare
  refine Leads.bind (leads_inStore (fun s hs => getAs_size hs) ?_)
  refine Leads.bind (leads_inStore (fun s hs => getAs_attachedTo hs) ?_)
  have hnone : sizeDrift ((p.entry.placement.bind Placement.size).map Subtype.val) observed.size ++
      attachmentDrift (p.entry.placement.bind Placement.attachedTo) observed.attachedTo = [] := by
    have hsame : placement.attachedTo = observed.attachedTo := hattached.symm
    rw [hp, Option.bind_some, Option.bind_some, attachmentDrift, if_pos hsame, List.append_nil]
    cases hs : placement.size with
    | none => rfl
    | some size => exact if_pos (hsize size hs).symm
  rw [hnone]
  refine Leads.bind (leads_inStore (x := ()) (fun s _ => rfl) ?_)
  exact Leads.bind (leads_onStore (fun s hs => status_run hs) (leads_pure rfl))

theorem check_leads (h : p.Agrees) :
    Leads r w₀ (check r) p (fun _ q => Checked p q) fun q => q = p := by
  unfold check
  refine Leads.bind (leads_onStore (fun s hs => resourceId_run hs) ?_)
  cases hp : p.entry.placement with
  | none => exact Leads.bind (leads_onStore (fun s hs => status_run hs) (leads_pure .kept))
  | some placement =>
    refine Leads.bind (leads_remotely (fun c hc => ?_) rfl)
    refine (hc.describe placement.id).imp fun found c hd => ⟨p, hd.2, rfl, ?_⟩
    cases found with
    | some observed =>
      refine (compare_leads hp hd.1.symm h).imp ?_
      rintro _ _ rfl
      exact .kept
    | none =>
      refine Leads.bind (leads_record ?_)
      have hgone : p.withEntry ⟨some .missing, none⟩ = p.remove placement.id := by
        have hl : p.live placement.id = none := hd.1.symm
        rw [Site.remove, Site.put_self hl]
      refine Leads.bind (leads_change (fun s hs => markDestroyed_ends hs) ?_)
      rw [hgone]
      exact leads_pure (.gone hp hd.1.symm)

/-- How destroying ends well. -/
inductive Destroyed (p : Site) : Site → Prop where
  /-- The user did not agree. -/
  | refused : Destroyed p p
  | blank (hp : p.entry.placement = none) : Destroyed p (p.withEntry ⟨some .missing, none⟩)
  | removed {placement : Placement} (hp : p.entry.placement = some placement) :
      Destroyed p (p.remove placement.id)

theorem remove_leads (id : String) :
    Leads r w₀ (remove r id) p (fun _ q => q = p.remove id)
      fun q => q = p.withStatus .stopping := by
  unfold remove
  refine Leads.bind (setStatus_leads ?_)
  refine Leads.bind (leads_exclusive (leads_remotely (fun c hc => ?_) rfl))
  refine (hc.deleteVolume id).imp fun _ c hd => ⟨_, hd, rfl, ?_⟩
  exact leads_change (fun s hs => markDestroyed_ends hs) rfl

theorem ask_leads {confirm : Confirmation} {question : String} {Q : Bool → Site → Prop}
    {E : Site → Prop} (hQ : ∀ agreed, Q agreed p) (hE : E p) :
    Leads r w₀ (confirm.ask question) p Q E := by
  unfold Confirmation.ask
  refine Leads.bind (leads_record ?_)
  cases confirm with
  | answered yes => exact leads_pure (hQ yes)
  | assumed => exact Leads.bind (leads_record (leads_pure (hQ true)))
  | unanswerable reason => exact leads_fail hE

theorem destroy_leads {wipe : Bool} {confirm : Confirmation} :
    Leads r w₀ (destroy r wipe confirm) p (fun _ q => Destroyed p q)
      fun q => q = p ∨ q = p.withStatus .stopping := by
  unfold destroy
  refine Leads.bind (leads_onStore (fun s hs => resourceId_run hs) ?_)
  cases hp : p.entry.placement with
  | none =>
    exact Leads.bind (leads_change (fun s hs => markDestroyed_ends hs) (leads_pure (.blank hp)))
  | some placement =>
    have hremove : Leads r w₀ (do remove r placement.id; return true) p
        (fun _ q => Destroyed p q) fun q => q = p ∨ q = p.withStatus .stopping := by
      refine Leads.bind ((remove_leads placement.id).mono ?_ fun _ hq => Or.inr hq)
      rintro _ _ rfl
      exact leads_pure (.removed hp)
    cases wipe with
    | false => exact hremove
    | true =>
      simp only [if_true]
      refine Leads.bind (ask_leads (fun agreed => ?_) (Or.inl rfl))
      cases agreed with
      | false => exact leads_pure .refused
      | true => exact hremove

/-- A difference between a definition and the records of an entry. -/
def Differs (e : Entry) (d : Definition) (diff : Diff) : Prop := ∃ current resolve,
  (∀ key, Store.denoted (e.text? key) = .ok (current.find? key)) ∧
    Diff.compute d current State.reservedKeys resolve = .ok diff

theorem difference_leads (resolve : Store → Resolver) :
    Leads r w₀ ((resource r).difference d resolve) p
      (fun diff q => q = p ∧ Differs p.entry d diff) fun q => q = p := by
  unfold Resource.difference
  refine Leads.bind (leads_look (fun s hs => Ends.mapError
    ((Store.exportAttributes_ends hs).imp fun current t ht => ⟨ht.1, ?_⟩)) rfl)
  exact leads_reading (fun w diff hdiff => ⟨rfl, current, _, ht.2, hdiff⟩) rfl

theorem settle_leads {Q : Unit → Site → Prop} {E : Site → Prop} (hQ : Q () p.settled) :
    Leads r w₀ (resource r).settle p Q E := by
  unfold Resource.settle
  refine Leads.bind (leads_onStore (fun s hs => resourceId_run hs) ?_)
  unfold Site.settled at hQ
  cases hp : p.entry.placement with
  | none =>
    rw [hp] at hQ
    exact leads_record (by simpa using hQ)
  | some placement =>
    rw [hp] at hQ
    refine Leads.bind (leads_onStore (fun s hs => status_run hs) ?_)
    by_cases hup : p.entry.state = .up
    · simp only [hup]
      exact leads_record (by simpa [hup] using hQ)
    · simp only [hup]
      exact Leads.bind (leads_record (setStatus_leads (by simpa [hup] using hQ)))

theorem begin_leads {Q : Unit → Site → Prop} {E : Site → Prop} (hQ : Q () p.begun) :
    Leads r w₀ (resource r).begin p Q E := by
  unfold Resource.begin
  refine Leads.bind (leads_onStore (fun s hs => status_run hs) ?_)
  unfold Site.begun at hQ
  split at hQ
  · rw [if_neg (by simpa using ‹_›)]
    exact leads_pure hQ
  · rw [if_pos ‹_›]
    exact setStatus_leads hQ

theorem reportEnd_leads {h : Handler (Handling Cloud)} {outcome : Except Failure Unit}
    {Q : Unit → Site → Prop} {E : Site → Prop} (hQ : Q () p) :
    Leads r w₀ ((resource r).reportEnd h outcome) p Q E := by
  unfold Resource.reportEnd
  split
  · exact leads_record hQ
  · exact leads_pure hQ

theorem runHandler_leads {h : Handler (Handling Cloud)} {Q E : Site → Prop}
    (hop : Leads r w₀ (h.operation d consent) p (fun _ q => Q q) E) :
    Leads r w₀ ((resource r).runHandler d consent h) p (fun _ q => Q q) E := by
  unfold Resource.runHandler
  refine Leads.bind (leads_record (Leads.bind ((leads_attempt hop).imp fun outcome q hq => ?_)))
  refine Leads.bind (reportEnd_leads ?_)
  cases outcome with
  | ok x => exact leads_pure (hq.1 x rfl)
  | error cause => exact leads_fail (hq.2 cause rfl)

theorem apply_leads {diff : Diff} {plan : Plan (Handling Cloud)} {J : Site → Prop}
    {Q : Summary → Site → Prop} {E : Site → Prop}
    (hrun : Leads r w₀ (Action.forEach ((resource r).runHandler d consent) plan.handlers) p.begun
      (fun _ q => J q) E)
    (hQ : ∀ q, J q → Q ⟨plan.ids, diff.changedKeys⟩ (q.withStatus .up)) :
    Leads r w₀ ((resource r).apply d consent diff plan) p Q E := by
  unfold Resource.apply
  refine Leads.bind (leads_record (Leads.bind (leads_record (Leads.bind (begin_leads ?_)))))
  refine Leads.bind (hrun.imp fun _ q hq => ?_)
  exact Leads.bind (setStatus_leads (leads_pure (hQ q hq)))

/-- Without handlers to run a pass settles; with handlers it ends where they lead, which may depend
on the plan. -/
theorem pass_leads_of {resolve : Store → Resolver} {J : Plan (Handling Cloud) → Site → Prop}
    {Q : Summary → Site → Prop} {E : Site → Prop} (hE : E p)
    (hsettled : ∀ diff plan, Differs p.entry d diff → (resource r).planFor diff = .ok plan →
      plan.handlers = [] → Q .unchanged p.settled)
    (hrun : ∀ diff plan, Differs p.entry d diff → (resource r).planFor diff = .ok plan →
      plan.handlers ≠ [] →
      Leads r w₀ (Action.forEach ((resource r).runHandler d consent) plan.handlers) p.begun
        (fun _ q => J plan q) E)
    (hQ : ∀ (diff : Diff) (plan : Plan (Handling Cloud)) q, plan.handlers ≠ [] → J plan q →
      Q ⟨plan.ids, diff.changedKeys⟩ (q.withStatus .up)) :
    Leads r w₀ ((resource r).pass d consent resolve) p Q E := by
  unfold Resource.pass
  refine Leads.bind ((difference_leads resolve).mono ?_ ?_)
  · rintro diff _ ⟨rfl, hdiff⟩
    refine Leads.bind (leads_ofExcept (fun plan hplan => ?_) hE)
    split
    · rename_i hempty
      have hnil := List.isEmpty_iff.mp hempty
      exact Leads.bind (settle_leads (leads_pure (hsettled diff plan hdiff hplan hnil)))
    · rename_i hempty
      have hne : plan.handlers ≠ [] := fun hnil => hempty (List.isEmpty_iff.mpr hnil)
      exact apply_leads (hrun diff plan hdiff hplan hne) fun q hq => hQ diff plan q hne hq
  · rintro _ rfl
    exact hE

theorem pass_leads {resolve : Store → Resolver} {J : Site → Prop} {Q : Summary → Site → Prop}
    {E : Site → Prop} (hE : E p)
    (hsettled : ∀ diff plan, Differs p.entry d diff → (resource r).planFor diff = .ok plan →
      plan.handlers = [] → Q .unchanged p.settled)
    (hrun : ∀ diff plan, Differs p.entry d diff → (resource r).planFor diff = .ok plan →
      Leads r w₀ (Action.forEach ((resource r).runHandler d consent) plan.handlers) p.begun
        (fun _ q => J q) E)
    (hQ : ∀ (diff : Diff) (plan : Plan (Handling Cloud)) q, plan.handlers ≠ [] → J q →
      Q ⟨plan.ids, diff.changedKeys⟩ (q.withStatus .up)) :
    Leads r w₀ ((resource r).pass d consent resolve) p Q E :=
  pass_leads_of (J := fun _ => J) hE hsettled
    (fun diff plan hdiff hplan _ => hrun diff plan hdiff hplan) hQ

/-- A creating pass checks first if it is told to. -/
theorem create_leads {options : PassOptions} (hA : options.check = true → p.Agrees)
    {Q : Summary → Site → Prop} {E : Site → Prop} (hE : E p)
    (hpass : ∀ q, Checked p q → (options.check = false → q = p) →
      Leads r w₀ ((resource r).pass d options.consent (resource r).siblings) q Q E) :
    Leads r w₀ ((resource r).create d options) p Q E := by
  unfold Resource.create Resource.converge
  refine Leads.bind (leads_ofExcept (fun _ _ => ?_) hE)
  cases hcheck : options.check with
  | false => exact hpass p .kept fun _ => rfl
  | true =>
    simp only [if_true]
    refine Leads.bind ((check_leads (hA hcheck)).mono (fun report q hq => ?_) ?_)
    · refine Leads.bind ((leads_forEach (I := fun p => p = q) (fun _ _ q' hq' => ?_) rfl).imp ?_)
      · exact leads_record hq'
      · rintro _ _ rfl
        exact hpass _ hq fun hnot => by rw [hcheck] at hnot; cases hnot
    · rintro _ rfl
      exact hE

end DesiredState.Volume
