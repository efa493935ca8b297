import DesiredState.Proofs.Store.Refinement
import DesiredState.Proofs.Volume.Safe

/-!
# Work on one volume leaves its neighbours alone

All volumes share a store and a provider, and work on a volume addresses the provider by the id
that is recorded for it. No id is ever recorded for two resources, whatever somebody does to the
volumes behind the engine's back: ids are given once. So an operation on one volume changes neither
the records of anything else nor any volume that is recorded for another resource.
-/

namespace DesiredState

open DesiredState.Action

namespace Store

theorem set_keeps_others {scope other : Scope} (h : other ≠ scope) {key : String} {v : Json} :
    Keeps (fun s t => t.attributesOf? other = s.attributesOf? other) (set scope key v) := by
  unfold set
  split
  · exact keeps_update (attributesOf?_change_of_ne h _)
  · exact put_keeps_of_change (attributesOf?_change_of_ne h _)

end Store

namespace Volume

open DesiredState.World

variable {i : Int} {w₀ w : World Cloud} {r : ResourceRecord}

/-- A volume is recorded for another resource. -/
def NamedElsewhere (s : Store) (i : Int) (id : String) : Prop := ∃ j, j ≠ i ∧ Names s j id

/-- Each recorded id was given by the provider, and is recorded for one resource only. -/
structure Assigned (w : World Cloud) : Prop where
  coherent : w.store.Coherent fun _ => True
  distinct : ∀ {i j id}, Names w.store i id → Names w.store j id → i = j
  numbered : ∀ {i id}, Names w.store i id → Numbered w.remote.created id

theorem Assigned.safe (h : Assigned w) (i : Int) : Safe (NamedElsewhere w.store i) i w w where
  records := refl_of _ w.store
  volumes _ _ := rfl
  numbered _ := fun ⟨_, _, hj⟩ => h.numbered hj
  own _ hid := ⟨fun ⟨_, hne, hj⟩ => hne (h.distinct hj hid), h.numbered hid⟩

/-- Where the neighbours are safe, every id is still recorded once. -/
theorem Safe.assigned (h : Safe (NamedElsewhere w₀.store i) i w₀ w) (h₀ : Assigned w₀) :
    Assigned w := by
  have hothers : ∀ {j id}, j ≠ i → Names w.store j id → Names w₀.store j id := fun hne hj =>
    hj.of_attributesOf? (h.records.attributesOf? (by simpa using hne))
  have helsewhere : ∀ {j id}, j ≠ i → Names w.store j id → NamedElsewhere w₀.store i id :=
    fun hne hj => ⟨_, hne, hothers hne hj⟩
  refine ⟨h.records.rewrites.reaches.coherent h₀.coherent, fun {j k id} hj hk => ?_,
    fun {j id} hj => ?_⟩
  · -- Only for the one resource can a volume be recorded that was not before.
    by_cases hji : j = i <;> by_cases hki : k = i
    · rw [hji, hki]
    · exact absurd (helsewhere hki hk) (h.own id (hji ▸ hj)).1
    · exact absurd (helsewhere hji hj) (h.own id (hki ▸ hk)).1
    · exact h₀.distinct (hothers hji hj) (hothers hki hk)
  · by_cases hji : j = i
    · exact (h.own id (hji ▸ hj)).2
    · exact h.numbered id (helsewhere hji hj)

theorem Assigned.pass (h : Assigned w) (p : Pass) : Assigned (p.run (resource r) w) :=
  ((h.safe r.id).pass p).assigned h

/-- Coherent records stay so, and no volume is recorded for a resource that was not before. -/
structure Retains (s t : Store) : Prop where
  coherent : s.Coherent (fun _ => True) → t.Coherent fun _ => True
  names : s.Coherent (fun _ => True) → ∀ {i id}, Names t i id → Names s i id

instance : IsPreorder Store Retains where
  refl _ := ⟨id, fun _ _ _ => id⟩
  trans _ _ _ h k := ⟨k.coherent ∘ h.coherent, fun hs _ _ hid =>
    h.names hs (k.names (h.coherent hs) hid)⟩

theorem Assigned.recording {α : Type} {a : Action Store StoreError α} (h : Assigned w)
    (ha : Keeps Retains a) : Assigned ((inStore a : Task Cloud α).run w).2 := by
  have hstore : Retains w.store ((inStore a : Task Cloud α).run w).2.store :=
    onStore_keeps_store ha.mapError w
  have hremote : w.remote = ((inStore a : Task Cloud α).run w).2.remote :=
    onStore_keeps (R := Eq) _ w
  exact ⟨hstore.coherent h.coherent,
    fun hi hj => h.distinct (hstore.names h.coherent hi) (hstore.names h.coherent hj),
    fun hi => hremote ▸ h.numbered (hstore.names h.coherent hi)⟩

/-- A resource that is declared anew has a new number, and nothing is recorded for it. -/
theorem declareResource_retains (deployment name resourceType : String) :
    Keeps Retains (Store.declareResource deployment name resourceType) := by
  intro s
  refine ⟨(Store.declareResource_keeps _ _ _ s).coherent, fun hs {i id} => ?_⟩
  refine Ends.state (P := fun t => Names t i id → Names s i id)
    ((Store.declareResource_ends s deployment name resourceType).mono ?_ fun _ _ ht hid => ht ▸ hid)
  rintro _ _ (⟨rfl, -⟩ | ⟨-, d, hd, rfl, rfl⟩) hid
  · exact hid
  have hnew : s.resourceById? (s.lastId + 1) = none :=
    Store.resourceById?_eq_none fun deployment hi => by
      have := hs.bounded hi
      omega
  have hattributes := Store.attributesOf?_addResource
    (r := ⟨s.lastId + 1, name, resourceType, .empty⟩) hd hnew i
  split at hattributes
  · obtain ⟨text, htext, -⟩ := names_iff.mp hid
    rw [Store.textOf?, Store.attributesOf, hattributes] at htext
    cases htext
  · exact hid.of_attributesOf? hattributes

/-- The attributes of deployments are those of no resource. -/
theorem set_retains (uuid key : String) (v : Json) :
    Keeps Retains (Store.set (.deployment uuid) key v) := by
  have hchange : Keeps (Store.Rewrites fun _ => True) (Store.set (.deployment uuid) key v) :=
    Store.set_keeps _ key fun _ => trivial
  intro s
  refine ⟨(hchange s).reaches.coherent, fun _ {i id} hid => hid.of_attributesOf? ?_⟩
  exact Store.set_keeps_others (by simp) s

/-- Something that happens to a deployment while others interfere with it. -/
inductive Incident where
  | event (e : Event)
  /-- A volume is changed behind the engine's back. -/
  | tamper (id : String) (f : CloudVolume → CloudVolume)
  /-- An attribute of the deployment is written. -/
  | annotate (key : String) (v : Json)

def Incident.run (deployment : String) (w : World Cloud) : Incident → World Cloud
  | .event e => e.run deployment w
  | .tamper id f => { w with remote := w.remote.tamper id f }
  | .annotate key v =>
    ((inStore (Store.set (.deployment deployment) key v) : Task Cloud Unit).run w).2

def amid (deployment : String) (incidents : List Incident) (w : World Cloud) : World Cloud :=
  incidents.foldl (Incident.run deployment) w

theorem Assigned.declare (h : Assigned w) (deployment name : String) :
    (Volume.declare deployment name volumeType).Ends w
      (fun v t => Assigned t ∧ ∃ r, v = resource r) fun _ t => Assigned t := by
  have hrecord := h.recording (declareResource_retains deployment name volumeType)
  exact Ends.bind ((ends_of_state hrecord).imp fun r t ht => ends_pure ⟨ht, r, rfl⟩)

/-- Whatever becomes of the volumes at the provider, what is recorded stays assigned. -/
theorem Assigned.remote (h : Assigned w) {c : Cloud} (hc : w.remote.created ≤ c.created) :
    Assigned { w with remote := c } :=
  ⟨h.coherent, h.distinct, fun hi => (h.numbered hi).mono hc⟩

theorem Assigned.event (h : Assigned w) (deployment : String) (e : Event) :
    Assigned (e.run deployment w) := by
  cases e with
  | declare name =>
    exact ((h.declare deployment name).mono (fun _ _ ht => ht.1) fun _ _ ht => ht).state
  | pass name p =>
    refine (h.declare deployment name).elim ?_ ?_
    · rintro _ t hrun ⟨ht, r, rfl⟩
      simp only [Event.run, hrun]
      exact ht.pass p
    · intro _ t hrun ht
      simp only [Event.run, hrun]
      exact ht
  | fail cause => exact h.remote (c := w.remote.failNext cause) (Nat.le_refl _)
  | forget id => exact h.remote (c := w.remote.forget id) (Nat.le_refl _)
  | clock now => exact ⟨h.coherent, h.distinct, h.numbered⟩

theorem Assigned.incident (h : Assigned w) (deployment : String) (incident : Incident) :
    Assigned (incident.run deployment w) := by
  cases incident with
  | event e => exact h.event deployment e
  | tamper id f =>
    refine h.remote (c := w.remote.tamper id f) ?_
    unfold Cloud.tamper
    split <;> exact Nat.le_refl _
  | annotate key v => exact h.recording (set_retains deployment key v)

theorem assigned_fixture (deployment : String) (settlePolls : Nat) (services : Services)
    (now : UInt64) : Assigned (fixture deployment settlePolls services now) := by
  have hnone : ∀ {i id}, ¬ Names (fixture deployment settlePolls services now).store i id := by
    intro i id hid
    obtain ⟨text, htext, -⟩ := names_iff.mp hid
    cases htext
  refine ⟨?_, fun hi => absurd hi hnone, fun hi => absurd hi hnone⟩
  exact (Store.createDeployment_keeps deployment _).coherent (Store.coherent_of_empty rfl)

/-- Every run keeps recorded ids apart. -/
theorem Assigned.amid (h : Assigned w) (deployment : String) (incidents : List Incident) :
    Assigned (amid deployment incidents w) := by
  induction incidents generalizing w with
  | nil => exact h
  | cons incident incidents ih => exact ih (h.incident deployment incident)

theorem Declared.mem_resourceRows {deployment : String} (h : Declared deployment w r) :
    r ∈ w.store.resourceRows := by
  obtain ⟨found, hfound, rfl⟩ := Option.map_eq_some_iff.mp h
  exact Store.mem_resourceRows_iff.mpr ⟨found, List.mem_of_find?_eq_some hfound, rfl⟩

/-- After any run, with whatever interference, an operation on a volume changes nothing but that
volume, however it ends: all deployments and resources keep their rows, all deployments and all
other resources keep their attributes, and the provider has the same volume as before, or none,
under each id that is recorded for another resource. -/
theorem neighbours_untouched (deployment : String) (settlePolls : Nat) (services : Services)
    (now : UInt64) (incidents : List Incident) (r : ResourceRecord) (p : Pass)
    (hr : Declared deployment
      (amid deployment incidents (fixture deployment settlePolls services now)) r) :
    let w := amid deployment incidents (fixture deployment settlePolls services now)
    let t := p.run (resource r) w
    t.store.deploymentRows = w.store.deploymentRows ∧
    t.store.resourceRows = w.store.resourceRows ∧
    (∀ uuid, t.store.attributesOf? (.deployment uuid) =
      w.store.attributesOf? (.deployment uuid)) ∧
    ∀ other ∈ w.store.resourceRows, other ≠ r →
      t.store.attributesOf? other.scope = w.store.attributesOf? other.scope ∧
      ∀ id, Recorded w.store other.id State.resourceIdKey (.str id) →
        t.remote.volume? id = w.remote.volume? id := by
  intro w t
  have hassigned : Assigned w :=
    (assigned_fixture deployment settlePolls services now).amid deployment incidents
  have hsafe : Safe (NamedElsewhere w.store r.id) r.id w t := (hassigned.safe r.id).pass p
  refine ⟨hsafe.records.deploymentRows, hsafe.records.resourceRows,
    fun uuid => hsafe.records.attributesOf? (by simp), fun other hother hne => ?_⟩
  have hid : other.id ≠ r.id := fun he =>
    hne (List.inj_on_of_nodup_map hassigned.coherent.nodup_ids hother hr.mem_resourceRows he)
  refine ⟨hsafe.records.attributesOf? ?_, fun id hnamed => hsafe.volumes id ⟨other.id, hid, hnamed⟩⟩
  simpa [ResourceRecord.scope] using hid

/-- A volume beside the first one. -/
def secondVolume : ResourceRecord := ⟨2, "dep", "logs", volumeType⟩

/-- Two attached volumes, of which somebody has grown the second. -/
def neighbourhood : List Incident :=
  [.annotate "owner" (.str "ops"),
    .event (.pass firstVolume.name (.create (attachedIn "us-east-1") {})),
    .event (.pass secondVolume.name (.create (attachedIn "us-east-1") {})),
    .tamper "vol-2" fun v => { v with size := 32 }]

/-- The first volume is to move and to be attached to what the region of the second one names. -/
def movedFirst : Definition :=
  (placedIn "eu-west-1").withSetting "attachedTo" (.reference ⟨secondVolume.name, "region"⟩)

/-- Recreating a volume with a reference to its neighbour: there is a new one in its place, and
the neighbour is what it was. -/
theorem neighbours_untouched_recreating :
    let w := amid "dep" neighbourhood (fixture "dep" 0 {} 0)
    let p := Pass.create movedFirst { consent := { allowRecreate := true } }
    let t := p.run (resource firstVolume) w
    Declared "dep" w firstVolume ∧
    secondVolume ∈ w.store.resourceRows ∧ secondVolume ≠ firstVolume ∧
    Recorded w.store secondVolume.id State.resourceIdKey (.str "vol-2") ∧
    Recorded t.store firstVolume.id State.resourceIdKey (.str "vol-3") ∧
    t.store.attributesOf? (.deployment "dep") = w.store.attributesOf? (.deployment "dep") ∧
    t.store.attributesOf? secondVolume.scope = w.store.attributesOf? secondVolume.scope ∧
    t.remote.volume? "vol-2" = w.remote.volume? "vol-2" := by
  intro w p t
  have hr : Declared "dep" w firstVolume := by decide +kernel
  have hrow : secondVolume ∈ w.store.resourceRows := by decide +kernel
  have hne : secondVolume ≠ firstVolume := by decide
  have hid : Recorded w.store secondVolume.id State.resourceIdKey (.str "vol-2") := by
    decide +kernel
  have hnew : Recorded t.store firstVolume.id State.resourceIdKey (.str "vol-3") := by
    decide +kernel
  obtain ⟨-, -, hdeployments, hothers⟩ :=
    neighbours_untouched "dep" 0 {} 0 neighbourhood firstVolume p hr
  obtain ⟨hattributes, hvolumes⟩ := hothers secondVolume hrow hne
  exact ⟨hr, hrow, hne, hid, hnew, hdeployments "dep", hattributes, hvolumes "vol-2" hid⟩

end Volume

end DesiredState
