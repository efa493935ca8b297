import DesiredState.Proofs.Backups
import DesiredState.Proofs.Command.Calls
import DesiredState.Proofs.Store.Removal

/-!
# What commands change

A command that fails, or whose question is answered with no, leaves the records as they were. One
that removes something asks first, and then takes what it was to remove and nothing else.
-/

namespace DesiredState.Command

open DesiredState.Action

variable {ρ ε α : Type} {w : World ρ}

/-- What only reads the store returns what it reads, or fails, and leaves the world. -/
theorem onStore_reads_ends {a : Action Store StoreError α} (h : a.Reads) :
    (onStore a : Operation ρ α).Ends w (fun x t => a.run w.store = (.ok x, w.store) ∧ t = w)
      fun _ t => t = w :=
  Ends.mapError (World.onStore_reads_ends h)

theorem step_reads_ends {a : State.Step α} (h : a.Reads) :
    (step a : Operation ρ α).Ends w (fun x t => a.run w.store = (.ok x, w.store) ∧ t = w)
      fun _ t => t = w :=
  Ends.mapError (World.onStore_reads_ends h)

/-- A line in the log ends a change of records. -/
theorem logged_ends {a : World.Change ρ Unit} {Q : Unit → World ρ → Prop}
    {E : StoreError → World ρ → Prop} {level : LogLevel} {source : LogSource} {text : String}
    (h : a.Ends w (fun x t => Q x (World.record (.logged ⟨level, source, text⟩) t)) E) :
    (do a; World.log level source text : World.Change ρ Unit).Ends w Q E :=
  Ends.bind (h.imp fun _ _ q => ends_update q)

/-- The attributes of a new deployment. -/
def nameAttributes : Option String → KeyMap String
  | none => .empty
  | some name => KeyMap.empty.insert Store.nameKey (Json.str name).render

def withDeployment (s : Store) (uuid : String) (name : Option String) : Store :=
  { s with deployments := s.deployments.insert uuid ⟨nameAttributes name, []⟩ }

theorem insert_ne_self {s : Store} {uuid : String} (hnew : s.deployments.find? uuid = none)
    (d : StoredDeployment) : { s with deployments := s.deployments.insert uuid d } ≠ s := by
  intro heq
  have hsame : s.deployments.insert uuid d = s.deployments := congrArg Store.deployments heq
  rw [← hsame, KeyMap.find?_insert_self] at hnew
  cases hnew

/-- A deployment is recorded only if nothing is in the way of the store. -/
theorem change_createDeployment_ends (fresh : String) :
    (change (World.createDeployment fresh) : Operation ρ Unit).Ends w
      (fun _ t => w.store.deployments.find? fresh = none ∧ t.obstacles = {} ∧
        t.store = withDeployment w.store fresh none)
      fun _ t => t.store = w.store := by
  refine Ends.mapError (logged_ends ?_)
  refine (World.onStore_ends_any ((Store.createDeployment_ends w.store fresh).imp
    fun _ _ _ => trivial)).mono (fun _ t ht => ?_) fun _ t ht => by rw [ht]
  obtain ⟨hrun, hleft, hclear⟩ := ht
  obtain ⟨hnew, hstore⟩ := (Store.createDeployment_ends w.store fresh).ok hrun
  have hne : t.store ≠ w.store := hstore ▸ insert_ne_self hnew _
  refine ⟨hnew, ?_, hstore⟩
  rw [hleft]
  exact hclear hne

/-- A deployment that was recorded just now gets its name. -/
theorem run_setName {s : Store} {fresh name : String} (hw : w.obstacles = {})
    (hs : w.store = withDeployment s fresh none) :
    (onStore (Store.set (.deployment fresh) Store.nameKey (.str name)) : Operation ρ Unit).run w =
      (.ok (), { w with store := withDeployment s fresh (some name) }) := by
  refine run_onStore hw ?_
  have hchange : w.store.changeAttributes? (.deployment fresh)
      (fun m => m.insert Store.nameKey (Json.str name).render) =
        some (withDeployment s fresh (some name)) := by
    rw [hs, Store.changeAttributes?, withDeployment, KeyMap.find?_insert_self, Option.map_some,
      KeyMap.insert_insert]
    rfl
  change Store.put (.deployment fresh) Store.nameKey (Json.str name).render w.store = _
  rw [Store.put, hchange]

/-- A deployment is created under a new UUID, with a name that no other one has. -/
theorem createDeployment_ends (fresh : String) (name : Option String) :
    (createDeployment fresh name : Operation ρ String).Ends w
      (fun uuid t => uuid = fresh ∧ w.store.deployments.find? fresh = none ∧
        (∀ given, name = some given → ∃ records,
          Store.deploymentRecords w.store = .ok records ∧ ∀ r ∈ records, r.name ≠ some given) ∧
        t.store = withDeployment w.store fresh name)
      fun _ t => t.store = w.store := by
  unfold createDeployment
  cases name with
  | none =>
    refine Ends.bind ((change_createDeployment_ends fresh).imp fun _ t ht => ?_)
    obtain ⟨hnew, -, hstore⟩ := ht
    exact Ends.bind (ends_update (ends_pure ⟨rfl, hnew, nofun, hstore⟩))
  | some name =>
    refine Ends.bind ((onStore_reads_ends (reads_reading _)).mono (fun records t ht => ?_)
      fun _ t ht => by rw [ht])
    obtain ⟨hrun, rfl⟩ := ht
    split
    · exact Ends.bind (ends_fail rfl)
    · rename_i hfree
      refine Ends.bind ((change_createDeployment_ends fresh).imp fun _ u hu => ?_)
      obtain ⟨hnew, hclear, hstore⟩ := hu
      refine Ends.bind (Ends.of_ok (run_setName hclear hstore) ?_)
      refine Ends.bind (ends_update (ends_pure ⟨rfl, hnew, ?_, rfl⟩))
      rintro _ ⟨⟩
      refine ⟨records, congrArg Prod.fst hrun, fun r hr hname => hfree ?_⟩
      exact List.any_eq_true.mpr ⟨r, hr, decide_eq_true hname⟩

theorem renameResource_ends (key source target : String) :
    (renameResource key source target : Operation ρ Unit).Ends w (fun _ _ => True)
      fun _ t => t.store = w.store := by
  unfold renameResource
  split
  · exact Ends.bind (ends_fail rfl)
  · refine Ends.bind ((onStore_reads_ends (reads_reading _)).mono (fun record t ht => ?_)
      fun _ t ht => by rw [ht])
    obtain ⟨-, rfl⟩ := ht
    have hatomic : (Store.renameResource record.uuid source target).Ends t.store
        (fun _ _ => True) fun _ s => s = t.store := by
      refine ⟨fun _ => trivial, fun hr => ?_⟩
      unfold run Store.renameResource at hr
      split at hr
      · cases hr
        rfl
      · split at hr <;> cases hr
        rfl
    exact Ends.mapError (logged_ends ((World.onStore_ends_any hatomic).mono
      (fun _ _ _ => trivial) fun _ u hu => by rw [hu]))

theorem importAll_ends (snapshots : List Snapshot) :
    (World.importDeployments snapshots : World.Change ρ (List String)).Ends w (fun _ _ => True)
      fun _ t => t.store = w.store := by
  unfold World.importDeployments
  split
  · exact ends_pure trivial
  · have hatomic : (Store.importDeployments snapshots).Ends w.store (fun _ _ => True)
        fun _ s => s = w.store :=
      (Ends.transaction (E := fun _ _ => True) ⟨fun _ => trivial, fun _ => trivial⟩).mono
        (fun _ _ _ => trivial) fun _ _ hs => hs.1
    refine Ends.bind ((World.onStore_ends_any hatomic).mono (fun uuids t _ => ?_)
      fun _ t ht => by rw [ht])
    obtain ⟨journal, hlog⟩ := World.run_forEach_log (ε := StoreError) .info .store
      World.restoredText snapshots t
    exact Ends.bind (Ends.of_ok hlog (ends_pure trivial))

theorem importBackup_ends (text : String) :
    (importBackup text : Operation ρ (List String)).Ends w (fun _ _ => True)
      fun _ t => t.store = w.store := by
  unfold importBackup
  split
  · exact ends_fail rfl
  · simp only
    split
    · exact Ends.bind (ends_fail rfl)
    · refine Ends.bind ((onStore_reads_ends (reads_reading _)).mono (fun records t ht => ?_)
        fun _ t ht => by rw [ht])
      obtain ⟨-, rfl⟩ := ht
      split
      · exact Ends.bind (ends_fail rfl)
      · exact Ends.mapError ((importAll_ends _).imp fun _ _ _ => trivial)

/-- A question is put while nothing has changed, and after a yes something is removed. -/
def Agreed (confirm : Confirmation) (removal : World.Change ρ Unit) (w t : World ρ) : Prop :=
  ∃ question v u, v.store = w.store ∧ (confirm.ask question).run v = (.ok true, u) ∧
    u.store = w.store ∧ removal.run u = (.ok (), t)

/-- Putting a question touches neither the store nor what is in its way. -/
theorem ask_ends (confirm : Confirmation) (question : String) :
    (confirm.ask question).Ends w (fun _ t => t.store = w.store) fun _ t => t.store = w.store := by
  refine (confirm.ask_ends question w).mono (fun _ t h => ?_) fun _ t h => ?_
  · rw [h.2]
  · rw [h.2]

/-- Either the answer is no and everything is left, or it is yes and the removal follows. -/
theorem asked_ends (before : World ρ) (hw : w.store = before.store) (confirm : Confirmation)
    (question : String) (agreed refused : α) {removal : World.Change ρ Unit} {s : Store}
    (h : ∀ {v : World ρ}, v.store = before.store →
      removal.Ends v (fun _ t => t.store = s) fun _ t => t.store = before.store) :
    (do
      if ← (confirm.ask question).mapError CommandError.failure then
        change removal
        return agreed
      return refused : Operation ρ α).Ends w
      (fun x t => x = refused ∧ t.store = before.store ∨
        x = agreed ∧ Agreed confirm removal before t ∧ t.store = s)
      fun _ t => t.store = before.store := by
  refine Ends.bind (Ends.mapError ((ask_ends confirm question).traced.mono (fun yes u hu => ?_)
    fun _ u hu => hu.trans hw))
  obtain ⟨hask, hsame⟩ := hu
  cases yes with
  | false => exact ends_pure (Or.inl ⟨rfl, hsame.trans hw⟩)
  | true =>
    refine Ends.bind (Ends.mapError ((h (hsame.trans hw)).traced.imp fun _ t ht => ?_))
    exact ends_pure (Or.inr ⟨rfl, ⟨question, w, u, hw, hask, hsame.trans hw, ht.1⟩, ht.2⟩)

/-- The row of a resource tells its status. -/
theorem rowsOf_ends (records : List ResourceRecord) (s : Store) :
    (rowsOf records).Ends s
      (fun rows t => t = s ∧ ∀ r ∈ records, ∃ row ∈ rows, row.name = r.name ∧
        (State.status r).run s = (.ok row.status, s))
      fun _ t => t = s := by
  induction records with
  | nil => exact ends_pure ⟨rfl, fun _ hr => absurd hr List.not_mem_nil⟩
  | cons r rest ih =>
    have hrow : (resourceRow r).Ends s (fun row t => t = s ∧ row.name = r.name ∧
        (State.status r).run s = (.ok row.status, s)) fun _ t => t = s := by
      refine Ends.bind (((State.status_reads r).ends s).imp fun status t ht => ?_)
      obtain ⟨hstatus, rfl⟩ := ht
      refine Ends.bind ((Store.getAs_reads.mapError.ends t).imp fun id u hu => ?_)
      obtain ⟨-, rfl⟩ := hu
      refine Ends.bind (Ends.bind ?_)
      refine (Store.getAs_reads.mapError.ends u).imp fun obsolete v hv => ?_
      obtain ⟨-, rfl⟩ := hv
      exact ends_pure (ends_pure ⟨rfl, rfl, hstatus⟩)
    refine Ends.bind (hrow.imp fun row t ht => ?_)
    obtain ⟨rfl, hname, hstatus⟩ := ht
    refine Ends.bind (ih.imp fun rows u hu => ?_)
    obtain ⟨rfl, hrows⟩ := hu
    refine ends_pure ⟨rfl, fun other ho => ?_⟩
    rcases List.mem_cons.mp ho with rfl | ho
    · exact ⟨row, List.mem_cons_self, hname, hstatus⟩
    · obtain ⟨found, hfound, hother⟩ := hrows other ho
      exact ⟨found, List.mem_cons_of_mem _ hfound, hother⟩

theorem rowsOf_reads (records : List ResourceRecord) : (rowsOf records).Reads := fun s =>
  ((rowsOf_ends records s).imp fun _ _ ht => ht.1).state

/-- Where no resource may still exist, every status is that of a missing one. -/
theorem resourceRows_ends (uuid : String) :
    (resourceRows uuid : Operation ρ (List ResourceRow)).Ends w
      (fun rows t => t = w ∧ (liveNames rows = [] → ∀ r ∈ w.store.recordsOf uuid,
        (State.status r).run w.store = (.ok .missing, w.store)))
      fun _ t => t = w := by
  have hlist : (Store.listResources uuid).Reads := fun _ => rfl
  refine Ends.bind ((onStore_reads_ends hlist).imp fun records t ht => ?_)
  obtain ⟨hrecords, rfl⟩ := ht
  obtain rfl : t.store.recordsOf uuid = records := Except.ok.inj (congrArg Prod.fst hrecords)
  refine (step_reads_ends (rowsOf_reads _)).imp fun rows u hu => ?_
  obtain ⟨hrows, rfl⟩ := hu
  refine ⟨rfl, fun hlive r hr => ?_⟩
  obtain ⟨row, hrow, -, hstatus⟩ := ((rowsOf_ends _ _).ok hrows).2 r hr
  have hmissing : row.status = .missing := by
    by_contra hne
    have hmem : row ∈ rows.filter fun row => row.status ≠ .missing :=
      List.mem_filter.mpr ⟨hrow, decide_eq_true hne⟩
    rw [List.map_eq_nil_iff.mp hlive] at hmem
    cases hmem
  rw [hstatus, hmissing]

/-- The deployment with a key is deleted, after a yes, and unless forced only if all its resources
are missing; with it go its attributes, its resources and their attributes, and nothing else. -/
structure Deletes (key : String) (force : Bool) (confirm : Confirmation) (uuid : String)
    (w t : World ρ) : Prop where
  selected : ∃ record, (Store.findDeployment key).run w.store = (.ok record, w.store) ∧
    record.uuid = uuid
  agreed : Agreed confirm (World.purgeDeployment uuid) w t
  missing : force = false → ∀ r ∈ w.store.resourceRows, r.deployment = uuid →
    (State.status r).run w.store = (.ok .missing, w.store)
  loses : w.store.UniqueIds →
    w.store.Loses (· = uuid) (·.deployment = uuid) (w.store.belongs uuid) t.store

theorem purgeDeployment_ends (uuid : String) :
    (World.purgeDeployment uuid : World.Change ρ Unit).Ends w
      (fun _ t => t.store = { w.store with deployments := w.store.deployments.erase uuid })
      fun _ t => t.store = w.store := by
  have hatomic : (Store.purgeDeployment uuid).Ends w.store
      (fun _ s => s = { w.store with deployments := w.store.deployments.erase uuid })
      fun _ s => s = w.store := by
    constructor <;>
    · intro _ _ hr
      unfold run Store.purgeDeployment at hr
      split at hr <;> cases hr
      rfl
  refine logged_ends ((World.onStore_ends_any (hatomic.imp fun _ _ _ => trivial)).mono
    (fun _ t ht => ?_) fun _ t ht => by rw [ht])
  exact hatomic.ok ht.1

/-- What is known before the question and what follows a yes make up a deletion. -/
theorem deletes_of_agreed {key : String} {force : Bool} {confirm : Confirmation}
    {record : DeploymentRecord} {t : World ρ}
    (hfind : (Store.findDeployment key).run w.store = (.ok record, w.store))
    (hmissing : force = false → ∀ r ∈ w.store.recordsOf record.uuid,
      (State.status r).run w.store = (.ok .missing, w.store))
    (hagreed : Agreed confirm (World.purgeDeployment record.uuid) w t)
    (hstore : t.store =
      { w.store with deployments := w.store.deployments.erase record.uuid }) :
    Deletes key force confirm record.uuid w t where
  selected := ⟨record, hfind, rfl⟩
  agreed := hagreed
  missing hforce r hr huuid := by
    refine hmissing hforce r ?_
    rw [← Store.filter_resourceRows]
    exact List.mem_filter.mpr ⟨hr, decide_eq_true huuid⟩
  loses hids := hstore ▸ Store.loses_erase hids record.uuid

theorem deleteDeployment_ends (key : String) (force : Bool) (confirm : Confirmation) :
    (deleteDeployment key force confirm : Operation ρ (Option String)).Ends w
      (fun deleted t => deleted = none ∧ t.store = w.store ∨
        ∃ uuid, deleted = some uuid ∧ Deletes key force confirm uuid w t)
      fun _ t => t.store = w.store := by
  unfold deleteDeployment
  refine Ends.bind ((onStore_reads_ends (reads_reading _)).mono (fun record t ht => ?_)
    fun _ t ht => by rw [ht])
  obtain ⟨hfind, rfl⟩ := ht
  refine Ends.bind ((resourceRows_ends record.uuid).mono (fun rows u hu => ?_)
    fun _ t ht => by rw [ht])
  obtain ⟨rfl, hmissing⟩ := hu
  have hpurge : ∀ {v : World ρ}, v.store = u.store →
      (World.purgeDeployment record.uuid : World.Change ρ Unit).Ends v
        (fun _ t => t.store = { u.store with deployments := u.store.deployments.erase record.uuid })
        fun _ t => t.store = u.store := fun {v} hv => hv ▸ purgeDeployment_ends record.uuid
  simp only
  split
  · split
    · exact Ends.bind (ends_fail rfl)
    · rename_i hforce
      refine Ends.bind (ends_update ((asked_ends u ?_ confirm _ _ _ hpurge).imp
        fun deleted t ht => ?_))
      · rfl
      · refine ht.imp id fun ⟨hdeleted, hagreed, hstore⟩ =>
          ⟨_, hdeleted, deletes_of_agreed hfind (fun h => ?_) hagreed hstore⟩
        exact absurd (by rw [h]; exact Bool.false_ne_true) hforce
  · rename_i hlive
    refine (asked_ends u rfl confirm _ _ _ hpurge).imp fun deleted t ht => ?_
    exact ht.imp id fun ⟨hdeleted, hagreed, hstore⟩ =>
      ⟨_, hdeleted, deletes_of_agreed hfind (fun _ => hmissing (not_not.mp hlive)) hagreed hstore⟩

theorem purgeQuestion_reads (r : ResourceRecord) : (purgeQuestion r).Reads := by
  refine (State.status_reads r).bind fun status => ?_
  split
  · exact reads_pure _
  · exact (Store.getAs_reads.mapError).bind fun _ => reads_pure _

/-- Forgetting a resource, with what the log says before. -/
def forget (r : ResourceRecord) : World.Change ρ Unit := do
  World.log .debug .state ("Purging resource " ++ r.name)
  World.purgeResource r.id

theorem forget_ends (r : ResourceRecord) :
    (forget r : World.Change ρ Unit).Ends w
      (fun _ t => t.store = { w.store with deployments := w.store.deployments.map fun d =>
        { d with resources := d.resources.filter fun other => other.id ≠ r.id } })
      fun _ t => t.store = w.store := by
  have hatomic : (Store.purgeResource r.id).Ends w.store (fun _ _ => True) fun _ s => s = w.store :=
    Ends.of_ok rfl trivial
  refine Ends.bind (ends_update (logged_ends ?_))
  refine (World.onStore_ends_any (w := World.record _ w) hatomic).mono (fun _ t ht => ?_)
    fun _ t ht => ht ▸ rfl
  exact (congrArg Prod.snd ht.1).symm

/-- A resource that is found has a row. -/
theorem mem_of_findResource {s : Store} {deployment name : String} {r : ResourceRecord}
    (h : (Store.findResource deployment name).run s = (.ok (some r), s)) : r ∈ s.resourceRows := by
  have hfound : (s.resourceNamed? deployment name).map (StoredResource.record · deployment) =
      some r := Except.ok.inj (congrArg Prod.fst h)
  obtain ⟨stored, hstored, rfl⟩ := Option.map_eq_some_iff.mp hfound
  exact Store.mem_resourceRows_iff.mpr ⟨stored, List.mem_of_find?_eq_some hstored, rfl⟩

/-- The resource with a name is forgotten, after a yes; with it go its attributes and nothing
else. -/
structure Forgets (key name : String) (confirm : Confirmation) (r : ResourceRecord)
    (w t : World ρ) : Prop where
  selected : ∃ record, (Store.findDeployment key).run w.store = (.ok record, w.store) ∧
    (Store.findResource record.uuid name).run w.store = (.ok (some r), w.store)
  agreed : Agreed confirm (forget r) w t
  loses : w.store.UniqueIds →
    w.store.Loses (fun _ => false) (· = r) (· = r.scope) t.store

theorem purgeResource_ends (key name : String) (confirm : Confirmation) :
    (purgeResource key name confirm : Operation ρ Bool).Ends w
      (fun purged t => purged = false ∧ t.store = w.store ∨
        purged = true ∧ ∃ r, Forgets key name confirm r w t)
      fun _ t => t.store = w.store := by
  unfold purgeResource
  refine Ends.bind ((onStore_reads_ends (reads_reading _)).mono (fun record t ht => ?_)
    fun _ t ht => by rw [ht])
  obtain ⟨hfind, rfl⟩ := ht
  have hreads : (Store.findResource record.uuid name).Reads := fun _ => rfl
  refine Ends.bind ((onStore_reads_ends hreads).mono (fun found u hu => ?_)
    fun _ t ht => by rw [ht])
  obtain ⟨hfound, rfl⟩ := hu
  cases found with
  | none => exact ends_fail rfl
  | some r =>
    refine Ends.bind ((step_reads_ends (purgeQuestion_reads r)).mono (fun question v hv => ?_)
      fun _ t ht => by rw [ht])
    obtain ⟨-, rfl⟩ := hv
    have hasked := asked_ends v rfl confirm question true false fun {u} hu => hu ▸ forget_ends r
    exact hasked.imp fun purged t ht => ht.imp id fun ⟨hpurged, hagreed, hstore⟩ =>
      ⟨hpurged, r, ⟨record, hfind, hfound⟩, hagreed,
        fun hids => hstore ▸ Store.loses_filter hids (mem_of_findResource hfound)⟩

/-- What a command reports is its result in other words. -/
theorem run_report (a : Operation ρ α) (report : α → Answer) (w : World ρ) :
    (do return report (← a) : Operation ρ Answer).run w =
      ((a.run w).1.map report, (a.run w).2) := by
  rw [run_bind]
  rcases a.run w with ⟨_ | _, _⟩ <;> rfl

theorem exists_of_report {a : Operation ρ α} {report : α → Answer} {answer : Answer} {t : World ρ}
    (hr : (do return report (← a) : Operation ρ Answer).run w = (.ok answer, t)) :
    ∃ x, a.run w = (.ok x, t) ∧ report x = answer := by
  rw [run_report] at hr
  cases ha : a.run w with
  | mk outcome u =>
    rw [ha] at hr
    cases outcome <;> cases hr
    exact ⟨_, rfl, rfl⟩

/-- A command that fails or reports a no leaves the records, if it leaves them whenever it fails or
has such a result. -/
theorem unchanged_of_report {a : Operation ρ α} {report : α → Answer} {t : World ρ}
    {outcome : Except CommandError Answer}
    (h : a.Ends w (fun x t => (report x).isDeclined = true → t.store = w.store)
      fun _ t => t.store = w.store)
    (hr : (do return report (← a) : Operation ρ Answer).run w = (outcome, t))
    (hdeclined : ∀ answer, outcome = .ok answer → answer.isDeclined = true) :
    t.store = w.store := by
  rw [run_report] at hr
  refine h.elim (fun x u ha hx => ?_) fun e u ha he => ?_ <;> rw [ha] at hr <;> cases hr
  · exact hx (hdeclined _ rfl)
  · exact he

/-- A command that fails, or that reports a no, leaves the records as they were, whatever is in the
way of the store, as long as that does not change while the command runs. A deployment is deleted,
and a resource forgotten, after a yes and with nothing but what belongs to it. -/
theorem Call.effects {call : Call} {w t : World ρ} {outcome : Except CommandError Answer}
    (h : call.perform.run w = (outcome, t)) :
    ((∀ answer, outcome = .ok answer → answer.isDeclined = true) → t.store = w.store) ∧
    (∀ key force confirm uuid, call = .deleteDeployment key force confirm →
      outcome = .ok (.deleted (some uuid)) → Deletes key force confirm uuid w t) ∧
    ∀ key name confirm, call = .purgeResource key name confirm → outcome = .ok (.purged true) →
      ∃ r, Forgets key name confirm r w t := by
  cases call with
  | createDeployment fresh name =>
    have hends := createDeployment_ends (w := w) fresh name
    exact ⟨unchanged_of_report (hends.imp fun _ _ _ hd => by cases hd) h, nofun, nofun⟩
  | renameResource key source target =>
    have hends := renameResource_ends (w := w) key source target
    exact ⟨unchanged_of_report (hends.imp fun _ _ _ hd => by cases hd) h, nofun, nofun⟩
  | importBackup text =>
    have hends := importBackup_ends (w := w) text
    exact ⟨unchanged_of_report (hends.imp fun _ _ _ hd => by cases hd) h, nofun, nofun⟩
  | deleteDeployment key force confirm =>
    have hends := deleteDeployment_ends (w := w) key force confirm
    refine ⟨unchanged_of_report (hends.imp fun deleted t ht => ?_) h, ?_, nofun⟩
    · rintro hdeclined
      rcases ht with ⟨-, hsame⟩ | ⟨uuid, rfl, -⟩
      · exact hsame
      · cases hdeclined
    · rintro _ _ _ uuid ⟨⟩ rfl
      obtain ⟨deleted, hr, hdeleted⟩ := exists_of_report h
      obtain ⟨rfl, -⟩ | ⟨found, rfl, hdeletes⟩ := hends.ok hr <;> cases hdeleted
      exact hdeletes
  | purgeResource key name confirm =>
    have hends := purgeResource_ends (w := w) key name confirm
    refine ⟨unchanged_of_report (hends.imp fun purged t ht => ?_) h, nofun, ?_⟩
    · rintro hdeclined
      rcases ht with ⟨-, hsame⟩ | ⟨rfl, -⟩
      · exact hsame
      · cases hdeclined
    · rintro _ _ _ ⟨⟩ rfl
      obtain ⟨purged, hr, hpurged⟩ := exists_of_report h
      obtain ⟨rfl, -⟩ | ⟨-, hforgets⟩ := hends.ok hr
      · cases hpurged
      · exact hforgets

/-- The deployment of the furnished store that has a name. -/
def deleteFirst : Call := .deleteDeployment "\"first\"\n" false (.answered true)

def forgetDisk : Call := .purgeResource "a" "disk" (.answered true)

theorem effects_furnished :
    (∃ t, deleteFirst.perform.run furnishedWorld = (.ok (.deleted (some "a")), t) ∧
      Deletes "\"first\"\n" false (.answered true) "a" furnishedWorld t ∧
      t.store.deploymentRows = ["b"] ∧ t.store.attributeRows = []) ∧
    ∃ t, forgetDisk.perform.run furnishedWorld = (.ok (.purged true), t) ∧
      (∃ r, Forgets "a" "disk" (.answered true) r furnishedWorld t) ∧
      t.store.deploymentRows = ["a", "b"] ∧
      t.store.resourceRows = [⟨1, "a", "web", "server"⟩] ∧
      t.store.attributeRows.map Store.AttributeRow.owner = [.deployment "a", .resource 1] := by
  have houtcome : (deleteFirst.perform.run furnishedWorld).1 = .ok (.deleted (some "a")) := by
    decide +kernel
  have hrun : deleteFirst.perform.run furnishedWorld =
      (.ok (.deleted (some "a")), (deleteFirst.perform.run furnishedWorld).2) := by
    rw [← houtcome]
  have hids : furnishedWorld.store.UniqueIds := by decide
  have hdeletes := (Call.effects hrun).2.1 _ _ _ "a" rfl rfl
  have hpurged : (forgetDisk.perform.run furnishedWorld).1 = .ok (.purged true) := by
    decide +kernel
  have hforget : forgetDisk.perform.run furnishedWorld =
      (.ok (.purged true), (forgetDisk.perform.run furnishedWorld).2) := by
    rw [← hpurged]
  have hforgets := (Call.effects hforget).2.2 _ _ _ rfl rfl
  refine ⟨⟨_, hrun, hdeletes, ?_, ?_⟩, _, hforget, hforgets, ?_, ?_, ?_⟩
  · rw [(hdeletes.loses hids).deployments]
    decide
  · rw [(hdeletes.loses hids).attributes]
    decide
  · decide +kernel
  · decide +kernel
  · decide +kernel

end DesiredState.Command
