import DesiredState.Proofs.Keeps
import DesiredState.Proofs.Store.Calls
import DesiredState.Proofs.Store.Declare
import Mathlib.Logic.Relation

/-!
# What one call can do to a store

Every call of a store is a sequence of a few kinds of steps, each taken only where the schema allows
it: rows are added under a fresh key for an owner that exists, and removed together with all that
belongs to them. `Step` lists them with the texts that may be written; what every step keeps is kept
by every run.
-/

namespace DesiredState.Store

open DesiredState.Action Relation

variable {P : String → Prop} {s t : Store}

/-- The attributes of one owner change; texts that were not there before satisfy `P`. -/
def Write (P : String → Prop) (s t : Store) : Prop := ∃ scope f,
  (∀ (m : KeyMap String) key text, (f m).find? key = some text → m.find? key = some text ∨ P text) ∧
    s.changeAttributes? scope f = some t

def recordsOf (s : Store) (deployment : String) : List ResourceRecord :=
  (s.resourcesOf deployment).map (StoredResource.record · deployment)

def namesOf (s : Store) (deployment : String) : List String :=
  (s.resourcesOf deployment).map StoredResource.name

theorem map_name_recordsOf (s : Store) (deployment : String) :
    (s.recordsOf deployment).map ResourceRecord.name = s.namesOf deployment := by
  rw [recordsOf, List.map_map]
  rfl

/-- One change of the records. -/
inductive Step (P : String → Prop) (s : Store) : Store → Prop where
  | create {uuid : String} (hnew : s.deployments.find? uuid = none) :
      Step P s { s with deployments := s.deployments.insert uuid ⟨.empty, []⟩ }
  | purge (uuid : String) : Step P s { s with deployments := s.deployments.erase uuid }
  | add {deployment name : String} (resourceType : String) {d : StoredDeployment}
      (hd : s.deployments.find? deployment = some d) (hnew : name ∉ s.namesOf deployment) :
      Step P s (s.addResource deployment d ⟨s.lastId + 1, name, resourceType, .empty⟩)
  | rename {deployment target : String} (source : String) {d : StoredDeployment}
      (hd : s.deployments.find? deployment = some d) (hnew : target ∉ s.namesOf deployment) :
      Step P s { s with deployments := s.deployments.insert deployment { d with
        resources := d.resources.map fun r =>
          if r.name = source then { r with name := target } else r } }
  | remove (id : Int) : Step P s { s with deployments := s.deployments.map fun d =>
      { d with resources := d.resources.filter fun r => r.id ≠ id } }
  | write {t : Store} (h : Write P s t) : Step P s t

abbrev Rewrites (P : String → Prop) : Store → Store → Prop := ReflTransGen (Write P)

abbrev Reaches (P : String → Prop) : Store → Store → Prop := ReflTransGen (Step P)

theorem Rewrites.reaches (h : Rewrites P s t) : Reaches P s t :=
  ReflTransGen.mono (fun _ _ => Step.write) _ _ h

theorem Step.reaches (h : Step P s t) : Reaches P s t := ReflTransGen.single h

/-- The text of the value may be written, unless it is `null` and nothing is written. -/
def Permits (P : String → Prop) (v : Json) : Prop := v.isNull = false → P v.render

theorem rewrites_of_change (scope : Scope) {f : KeyMap String → KeyMap String}
    (hf : ∀ (m : KeyMap String) key text, (f m).find? key = some text →
      m.find? key = some text ∨ P text) (s : Store) :
    Rewrites P s ((s.changeAttributes? scope f).getD s) := by
  cases h : s.changeAttributes? scope f with
  | none => exact .refl
  | some t => exact .single ⟨scope, f, hf, h⟩

theorem put_keeps_of_change {R : Store → Store → Prop} {scope : Scope} {key text : String}
    (h : ∀ s, R s ((s.changeAttributes? scope fun m => m.insert key text).getD s)) :
    Keeps R (put scope key text) := by
  intro s
  have hs := h s
  unfold run put
  cases hc : s.changeAttributes? scope fun m => m.insert key text <;> rwa [hc] at hs

theorem put_keeps (scope : Scope) (key : String) {text : String} (h : P text) :
    Keeps (Rewrites P) (put scope key text) := by
  have hf : ∀ (m : KeyMap String) other found, (m.insert key text).find? other = some found →
      m.find? other = some found ∨ P found := by
    intro m other found hfound
    rw [KeyMap.find?_insert] at hfound
    split at hfound
    · exact Or.inr (Option.some.inj hfound ▸ h)
    · exact Or.inl hfound
  exact put_keeps_of_change (rewrites_of_change scope hf)

theorem delete_keeps (scope : Scope) (key : String) : Keeps (Rewrites P) (delete scope key) := by
  refine keeps_update fun s => rewrites_of_change scope (fun m other found hfound => ?_) s
  rw [KeyMap.find?_erase] at hfound
  split at hfound
  · cases hfound
  · exact Or.inl hfound

theorem clear_keeps (scope : Scope) : Keeps (Rewrites P) (clear scope) :=
  keeps_update fun s => rewrites_of_change scope (fun _ _ _ hfound => by cases hfound) s

theorem set_keeps (scope : Scope) (key : String) {v : Json} (h : Permits P v) :
    Keeps (Rewrites P) (set scope key v) := by
  unfold set
  cases hv : v.isNull with
  | true => exact delete_keeps scope key
  | false => exact put_keeps scope key (h hv)

theorem setEach_keeps (scope : Scope) {values : List (String × Json)}
    (h : ∀ v ∈ values.map Prod.snd, Permits P v) : Keeps (Rewrites P) (setEach scope values) :=
  keeps_forEach fun entry he => set_keeps scope entry.1 (h entry.2 (List.mem_map_of_mem he))

theorem replaceAttributes_keeps (scope : Scope) {values : KeyMap Json}
    (h : ∀ v ∈ values.values, Permits P v) : Keeps (Rewrites P) (replaceAttributes scope values) :=
  (clear_keeps scope).bind fun _ => setEach_keeps scope h

theorem alone_keeps (scope : Scope) {request : Request} (h : ∀ v ∈ request.values, Permits P v) :
    Keeps (Rewrites P) (request.alone scope) := by
  cases request with
  | get key => exact (keeps_reading _).bind fun _ => keeps_pure _
  | getOr key default =>
    exact ((keeps_reading _).bind fun _ => keeps_pure _).bind fun _ => keeps_pure _
  | keys => exact (keeps_view _).bind fun _ => keeps_pure _
  | exportAll => exact (keeps_reading _).bind fun _ => keeps_pure _
  | set key v => exact (set_keeps scope key (h v List.mem_cons_self)).bind fun _ => keeps_pure _
  | setMany values => exact (setEach_keeps scope h).transaction.bind fun _ => keeps_pure _
  | delete key => exact (delete_keeps scope key).bind fun _ => keeps_pure _
  | clear => exact (clear_keeps scope).bind fun _ => keeps_pure _
  | importAll values =>
    exact (replaceAttributes_keeps scope h).transaction.bind fun _ => keeps_pure _

theorem within_keeps (scope : Scope) {request : Request} (h : ∀ v ∈ request.values, Permits P v) :
    Keeps (Rewrites P) (request.within scope) := by
  cases request with
  | setMany values => exact (setEach_keeps scope h).bind fun _ => keeps_pure _
  | importAll values => exact (replaceAttributes_keeps scope h).bind fun _ => keeps_pure _
  | get => exact alone_keeps scope h
  | getOr => exact alone_keeps scope h
  | keys => exact alone_keeps scope h
  | exportAll => exact alone_keeps scope h
  | set => exact alone_keeps scope h
  | delete => exact alone_keeps scope h
  | clear => exact alone_keeps scope h

section Operation

variable {ε : Type} [StoreFailure ε]

theorem askEach_keeps {steps : List (Scope × Request)}
    (h : ∀ step ∈ steps, ∀ v ∈ step.2.values, Permits P v) :
    Keeps (Rewrites P) (askEach steps : Action Store (List Reply × ε) (List Reply)) := by
  induction steps with
  | nil => exact keeps_pure _
  | cons step rest ih =>
    refine (within_keeps step.1 (h step List.mem_cons_self)).mapError.bind fun reply => ?_
    refine Keeps.bind (Keeps.mapError (ih fun other ho => ?_)) fun _ => keeps_pure _
    exact h other (List.mem_cons_of_mem _ ho)

theorem tryEach_keeps {δ : Type} {steps : List (Scope × Request)}
    (h : ∀ step ∈ steps, ∀ v ∈ step.2.values, Permits P v) :
    Keeps (Rewrites P) (tryEach steps : Action Store δ (List (Except StoreError Reply))) := by
  induction steps with
  | nil => exact keeps_pure _
  | cons step rest ih =>
    refine (within_keeps step.1 (h step List.mem_cons_self)).attempt.bind fun outcome => ?_
    exact (ih fun other ho => h other (List.mem_cons_of_mem _ ho)).bind fun _ => keeps_pure _

/-- An operation on attributes changes nothing else. -/
theorem perform_keeps_rewrites {operation : Operation ε}
    (h : ∀ v ∈ operation.values, Permits P v) : Keeps (Rewrites P) operation.perform := by
  cases operation with
  | alone scope request => exact (alone_keeps scope h).mapError.bind fun _ => keeps_pure _
  | transaction steps refusal =>
    have hsteps : ∀ step ∈ steps, ∀ v ∈ step.2.values, Permits P v := fun step hs v hv =>
      h v (List.mem_flatMap.mpr ⟨step, hs, hv⟩)
    refine ((askEach_keeps hsteps).bind fun replies => ?_).transaction
    cases refusal with
    | none => exact keeps_pure _
    | some e => exact keeps_fail _

end Operation

theorem hasDeployment_eq_false_iff {uuid : String} :
    s.hasDeployment uuid = false ↔ s.deployments.find? uuid = none := by
  rw [hasDeployment, KeyMap.contains, Option.isSome_eq_false_iff, Option.isNone_iff_eq_none]

theorem run_createDeployment {uuid : String} (h : s.deployments.find? uuid = none) :
    (createDeployment uuid).run s =
      (.ok (), { s with deployments := s.deployments.insert uuid ⟨.empty, []⟩ }) := by
  unfold run createDeployment
  rw [if_neg (by simp [hasDeployment_eq_false_iff.mpr h])]

theorem createDeployment_ends (s : Store) (uuid : String) :
    (createDeployment uuid).Ends s
      (fun _ t => s.deployments.find? uuid = none ∧
        t = { s with deployments := s.deployments.insert uuid ⟨.empty, []⟩ })
      fun _ t => t = s := by
  cases h : s.hasDeployment uuid with
  | true => exact Ends.of_error (by unfold run createDeployment; rw [if_pos h]) rfl
  | false =>
    have hnone := hasDeployment_eq_false_iff.mp h
    exact Ends.of_ok (run_createDeployment hnone) ⟨hnone, rfl⟩

theorem createDeployment_keeps (uuid : String) :
    Keeps (Reaches P) (createDeployment uuid) :=
  keeps_of_ends fun s => (createDeployment_ends s uuid).mono
    (fun _ _ ht => ht.2 ▸ (Step.create ht.1).reaches) fun _ _ ht => ht ▸ .refl

theorem purgeDeployment_keeps (uuid : String) : Keeps (Reaches P) (purgeDeployment uuid) := by
  intro s
  unfold run purgeDeployment
  split
  · exact (Step.purge uuid).reaches
  · exact .refl

theorem resourcesOf_of_find {deployment : String} {d : StoredDeployment}
    (hd : s.deployments.find? deployment = some d) : s.resourcesOf deployment = d.resources := by
  rw [resourcesOf, hd]
  rfl

theorem resourceNamed?_eq_none_iff {deployment name : String} :
    s.resourceNamed? deployment name = none ↔ name ∉ s.namesOf deployment := by
  rw [resourceNamed?, namesOf, List.find?_eq_none, List.mem_map]
  simp only [decide_eq_true_eq, not_exists, not_and]

/-- A resource is added for a deployment that exists. -/
theorem insertResource_ends (s : Store) (deployment name resourceType : String) :
    (insertResource deployment name resourceType).Ends s
      (fun r t => ∃ d, s.deployments.find? deployment = some d ∧
        r = ⟨s.lastId + 1, deployment, name, resourceType⟩ ∧
        t = s.addResource deployment d ⟨s.lastId + 1, name, resourceType, .empty⟩)
      fun _ t => t = s := by
  cases hd : s.deployments.find? deployment with
  | none => exact Ends.of_error (by unfold run insertResource; simp only [hd]; rfl) rfl
  | some d =>
    exact Ends.of_ok (by unfold run insertResource; simp only [hd]; rfl) ⟨d, rfl, rfl, rfl⟩

theorem declareResource_keeps (deployment name resourceType : String) :
    Keeps (Reaches P) (declareResource deployment name resourceType) := by
  refine keeps_of_ends fun s => (declareResource_ends s deployment name resourceType).mono ?_ ?_
  · rintro _ _ (⟨rfl, -⟩ | ⟨hnew, d, hd, -, rfl⟩)
    · exact .refl
    · exact (Step.add resourceType hd (resourceNamed?_eq_none_iff.mp hnew)).reaches
  · rintro _ _ rfl
    exact .refl

theorem renameResource_keeps (deployment source target : String) :
    Keeps (Reaches P) (renameResource deployment source target) := by
  intro s
  unfold run renameResource
  split
  · exact .refl
  · rename_i hn
    split
    · rename_i d _ hd
      rw [Option.isSome_iff_ne_none, not_not] at hn
      exact (Step.rename source hd (resourceNamed?_eq_none_iff.mp hn)).reaches
    · exact .refl

theorem purgeResource_keeps (id : Int) : Keeps (Reaches P) (purgeResource id) :=
  keeps_update fun _ => (Step.remove id).reaches

/-- Changing attributes leaves the records of all resources. -/
theorem Write.records (h : Write P s t) (deployment : String) :
    t.recordsOf deployment = s.recordsOf deployment := by
  unfold recordsOf
  obtain ⟨scope, f, -, ht⟩ := h
  cases scope with
  | deployment uuid =>
    obtain ⟨d, hd, rfl⟩ := Option.map_eq_some_iff.mp ht
    by_cases hu : deployment = uuid
    · subst hu
      rw [resourcesOf, resourcesOf_of_find hd, KeyMap.find?_insert_self]
      rfl
    · rw [resourcesOf, resourcesOf, KeyMap.find?_insert_ne hu]
  | resource i =>
    rw [changeAttributes?] at ht
    split at ht
    · cases ht
      rw [resourcesOf, resourcesOf, KeyMap.find?_map]
      cases s.deployments.find? deployment with
      | none => rfl
      | some d =>
        simp only [Option.map_some, Option.getD_some, StoredDeployment.changeResource,
          List.map_map]
        refine List.map_congr_left fun r _ => ?_
        simp only [Function.comp_apply]
        split <;> rfl
    · cases ht

theorem Rewrites.records (h : Rewrites P s t) (deployment : String) :
    t.recordsOf deployment = s.recordsOf deployment := by
  induction h with
  | refl => rfl
  | tail _ hstep ih => exact (hstep.records deployment).trans ih

theorem Rewrites.namesOf (h : Rewrites P s t) (deployment : String) :
    t.namesOf deployment = s.namesOf deployment := by
  rw [← map_name_recordsOf, ← map_name_recordsOf, h.records]

/-- Restoring a resource under a fresh name adds it behind the others. -/
theorem restoreResource_ends {uuid : String} {entry : String × ResourceSnapshot}
    (hnew : entry.1 ∉ s.namesOf uuid) (h : ∀ v ∈ entry.2.attributes.values, Permits P v) :
    (restoreResource uuid entry).Ends s
      (fun _ t => Reaches P s t ∧ t.namesOf uuid = s.namesOf uuid ++ [entry.1])
      fun _ t => Reaches P s t := by
  refine Ends.bind ((insertResource_ends s uuid entry.1 entry.2.resourceType).mono ?_ ?_)
  · rintro r t ⟨d, hd, rfl, rfl⟩
    have hstep := (Step.add (P := P) entry.2.resourceType hd hnew).reaches
    have hnames : (s.addResource uuid d ⟨s.lastId + 1, entry.1, entry.2.resourceType,
        .empty⟩).namesOf uuid = s.namesOf uuid ++ [entry.1] := by
      rw [Store.namesOf, Store.namesOf, resourcesOf_of_find hd, resourcesOf, addResource,
        KeyMap.find?_insert_self]
      simp
    refine ((replaceAttributes_keeps _ h).ends _).mono (fun _ t ht => ?_) fun _ t ht => ?_
    · exact ⟨hstep.trans ht.reaches, (ht.namesOf uuid).trans hnames⟩
    · exact hstep.trans ht.reaches
  · rintro _ t rfl
    exact .refl

theorem restoreResources_ends {uuid : String} {entries : List (String × ResourceSnapshot)}
    (hentries : Ascending entries) (hnew : ∀ entry ∈ entries, entry.1 ∉ s.namesOf uuid)
    (h : ∀ entry ∈ entries, ∀ v ∈ entry.2.attributes.values, Permits P v) :
    (forEach (restoreResource uuid) entries).Ends s (fun _ t => Reaches P s t)
      fun _ t => Reaches P s t := by
  induction entries generalizing s with
  | nil => exact ends_pure .refl
  | cons entry rest ih =>
    obtain ⟨hlt, hrest⟩ := List.pairwise_cons.mp hentries
    refine Ends.bind ((restoreResource_ends (hnew entry List.mem_cons_self)
      (h entry List.mem_cons_self)).imp fun _ t ht => ?_)
    obtain ⟨hreach, hnames⟩ := ht
    refine (ih hrest (fun other ho => ?_) fun other ho => h other (List.mem_cons_of_mem _ ho)).mono
      (fun _ _ hu => hreach.trans hu) fun _ _ hu => hreach.trans hu
    rw [hnames, List.mem_append, List.mem_singleton, not_or]
    exact ⟨hnew other (List.mem_cons_of_mem _ ho), fun he => Std.lt_irrefl (he ▸ hlt other ho)⟩

theorem restore_keeps {snapshot : Snapshot} (h : ∀ v ∈ snapshot.values, Permits P v) :
    Keeps (Reaches P) (restore snapshot) := by
  refine keeps_of_ends fun s => Ends.bind ((createDeployment_ends s snapshot.uuid).mono ?_ ?_)
  · rintro _ t ⟨hnew, rfl⟩
    have hstep := (Step.create (P := P) hnew).reaches
    refine Ends.bind (((replaceAttributes_keeps (.deployment snapshot.uuid) fun v hv =>
      h v (List.mem_append_left _ hv)).ends _).mono (fun _ t ht => ?_)
        fun _ t ht => hstep.trans ht.reaches)
    have hnone : t.namesOf snapshot.uuid = [] := by
      rw [ht.namesOf, namesOf, resourcesOf, KeyMap.find?_insert_self]
      rfl
    refine (restoreResources_ends snapshot.resources.ascending (fun entry _ => ?_)
      fun entry he v hv => h v (List.mem_append_right _ ?_)).mono
        (fun _ _ hu => (hstep.trans ht.reaches).trans hu) fun _ _ hu =>
        (hstep.trans ht.reaches).trans hu
    · rw [hnone]
      exact List.not_mem_nil
    · exact List.mem_flatMap.mpr ⟨entry.2, List.mem_map_of_mem he, hv⟩
  · rintro _ t rfl
    exact .refl

theorem importDeployments_keeps {snapshots : List Snapshot}
    (h : ∀ snapshot ∈ snapshots, ∀ v ∈ snapshot.values, Permits P v) :
    Keeps (Reaches P) (importDeployments snapshots) :=
  ((keeps_forEach fun snapshot hs => restore_keeps (h snapshot hs)).bind
    fun _ => keeps_pure _).transaction

variable {ε : Type} [StoreFailure ε]

theorem told_keeps {α : Type} {R : Store → Store → Prop} [IsPreorder Store R]
    {a : Action Store StoreError α} (answer : α → Answer) (h : Keeps R a) :
    Keeps R (Call.told answer a : Action Store (List Reply × ε) Answer) :=
  h.mapError.bind fun _ => keeps_pure _

/-- Every call is a sequence of steps. -/
theorem Call.perform_keeps {call : Call ε} (h : ∀ v ∈ call.values, Permits P v) :
    Keeps (Reaches P) call.perform := by
  cases call with
  | createDeployment uuid => exact told_keeps _ (createDeployment_keeps uuid)
  | purgeDeployment uuid => exact told_keeps _ (purgeDeployment_keeps uuid)
  | deployments => exact told_keeps _ (keeps_reading _)
  | findDeployment key => exact told_keeps _ (keeps_reading _)
  | declareResource deployment name resourceType =>
    exact told_keeps _ (declareResource_keeps deployment name resourceType)
  | resources deployment => exact told_keeps _ (keeps_view _)
  | findResource deployment name => exact told_keeps _ (keeps_view _)
  | renameResource deployment source target =>
    exact told_keeps _ (renameResource_keeps deployment source target)
  | purgeResource id => exact told_keeps _ (purgeResource_keeps id)
  | exportDeployment uuid => exact told_keeps _ (keeps_reading _)
  | importDeployments snapshots =>
    exact told_keeps _ (importDeployments_keeps fun snapshot hs v hv =>
      h v (List.mem_flatMap.mpr ⟨snapshot, hs, hv⟩))
  | attributes operation =>
    exact ((perform_keeps_rewrites h).mono fun _ _ => Rewrites.reaches).bind fun _ => keeps_pure _
  | session steps refusal =>
    have hsteps := tryEach_keeps (δ := List Reply × ε) fun step hs v hv =>
      h v (List.mem_flatMap.mpr ⟨step, hs, hv⟩)
    refine ((hsteps.mono fun _ _ => Rewrites.reaches).bind fun outcomes => ?_).transaction
    cases refusal with
    | none => exact keeps_pure _
    | some e => exact keeps_fail _

/-- Every run is a sequence of steps. -/
theorem callAll_reaches {calls : List (Call ε)} (h : ∀ call ∈ calls, ∀ v ∈ call.values, Permits P v)
    (s : Store) : Reaches P s (callAll calls s).2 := by
  induction calls generalizing s with
  | nil => exact .refl
  | cons call calls ih =>
    refine (Call.perform_keeps (h call List.mem_cons_self) s).trans ?_
    exact ih (fun other ho => h other (List.mem_cons_of_mem _ ho)) _

end DesiredState.Store
