import DesiredState.Proofs.Diff.Apply

/-!
# Comparing with references

A reference names a resource of its own deployment. It leads to a value only while that resource is
up and has the attribute; until then whatever is recorded counts as a change. A comparison fails
just if a reference that takes part names no resource of the deployment. Resources of other
deployments play no part, whatever they are called.
-/

namespace DesiredState.State

open DesiredState.Action

/-- The statuses and attributes of a deployment's resources can be read. -/
structure Decodes (s : Store) (deployment : String) : Prop where
  statuses : ∀ r ∈ s.resourcesOf deployment, ∃ found,
    (status (r.record deployment)).run s = (.ok found, s)
  attributes : ∀ r ∈ s.resourcesOf deployment, ∀ key text,
    s.textOf? (.resource r.id) key = some text → ∃ v, Store.decodeText text = .ok v

/-- What a reference finds among the resources of a deployment. -/
inductive Finds (s : Store) (deployment : String) (target : Reference) : Resolution → Prop where
  | undeclared (h : target.resource ∉ s.namesOf deployment) : Finds s deployment target .unknown
  | down {r : StoredResource} {found : Status}
      (hnamed : s.resourceNamed? deployment target.resource = some r)
      (hstatus : (status (r.record deployment)).run s = (.ok found, s)) (hdown : found ≠ .up) :
      Finds s deployment target .pending
  | without {r : StoredResource} (hup : UpAt s deployment target.resource r)
      (hnone : s.textOf? (.resource r.id) target.output = none) :
      Finds s deployment target .pending
  | stored {r : StoredResource} {text : String} {v : Json}
      (hup : UpAt s deployment target.resource r)
      (htext : s.textOf? (.resource r.id) target.output = some text)
      (hv : Store.decodeText text = .ok v) : Finds s deployment target (.ready v)

variable {s t : Store} {deployment : String} {target : Reference} {found : Resolution}

/-- Where ids are given once, an attribute that is read by its owner's id is one of that owner. -/
theorem textOf?_of_mem (hids : (s.resourceRows.map ResourceRecord.id).Nodup) {r : StoredResource}
    (hr : r ∈ s.resourcesOf deployment) (key : String) :
    s.textOf? (.resource r.id) key = r.attributes.find? key := by
  rw [Store.textOf?, Store.attributesOf, Store.attributesOf?, Store.resourceById?_of_nodup hids hr]
  rfl

/-- Where ids are given once, there are finitely many texts to read. -/
theorem decodes_of_forall (hids : (s.resourceRows.map ResourceRecord.id).Nodup)
    (hstatuses : ∀ r ∈ s.resourcesOf deployment,
      ((status (r.record deployment)).run s).1.isOk = true)
    (htexts : ∀ r ∈ s.resourcesOf deployment, ∀ text ∈ r.attributes.values,
      (Store.decodeText text).isOk = true) : Decodes s deployment where
  statuses r hr := by
    have hok := hstatuses r hr
    rw [Store.run_status] at hok ⊢
    cases hread : ((Store.denoted (s.textOf? (r.record deployment).scope statusKey)).mapError
        Failure.store).bind (decodeStatus (r.record deployment).name) with
    | error cause =>
      rw [hread] at hok
      cases hok
    | ok found => exact ⟨found, rfl⟩
  attributes r hr key text htext := by
    rw [textOf?_of_mem hids hr] at htext
    have hok := htexts r hr text
      (List.mem_map_of_mem (f := Prod.snd) (KeyMap.find?_eq_some_iff.mp htext))
    cases hread : Store.decodeText text with
    | error cause =>
      rw [hread] at hok
      cases hok
    | ok v => exact ⟨v, rfl⟩

theorem Finds.resolver_eq (h : Finds s deployment target found) :
    resolver s deployment target = .ok found := by
  cases h with
  | undeclared h =>
    unfold resolver resolve
    rw [run_bind_ok (run_findResource s deployment target.resource),
      Store.resourceNamed?_eq_none_iff.mpr h]
    rfl
  | down hnamed hstatus hdown =>
    unfold resolver resolve
    rw [run_bind_ok (run_findResource_of_named hnamed)]
    simp only
    rw [run_bind_ok hstatus, if_pos hdown]
    rfl
  | without hup hnone =>
    rw [hup.resolver_eq, hnone]
    rfl
  | stored hup htext hv =>
    rw [hup.resolver_eq, htext, Store.denoted, hv]
    rfl

/-- Where everything can be read, every reference finds something. -/
theorem Decodes.exists_finds (h : Decodes s deployment) (target : Reference) :
    ∃ found, Finds s deployment target found := by
  cases hnamed : s.resourceNamed? deployment target.resource with
  | none => exact ⟨.unknown, .undeclared (Store.resourceNamed?_eq_none_iff.mp hnamed)⟩
  | some r =>
    have hr : r ∈ s.resourcesOf deployment := List.mem_of_find?_eq_some hnamed
    obtain ⟨status, hstatus⟩ := h.statuses r hr
    by_cases hup : status = .up
    · have hup : UpAt s deployment target.resource r := ⟨hnamed, hup ▸ hstatus⟩
      cases htext : s.textOf? (.resource r.id) target.output with
      | none => exact ⟨.pending, .without hup htext⟩
      | some text =>
        obtain ⟨v, hv⟩ := h.attributes r hr target.output text htext
        exact ⟨.ready v, .stored hup htext hv⟩
    · exact ⟨.pending, .down hnamed hstatus hup⟩

theorem Decodes.resolver_eq_ok_iff (h : Decodes s deployment) :
    resolver s deployment target = .ok found ↔ Finds s deployment target found := by
  refine ⟨fun hr => ?_, Finds.resolver_eq⟩
  obtain ⟨other, hother⟩ := h.exists_finds target
  obtain rfl := Except.ok.inj (hother.resolver_eq.symm.trans hr)
  exact hother

theorem Decodes.resolver_ne_error (h : Decodes s deployment) (cause : Failure) :
    resolver s deployment target ≠ .error cause := by
  obtain ⟨found, hfound⟩ := h.exists_finds target
  rw [hfound.resolver_eq]
  exact nofun

theorem finds_unknown_iff :
    Finds s deployment target .unknown ↔ target.resource ∉ s.namesOf deployment := by
  constructor
  · rintro ⟨h⟩
    exact h
  · exact .undeclared

theorem resolver_of_status_error {r : StoredResource} {cause : Failure}
    (hnamed : s.resourceNamed? deployment target.resource = some r)
    (hstatus : (status (r.record deployment)).run s = (.error cause, s)) :
    resolver s deployment target = .error cause := by
  unfold resolver resolve
  rw [run_bind_ok (run_findResource_of_named hnamed)]
  simp only
  rw [run_bind_error hstatus]

/-- What a reference leads to depends on one deployment only. -/
theorem resolver_congr (hs : (s.resourceRows.map ResourceRecord.id).Nodup)
    (ht : (t.resourceRows.map ResourceRecord.id).Nodup)
    (hsame : t.deployments.find? deployment = s.deployments.find? deployment) :
    resolver t deployment target = resolver s deployment target := by
  have hresources : t.resourcesOf deployment = s.resourcesOf deployment := by
    rw [Store.resourcesOf, hsame, Store.resourcesOf]
  have hnamed : t.resourceNamed? deployment target.resource =
      s.resourceNamed? deployment target.resource := by
    rw [Store.resourceNamed?, hresources, Store.resourceNamed?]
  cases hfound : s.resourceNamed? deployment target.resource with
  | none =>
    have hunknown := Store.resourceNamed?_eq_none_iff.mp hfound
    have hunknown' := Store.resourceNamed?_eq_none_iff.mp (hnamed.trans hfound)
    rw [(Finds.undeclared hunknown).resolver_eq, (Finds.undeclared hunknown').resolver_eq]
  | some r =>
    have hr : r ∈ s.resourcesOf deployment := List.mem_of_find?_eq_some hfound
    have hfound' := hnamed.trans hfound
    have htext : ∀ key, t.textOf? (.resource r.id) key = s.textOf? (.resource r.id) key := by
      intro key
      rw [textOf?_of_mem hs hr, textOf?_of_mem ht (hresources ▸ hr)]
    have hstatus := Store.run_status (r.record deployment) s
    have hstatus' := Store.run_status (r.record deployment) t
    rw [StoredResource.record, ResourceRecord.scope, htext] at hstatus'
    cases houtcome : ((Store.denoted (s.textOf? (.resource r.id) statusKey)).mapError
        Failure.store).bind (decodeStatus r.name) with
    | error cause =>
      rw [resolver_of_status_error hfound (hstatus.trans (congrArg (·, s) houtcome)),
        resolver_of_status_error hfound' (hstatus'.trans (congrArg (·, t) houtcome))]
    | ok found =>
      have hreads := hstatus.trans (congrArg (·, s) houtcome)
      have hreads' := hstatus'.trans (congrArg (·, t) houtcome)
      by_cases hup : found = .up
      · subst hup
        rw [UpAt.resolver_eq ⟨hfound, hreads⟩, UpAt.resolver_eq ⟨hfound', hreads'⟩, htext]
      · rw [(Finds.down hfound hreads hup).resolver_eq,
          (Finds.down hfound' hreads' hup).resolver_eq]

end DesiredState.State

namespace DesiredState.Diff

open DesiredState.State

variable {d : Definition} {current : KeyMap Json} {reserved : List String} {resolve : Resolver}
  {key : String} {wanted : Option Desired} {diff : Diff} {s : Store} {deployment : String}
  {target : Reference} {cause : Failure}

/-- A key that takes part has the entry for what is recorded and what is wanted there. -/
theorem get?_eq_changeAt? (h : compute d current reserved resolve = .ok diff) (hr : key ∉ reserved)
    (hw : Wants d resolve key wanted) :
    diff.get? key = changeAt? key (current.find? key) wanted := by
  refine Option.ext fun entry => ?_
  rw [get?_eq_some_iff h, changeAt?_eq_some_iff]
  constructor
  · rintro ⟨rfl, -, hcurrent, hwanted, hchange⟩
    exact ⟨rfl, hcurrent, hwanted.unique hw, hwanted.unique hw ▸ hcurrent ▸ hchange⟩
  · rintro ⟨rfl, hcurrent, hwanted, hchange⟩
    exact ⟨rfl, hr, hcurrent, hwanted ▸ hw, hwanted ▸ hcurrent ▸ hchange⟩

theorem get?_of_pending (h : compute d current reserved resolve = .ok diff) (hr : key ∉ reserved)
    (hget : d.get? key = some (.reference target)) (hp : resolve target = .ok .pending) :
    diff.get? key = some ⟨key, if current.find? key = none then .set else .update,
      current.find? key, some (.pending target)⟩ := by
  rw [get?_eq_changeAt? h hr (.pending hget hp)]
  cases current.find? key <;> rfl

theorem get?_of_ready (h : compute d current reserved resolve = .ok diff) (hr : key ∉ reserved)
    (hget : d.get? key = some (.reference target)) {v : Json}
    (hv : resolve target = .ok (.ready v)) :
    diff.get? key =
      match current.find? key with
      | none => some ⟨key, .set, none, some (.value v)⟩
      | some w => if w.same v then none else some ⟨key, .update, some w, some (.value v)⟩ := by
  rw [get?_eq_changeAt? h hr (.ready hget hv)]
  cases current.find? key with
  | none => rfl
  | some w => by_cases hsame : w.same v = true <;> simp [changeAt?, classify, hsame]

/-- What stops a comparison is a reference to a resource that the deployment does not have. -/
theorem stops_resolver_iff (h : Decodes s deployment) :
    Stops d reserved (resolver s deployment) key cause ↔ key ∉ reserved ∧
      ∃ target, d.get? key = some (.reference target) ∧ target.resource ∉ s.namesOf deployment ∧
        cause = .danglingReference d.name target.resource := by
  refine and_congr_right fun _ => ⟨?_, ?_⟩
  · rintro (⟨hget, hr⟩ | ⟨hget, hr⟩)
    · exact absurd hr (h.resolver_ne_error _)
    · exact ⟨_, hget, finds_unknown_iff.mp (h.resolver_eq_ok_iff.mp hr), rfl⟩
  · rintro ⟨target, hget, hname, rfl⟩
    exact .unknown hget (finds_unknown_iff.mpr hname).resolver_eq

/-- A comparison fails just if a reference that takes part names no resource of the deployment, and
blames such a reference. Otherwise each reference that takes part is pending or has a stored value.
The key of a pending one is to be set or updated, whatever is recorded; that of any other changes
just if the stored value is not what is recorded. Nothing outside the deployment matters. -/
theorem compute_resolver (h : Decodes s deployment) (d : Definition) (current : KeyMap Json)
    (reserved : List String) :
    let outcome := compute d current reserved (resolver s deployment)
    ((∃ cause, outcome = .error cause) ↔ ∃ key target, key ∉ reserved ∧
      d.get? key = some (.reference target) ∧ target.resource ∉ s.namesOf deployment) ∧
    (∀ cause, outcome = .error cause → ∃ key target, key ∉ reserved ∧
      d.get? key = some (.reference target) ∧ target.resource ∉ s.namesOf deployment ∧
      cause = .danglingReference d.name target.resource) ∧
    (∀ diff, outcome = .ok diff → ∀ key target, key ∉ reserved →
      d.get? key = some (.reference target) →
        (Finds s deployment target .pending ∨ ∃ v, Finds s deployment target (.ready v)) ∧
        (Finds s deployment target .pending → diff.get? key = some ⟨key,
          if current.find? key = none then .set else .update, current.find? key,
          some (.pending target)⟩) ∧
        ∀ v, Finds s deployment target (.ready v) → diff.get? key =
          match current.find? key with
          | none => some ⟨key, .set, none, some (.value v)⟩
          | some w => if w.same v then none else some ⟨key, .update, some w, some (.value v)⟩) ∧
    ∀ t : Store, (s.resourceRows.map ResourceRecord.id).Nodup →
      (t.resourceRows.map ResourceRecord.id).Nodup →
      t.deployments.find? deployment = s.deployments.find? deployment →
      compute d current reserved (resolver t deployment) = outcome := by
  intro outcome
  refine ⟨?_, fun cause hcause => ?_, fun diff hdiff key target hr hget => ⟨?_, ?_, ?_⟩, ?_⟩
  · rw [exists_compute_eq_error_iff]
    simp only [stops_resolver_iff h]
    constructor
    · rintro ⟨key, cause, hr, target, hget, hname, -⟩
      exact ⟨key, target, hr, hget, hname⟩
    · rintro ⟨key, target, hr, hget, hname⟩
      exact ⟨key, _, hr, target, hget, hname, rfl⟩
  · obtain ⟨key, hstop, -⟩ := compute_eq_error_iff_first.mp hcause
    obtain ⟨hr, target, hget, hname, hblame⟩ := (stops_resolver_iff h).mp hstop
    exact ⟨key, target, hr, hget, hname, hblame⟩
  · obtain ⟨found, hfound⟩ := h.exists_finds target
    cases found with
    | unknown =>
      have hstop := (stops_resolver_iff h).mpr ⟨hr, target, hget, finds_unknown_iff.mp hfound, rfl⟩
      obtain ⟨cause, hcause⟩ := exists_compute_eq_error_iff.mpr ⟨key, _, hstop⟩
      cases hdiff.symm.trans hcause
    | pending => exact Or.inl hfound
    | ready v => exact Or.inr ⟨v, hfound⟩
  · exact fun hfound => get?_of_pending hdiff hr hget hfound.resolver_eq
  · exact fun v hfound => get?_of_ready hdiff hr hget hfound.resolver_eq
  · exact fun t hs ht hsame => compute_congr fun _ _ _ _ => resolver_congr hs ht hsame

/-- Both sites have a server called `web`, but only in the first one it is up. The disk is up and
has no size yet, and the volume is being created while it refers to itself. -/
def sites : Store where
  deployments := .ofList
    [("blue", ⟨.empty,
      [⟨1, "data", "volume", .ofList [("id", "\"vol-1\""), ("state", "2")]⟩,
        ⟨2, "web", "server", .ofList [("id", "\"i-2\""), ("state", "3")]⟩,
        ⟨3, "disk", "volume", .ofList [("state", "3")]⟩]⟩),
    ("green", ⟨.empty, [⟨4, "web", "server", .ofList [("id", "\"i-4\"")]⟩]⟩)]
  lastId := 4

/-- A definition that refers to the disk, to the server and to itself. -/
def attached : Definition :=
  (((Definition.bare "data" "volume").withSetting "origin" (.reference ⟨"data", "id"⟩)).withSetting
    "server" (.reference ⟨"web", "id"⟩)).withSetting "size" (.reference ⟨"disk", "size"⟩)

/-- What is recorded for it is what the server and the volume itself store. -/
def recordedAttached : KeyMap Json := .ofList [("origin", .str "vol-1"), ("server", .str "i-2")]

theorem nodup_sites : (sites.resourceRows.map ResourceRecord.id).Nodup := by decide +kernel

theorem compute_resolver_sites :
    (∃ diff, compute attached recordedAttached [] (resolver sites "blue") = .ok diff ∧
      diff.get? "origin" =
        some ⟨"origin", .update, some (.str "vol-1"), some (.pending ⟨"data", "id"⟩)⟩ ∧
      diff.get? "server" = none ∧
      diff.get? "size" = some ⟨"size", .set, none, some (.pending ⟨"disk", "size"⟩)⟩) ∧
    ∃ cause, compute attached recordedAttached [] (resolver sites "green") = .error cause := by
  have hblue : Decodes sites "blue" :=
    decodes_of_forall nodup_sites (by decide +kernel) (by decide +kernel)
  have hgreen : Decodes sites "green" :=
    decodes_of_forall nodup_sites (by decide +kernel) (by decide +kernel)
  obtain ⟨-, -, hkeys, -⟩ := compute_resolver hblue attached recordedAttached []
  obtain ⟨hfails, -⟩ := compute_resolver hgreen attached recordedAttached []
  refine ⟨⟨_, rfl, ?_, ?_, ?_⟩, hfails.mpr ⟨"origin", ⟨"data", "id"⟩, ?_, ?_, ?_⟩⟩
  · exact (hkeys _ rfl "origin" ⟨"data", "id"⟩ (by decide) (by decide)).2.1
      (hblue.resolver_eq_ok_iff.mp (by decide +kernel))
  · exact ((hkeys _ rfl "server" ⟨"web", "id"⟩ (by decide) (by decide)).2.2 (.str "i-2")
      (hblue.resolver_eq_ok_iff.mp (by decide +kernel))).trans (by decide)
  · exact (hkeys _ rfl "size" ⟨"disk", "size"⟩ (by decide) (by decide)).2.1
      (hblue.resolver_eq_ok_iff.mp (by decide +kernel))
  · decide
  · decide
  · decide

end DesiredState.Diff
