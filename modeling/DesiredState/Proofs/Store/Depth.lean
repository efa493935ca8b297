import DesiredState.Proofs.Json.Depth
import DesiredState.Proofs.Store.Refinement
import DesiredState.Proofs.Store.Removal
import DesiredState.Proofs.Store.Restore

/-!
# What can be read of what was written

A value that is nested too deeply is written like any other, but its text cannot be read. So after
any run a reading succeeds just if no attribute that it looks at holds such a text; otherwise it
fails, whatever else it asks for.
-/

namespace DesiredState

open DesiredState.Action

section

variable {ε α β : Type} {p q : Prop} {e : ε} {r : Except ε α}

/-- There is a result unless `p` holds, and if it does, the failure is `e`. -/
def Hinges (p : Prop) (e : ε) (r : Except ε α) : Prop :=
  (¬ p ∧ ∃ x, r = .ok x) ∨ (p ∧ r = .error e)

theorem hinges_ok (x : α) : Hinges False e (.ok x : Except ε α) := Or.inl ⟨not_false, x, rfl⟩

theorem Hinges.congr (h : Hinges p e r) (hpq : p ↔ q) : Hinges q e r := by rwa [← propext hpq]

theorem Hinges.map (h : Hinges p e r) (f : α → β) : Hinges p e (r.map f) := by
  rcases h with ⟨hp, x, rfl⟩ | ⟨hp, rfl⟩
  · exact Or.inl ⟨hp, f x, rfl⟩
  · exact Or.inr ⟨hp, rfl⟩

theorem Hinges.bind (h : Hinges p e r) {f : α → Except ε β}
    (hf : ∀ x, r = .ok x → Hinges q e (f x)) : Hinges (p ∨ q) e (r.bind f) := by
  rcases h with ⟨hp, x, rfl⟩ | ⟨hp, rfl⟩
  · rcases hf x rfl with ⟨hq, y, hy⟩ | ⟨hq, hy⟩
    · exact Or.inl ⟨not_or.mpr ⟨hp, hq⟩, y, hy⟩
    · exact Or.inr ⟨Or.inr hq, hy⟩
  · exact Or.inr ⟨Or.inl hp, rfl⟩

theorem hinges_mapM {f : α → Except ε β} {bad : α → Prop} {xs : List α}
    (h : ∀ x ∈ xs, Hinges (bad x) e (f x)) : Hinges (∃ x ∈ xs, bad x) e (xs.mapM f) := by
  induction xs with
  | nil => exact (hinges_ok []).congr (by simp)
  | cons x xs ih =>
    rw [List.mapM_cons]
    have hrest := ih fun y hy => h y (List.mem_cons_of_mem _ hy)
    refine ((h x List.mem_cons_self).bind fun y _ => hrest.map (y :: ·)).congr ?_
    simp

end

namespace Store

variable {s t : Store} {scope : Scope}

/-- A text that was written for a value. -/
def Written (text : String) : Prop := ∃ v : Json, v.plain = true ∧ text = v.render

/-- A text that was written for a value that is nested too deeply. -/
def TooDeep (text : String) : Prop :=
  ∃ v : Json, v.plain = true ∧ Json.maxDepth < v.depth ∧ text = v.render

def unreadable : StoreError := .invalidValue .unreadable

theorem decodeText_plain {v : Json} (hp : v.plain = true) :
    decodeText v.render = if v.depth ≤ Json.maxDepth then .ok v else .error unreadable := by
  rw [decodeText, Json.decode_render_eq hp]
  split <;> rfl

theorem decodeText_hinges {text : String} (h : Written text) :
    Hinges (TooDeep text) unreadable (decodeText text) := by
  obtain ⟨v, hp, rfl⟩ := h
  by_cases hd : v.depth ≤ Json.maxDepth
  · have hread : decodeText v.render = .ok v := by rw [decodeText_plain hp, if_pos hd]
    refine Or.inl ⟨?_, v, hread⟩
    rintro ⟨w, hw, hdeep, htext⟩
    rw [htext, decodeText_plain hw, if_neg (Nat.not_le.mpr hdeep)] at hread
    cases hread
  · exact Or.inr ⟨⟨v, hp, Nat.lt_of_not_le hd, rfl⟩, by rw [decodeText_plain hp, if_neg hd]⟩

theorem mapM?_hinges {texts : KeyMap String} (h : MapTexts Written texts) :
    Hinges (∃ key text, texts.find? key = some text ∧ TooDeep text) unreadable
      (texts.mapM? decodeText) := by
  have heach : ∀ entry ∈ texts.entries, Hinges (TooDeep entry.2) unreadable
      ((decodeText entry.2).map fun v => (entry.1, v)) := fun entry he =>
    (decodeText_hinges (h entry.1 entry.2 (KeyMap.find?_eq_some_iff.mpr he))).map _
  refine ((hinges_mapM heach).map _).congr ?_
  · constructor
    · rintro ⟨entry, he, hdeep⟩
      exact ⟨entry.1, entry.2, KeyMap.find?_eq_some_iff.mpr he, hdeep⟩
    · rintro ⟨key, text, hfound, hdeep⟩
      exact ⟨(key, text), KeyMap.find?_eq_some_iff.mp hfound, hdeep⟩

theorem snapshotOf_hinges {uuid : String} {d : StoredDeployment} (h : DeploymentTexts Written d) :
    Hinges ((∃ key text, d.attributes.find? key = some text ∧ TooDeep text) ∨
      (∃ r ∈ d.resources, ∃ key text, r.attributes.find? key = some text ∧ TooDeep text) ∨ False)
      unreadable (snapshotOf uuid d) := by
  refine (mapM?_hinges h.own).bind fun attributes _ => Hinges.bind ?_ fun resources _ => ?_
  · exact hinges_mapM fun r hr => (mapM?_hinges (h.resources r hr)).map _
  · exact hinges_ok _

inductive Reading where
  | get (scope : Scope) (key : String)
  | exportAttributes (scope : Scope)
  | deployments
  | findDeployment (uuid : String)
  | exportDeployment (uuid : String)

namespace Reading

def outcome (s : Store) : Reading → Except StoreError Answer
  | .get scope key => ((Store.get scope key).run s).1.map fun v => .replies [.found v]
  | .exportAttributes scope =>
    ((Store.exportAttributes scope).run s).1.map fun values => .replies [.all values]
  | .deployments => (listDeployments.run s).1.map .deployments
  | .findDeployment uuid => ((Store.findDeployment uuid).run s).1.map .deployment
  | .exportDeployment uuid => ((Store.exportDeployment uuid).run s).1.map .snapshot

/-- Whether there is what is asked for. -/
def Founded (s : Store) : Reading → Prop
  | .findDeployment uuid | .exportDeployment uuid => uuid ∈ s.deploymentRows
  | _ => True

/-- The attributes that have to be read for the answer. -/
def LooksAt (s : Store) (row : AttributeRow) : Reading → Prop
  | .get scope key => row.owner = scope ∧ row.key = key
  | .exportAttributes scope => row.owner = scope
  | .deployments | .findDeployment _ => (∃ uuid, row.owner = .deployment uuid) ∧ row.key = nameKey
  | .exportDeployment uuid => s.belongs uuid row.owner = true

end Reading

/-- Whether an attribute that is looked at holds a value that is nested too deeply. -/
def Obscures (s : Store) (reading : Reading) : Prop :=
  ∃ row ∈ s.attributeRows, reading.LooksAt s row ∧ TooDeep row.text

section

variable (h : Coherent Written s)

include h

theorem written_of_mem {row : AttributeRow} (hrow : row ∈ s.attributeRows) :
    Written row.text := by
  obtain ⟨uuid, d, hd, ⟨-, hfound⟩ | ⟨r, hr, -, hfound⟩⟩ := mem_attributeRows_iff.mp hrow
  · exact (h.texts uuid d hd).own _ _ hfound
  · exact (h.texts uuid d hd).resources r hr _ _ hfound

theorem get_hinges (scope : Scope) (key : String) :
    Hinges (s.Obscures (.get scope key)) unreadable ((Reading.get scope key).outcome s) := by
  refine Hinges.map ?_ _
  have hrows := h.textOf?_eq_some_iff scope key
  rw [Store.get, run_reading]
  cases htext : s.textOf? scope key with
  | none =>
    refine (hinges_ok none).congr ⟨False.elim, ?_⟩
    rintro ⟨row, hrow, ⟨rfl, rfl⟩, -⟩
    rw [(hrows row.text).mpr hrow] at htext
    cases htext
  | some text =>
    have hrow := (hrows text).mp htext
    refine ((decodeText_hinges (written_of_mem h hrow)).map some).congr ⟨fun hdeep => ?_, ?_⟩
    · exact ⟨_, hrow, ⟨rfl, rfl⟩, hdeep⟩
    · rintro ⟨row, hother, ⟨rfl, rfl⟩, hdeep⟩
      rw [(hrows row.text).mpr hother] at htext
      exact Option.some.inj htext ▸ hdeep

theorem exportAttributes_hinges (scope : Scope) :
    Hinges (s.Obscures (.exportAttributes scope)) unreadable
      ((Reading.exportAttributes scope).outcome s) := by
  refine Hinges.map ?_ _
  have hrows := h.textOf?_eq_some_iff scope
  have htexts : MapTexts Written (s.attributesOf scope) := fun key text hfound =>
    written_of_mem h ((hrows key text).mp hfound)
  refine (mapM?_hinges htexts).congr ⟨?_, ?_⟩
  · rintro ⟨key, text, hfound, hdeep⟩
    exact ⟨_, (hrows key text).mp hfound, rfl, hdeep⟩
  · rintro ⟨row, hrow, rfl, hdeep⟩
    exact ⟨row.key, row.text, (hrows row.key row.text).mpr hrow, hdeep⟩

/-- The record of a deployment hinges on its name. -/
theorem recordOf_hinges {uuid : String} {d : StoredDeployment}
    (hd : s.deployments.find? uuid = some d) :
    Hinges (∃ text, d.attributes.find? nameKey = some text ∧ TooDeep text) unreadable
      (recordOf uuid d) := by
  refine Hinges.map ?_ _
  unfold nameOf
  cases hname : d.attributes.find? nameKey with
  | none => exact (hinges_ok none).congr (by simp)
  | some text =>
    exact ((decodeText_hinges ((h.texts uuid d hd).own _ _ hname)).map _).congr (by simp)

theorem deploymentRecords_hinges :
    Hinges (s.Obscures .deployments) unreadable s.deploymentRecords := by
  refine (hinges_mapM fun entry he => recordOf_hinges h
    (KeyMap.find?_eq_some_iff.mpr he)).congr ⟨?_, ?_⟩
  · rintro ⟨entry, he, text, hname, hdeep⟩
    refine ⟨⟨.deployment entry.1, nameKey, text⟩, ?_, ⟨⟨_, rfl⟩, rfl⟩, hdeep⟩
    exact mem_attributeRows_iff.mpr
      ⟨_, _, KeyMap.find?_eq_some_iff.mpr he, Or.inl ⟨rfl, hname⟩⟩
  · rintro ⟨row, hrow, ⟨⟨uuid, howner⟩, hkey⟩, hdeep⟩
    obtain ⟨home, d, hd, ⟨-, hfound⟩ | ⟨r, -, hother, -⟩⟩ := mem_attributeRows_iff.mp hrow
    · exact ⟨_, KeyMap.find?_eq_some_iff.mp hd, row.text, hkey ▸ hfound, hdeep⟩
    · rw [howner] at hother
      cases hother

theorem deployments_hinges :
    Hinges (s.Obscures .deployments) unreadable (Reading.deployments.outcome s) :=
  (deploymentRecords_hinges h).map _

theorem findDeployment_hinges {uuid : String} (hm : uuid ∈ s.deploymentRows) :
    Hinges (s.Obscures (.findDeployment uuid)) unreadable
      ((Reading.findDeployment uuid).outcome s) := by
  refine Hinges.map (Hinges.congr ((deploymentRecords_hinges h).bind
    (q := False) fun records hrecords => ?_) (or_iff_left not_false)) _
  have huuids : records.map DeploymentRecord.uuid = s.deploymentRows :=
    ((listDeployments_ends s).ok
      (congrArg (·, s) hrecords : listDeployments.run s = (.ok records, s))).1
  obtain ⟨record, hselect, -⟩ := exists_selectDeployment (huuids ▸ hm)
  rw [hselect]
  exact hinges_ok record

theorem exportDeployment_hinges {uuid : String} (hm : uuid ∈ s.deploymentRows) :
    Hinges (s.Obscures (.exportDeployment uuid)) unreadable
      ((Reading.exportDeployment uuid).outcome s) := by
  obtain ⟨d, hd⟩ := mem_deploymentRows_iff.mp hm
  refine Hinges.map ?_ _
  rw [Store.exportDeployment, run_reading, hd]
  have hrows := mem_and_belongs_iff h.nodup_ids hd
  refine (snapshotOf_hinges (h.texts uuid d hd)).congr ⟨?_, ?_⟩
  · rintro (⟨key, text, hfound, hdeep⟩ | ⟨r, hr, key, text, hfound, hdeep⟩ | hf)
    · have hrow := (hrows ⟨.deployment uuid, key, text⟩).mpr
        (List.mem_append_left _ (mem_rowsOf_iff.mpr ⟨rfl, hfound⟩))
      exact ⟨_, hrow.1, hrow.2, hdeep⟩
    · have hrow := (hrows ⟨.resource r.id, key, text⟩).mpr (List.mem_append_right _
        (List.mem_flatMap.mpr ⟨r, hr, mem_rowsOf_iff.mpr ⟨rfl, hfound⟩⟩))
      exact ⟨_, hrow.1, hrow.2, hdeep⟩
    · exact hf.elim
  · rintro ⟨row, hrow, hbelongs, hdeep⟩
    rcases List.mem_append.mp ((hrows row).mp ⟨hrow, hbelongs⟩) with hown | hresource
    · exact Or.inl ⟨row.key, row.text, (mem_rowsOf_iff.mp hown).2, hdeep⟩
    · obtain ⟨r, hr, hrow⟩ := List.mem_flatMap.mp hresource
      exact Or.inr (Or.inl ⟨r, hr, row.key, row.text, (mem_rowsOf_iff.mp hrow).2, hdeep⟩)

end

theorem textOf?_of_update {texts : KeyMap String}
    (h : t.attributesOf? = Function.update s.attributesOf? scope (some texts)) (key : String) :
    t.textOf? scope key = texts.find? key := by
  rw [textOf?, attributesOf, h, Function.update_self]
  rfl

theorem textOf?_delete {key : String} (h : (Store.delete scope key).run s = (.ok (), t)) :
    t.textOf? scope key = none := by
  rw [Store.delete, run_update] at h
  cases hs : s.attributesOf? scope with
  | none =>
    rw [changeAttributes?_none hs] at h
    obtain rfl : s = t := congrArg Prod.snd h
    rw [textOf?, attributesOf, hs]
    rfl
  | some texts =>
    obtain ⟨u, hu, hupdate⟩ := changeAttributes?_some hs fun m => m.erase key
    rw [hu] at h
    obtain rfl : u = t := congrArg Prod.snd h
    rw [textOf?_of_update hupdate, KeyMap.find?_erase_self]

theorem textOf?_put {key text : String} (h : (Store.put scope key text).run s = (.ok (), t)) :
    t.textOf? scope key = some text := by
  unfold run Store.put at h
  cases hs : s.attributesOf? scope with
  | none =>
    rw [changeAttributes?_none hs] at h
    cases h
  | some texts =>
    obtain ⟨u, hu, hupdate⟩ := changeAttributes?_some hs fun m => m.insert key text
    simp only [hu] at h
    obtain rfl : u = t := congrArg Prod.snd h
    rw [textOf?_of_update hupdate, KeyMap.find?_insert_self]

/-- What is stored after a value was set: its text, or nothing after `null`. -/
theorem textOf?_set {key : String} {v : Json}
    (hset : (Store.set scope key v).run s = (.ok (), t)) :
    t.textOf? scope key = if v.isNull then none else some v.render := by
  unfold Store.set at hset
  cases hv : v.isNull with
  | true =>
    rw [hv, if_pos rfl] at hset
    exact textOf?_delete hset
  | false =>
    rw [hv, if_neg Bool.false_ne_true] at hset
    exact textOf?_put hset

/-- What was set is read again just if it is not nested too deeply. -/
theorem get_set_iff {key : String} {v : Json} (hp : v.plain = true)
    (hset : (Store.set scope key v).run s = (.ok (), t)) :
    (Store.get scope key).run t = (.ok (if v.isNull then none else some v), t) ↔
      v.depth ≤ Json.maxDepth := by
  rw [Store.get, run_reading, textOf?_set hset]
  cases hv : v.isNull with
  | true =>
    cases v <;> cases hv
    exact iff_of_true rfl (Nat.zero_le _)
  | false =>
    simp only [decodeText_plain hp, Bool.false_eq_true, if_false]
    by_cases hd : v.depth ≤ Json.maxDepth
    · simp [hd, Except.map]
    · simp [hd, Except.map]

theorem Coherent.hinges (h : Coherent Written s) {reading : Reading} (hr : reading.Founded s) :
    Hinges (s.Obscures reading) unreadable (reading.outcome s) := by
  cases reading with
  | get scope key => exact get_hinges h scope key
  | exportAttributes scope => exact exportAttributes_hinges h scope
  | deployments => exact deployments_hinges h
  | findDeployment uuid => exact findDeployment_hinges h hr
  | exportDeployment uuid => exact exportDeployment_hinges h hr

variable {ε : Type} [StoreFailure ε]

theorem callAll_written {calls : List (Call ε)}
    (hvalues : ∀ call ∈ calls, ∀ v ∈ call.values, v.plain = true) :
    Coherent Written (callAll calls .empty).2 := by
  have hpermits : ∀ call ∈ calls, ∀ v ∈ call.values, Permits Written v :=
    fun call hcall v hv _ => ⟨v, hvalues call hcall v hv, rfl⟩
  exact (callAll_reaches hpermits .empty).coherent (coherent_of_empty rfl)

/-- Whatever is done to a store with plain values, from nothing on and whether it succeeds or fails:
what is there can be read unless a value that has to be read for it is nested too deeply, and then
that is the failure; and what is set then is read again just if it is not nested too deeply. -/
theorem readings_hinge_on_depth {calls : List (Call ε)}
    (hvalues : ∀ call ∈ calls, ∀ v ∈ call.values, v.plain = true) :
    let s := (callAll calls .empty).2
    (∀ reading : Reading, reading.Founded s →
      Hinges (s.Obscures reading) unreadable (reading.outcome s)) ∧
    ∀ scope key v t, v.plain = true → (Store.set scope key v).run s = (.ok (), t) →
      ((Store.get scope key).run t = (.ok (if v.isNull then none else some v), t) ↔
        v.depth ≤ Json.maxDepth) :=
  ⟨fun _ hr => (callAll_written hvalues).hinges hr, fun _ _ _ _ => get_set_iff⟩

/-- Empty arrays in one another, one more than the number. -/
def nested : Nat → Json
  | 0 => .arr []
  | n + 1 => .arr [nested n]

theorem plain_nested (n : Nat) : (nested n).plain = true := by
  induction n with
  | zero => rfl
  | succ n ih => simp [nested, Json.plain, Json.plainItems, ih]

theorem depth_nested (n : Nat) : (nested n).depth = n + 1 := by
  induction n with
  | zero => rfl
  | succ n ih => simp [nested, Json.depth, Json.depthItems, ih]

/-- Two deployments, of which one gets a name that is nested too deeply. -/
def deeplyNamed : List (Call StoreError) :=
  [.createDeployment "a", .createDeployment "b",
    .attributes (.alone (.deployment "a") (.set nameKey (nested 127)))]

theorem plain_deeplyNamed : ∀ call ∈ deeplyNamed, ∀ v ∈ call.values, v.plain = true := by
  simp [deeplyNamed, Call.values, Operation.values, Request.values, plain_nested]

theorem obscures_deeplyNamed : (callAll deeplyNamed .empty).2.Obscures (.findDeployment "b") := by
  have hrow : ⟨.deployment "a", nameKey, (nested 127).render⟩ ∈
      (callAll deeplyNamed .empty).2.attributeRows := List.mem_cons_self
  refine ⟨_, hrow, ⟨⟨"a", rfl⟩, rfl⟩, nested 127, plain_nested 127, ?_, rfl⟩
  rw [depth_nested]
  decide

theorem founded_deeplyNamed :
    (Reading.findDeployment "b").Founded (callAll deeplyNamed .empty).2 := by
  have hrows : (callAll deeplyNamed .empty).2.deploymentRows = ["a", "b"] := rfl
  rw [Reading.Founded, hrows]
  decide

theorem readings_hinge_on_depth_deeplyNamed :
    (Reading.findDeployment "b").outcome (callAll deeplyNamed .empty).2 = .error unreadable := by
  obtain ⟨hreadings, -⟩ := readings_hinge_on_depth plain_deeplyNamed
  exact ((hreadings _ founded_deeplyNamed).resolve_left
    fun hclear => hclear.1 obscures_deeplyNamed).2

/-- One deployment cannot be found because the name of another one cannot be read. -/
theorem not_readings_succeed :
    ¬ ∀ calls : List (Call StoreError),
      (∀ call ∈ calls, ∀ v ∈ call.values, v.plain = true) →
      ∀ reading : Reading, reading.Founded (callAll calls .empty).2 →
        ∃ answer, reading.outcome (callAll calls .empty).2 = .ok answer := by
  intro h
  obtain ⟨answer, hanswer⟩ := h deeplyNamed plain_deeplyNamed _ founded_deeplyNamed
  rcases (callAll_written plain_deeplyNamed).hinges founded_deeplyNamed with
    ⟨hclear, -⟩ | ⟨-, hfails⟩
  · exact hclear obscures_deeplyNamed
  · rw [hanswer] at hfails
    cases hfails

end Store

end DesiredState
