import DesiredState.Proofs.Volume.Run
import DesiredState.Proofs.Volume.Tended

/-!
# Work on one volume that is safe for others

Work on a volume addresses the provider by the id that is recorded for it. As long as that id is
none of those that are recorded for others, no call changes a volume of theirs, and whatever is
recorded is recorded for the one resource. A volume that is created meanwhile has a new id.
-/

namespace DesiredState

open DesiredState.Action

namespace Cloud

variable {foreign : String → Prop} {id : String}

/-- No volume of a kind changes, and numbers that were given stay given. -/
structure Leaves (foreign : String → Prop) (c d : Cloud) : Prop where
  volumes : ∀ id, foreign id → d.volume? id = c.volume? id
  created : c.created ≤ d.created

instance (foreign : String → Prop) : IsPreorder Cloud (Leaves foreign) where
  refl _ := ⟨fun _ _ => rfl, Nat.le_refl _⟩
  trans _ _ _ h k := ⟨fun id hid => (k.volumes id hid).trans (h.volumes id hid),
    Nat.le_trans h.created k.created⟩

theorem call_leaves (name : String) : Keeps (Leaves foreign) (call name) := by
  intro c
  unfold run call
  dsimp only
  split <;> exact ⟨fun _ _ => rfl, Nat.le_refl _⟩

theorem leaves_insert (h : ¬ foreign id) (c : Cloud) (v : CloudVolume) {created : Nat}
    (hc : c.created ≤ created) :
    c.Leaves foreign { c with volumes := c.volumes.insert id v, created := created } := by
  refine ⟨fun other ho => ?_, hc⟩
  have hne : other ≠ id := fun he => h (he ▸ ho)
  exact KeyMap.find?_insert_ne hne _ _

theorem withVolume_leaves {α : Type} (h : ¬ foreign id) (f : CloudVolume → α × CloudVolume) :
    Keeps (Leaves foreign) (withVolume id f) := by
  intro c
  unfold run withVolume
  split
  · exact refl_of (Leaves foreign) c
  · exact leaves_insert h c _ (Nat.le_refl _)

/-- A call that changes one volume. -/
theorem calling_leaves {α : Type} (h : ¬ foreign id) (name : String)
    (f : CloudVolume → α × CloudVolume) :
    Keeps (Leaves foreign) (call name >>= fun _ => withVolume id f) :=
  (call_leaves name).bind fun _ => withVolume_leaves h f

theorem deleteVolume_leaves (h : ¬ foreign id) : Keeps (Leaves foreign) (deleteVolume id) := by
  refine (call_leaves _).bind fun _ => keeps_update fun c => ⟨fun other ho => ?_, Nat.le_refl _⟩
  have hne : other ≠ id := fun he => h (he ▸ ho)
  exact KeyMap.find?_erase_ne hne c.volumes

/-- A new volume has the next number, which is not that of a volume of the kind. -/
theorem createVolume_ends (region : String) (size : Int) (tags : KeyMap String) {c : Cloud}
    (h : ∀ id, foreign id → Volume.Numbered c.created id) :
    (createVolume region size tags).Ends c
      (fun id d => c.Leaves foreign d ∧ ¬ foreign id ∧ Volume.Numbered d.created id)
      fun _ d => c.Leaves foreign d := by
  have hcall : Keeps (Leaves foreign) (call "create") := call_leaves "create"
  refine Ends.bind ((hcall.ends c).imp fun _ d hd => ?_)
  have hnew : ¬ foreign (volumeId (d.created + 1)) := fun ho =>
    ((h _ ho).mono hd.created).ne_volumeId (Nat.lt_succ_self _) rfl
  exact Ends.of_ok rfl ⟨trans_of (Leaves foreign) hd (leaves_insert hnew d _ (Nat.le_succ _)), hnew,
    d.created + 1, Nat.le_refl _, rfl⟩

end Cloud

namespace Volume

open DesiredState.World

/-- A volume is recorded for the resource with a number. -/
abbrev Names (s : Store) (i : Int) (id : String) : Prop :=
  Recorded s i State.resourceIdKey (.str id)

theorem names_iff {s : Store} {i : Int} {id : String} : Names s i id ↔
    ∃ text, s.textOf? (.resource i) State.resourceIdKey = some text ∧
      Store.decodeText text = .ok (.str id) := by
  rw [Names, Recorded, Store.get, run_reading]
  cases s.textOf? (.resource i) State.resourceIdKey with
  | none => simp
  | some text => cases h : Store.decodeText text <;> simp [h, Except.map]

theorem Names.of_attributesOf? {s t : Store} {i : Int} {id : String} (h : Names t i id)
    (hsame : t.attributesOf? (.resource i) = s.attributesOf? (.resource i)) : Names s i id := by
  obtain ⟨text, htext, hdecode⟩ := names_iff.mp h
  rw [Store.textOf?, Store.attributesOf, hsame] at htext
  exact names_iff.mpr ⟨text, htext, hdecode⟩

theorem names_of_resourceId {r : ResourceRecord} {s : Store} {id : String}
    (h : (State.resourceId r).run s = (.ok (some id), s)) : Names s r.id id := by
  rw [State.resourceId, State.attempt, run_mapError, Store.getAs, run_bind] at h
  rcases hrun : (Store.get r.scope State.resourceIdKey).run s with ⟨_ | _ | v, u⟩ <;>
    rw [hrun] at h
  · cases h
  · cases h
  · have hv : v = .str id := by
      cases v <;> simp_all [Json.expectString, run_ofExcept, Except.mapError, Except.map]
    rw [Names, Recorded, ← hv]
    exact congrArg Prod.fst hrun

variable {foreign : String → Prop} {i : Int} {w₀ w t : World Cloud} {r : ResourceRecord}
  {d : Definition} {options : PassOptions}

/-- Work on one resource has left the rest as it was: the records of everything else, and the
volumes that are recorded for others. The volume that is recorded for it is none of those. -/
structure Safe (foreign : String → Prop) (i : Int) (w₀ w : World Cloud) : Prop where
  records : Store.Edits i State.resourceIdKey (fun _ => True) w₀.store w.store
  volumes : ∀ id, foreign id → w.remote.volume? id = w₀.remote.volume? id
  numbered : ∀ id, foreign id → Numbered w.remote.created id
  own : ∀ id, Names w.store i id → ¬ foreign id ∧ Numbered w.remote.created id

instance (foreign : String → Prop) (i : Int) (w₀ : World Cloud) :
    Quiet (Preserves (Safe foreign i w₀)) where
  record _ _ h := ⟨h.records, h.volumes, h.numbered, h.own⟩
  mutexes _ _ h := ⟨h.records, h.volumes, h.numbered, h.own⟩

theorem Safe.remote (h : Safe foreign i w₀ w) {c : Cloud} (hc : w.remote.Leaves foreign c) :
    Safe foreign i w₀ { w with remote := c } where
  records := h.records
  volumes id hid := (hc.volumes id hid).trans (h.volumes id hid)
  numbered id hid := (h.numbered id hid).mono hc.created
  own id hid := ⟨(h.own id hid).1, (h.own id hid).2.mono hc.created⟩

/-- An edit keeps the neighbours safe if it gives the resource no volume of theirs. -/
theorem Safe.edit {allowed : String → Prop} {a : State.Step Unit} (h : Safe foreign i w₀ w)
    (ha : Keeps (Store.Edits i State.resourceIdKey allowed) a)
    (hnew : ∀ text id, allowed text → Store.decodeText text = .ok (.str id) →
      ¬ foreign id ∧ Numbered w.remote.created id) :
    Safe foreign i w₀ ((onStore a : Task Cloud Unit).run w).2 := by
  have hedit : Store.Edits i State.resourceIdKey allowed w.store
      ((onStore a : Task Cloud Unit).run w).2.store := onStore_keeps_store ha w
  have hremote : w.remote = ((onStore a : Task Cloud Unit).run w).2.remote :=
    onStore_keeps (R := Eq) a w
  generalize ((onStore a : Task Cloud Unit).run w).2 = t at hedit hremote ⊢
  refine ⟨trans_of _ h.records (hedit.mono fun _ _ => trivial), ?_, ?_, fun id hid => ?_⟩
  · exact hremote ▸ h.volumes
  · exact hremote ▸ h.numbered
  · obtain ⟨text, htext, hdecode⟩ := names_iff.mp hid
    rw [← hremote]
    rcases hedit.textOf? htext with htext | hallowed
    · exact h.own id (names_iff.mpr ⟨text, htext, hdecode⟩)
    · exact hnew text id hallowed hdecode

theorem remote_safe {α : Type} {call : Cloud.Call α} (h : Keeps (Cloud.Leaves foreign) call) :
    Keeps (Preserves (Safe foreign i w₀)) (onRemote call : Task Cloud α) :=
  fun w hw => hw.remote (h w.remote)

/-- When a volume was created, the one identity that may be recorded is that of the volume. -/
theorem recordCreated_edits (now : Nat) (id region : String) :
    Keeps (Store.Edits r.id State.resourceIdKey (· = (Json.str id).render))
      (State.recordCreated r now id (outputs region d)) := by
  refine Keeps.transaction (Keeps.bind (Keeps.mapError ?_) fun _ =>
    Keeps.bind (Keeps.mapError ?_) fun _ => Keeps.mapError ?_)
  · exact Store.set_edits fun _ => rfl
  · exact Store.set_edits fun he => absurd he (by decide)
  · refine Store.setEach_edits fun entry he hkey => ?_
    exact absurd hkey (key_ne_of_mem_outputs he (by decide))

/-- A volume with a new id may be recorded. -/
theorem recordCreated_safe {id : String} (h : Safe foreign r.id w₀ w) (hid : ¬ foreign id)
    (hnumbered : Numbered w.remote.created id) (now : Nat) (region : String) :
    Safe foreign r.id w₀
      ((onStore (State.recordCreated r now id (outputs region d)) : Task Cloud Unit).run w).2 := by
  refine h.edit (recordCreated_edits now id region) fun text other htext hother => ?_
  rw [htext, decodeText_str] at hother
  cases hother
  exact ⟨hid, hnumbered⟩

/-- Creating a volume leaves the neighbours safe, and the id that it has is new. -/
theorem createVolume_safe (h : Safe foreign i w₀ w) (region : String) (size : Int)
    (tags : KeyMap String) (label : String) :
    (remotely label (Cloud.createVolume region size tags)).Ends w
      (fun id t => Safe foreign i w₀ t ∧ ¬ foreign id ∧ Numbered t.remote.created id)
      fun _ t => Safe foreign i w₀ t := by
  refine retrying_ends (I := Safe foreign i w₀)
    (fun entry _ h => Quiet.record (R := Preserves _) entry _ h) (fun w h => ?_) h
  exact onRemote_ends ((Cloud.createVolume_ends region size tags h.numbered).mono
    (fun _ _ hc => ⟨h.remote hc.1, hc.2⟩) fun _ _ hc => h.remote hc)

theorem tended_safe (foreign : String → Prop) (r : ResourceRecord) (w₀ : World Cloud) :
    Tended r (fun id => ¬ foreign id) (Preserves (Safe foreign r.id w₀)) where
  edit ha w hw := hw.edit ha fun _ _ hno => hno.elim
  name hnone hsome := keeps_preserves fun w hw => by
    refine Ends.bind ((onStore_reads_ends (State.resourceId_reads r)).mono ?_ fun _ _ ht => ht ▸ hw)
    rintro found _ ⟨hrun, rfl⟩
    cases found with
    | none => exact hnone.ends_of hw
    | some id => exact (hsome id (hw.own id (names_of_resourceId hrun)).1).ends_of hw
  create region d f hf := keeps_preserves fun w hw => by
    refine Ends.bind ((createVolume_safe hw _ _ _ _).imp fun id t ht => ?_)
    obtain ⟨hsafe, hid, hnumbered⟩ := ht
    exact Ends.bind (ends_view (Ends.bind
      ((ends_of_state (recordCreated_safe hsafe hid hnumbered _ _)).imp fun _ _ hu =>
        (hf id hid).ends_of hu)))
  ready id hid := remote_safe (Cloud.calling_leaves hid _ _)
  describe _ _ := remote_safe ((Cloud.call_leaves _).bind fun _ => keeps_view _)
  tags id _ hid := remote_safe (Cloud.calling_leaves hid _ _)
  attach id _ hid := remote_safe (Cloud.calling_leaves hid _ _)

/-- An operation on a volume keeps its neighbours safe. -/
theorem Safe.pass (h : Safe foreign r.id w₀ w) (p : Pass) :
    Safe foreign r.id w₀ (p.run (resource r) w) := by
  have htended := tended_safe foreign r w₀
  have hdelete : ∀ id, ¬ foreign id → Keeps (Preserves (Safe foreign r.id w₀))
      (onRemote (Cloud.deleteVolume id) : Task Cloud Unit) := fun id hid =>
    remote_safe (Cloud.deleteVolume_leaves hid)
  have hresize : ∀ id size, ¬ foreign id → Keeps (Preserves (Safe foreign r.id w₀))
      (onRemote (Cloud.resize id size) : Task Cloud Unit) := fun id size hid =>
    remote_safe (Cloud.calling_leaves hid _ _)
  cases p with
  | create d options =>
    have hcreate : Keeps (Preserves (Safe foreign r.id w₀))
        ((resourceBy Cloud.resize r).create d options) :=
      resourceBy_keeps htended (fun _ => hdelete) hresize
    rw [resourceBy_resize] at hcreate
    exact hcreate w h
  | check => exact check_keeps htended w h
  | destroy wipe confirm => exact destroy_keeps htended hdelete wipe confirm w h

end Volume

end DesiredState
