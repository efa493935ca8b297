import DesiredState.Proofs.Volume.Run

/-!
# Records mirror the provider

After every run each live volume is recorded for exactly one resource, the attributes of a volume
are recorded only together with its identity, and what is recorded of a live volume is what the
provider says.
-/

namespace DesiredState.Volume

/-- Something is recorded at a key of a resource, whatever it is. -/
def IsRecorded (s : Store) (i : Int) (key : String) : Prop :=
  (s.textOf? (.resource i) key).isSome

variable {intact : Prop} {ledger : Int → Option Entry} {w : World Cloud} {i : Int} {e : Entry}
  {key : String} {v : Json}

theorem Mirrored.isRecorded_iff (h : Mirrored intact ledger w) (he : ledger i = some e) :
    IsRecorded w.store i key ↔ (e.text? key).isSome := by
  rw [IsRecorded, (h.records he).textOf?]

/-- Nothing is recorded for a resource that does not exist. -/
theorem Mirrored.entry_of_isRecorded (h : Mirrored intact ledger w)
    (hr : IsRecorded w.store i key) : ∃ e, ledger i = some e := by
  cases hl : ledger i with
  | some e => exact ⟨e, rfl⟩
  | none =>
    rw [IsRecorded, Store.textOf?, Store.attributesOf, h.absent hl] at hr
    cases hr

theorem Recorded.isRecorded (h : Recorded w.store i key v) : IsRecorded w.store i key := by
  unfold Recorded Store.get at h
  rw [Action.run_reading] at h
  rw [IsRecorded]
  cases ht : w.store.textOf? (.resource i) key with
  | none =>
    rw [ht] at h
    cases h
  | some text => rfl

/-- The resource has a placement. -/
def Placed (ledger : Int → Option Entry) (i : Int) : Prop :=
  ∃ e placement, ledger i = some e ∧ e.placement = some placement

/-- Whatever is recorded besides the status is recorded with a placement. -/
theorem Mirrored.placed_of_isRecorded (h : Mirrored intact ledger w) (hk : key ≠ State.statusKey)
    (hr : IsRecorded w.store i key) : Placed ledger i := by
  obtain ⟨e, he⟩ := h.entry_of_isRecorded hr
  have htext := (h.isRecorded_iff he).mp hr
  cases hp : e.placement with
  | some placement => exact ⟨e, placement, he, hp⟩
  | none => simp [Entry.text?, hk, hp] at htext

/-- Identity, time and region are recorded with every placement. -/
theorem Mirrored.isRecorded_iff_placed (h : Mirrored intact ledger w)
    (hk : key ∈ [State.resourceIdKey, State.creationTimeKey, "region"]) :
    IsRecorded w.store i key ↔ Placed ledger i := by
  have hs : key ≠ State.statusKey := by
    rintro rfl
    revert hk
    decide
  refine ⟨h.placed_of_isRecorded hs, ?_⟩
  rintro ⟨e, placement, he, hp⟩
  rw [h.isRecorded_iff he]
  simp only [List.mem_cons, List.not_mem_nil, or_false] at hk
  rcases hk with rfl | rfl | rfl
  · simp [e.text?_resourceId, hp]
  · simp [e.text?_creationTime, hp]
  · simp [e.text?_region, hp]

/-- The recorded identity is that of the placement. -/
theorem Mirrored.recorded_id_iff (h : Mirrored intact ledger w) {id : String} :
    Recorded w.store i State.resourceIdKey (.str id) ↔ Owns ledger i id := by
  constructor
  · intro hr
    obtain ⟨e, he⟩ := h.entry_of_isRecorded hr.isRecorded
    rw [Recorded, h.get he, e.text?_resourceId] at hr
    cases hp : e.placement with
    | none =>
      rw [hp] at hr
      cases hr
    | some placement =>
      rw [hp, Option.map_some, Store.denoted, decodeText_str] at hr
      cases hr
      exact ⟨e, placement, he, hp, rfl⟩
  · rintro ⟨e, placement, he, hp, rfl⟩
    rw [Recorded, h.get he, e.text?_resourceId, hp, Option.map_some, Store.denoted,
      decodeText_str]
    rfl

/-- The records of all volumes and the provider agree after every run. -/
theorem mirrored_run (deployment : String) (settlePolls : Nat) (services : Services)
    (now : UInt64) (events : List Event) :
    let w := after deployment events (fixture deployment settlePolls services now)
    (∀ id v, w.remote.volume? id = some v →
      ∃! i, Recorded w.store i State.resourceIdKey (.str id)) ∧
    (∀ i, (IsRecorded w.store i "region" ↔ IsRecorded w.store i State.resourceIdKey) ∧
      (IsRecorded w.store i State.creationTimeKey ↔
        IsRecorded w.store i State.resourceIdKey) ∧
      ∀ key ∈ ["size", "tags", "attachedTo"],
        IsRecorded w.store i key → IsRecorded w.store i State.resourceIdKey) ∧
    ∀ i id v, Recorded w.store i State.resourceIdKey (.str id) → w.remote.volume? id = some v →
      Recorded w.store i "region" (.str v.region) ∧
      ((Store.get (.resource i) "attachedTo").run w.store).1 = .ok (v.attachedTo.map .str) ∧
      (IsRecorded w.store i "size" → Recorded w.store i "size" (.ofInt v.size)) := by
  intro w
  obtain ⟨ledger, h⟩ :=
    mirrored_after (mirrored_fixture deployment settlePolls services now) deployment events
  have h : Mirrored _ ledger w := h
  refine ⟨fun id v hv => ?_, fun i => ?_, fun i id v hr hv => ?_⟩
  · have hlive : provided w id = some v.live := by rw [provided, hv]; rfl
    obtain ⟨i, hi⟩ := h.owned hlive
    exact ⟨i, h.recorded_id_iff.mpr hi, fun j hj => h.distinct (h.recorded_id_iff.mp hj) hi⟩
  · have hid : IsRecorded w.store i State.resourceIdKey ↔ Placed ledger i :=
      h.isRecorded_iff_placed (by simp)
    refine ⟨?_, ?_, fun key hkey hr => ?_⟩
    · rw [hid, h.isRecorded_iff_placed (by simp)]
    · rw [hid, h.isRecorded_iff_placed (by simp)]
    · rw [hid]
      refine h.placed_of_isRecorded ?_ hr
      rintro rfl
      revert hkey
      decide
  · obtain ⟨e, placement, he, hp, rfl⟩ := h.recorded_id_iff.mp hr
    have hlive : provided w placement.id = some v.live := by rw [provided, hv]; rfl
    obtain ⟨hregion, hattached, hsize⟩ := h.agrees he placement v.live hp hlive
    refine ⟨?_, ?_, fun hr => ?_⟩
    · rw [Recorded, h.get he, e.text?_region, hp, Option.map_some, Store.denoted, decodeText_str,
        ← hregion]
      rfl
    · rw [h.get he, e.text?_attachedTo, hp, Option.bind_some, ← hattached]
      exact denoted_target v.attachedTo
    · rw [h.isRecorded_iff he, e.text?_size, hp, Option.bind_some] at hr
      cases hs : placement.size with
      | none => simp [hs] at hr
      | some size =>
        have hsame : v.size = size.val := hsize size hs
        rw [Recorded, h.get he, e.text?_size, hp, Option.bind_some, hs, Option.map_some,
          Store.denoted, decodeText_ofInt size.2.inWords, hsame]
        rfl

end DesiredState.Volume
