import DesiredState.Proofs.Json.RoundTrip
import DesiredState.Snapshot.Codec

/-!
# Backups read back

The text of a backup is read as that backup, one snapshot as one and a list as that list, if the
values in it are plain and leave room for what a backup is nested in.
-/

namespace DesiredState

/-- A value that can be stored and taken from one store to another. -/
structure Json.Portable (v : Json) : Prop where
  plain : v.plain = true
  /-- A list of snapshots adds five levels. -/
  shallow : v.depth ≤ 122
  present : v.isNull = false

def Snapshot.values (s : Snapshot) : List Json :=
  s.attributes.values ++ s.resources.values.flatMap fun r => r.attributes.values

def Snapshot.Portable (s : Snapshot) : Prop := ∀ v ∈ s.values, v.Portable

/-- Whether all values in a backup can be taken along. -/
def Backup.Portable (b : Backup) : Prop := ∀ s ∈ b.snapshots, s.Portable

theorem Snapshot.Portable.attributes {s : Snapshot} (h : s.Portable) :
    ∀ v ∈ s.attributes.values, v.Portable := fun v hv => h v (List.mem_append_left _ hv)

theorem Snapshot.Portable.resources {s : Snapshot} (h : s.Portable) {r : ResourceSnapshot}
    (hr : r ∈ s.resources.values) : ∀ v ∈ r.attributes.values, v.Portable := fun v hv =>
  h v (List.mem_append_right _ (List.mem_flatMap.mpr ⟨r, hr, hv⟩))

def KeyMap.withoutNull (values : KeyMap Json) : KeyMap Json := values.filter fun _ v => ¬ v.isNull

def ResourceSnapshot.withoutNull (r : ResourceSnapshot) : ResourceSnapshot :=
  ⟨r.resourceType, r.attributes.withoutNull⟩

def Snapshot.withoutNull (s : Snapshot) : Snapshot :=
  ⟨s.uuid, s.attributes.withoutNull, s.resources.map ResourceSnapshot.withoutNull⟩

theorem KeyMap.withoutNull_eq_self {values : KeyMap Json}
    (h : ∀ v ∈ values.values, v.isNull = false) : values.withoutNull = values :=
  KeyMap.filter_eq_self fun entry he => by simp [h entry.2 (List.mem_map_of_mem he)]

theorem Snapshot.Portable.withoutNull_eq_self {s : Snapshot} (h : s.Portable) :
    s.withoutNull = s := by
  have hattributes := KeyMap.withoutNull_eq_self fun v hv => (h.attributes v hv).present
  have hresources : s.resources.map ResourceSnapshot.withoutNull = s.resources :=
    KeyMap.map_eq_self.mpr fun r hr => by
      rw [ResourceSnapshot.withoutNull,
        KeyMap.withoutNull_eq_self fun v hv => (h.resources hr v hv).present]
  rw [Snapshot.withoutNull, hattributes, hresources]

namespace Json

theorem precise_ofMap {m : KeyMap Json} (h : ∀ v ∈ m.values, v.precise = true) :
    (ofMap m).precise = true :=
  preciseMembers_iff.mpr fun _ hm => h _ (List.mem_map_of_mem hm)

theorem depth_ofMap_le {m : KeyMap Json} {n : Nat} (h : ∀ v ∈ m.values, v.depth ≤ n) :
    (ofMap m).depth ≤ n + 1 :=
  Nat.succ_le_succ (depthMembers_le_iff.mpr fun _ hm => h _ (List.mem_map_of_mem hm))

end Json

theorem attributesOfField?_ofMap {m : KeyMap Json} (h : ∀ v ∈ m.values, v.Portable) :
    attributesOfField? (.once (.ofMap m)) = some m := by
  have hmembers : Json.plainMembers m.entries = true :=
    Json.plainMembers_iff.mpr fun _ hm => (h _ (List.mem_map_of_mem hm)).plain
  rw [Json.ofMap, attributesOfField?, Json.canonicalMembers_of_plain _ hmembers,
    KeyMap.ofList_entries]

/-- What each part is read as, the list is read as. -/
theorem mapM_map_eq_some {α β γ : Type} {f : β → Option γ} {g : α → β} {k : α → γ} {xs : List α}
    (h : ∀ x ∈ xs, f (g x) = some (k x)) : (xs.map g).mapM f = some (xs.map k) := by
  induction xs with
  | nil => rfl
  | cons x xs ih =>
    rw [List.map_cons, List.mapM_cons, h x List.mem_cons_self,
      ih fun y hy => h y (List.mem_cons_of_mem _ hy)]
    rfl

namespace ResourceSnapshot

variable {r : ResourceSnapshot} (h : ∀ v ∈ r.attributes.values, v.Portable)

include h

theorem precise_toJson : r.toJson.precise = true := by
  have hattributes := Json.precise_ofMap fun v hv => Json.precise_of_plain v (h v hv).plain
  simp [toJson, Json.precise, Json.preciseMembers, hattributes]

theorem depth_toJson_le : r.toJson.depth ≤ 124 := by
  have hattributes := Json.depth_ofMap_le fun v hv => (h v hv).shallow
  simp only [toJson, Json.depth, Json.depthMembers]
  omega

theorem ofJson?_toJson : ofJson? r.toJson = some r := by
  have htype : Json.Field.find "type" [("type", .str r.resourceType),
      ("attributes", .ofMap r.attributes)] = .once (.str r.resourceType) := rfl
  have hattributes : Json.Field.find "attributes" [("type", .str r.resourceType),
      ("attributes", .ofMap r.attributes)] = .once (.ofMap r.attributes) := rfl
  rw [toJson, ofJson?, htype, hattributes, ofFields?, attributesOfField?_ofMap h]
  rfl

end ResourceSnapshot

namespace Snapshot

variable {s : Snapshot} (h : s.Portable)

include h

theorem precise_toJson : s.toJson.precise = true := by
  have hattributes := Json.precise_ofMap fun v hv =>
    Json.precise_of_plain v (h.attributes v hv).plain
  have hresources : (Json.ofMap (s.resources.map ResourceSnapshot.toJson)).precise = true := by
    refine Json.precise_ofMap fun v hv => ?_
    rw [KeyMap.values_map] at hv
    obtain ⟨r, hr, rfl⟩ := List.mem_map.mp hv
    exact ResourceSnapshot.precise_toJson (h.resources hr)
  simp [toJson, Json.precise, Json.preciseMembers, hattributes, hresources]

theorem depth_toJson_le : s.toJson.depth ≤ 126 := by
  have hattributes := Json.depth_ofMap_le fun v hv => (h.attributes v hv).shallow
  have hresources : (Json.ofMap (s.resources.map ResourceSnapshot.toJson)).depth ≤ 125 := by
    refine Json.depth_ofMap_le fun v hv => ?_
    rw [KeyMap.values_map] at hv
    obtain ⟨r, hr, rfl⟩ := List.mem_map.mp hv
    exact ResourceSnapshot.depth_toJson_le (h.resources hr)
  simp only [toJson, Json.depth, Json.depthMembers]
  omega

theorem resourcesOfField?_toJson :
    resourcesOfField? (.once (.ofMap (s.resources.map ResourceSnapshot.toJson))) =
      some s.resources := by
  have hentries : (s.resources.map ResourceSnapshot.toJson).entries.mapM (fun member =>
      (ResourceSnapshot.ofJson? member.2).map fun r => (member.1, r)) =
        some (s.resources.entries.map id) := by
    refine mapM_map_eq_some fun entry he => ?_
    rw [ResourceSnapshot.ofJson?_toJson (h.resources (List.mem_map_of_mem he))]
    rfl
  rw [Json.ofMap, resourcesOfField?, hentries, List.map_id, Option.map_some,
    KeyMap.ofList_entries]

/-- A snapshot is read back from its JSON form. -/
theorem ofJson?_toJson : ofJson? s.toJson = some s := by
  have huuid : Json.Field.find "uuid" [("uuid", .str s.uuid), ("attributes", .ofMap s.attributes),
      ("resources", .ofMap (s.resources.map ResourceSnapshot.toJson))] =
        .once (.str s.uuid) := rfl
  have hattributes : Json.Field.find "attributes" [("uuid", .str s.uuid),
      ("attributes", .ofMap s.attributes),
      ("resources", .ofMap (s.resources.map ResourceSnapshot.toJson))] =
        .once (.ofMap s.attributes) := rfl
  have hresources : Json.Field.find "resources" [("uuid", .str s.uuid),
      ("attributes", .ofMap s.attributes),
      ("resources", .ofMap (s.resources.map ResourceSnapshot.toJson))] =
        .once (.ofMap (s.resources.map ResourceSnapshot.toJson)) := rfl
  rw [toJson, ofJson?, huuid, hattributes, hresources, ofFields?,
    attributesOfField?_ofMap h.attributes, resourcesOfField?_toJson h]
  rfl

omit h

/-- No list of snapshots is taken for one snapshot: the place of its UUID holds no text. -/
theorem ofJson?_arr_toJson (snapshots : List Snapshot) :
    ofJson? (.arr (snapshots.map toJson)) = none := by
  rw [ofJson?]
  split
  · rfl
  · cases snapshots <;> rfl

end Snapshot

namespace Backup

variable {b : Backup} (h : b.Portable)

include h

theorem precise_toJson : b.toJson.precise = true := by
  cases b with
  | one s => exact Snapshot.precise_toJson (h s List.mem_cons_self)
  | many snapshots =>
    refine Json.preciseItems_iff.mpr fun v hv => ?_
    obtain ⟨s, hs, rfl⟩ := List.mem_map.mp hv
    exact Snapshot.precise_toJson (h s hs)

theorem depth_toJson_le : b.toJson.depth ≤ Json.maxDepth := by
  cases b with
  | one s => exact Nat.le_succ_of_le (Snapshot.depth_toJson_le (h s List.mem_cons_self))
  | many snapshots =>
    refine Nat.succ_le_succ (Json.depthItems_le_iff.mpr fun v hv => ?_)
    obtain ⟨s, hs, rfl⟩ := List.mem_map.mp hv
    exact Snapshot.depth_toJson_le (h s hs)

/-- A backup is read back from its JSON form as what it is, one or many. -/
theorem ofJson?_toJson : ofJson? b.toJson = some b := by
  cases b with
  | one s => simp only [toJson, ofJson?, Snapshot.ofJson?_toJson (h s List.mem_cons_self)]
  | many snapshots =>
    have hall : (snapshots.map Snapshot.toJson).mapM Snapshot.ofJson? = some (snapshots.map id) :=
      mapM_map_eq_some fun s hs => Snapshot.ofJson?_toJson (h s hs)
    simp only [toJson, ofJson?, Snapshot.ofJson?_arr_toJson, hall, List.map_id, Option.map_some]

omit h

/-- The texts that a backup is written as: on one line, or indented with a line break at the end. -/
def texts (b : Backup) : List String := [b.toJson.render, b.toJson.renderIndented ++ "\n"]

/-- Each text of a backup is read as that backup. -/
theorem parse?_of_mem_texts (h : b.Portable) {text : String} (ht : text ∈ b.texts) :
    parse? text = some b := by
  have hread : Json.parseAsWritten? text = some b.toJson := by
    simp only [texts, List.mem_cons, List.not_mem_nil, or_false] at ht
    rcases ht with rfl | rfl
    · exact Json.parseAsWritten?_render (precise_toJson h) (depth_toJson_le h)
    · exact Json.parseAsWritten?_renderIndented (precise_toJson h) (depth_toJson_le h)
  rw [parse?, hread, Option.bind_some, ofJson?_toJson h]

end Backup

end DesiredState
