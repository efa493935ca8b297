import DesiredState.Proofs.Diff
import DesiredState.Proofs.Plan.Make
import DesiredState.Proofs.Volume.Sound
import Mathlib.Data.List.Sublists

/-!
# Volumes in sync with their definitions

A definition by plain values asks for a region and perhaps for a size, tags and an attachment. A
pass over it plans the handlers of the keys that are out of sync, in the order in which they are
registered, and each handler brings its own key in sync. Only moving the volume does more: the new
volume is not attached to anything, and if the attachment was in sync nobody restores it.
-/

namespace DesiredState

theorem Json.str_of_string? {v : Json} {text : String} (h : v.string? = some text) :
    v = .str text := by
  cases v <;> cases h
  rfl

theorem Json.ofInt_of_int64? {v : Json} {i : Int} (h : v.int64? = some i) : v = .ofInt i := by
  unfold Json.int64? at h
  split at h
  · split at h
    · cases h
      rfl
    · cases h
  · cases h

namespace Volume

/-- The values that a setting of a volume may have. -/
def Takes (key : String) : Setting → Prop
  | .reference _ => False
  | .value v =>
    if key = "size" then v.int64?.isSome = true
    else if key = "tags" then v.isNull = false ∧ v.plain = true ∧ v.depth ≤ Json.maxDepth
    else v.string?.isSome = true

instance (key : String) : (setting : Setting) → Decidable (Takes key setting)
  | .reference _ => inferInstanceAs (Decidable False)
  | .value v => inferInstanceAs (Decidable (if key = "size" then v.int64?.isSome = true
    else if key = "tags" then v.isNull = false ∧ v.plain = true ∧ v.depth ≤ Json.maxDepth
    else v.string?.isSome = true))

/-- The definition says what it asks of a volume by plain values. -/
structure Asks (d : Definition) : Prop where
  region : (d.string? "region").isSome = true
  settings : ∀ entry ∈ d.settings.entries, entry.1 ∉ State.reservedKeys →
    entry.1 ∈ ownedKeys ∧ Takes entry.1 entry.2

instance (d : Definition) : Decidable (Asks d) :=
  decidable_of_iff ((d.string? "region").isSome = true ∧
      ∀ entry ∈ d.settings.entries, entry.1 ∉ State.reservedKeys →
        entry.1 ∈ ownedKeys ∧ Takes entry.1 entry.2)
    ⟨fun h => ⟨h.1, h.2⟩, fun h => ⟨h.1, h.2⟩⟩

variable {d : Definition} {key : String}

theorem value?_of_string? {text : String} (h : d.string? key = some text) :
    d.value? key = some (.str text) := by
  obtain ⟨v, hv, ht⟩ := Option.bind_eq_some_iff.mp h
  rw [hv, Json.str_of_string? ht]

theorem value?_eq_some {v : Json} (h : d.value? key = some v) : d.get? key = some (.value v) := by
  unfold Definition.value? at h
  split at h
  · cases h
    assumption
  · cases h

theorem Asks.takes (hd : Asks d) (hr : key ∉ State.reservedKeys) {setting : Setting}
    (hs : d.get? key = some setting) : key ∈ ownedKeys ∧ Takes key setting :=
  hd.settings (key, setting) (KeyMap.find?_eq_some_iff.mp hs) hr

/-- An attribute that is asked for by a text, if it is. -/
theorem Asks.value?_text (hd : Asks d) (hr : key ∉ State.reservedKeys) (hsize : key ≠ "size")
    (htags : key ≠ "tags") : d.value? key = (d.string? key).map Json.str := by
  cases hv : d.value? key with
  | none => rw [Definition.string?, hv]; rfl
  | some v =>
    have ht := (hd.takes hr (value?_eq_some hv)).2
    rw [Takes, if_neg hsize, if_neg htags] at ht
    obtain ⟨text, htext⟩ := Option.isSome_iff_exists.mp ht
    rw [Definition.string?, hv, Option.bind_some, htext, Json.str_of_string? htext]
    rfl

theorem Asks.value?_size (hd : Asks d) : d.value? "size" = (definedSize? d).map Json.ofInt := by
  cases hv : d.value? "size" with
  | none => rw [definedSize?, hv]; rfl
  | some v =>
    have ht := (hd.takes (by decide) (value?_eq_some hv)).2
    rw [Takes, if_pos rfl] at ht
    obtain ⟨i, hi⟩ := Option.isSome_iff_exists.mp ht
    rw [definedSize?, hv, Option.bind_some, hi, Json.ofInt_of_int64? hi]
    rfl

theorem Asks.tags (hd : Asks d) {v : Json} (hv : d.value? "tags" = some v) :
    v.isNull = false ∧ v.plain = true ∧ v.depth ≤ Json.maxDepth := by
  have ht := (hd.takes (by decide) (value?_eq_some hv)).2
  rwa [Takes, if_neg (by decide), if_pos rfl] at ht

theorem Asks.value?_other (hd : Asks d) (hr : key ∉ State.reservedKeys) (ho : key ∉ ownedKeys) :
    d.value? key = none := by
  cases hv : d.value? key with
  | none => rfl
  | some v => exact absurd (hd.takes hr (value?_eq_some hv)).1 ho

theorem Takes.literal {setting : Setting} (h : Takes key setting) :
    ∃ v, setting = .value v ∧ v.isNull = false ∧ v.plain = true := by
  cases setting with
  | reference target => exact h.elim
  | value v =>
    refine ⟨v, rfl, ?_⟩
    simp only [Takes] at h
    split at h
    · obtain ⟨i, hi⟩ := Option.isSome_iff_exists.mp h
      have hwords := (fits_of_int64? hi).inWords
      rw [Json.ofInt_of_int64? hi]
      exact ⟨rfl, by simpa [Json.ofInt, Json.plain] using hwords⟩
    · split at h
      · exact ⟨h.1, h.2.1⟩
      · obtain ⟨text, htext⟩ := Option.isSome_iff_exists.mp h
        rw [Json.str_of_string? htext]
        exact ⟨rfl, rfl⟩

theorem Asks.literal (hd : Asks d) : Diff.Literal d State.reservedKeys :=
  fun _ _ hr hs => (hd.takes hr hs).2.literal

/-- What is recorded at a key is what the definition says. -/
def Entry.InSync (e : Entry) (d : Definition) (key : String) : Prop :=
  Store.denoted (e.text? key) = .ok (d.value? key)

variable {e e₀ e' : Entry} {placement : Placement}

theorem inSync_congr (h : e'.text? key = e.text? key) : e'.InSync d key ↔ e.InSync d key := by
  rw [Entry.InSync, Entry.InSync, h]

/-- A change of one attribute leaves the others. -/
theorem text?_of_update {other : String} {text : Option String}
    (h : Function.update e.text? other text = e'.text?) (hne : key ≠ other) :
    e'.text? key = e.text? key := by
  rw [← h, Function.update_of_ne hne]

theorem inSync_region_iff {region : String} (hr : d.string? "region" = some region) :
    e.InSync d "region" ↔ e.placement.map Placement.region = some region := by
  have htext : e.text? "region" =
      (e.placement.map Placement.region).map fun region => (Json.str region).render := by
    rw [e.text?_region, Option.map_map]
    rfl
  rw [Entry.InSync, htext, denoted_target, value?_of_string? hr]
  cases e.placement <;> simp

theorem inSync_size (hd : Asks d) (hp : e.placement = some placement)
    (hs : placement.size = wantedSize? d) : e.InSync d "size" := by
  rw [Entry.InSync, e.text?_size, hp, Option.bind_some, hs, hd.value?_size,
    map_wantedSize? d fun size => (Json.ofInt size).render]
  cases hi : definedSize? d with
  | none => rfl
  | some i =>
    rw [Option.map_some, Store.denoted, decodeText_ofInt (fits_definedSize hi).inWords]
    rfl

theorem inSync_tags (hd : Asks d) (hp : e.placement = some placement)
    (ht : placement.tags = wantedTags? d) : e.InSync d "tags" := by
  rw [Entry.InSync, e.text?_tags, hp, Option.bind_some, ht, wantedTags?]
  cases hv : d.value? "tags" with
  | none => rfl
  | some v =>
    obtain ⟨hnull, hplain, hdepth⟩ := hd.tags hv
    rw [Option.bind_some, stored_of_ne_null hnull, Store.denoted,
      Store.decodeText_render hplain hdepth]
    rfl

theorem inSync_attachedTo_iff (hd : Asks d) :
    e.InSync d "attachedTo" ↔
      e.placement.bind Placement.attachedTo = d.string? "attachedTo" := by
  rw [Entry.InSync, e.text?_attachedTo, denoted_target,
    hd.value?_text (by decide) (by decide) (by decide), Except.ok.injEq]
  exact (Option.map_injective fun _ _ => Json.str.inj).eq_iff

theorem inSync_other (hd : Asks d) (hr : key ∉ State.reservedKeys) (ho : key ∉ ownedKeys) :
    e.InSync d key := by
  have hs : key ≠ State.statusKey := fun he => hr (he ▸ by decide)
  have hi : key ≠ State.resourceIdKey := fun he => hr (he ▸ by decide)
  have ht : key ≠ State.creationTimeKey := fun he => hr (he ▸ by decide)
  rw [Entry.InSync, e.text?_other hs hi ht ho, hd.value?_other hr ho]
  rfl

/-- A difference lists the keys that are out of sync. -/
theorem mem_changedKeys_iff_not_inSync (hd : Asks d) {diff : Diff} (h : Differs e d diff) :
    key ∈ diff.changedKeys ↔ key ∉ State.reservedKeys ∧ ¬ e.InSync d key := by
  obtain ⟨current, resolve, hlook, hdiff⟩ := h
  rw [Diff.mem_changedKeys_iff hd.literal hdiff, Entry.InSync, hlook key, Except.ok.injEq]

variable {r : ResourceRecord}

/-- Each handler owns the key at its place. -/
theorem owns_registry_iff {place : Nat} :
    (registry r).owns place key = true ↔ ownedKeys[place]? = some key := by
  have hnames : ∀ name, (KeySet.ofNames [name]).contains key = true ↔ name = key := by
    intro name
    rw [KeySet.ofNames, KeyMap.contains_ofList]
    simp [eq_comm]
  match place with
  | 0 => exact (hnames "region").trans (by simp [ownedKeys])
  | 1 => exact (hnames "size").trans (by simp [ownedKeys])
  | 2 => exact (hnames "tags").trans (by simp [ownedKeys])
  | 3 => exact (hnames "attachedTo").trans (by simp [ownedKeys])
  | n + 4 =>
    exact iff_of_false (by simp [Registry.owns, Registry.at?, registry]) (by simp [ownedKeys])

theorem owns_iff_idxOf (hk : key ∈ ownedKeys) (place : Nat) :
    (registry r).owns place key = true ↔ place = ownedKeys.idxOf key := by
  rw [owns_registry_iff]
  constructor
  · intro hget
    obtain ⟨hlt, rfl⟩ := List.getElem?_eq_some_iff.mp hget
    have hnodup : ownedKeys.Nodup := by decide
    exact (hnodup.idxOf_getElem place hlt).symm
  · rintro rfl
    exact List.getElem?_idxOf hk

/-- Every other handler waits for the first one. -/
theorem before_registry (r : ResourceRecord) :
    (registry r).before = fun place => if place ∈ [1, 2, 3] then [0] else [] := by
  funext place
  match place with
  | 0 | 1 | 2 | 3 => rfl
  | n + 4 => simp [Registry.before, Registry.at?, registry]

/-- The owned keys, ascending. -/
def sortedKeys : List String := ["attachedTo", "region", "size", "tags"]

/-- For any owners the smallest combination is the owners themselves, in their order. -/
theorem order_of_owners : ∀ owners ∈ [3, 0, 1, 2].sublists, owners ≠ [] →
    ((List.range 4).findSome? fun k =>
        Combination.find? 4 (k + 1) fun places => owners.all places.contains).map
      (fun chosen => (chosen.foldl
        (Plan.visit (fun place => if place ∈ [1, 2, 3] then [0] else []) chosen 5)
          ⟨[], []⟩).ordered) =
      some ((List.range 4).filter owners.contains) := by
  decide +kernel

theorem mem_ownedKeys_of_covered (h : (registry r).coveredKeys.contains key = true) :
    key ∈ ownedKeys := by
  have hcovered : (registry r).coveredKeys = KeySet.ofNames ownedKeys := by rfl
  rw [hcovered, KeySet.ofNames, KeyMap.contains_ofList, List.map_map] at h
  simpa using h

theorem changedKeys_sublist {diff : Diff} (h : ∀ key ∈ diff.changedKeys, key ∈ ownedKeys) :
    diff.changedKeys.Sublist sortedKeys := by
  have hsorted : diff.changedKeys.Pairwise (· < ·) := diff.changes.pairwise_keys
  have hfiltered : (sortedKeys.filter (· ∈ diff.changedKeys)).Pairwise (· < ·) :=
    List.Pairwise.filter _ (by decide)
  have hnodup : ∀ {keys : List String}, keys.Pairwise (· < ·) → keys.Nodup := by
    refine fun hk => hk.imp fun {a b} hlt he => ?_
    exact String.lt_irrefl b (he ▸ hlt)
  have hperm : diff.changedKeys.Perm (sortedKeys.filter (· ∈ diff.changedKeys)) := by
    refine (List.perm_ext_iff_of_nodup (hnodup hsorted) (hnodup hfiltered)).mpr fun key => ?_
    rw [List.mem_filter, decide_eq_true_eq]
    refine ⟨fun hk => ⟨?_, hk⟩, And.right⟩
    have howned := h key hk
    simp only [ownedKeys, sortedKeys, List.mem_cons, List.not_mem_nil, or_false] at howned ⊢
    tauto
  have hsame : diff.changedKeys = sortedKeys.filter (· ∈ diff.changedKeys) :=
    hperm.eq_of_pairwise (fun _ _ _ _ hlt hgt => absurd hgt (String.lt_asymm hlt)) hsorted hfiltered
  rw [hsame]
  exact List.filter_sublist

/-- A plan runs the handlers that own a changed key, in the order of registration. -/
theorem handlers_of_planFor {diff : Diff} {plan : Plan (Handling Cloud)}
    (h : (resource r).planFor diff = .ok plan) :
    plan.handlers = (registry r).handlers.filter fun handler =>
      diff.changedKeys.any handler.keys.contains := by
  have hmade : Plan.make volumeType (registry r) diff = .ok plan := h
  rcases Plan.make_ok hmade with ⟨hkeys, hnil⟩ | ⟨hne, hcovered, chosen, hchosen, hhandlers⟩
  · simp [hkeys, hnil]
  · have howned : ∀ key ∈ diff.changedKeys, key ∈ ownedKeys := fun key hk =>
      mem_ownedKeys_of_covered (hcovered key hk)
    have howner : ∀ key ∈ diff.changedKeys, ∀ place,
        (registry r).owns place key = true ↔ place = ownedKeys.idxOf key :=
      fun key hk place => owns_iff_idxOf (howned key hk) place
    -- From here on only places matter, of which there are few enough to try all.
    have hsub : diff.changedKeys.map ownedKeys.idxOf ∈ [3, 0, 1, 2].sublists :=
      List.mem_sublists.mpr ((changedKeys_sublist howned).map _)
    have horder := order_of_owners _ hsub (by simpa using hne)
    have hselect : ((List.range 4).findSome? fun k => Combination.find? 4 (k + 1) fun places =>
        (diff.changedKeys.map ownedKeys.idxOf).all places.contains) = some chosen := by
      rw [← Plan.covers_of_owner howner]
      exact hchosen
    have hplaces : Plan.order (registry r) chosen =
        (List.range 4).filter fun place => diff.changedKeys.any ((registry r).owns place) := by
      rw [hselect] at horder
      rw [Plan.order, before_registry]
      simp only [Plan.any_owns_of_owner howner]
      exact Option.some.inj horder
    rw [hhandlers, hplaces]
    exact Registry.filterMap_at? (registry r) diff.changedKeys

/-- A handler that owns one key runs just if that key changes. -/
theorem any_contains_iff {keys : List String} {name : String} :
    keys.any (KeySet.ofNames [name]).contains = true ↔ name ∈ keys := by
  have hcontains : ∀ key, (KeySet.ofNames [name]).contains key = true ↔ key = name := by
    intro key
    rw [KeySet.ofNames, KeyMap.contains_ofList]
    simp
  simp [List.any_eq_true, hcontains]

theorem not_mem_of_any_contains {keys : List String} {name : String}
    (h : keys.any (KeySet.ofNames [name]).contains = false) : name ∉ keys := by
  intro hk
  rw [any_contains_iff.mpr hk] at h
  cases h

end Volume

end DesiredState
