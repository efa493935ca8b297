import DesiredState.Proofs.Store.Frame
import DesiredState.Volume.Basic

/-!
# What is recorded of a volume

The records of a volume are a status and, once it was created, its placement: identity, time and
region, and whatever was recorded of its size, tags and attachment. An entry determines the text
of every attribute, so each operation on the records is a change of the entry.
-/

namespace DesiredState.Volume

/-- Whole numbers in a signed word of 64 bits. -/
def Fits (i : Int) : Prop := Word.least 63 ≤ i ∧ i < Word.size 63

instance (i : Int) : Decidable (Fits i) := by unfold Fits; infer_instance

/-- A size that can be recorded. -/
abbrev Size : Type := { i : Int // Fits i }

/-- Where a volume is and how it is set up, as recorded. -/
structure Placement where
  id : String
  time : Nat
  region : String
  size : Option Size
  /-- The text of the tags, as it is stored. -/
  tags : Option String
  attachedTo : Option String
  deriving DecidableEq

/-- Everything that is recorded of a volume. -/
structure Entry where
  status : Option Status
  placement : Option Placement
  deriving DecidableEq

def Entry.blank : Entry := ⟨none, none⟩

/-- The status that the records stand for. -/
def Entry.state (e : Entry) : Status := e.status.getD .initial

/-- The text of each attribute of a volume that exists. -/
def Placement.text? (p : Placement) (key : String) : Option String :=
  if key = State.resourceIdKey then some (Json.str p.id).render
  else if key = State.creationTimeKey then some (Json.ofNat p.time).render
  else if key = "region" then some (Json.str p.region).render
  else if key = "size" then p.size.map fun size => (Json.ofInt size.val).render
  else if key = "tags" then p.tags
  else if key = "attachedTo" then p.attachedTo.map fun target => (Json.str target).render
  else none

def Entry.text? (e : Entry) (key : String) : Option String :=
  if key = State.statusKey then e.status.map fun status => (Json.ofInt status.ordinal).render
  else e.placement.bind fun p => p.text? key

namespace Entry

variable (e : Entry)

theorem text?_status : e.text? State.statusKey =
    e.status.map fun status => (Json.ofInt status.ordinal).render := by
  simp [text?]

theorem text?_resourceId : e.text? State.resourceIdKey =
    e.placement.map fun p => (Json.str p.id).render := by
  cases h : e.placement <;>
    simp [text?, Placement.text?, h, State.statusKey, State.resourceIdKey]

theorem text?_creationTime : e.text? State.creationTimeKey =
    e.placement.map fun p => (Json.ofNat p.time).render := by
  cases h : e.placement <;>
    simp [text?, Placement.text?, h, State.statusKey, State.resourceIdKey, State.creationTimeKey]

theorem text?_region : e.text? "region" =
    e.placement.map fun p => (Json.str p.region).render := by
  cases h : e.placement <;>
    simp [text?, Placement.text?, h, State.statusKey, State.resourceIdKey, State.creationTimeKey]

theorem text?_size : e.text? "size" =
    (e.placement.bind Placement.size).map fun size => (Json.ofInt size.val).render := by
  cases h : e.placement <;>
    simp [text?, Placement.text?, h, State.statusKey, State.resourceIdKey, State.creationTimeKey]

theorem text?_tags : e.text? "tags" = e.placement.bind Placement.tags := by
  cases h : e.placement <;>
    simp [text?, Placement.text?, h, State.statusKey, State.resourceIdKey, State.creationTimeKey]

theorem text?_attachedTo : e.text? "attachedTo" =
    (e.placement.bind Placement.attachedTo).map fun target => (Json.str target).render := by
  cases h : e.placement <;>
    simp [text?, Placement.text?, h, State.statusKey, State.resourceIdKey, State.creationTimeKey]

/-- Only these attributes are ever recorded. -/
theorem text?_other {key : String} (hs : key ≠ State.statusKey) (hi : key ≠ State.resourceIdKey)
    (ht : key ≠ State.creationTimeKey) (ho : key ∉ ownedKeys) : e.text? key = none := by
  simp only [ownedKeys, List.mem_cons, List.not_mem_nil, or_false, not_or] at ho
  cases h : e.placement <;> simp [text?, Placement.text?, h, hs, hi, ht, ho]

/-- The status is recorded apart from everything else. -/
theorem text?_congr {e e' : Entry} (h : e'.placement = e.placement) {key : String}
    (hs : key ≠ State.statusKey) : e'.text? key = e.text? key := by
  simp [text?, h, hs]

theorem update_status (status : Status) :
    Function.update e.text? State.statusKey (some (Json.ofInt status.ordinal).render) =
      Entry.text? ⟨some status, e.placement⟩ := by
  funext key
  by_cases hk : key = State.statusKey
  · simp [hk, text?]
  · simp [hk, text?]

variable {e} {p : Placement}

theorem update_size (hp : e.placement = some p) (size : Option Size) :
    Function.update e.text? "size" (size.map fun size => (Json.ofInt size.val).render) =
      Entry.text? { e with placement := some { p with size := size } } := by
  funext key
  by_cases hk : key = "size"
  · subst key
    rw [Function.update_self, text?_size]
    rfl
  · rw [Function.update_of_ne hk]
    simp [text?, Placement.text?, hk, hp]

theorem update_tags (hp : e.placement = some p) (tags : Option String) :
    Function.update e.text? "tags" tags =
      Entry.text? { e with placement := some { p with tags := tags } } := by
  funext key
  by_cases hk : key = "tags"
  · subst key
    rw [Function.update_self, text?_tags]
    rfl
  · rw [Function.update_of_ne hk]
    simp [text?, Placement.text?, hk, hp]

theorem update_attachedTo (hp : e.placement = some p) (target : Option String) :
    Function.update e.text? "attachedTo" (target.map fun target => (Json.str target).render) =
      Entry.text? { e with placement := some { p with attachedTo := target } } := by
  funext key
  by_cases hk : key = "attachedTo"
  · subst key
    rw [Function.update_self, text?_attachedTo]
    rfl
  · rw [Function.update_of_ne hk]
    simp [text?, Placement.text?, hk, hp]

end Entry

variable {s : Store} {r : ResourceRecord} {e : Entry}

theorem Fits.inWords {i : Int} (h : Fits i) : Json.InWords i := by
  have h63 : Word.size 63 ≤ Word.size 64 := by decide
  obtain ⟨hlow, hhigh⟩ := h
  exact ⟨hlow, by omega⟩

theorem fits_ordinal (status : Status) : Fits status.ordinal := by
  cases status <;> decide

theorem decodeText_str (text : String) :
    Store.decodeText (Json.str text).render = .ok (.str text) :=
  Store.decodeText_render rfl (Nat.zero_le _)

theorem decodeText_ofInt {i : Int} (h : Json.InWords i) :
    Store.decodeText (Json.ofInt i).render = .ok (.ofInt i) :=
  Store.decodeText_render (by simpa [Json.ofInt, Json.plain] using h) (Nat.zero_le _)

/-- An attribute that holds a text, if it is there. -/
theorem getAs_str (h : s.Records r.id e.text?) {key : String} {text : Option String}
    (hk : e.text? key = text.map fun text => (Json.str text).render) :
    (Store.getAs r.scope key Json.expectString).run s = (.ok text, s) := by
  cases text with
  | none => exact Store.getAs_none h hk _
  | some text => exact Store.getAs_some h hk (decodeText_str text) rfl

theorem getAs_id (h : s.Records r.id e.text?) :
    (Store.getAs r.scope State.resourceIdKey Json.expectString).run s =
      (.ok (e.placement.map Placement.id), s) :=
  getAs_str h (by rw [e.text?_resourceId, Option.map_map]; rfl)

theorem getAs_region (h : s.Records r.id e.text?) :
    (Store.getAs r.scope "region" Json.expectString).run s =
      (.ok (e.placement.map Placement.region), s) :=
  getAs_str h (by rw [e.text?_region, Option.map_map]; rfl)

theorem getAs_attachedTo (h : s.Records r.id e.text?) :
    (Store.getAs r.scope "attachedTo" Json.expectString).run s =
      (.ok (e.placement.bind Placement.attachedTo), s) :=
  getAs_str h e.text?_attachedTo

theorem getAs_size (h : s.Records r.id e.text?) :
    (Store.getAs r.scope "size" Json.expectInt64).run s =
      (.ok ((e.placement.bind Placement.size).map Subtype.val), s) := by
  have hk := e.text?_size
  cases hs : e.placement.bind Placement.size with
  | none => exact Store.getAs_none h (by rw [hk, hs]; rfl) _
  | some size =>
    refine Store.getAs_some h (by rw [hk, hs]; rfl) (decodeText_ofInt size.2.inWords) ?_
    simp [Json.expectInt64, Json.expectInt, Json.ofInt, size.2.1, size.2.2]

theorem denoted_target (target : Option String) :
    Store.denoted (target.map fun target => (Json.str target).render) =
      .ok (target.map Json.str) := by
  cases target with
  | none => rfl
  | some target =>
    rw [Option.map_some, Store.denoted, decodeText_str]
    rfl

theorem denoted_str_iff {text : Option String} {found : String} :
    Store.denoted (text.map fun text => (Json.str text).render) = .ok (some (.str found)) ↔
      text = some found := by
  rw [denoted_target]
  cases text <;> simp

/-- Whether an attachment is recorded. -/
theorem get_attachedTo (h : s.Records r.id e.text?) :
    (Store.get r.scope "attachedTo").run s =
      (.ok ((e.placement.bind Placement.attachedTo).map Json.str), s) := by
  rw [ResourceRecord.scope, Store.get_run h, e.text?_attachedTo, denoted_target]

theorem resourceId_run (h : s.Records r.id e.text?) :
    (State.resourceId r).run s = (.ok (e.placement.map Placement.id), s) := by
  rw [State.resourceId, State.attempt, Action.run_mapError, getAs_id h]
  rfl

theorem int64?_ofInt {i : Int} (h : Fits i) : (Json.ofInt i).int64? = some i := by
  obtain ⟨hlow, hhigh⟩ := h
  have hle : i ≤ Word.greatest 63 := by unfold Word.greatest; omega
  simp [Json.ofInt, Json.int64?, hlow, hle]

theorem status_of_text {look : String → Option String} (h : s.Records r.id look) {status : Status}
    (hk : look State.statusKey = some (Json.ofInt status.ordinal).render) :
    (State.status r).run s = (.ok status, s) := by
  have hget : (State.attempt (Store.get r.scope State.statusKey)).run s =
      (.ok (some (.ofInt status.ordinal)), s) := by
    rw [State.attempt, Action.run_mapError, ResourceRecord.scope, Store.get_run h, hk,
      Store.denoted, decodeText_ofInt (fits_ordinal status).inWords]
    rfl
  rw [State.status, State.readStatus, Action.run_bind_ok hget, Action.run_ofExcept]
  simp [State.decodeStatus, int64?_ofInt (fits_ordinal status), Status.ofOrdinal?_ordinal]

theorem status_run (h : s.Records r.id e.text?) : (State.status r).run s = (.ok e.state, s) := by
  rw [Entry.state]
  cases hs : e.status with
  | some status => exact status_of_text h (by rw [e.text?_status, hs]; rfl)
  | none =>
    have hget : (State.attempt (Store.get r.scope State.statusKey)).run s = (.ok none, s) := by
      rw [State.attempt, Action.run_mapError, ResourceRecord.scope, Store.get_run h,
        e.text?_status, hs]
      rfl
    rw [State.status, State.readStatus, Action.run_bind_ok hget]
    rfl

open Store

variable {E : Failure → Store → Prop}

theorem stored_of_ne_null {v : Json} (h : v.isNull = false) : stored v = some v.render := by
  simp [stored, h]

theorem writeStatus_ends (h : s.Records r.id e.text?) (status : Status) :
    (State.writeStatus r.scope status).Ends s
      (fun _ t => Becomes r.id s (Entry.text? ⟨some status, e.placement⟩) t) E := by
  refine Action.Ends.mapError ((set_ends h State.statusKey _).imp fun _ t ht => ?_)
  rwa [stored_of_ne_null rfl, e.update_status] at ht

/-- Once destroyed, a volume has nothing recorded but that it is missing. -/
theorem removeAll_text? (e : Entry) :
    removeAll e.text? (State.resourceIdKey :: State.creationTimeKey :: ownedKeys) =
      Entry.text? ⟨e.status, none⟩ := by
  funext key
  unfold removeAll
  by_cases hk : key ∈ State.resourceIdKey :: State.creationTimeKey :: ownedKeys
  · have hs : key ≠ State.statusKey := by
      rintro rfl
      revert hk
      decide
    simp [hk, Entry.text?, hs]
  · simp only [List.mem_cons, not_or] at hk
    rw [if_neg (by simpa only [List.mem_cons, not_or] using hk)]
    by_cases hs : key = State.statusKey
    · simp [Entry.text?, hs]
    · rw [e.text?_other hs hk.1 hk.2.1 (by simpa using hk.2.2)]
      simp [Entry.text?, hs]

theorem markDestroyed_ends (h : s.Records r.id e.text?) :
    (State.markDestroyed r ownedKeys).Ends s
      (fun _ t => Becomes r.id s (Entry.text? ⟨some .missing, none⟩) t) E := by
  unfold State.markDestroyed
  refine Action.Ends.transaction_never (Action.Ends.bind ?_)
  refine (deleteEach_ends Failure.store h _).imp fun _ t ht => ?_
  rw [removeAll_text?] at ht
  exact (writeStatus_ends ht.records .missing).imp fun _ u hu => ht.trans hu

theorem fits_of_int64? {v : Json} {i : Int} (h : v.int64? = some i) : Fits i := by
  unfold Json.int64? at h
  split at h
  · split at h
    · rename_i hi
      cases h
      unfold Word.greatest at hi
      exact ⟨hi.1, by omega⟩
    · cases h
  · cases h

theorem fits_definedSize {d : Definition} {i : Int} (h : definedSize? d = some i) : Fits i := by
  obtain ⟨v, -, hv⟩ := Option.bind_eq_some_iff.mp h
  exact fits_of_int64? hv

/-- The size in a definition, as it can be recorded. -/
def wantedSize? (d : Definition) : Option Size :=
  (definedSize? d).pmap Subtype.mk fun _ => fits_definedSize

def wantedTags? (d : Definition) : Option String := (d.value? "tags").bind stored

theorem map_wantedSize? {α : Type} (d : Definition) (f : Int → α) :
    (wantedSize? d).map (fun size => f size.val) = (definedSize? d).map f := by
  unfold wantedSize?
  rw [Option.map_pmap]
  exact Option.pmap_eq_map ..

theorem definedSize?_of_wanted {d : Definition} {size : Size} (h : wantedSize? d = some size) :
    definedSize? d = some size.val := by
  have hmap := map_wantedSize? d id
  rw [h] at hmap
  simpa using hmap.symm

/-- What is known of a new volume, key by key. -/
theorem entries_outputs (region : String) (d : Definition) :
    (outputs region d).entries = ("region", Json.str region) ::
      (((definedSize? d).map fun size => ("size", Json.ofInt size)).toList ++
        ((d.value? "tags").map fun tags => ("tags", tags)).toList) := by
  refine KeyMap.entries_ofList ?_
  have h1 : "region" < "size" := by decide
  have h2 : "region" < "tags" := by decide
  have h3 : "size" < "tags" := by decide
  cases definedSize? d with
  | none =>
    cases d.value? "tags" with
    | none => exact List.pairwise_singleton _ _
    | some tags => exact List.pairwise_pair.mpr h2
  | some size =>
    cases d.value? "tags" with
    | none => exact List.pairwise_pair.mpr h1
    | some tags =>
      refine List.pairwise_cons.mpr ⟨fun entry he => ?_, List.pairwise_pair.mpr h3⟩
      rcases List.mem_pair.mp he with rfl | rfl
      · exact h1
      · exact h2

theorem key_mem_of_mem_outputs {region : String} {d : Definition} {entry : String × Json}
    (h : entry ∈ (outputs region d).entries) : entry.1 ∈ ownedKeys := by
  simp only [entries_outputs, List.mem_cons, List.mem_append, Option.mem_toList,
    Option.map_eq_some_iff] at h
  rcases h with rfl | ⟨size, -, rfl⟩ | ⟨tags, -, rfl⟩
  · exact (by decide : "region" ∈ ownedKeys)
  · exact (by decide : "size" ∈ ownedKeys)
  · exact (by decide : "tags" ∈ ownedKeys)

/-- What is known of a new volume is recorded under no key that every resource has. -/
theorem key_ne_of_mem_outputs {region key : String} {d : Definition} {entry : String × Json}
    (h : entry ∈ (outputs region d).entries) (hkey : key ∉ ownedKeys) : entry.1 ≠ key :=
  fun he => hkey (he ▸ key_mem_of_mem_outputs h)

/-- The records of a volume right after its creation. -/
def newPlacement (d : Definition) (id : String) (time : Nat) (region : String) : Placement :=
  ⟨id, time, region, wantedSize? d, wantedTags? d, none⟩

/-- Identity, time and region are recorded first. -/
theorem update_created (he : e.placement = none) (id region : String) (now : Nat) :
    Function.update (Function.update (Function.update e.text? State.resourceIdKey
      (stored (.str id))) State.creationTimeKey (stored (.ofNat now))) "region"
        (stored (.str region)) =
      Entry.text? ⟨e.status, some ⟨id, now, region, none, none, none⟩⟩ := by
  rw [stored_of_ne_null rfl, stored_of_ne_null rfl, stored_of_ne_null rfl]
  funext key
  by_cases hr : key = "region"
  · subst key
    rw [Function.update_self, Entry.text?_region]
    rfl
  rw [Function.update_of_ne hr]
  by_cases ht : key = State.creationTimeKey
  · subst key
    rw [Function.update_self, Entry.text?_creationTime]
    rfl
  rw [Function.update_of_ne ht]
  by_cases hi : key = State.resourceIdKey
  · subst key
    rw [Function.update_self, Entry.text?_resourceId]
    rfl
  rw [Function.update_of_ne hi]
  simp [Entry.text?, Placement.text?, he, hr, ht, hi]

theorem putAll_size {p : Placement} (he : e.placement = some p) (hp : p.size = none)
    (d : Definition) :
    putAll e.text? ((definedSize? d).map fun size => ("size", Json.ofInt size)).toList =
      Entry.text? { e with placement := some { p with size := wantedSize? d } } := by
  rw [← Entry.update_size he, map_wantedSize? d fun size => (Json.ofInt size).render]
  cases definedSize? d with
  | none =>
    have hlook : e.text? "size" = none := by simp [Entry.text?_size, he, hp]
    simp only [Option.map_none]
    rw [← hlook, Function.update_eq_self]
    rfl
  | some size => rfl

theorem putAll_tags {p : Placement} (he : e.placement = some p) (hp : p.tags = none)
    (d : Definition) :
    putAll e.text? ((d.value? "tags").map fun tags => ("tags", tags)).toList =
      Entry.text? { e with placement := some { p with tags := wantedTags? d } } := by
  rw [← Entry.update_tags he]
  unfold wantedTags?
  cases d.value? "tags" with
  | none =>
    have hlook : e.text? "tags" = none := by simp [Entry.text?_tags, he, hp]
    rw [Option.bind_none, ← hlook, Function.update_eq_self]
    rfl
  | some tags => rfl

theorem putAll_outputs (he : e.placement = none) (d : Definition) (id region : String)
    (now : Nat) :
    putAll (Function.update (Function.update e.text? State.resourceIdKey (stored (.str id)))
        State.creationTimeKey (stored (.ofNat now))) (outputs region d).entries =
      Entry.text? ⟨e.status, some (newPlacement d id now region)⟩ := by
  rw [entries_outputs, putAll_cons, update_created he, putAll_append, putAll_size rfl rfl,
    putAll_tags rfl rfl]
  rfl

/-- Whatever was recorded before, identity, time and outputs are recorded then. -/
theorem recordCreated_becomes {look : String → Option String} (h : s.Records r.id look) (now : Nat)
    (id : String) (values : KeyMap Json) :
    (State.recordCreated r now id values).Ends s
      (fun _ t => Becomes r.id s (putAll (Function.update (Function.update look
        State.resourceIdKey (stored (.str id))) State.creationTimeKey (stored (.ofNat now)))
          values.entries) t) E := by
  unfold State.recordCreated
  refine Action.Ends.transaction_never (Action.Ends.bind (Action.Ends.mapError ?_))
  refine (set_ends h State.resourceIdKey _).imp fun _ t ht => ?_
  refine Action.Ends.bind (Action.Ends.mapError ?_)
  refine (set_ends ht.records State.creationTimeKey _).imp fun _ u hu => ?_
  exact Action.Ends.mapError ((setEach_ends hu.records _).imp fun _ v hv =>
    ht.trans (hu.trans hv))

theorem recordCreated_ends (h : s.Records r.id e.text?) (he : e.placement = none)
    (d : Definition) (now : Nat) (id region : String) :
    (State.recordCreated r now id (outputs region d)).Ends s
      (fun _ t => Becomes r.id s
        (Entry.text? ⟨e.status, some (newPlacement d id now region)⟩) t) E := by
  refine (recordCreated_becomes h now id (outputs region d)).imp fun _ t ht => ?_
  rwa [putAll_outputs he] at ht

end DesiredState.Volume
