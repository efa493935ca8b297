import DesiredState.Proofs.Plan.Cover
import DesiredState.Proofs.Plan.Order

/-!
# Plans of accepted registries

A plan holds the handlers of the first cover of the changed keys, each once, and each behind all
that it waits for. Making a plan fails only for keys that no handler owns.
-/

namespace DesiredState

variable {ω : Type} {r : Registry ω} {handlers : List (Handler ω)} {keys : List String}
  {resourceType : String} {d : Diff} {plan : Plan ω}

namespace Plan

/-- The changed keys that no handler owns. -/
def unowned (r : Registry ω) (d : Diff) : List String :=
  d.changedKeys.filter fun key => ¬ r.coveredKeys.contains key

theorem mem_unowned_iff {key : String} :
    key ∈ unowned r d ↔ key ∈ d.changedKeys ∧ ¬ r.Owned key := by
  unfold unowned
  rw [List.mem_filter, decide_eq_true_iff, Registry.contains_coveredKeys_iff]

theorem pairwise_unowned : (unowned r d).Pairwise (· < ·) :=
  d.changes.pairwise_keys.sublist List.filter_sublist

theorem unowned_eq_nil_iff : unowned r d = [] ↔ ∀ key ∈ d.changedKeys, r.Owned key := by
  rw [List.eq_nil_iff_forall_not_mem]
  refine forall_congr' fun key => ?_
  rw [mem_unowned_iff, not_and, not_not]

/-- Unowned changed keys are all reported at once. -/
theorem make_of_unowned (hkeys : unowned r d ≠ []) :
    make resourceType r d = .error (.coverage resourceType (unowned r d)) := by
  have hne : ¬ d.isEmpty = true := by
    intro he
    refine hkeys (unowned_eq_nil_iff.mpr fun key hkey => ?_)
    rw [Diff.isEmpty_iff.mp he] at hkey
    cases hkey
  rw [make, if_neg hne]
  exact if_pos hkeys

/-- The places of the handlers that are selected, none where nothing changes. -/
def selected? (r : Registry ω) (d : Diff) : Option (List Nat) :=
  if d.isEmpty then some [] else select? r d.changedKeys

theorem firstCover_of_selected? {chosen : List Nat} (h : selected? r d = some chosen) :
    FirstCover r d.changedKeys chosen := by
  unfold selected? at h
  split at h
  · rename_i he
    cases h
    rw [Diff.isEmpty_iff.mp he]
    exact firstCover_nil r
  · rename_i hne
    exact firstCover_of_select? (fun he => hne (Diff.isEmpty_iff.mpr he)) h

/-- Where every changed key has an owner, handlers are selected and put in order. -/
theorem make_of_owned (resourceType : String) (howned : ∀ key ∈ d.changedKeys, r.Owned key) :
    ∃ chosen, selected? r d = some chosen ∧
      make resourceType r d = .ok ⟨(order r chosen).filterMap r.at?⟩ := by
  unfold make selected?
  split
  · exact ⟨[], rfl, rfl⟩
  · rename_i hne
    obtain ⟨chosen, hchosen⟩ := select?_isSome (fun he => hne (Diff.isEmpty_iff.mpr he)) howned
    refine ⟨chosen, hchosen, ?_⟩
    have hall := unowned_eq_nil_iff.mpr howned
    unfold unowned at hall
    simp only [hall, hchosen]
    rfl

theorem make_eq_error_iff {cause : Failure} :
    make resourceType r d = .error cause ↔
      unowned r d ≠ [] ∧ cause = .coverage resourceType (unowned r d) := by
  by_cases hall : unowned r d = []
  · obtain ⟨chosen, -, hmake⟩ := make_of_owned resourceType (unowned_eq_nil_iff.mp hall)
    simp [hmake, hall]
  · rw [make_of_unowned hall, Except.error.injEq]
    exact ⟨fun h => ⟨hall, h.symm⟩, fun h => h.2.symm⟩

/-- What every plan that is made runs. -/
theorem selected?_of_make (h : make resourceType r d = .ok plan) :
    ∃ chosen, selected? r d = some chosen ∧
      plan.handlers = (order r chosen).filterMap r.at? := by
  unfold selected?
  rcases make_ok h with ⟨hkeys, hnil⟩ | ⟨hne, -, chosen, hchosen, hhandlers⟩
  · exact ⟨[], if_pos (Diff.isEmpty_iff.mpr hkeys), hnil⟩
  · exact ⟨chosen, (if_neg fun he => hne (Diff.isEmpty_iff.mp he)).trans hchosen, hhandlers⟩

/-- A plan runs nothing only where nothing changes. -/
theorem changedKeys_of_make (h : make resourceType r d = .ok plan) (hnil : plan.handlers = []) :
    d.changedKeys = [] := by
  rcases make_ok h with ⟨hkeys, -⟩ | ⟨hne, -, chosen, hchosen, hhandlers⟩
  · exact hkeys
  · have hcover := firstCover_of_select? hne hchosen
    obtain ⟨key, hkey⟩ := List.exists_mem_of_ne_nil d.changedKeys hne
    obtain ⟨owner, howner, -⟩ := hcover.owning key hkey
    cases chosen with
    | nil => cases howner
    | cons place rest =>
      have hlt : place < r.size := hcover.subset.below place List.mem_cons_self
      have hin : r.handlers[place] ∈ plan.handlers := by
        rw [hhandlers]
        exact List.mem_filterMap.mpr
          ⟨place, head_mem_order r place rest, List.getElem?_eq_getElem hlt⟩
      rw [hnil] at hin
      cases hin

/-- The plans of an accepted registry run the handlers of a first cover in the order of the
walk, which neither loses nor adds one. -/
theorem ordered_of_make (hr : Registry.Accepted r) (h : make resourceType r d = .ok plan) :
    ∃ chosen rank, selected? r d = some chosen ∧ FirstCover r d.changedKeys chosen ∧
      Registry.Ranked r rank ∧ (order r chosen).Perm chosen ∧
        plan.handlers = (order r chosen).filterMap r.at? := by
  obtain ⟨rank, hrank⟩ := hr.ranked
  obtain ⟨chosen, hchosen, hhandlers⟩ := selected?_of_make h
  have hcover := firstCover_of_selected? hchosen
  have hnodup : chosen.Nodup := hcover.subset.ascending.imp Nat.ne_of_lt
  exact ⟨chosen, rank, hchosen, hcover, hrank, order_perm hrank hnodup, hhandlers⟩

/-- Planned handlers are those of the first cover, and each of them is needed. -/
structure Minimal (r : Registry ω) (keys : List String) (plan : Plan ω) : Prop where
  first : ∃ places, FirstCover r keys places ∧ plan.handlers.Perm (places.filterMap r.at?)
  nonempty : keys ≠ [] → plan.handlers ≠ []
  needed : ∀ h ∈ plan.handlers, ∃ key ∈ keys, h.keys.contains key = true ∧
    ∀ g ∈ plan.handlers, g.keys.contains key = true → g = h

theorem minimal_of_firstCover {places : List Nat} (hcover : FirstCover r keys places)
    (hperm : plan.handlers.Perm (places.filterMap r.at?)) : Minimal r keys plan := by
  have hmem : ∀ h, h ∈ plan.handlers ↔ ∃ place ∈ places, r.at? place = some h := by
    intro h
    rw [hperm.mem_iff, List.mem_filterMap]
  refine ⟨⟨places, hcover, hperm⟩, ?_, ?_⟩
  · intro hkeys hnil
    obtain ⟨key, hkey⟩ := List.exists_mem_of_ne_nil keys hkeys
    obtain ⟨place, hplace, howns⟩ := hcover.owning key hkey
    obtain ⟨h, hat, -⟩ := Registry.owns_iff.mp howns
    have hin := (hmem h).mpr ⟨place, hplace, hat⟩
    rw [hnil] at hin
    cases hin
  · intro h hin
    obtain ⟨place, hplace, hat⟩ := (hmem h).mp hin
    obtain ⟨key, hkey, howns, halone⟩ := hcover.owns_alone hplace
    obtain ⟨h', hat', hcontains⟩ := Registry.owns_iff.mp howns
    rw [hat] at hat'
    cases hat'
    refine ⟨key, hkey, hcontains, ?_⟩
    intro g hg hgkey
    obtain ⟨other, hother, hgat⟩ := (hmem g).mp hg
    have hsame := halone other hother (Registry.owns_iff.mpr ⟨g, hgat, hgkey⟩)
    rw [hsame, hat] at hgat
    exact (Option.some.inj hgat).symm

/-- A plan fails just for the changed keys that no handler owns and names them all. Any other plan
holds the handlers of the first cover of the changed keys. -/
theorem make_first_cover (hbuild : Registry.build handlers = .ok r) (resourceType : String)
    (d : Diff) :
    ((∃ cause, make resourceType r d = .error cause) ↔ ∃ key ∈ d.changedKeys, ¬ r.Owned key) ∧
      (∀ cause, make resourceType r d = .error cause → ∃ keys,
        cause = .coverage resourceType keys ∧ keys.Pairwise (· < ·) ∧
          ∀ key, key ∈ keys ↔ key ∈ d.changedKeys ∧ ¬ r.Owned key) ∧
      (d.changedKeys ≠ [] → (∀ key ∈ d.changedKeys, r.Owned key) →
        ∃ chosen, select? r d.changedKeys = some chosen) ∧
      ∀ plan, make resourceType r d = .ok plan → Minimal r d.changedKeys plan := by
  obtain ⟨-, hr⟩ := Registry.accepted_of_build hbuild
  refine ⟨?_, ?_, fun hkeys howned => select?_isSome hkeys howned, ?_⟩
  · have hsome : unowned r d ≠ [] ↔ ∃ key ∈ d.changedKeys, ¬ r.Owned key := by
      rw [Ne, unowned_eq_nil_iff]
      push Not
      rfl
    rw [← hsome]
    constructor
    · rintro ⟨cause, hcause⟩
      exact (make_eq_error_iff.mp hcause).1
    · exact fun hkeys => ⟨_, make_of_unowned hkeys⟩
  · intro cause hcause
    exact ⟨_, (make_eq_error_iff.mp hcause).2, pairwise_unowned, fun _ => mem_unowned_iff⟩
  · intro plan hplan
    obtain ⟨chosen, -, -, hcover, -, hperm, hhandlers⟩ := ordered_of_make hr hplan
    exact minimal_of_firstCover hcover (hhandlers ▸ hperm.filterMap r.at?)

/-- A handler for each of two settings and one for both. -/
def overlapping : List (Handler Unit) :=
  [⟨"region", KeySet.ofNames ["region"], [], ()⟩, ⟨"size", KeySet.ofNames ["size"], [], ()⟩,
    ⟨"both", KeySet.ofNames ["region", "size"], [], ()⟩]

def bothUnset : Diff :=
  ⟨KeyMap.ofList [("region", ⟨"region", .unset, some .null, none⟩),
    ("size", ⟨"size", .unset, some .null, none⟩)]⟩

/-- One handler for both settings is preferred to one for each. -/
theorem make_first_cover_overlapping : Registry.build overlapping = .ok ⟨overlapping⟩ ∧
    ∃ plan, make "volume" ⟨overlapping⟩ bothUnset = .ok plan ∧ plan.ids = ["both"] ∧
      Minimal ⟨overlapping⟩ bothUnset.changedKeys plan := by
  have hbuild : Registry.build overlapping = .ok ⟨overlapping⟩ := rfl
  exact ⟨hbuild, _, rfl, rfl, (make_first_cover hbuild "volume" bothUnset).2.2.2 _ rfl⟩

/-- A handler with the first id asks that the one with the second id runs before it. -/
def Awaits (r : Registry ω) (b a : String) : Prop := ∃ h ∈ r.handlers, h.id = b ∧ a ∈ h.after

open Relation Registry

theorem place?_of_mem_ids (hids : r.ids.Nodup) {id : String} (hid : id ∈ r.ids) :
    ∃ place, r.place? id = some place := by
  obtain ⟨h, hmem, rfl⟩ := List.mem_map.mp hid
  obtain ⟨place, hat⟩ := exists_place hmem
  exact ⟨place, place?_of_at? hids hat⟩

theorem Awaits.before (hr : Accepted r) {a b : String} (h : Awaits r b a) {i : Nat}
    (hi : r.place? b = some i) : ∃ j, r.place? a = some j ∧ j ∈ r.before i := by
  obtain ⟨handler, hmem, rfl, ha⟩ := h
  obtain ⟨place, hat⟩ := exists_place hmem
  have hplace := place?_of_at? hr.distinct hat
  rw [hi] at hplace
  cases hplace
  obtain ⟨j, hj⟩ := place?_of_mem_ids hr.distinct (hr.known handler hmem a ha)
  refine ⟨j, hj, ?_⟩
  unfold Registry.before
  rw [hat]
  exact List.mem_filterMap.mpr ⟨a, ha, hj⟩

/-- Waiting through any number of ids is waiting through as many places. -/
theorem transGen_before (hr : Accepted r) {a b : String} (h : TransGen (Awaits r) b a) {i : Nat}
    (hi : r.place? b = some i) :
    ∃ j, r.place? a = some j ∧ TransGen (fun b a => a ∈ r.before b) i j := by
  induction h with
  | single hstep =>
    obtain ⟨j, hj, hbefore⟩ := hstep.before hr hi
    exact ⟨j, hj, .single hbefore⟩
  | tail _ hstep ih =>
    obtain ⟨middle, hmiddle, hreach⟩ := ih
    obtain ⟨j, hj, hbefore⟩ := hstep.before hr hmiddle
    exact ⟨j, hj, hreach.tail hbefore⟩

theorem place?_of_map_id (hids : r.ids.Nodup) {id : String} {place : Nat}
    (hat : (r.at? place).map Handler.id = some id) : r.place? id = some place := by
  obtain ⟨h, hh, rfl⟩ := Option.map_eq_some_iff.mp hat
  exact place?_of_at? hids hh

theorem ids_of_handlers {places : List Nat} (h : plan.handlers = places.filterMap r.at?) :
    plan.ids = places.filterMap fun place => (r.at? place).map Handler.id := by
  rw [Plan.ids, h, List.map_filterMap]

/-- No handler is planned twice. -/
theorem nodup_ids_of_make (hr : Accepted r) (h : make resourceType r d = .ok plan) :
    plan.ids.Nodup := by
  obtain ⟨chosen, rank, -, -, hrank, -, hhandlers⟩ := ordered_of_make hr h
  rw [ids_of_handlers hhandlers]
  refine (order_good hrank chosen).2.1.filterMap fun i j id hi hj => ?_
  have hsame := place?_of_map_id hr.distinct hi
  rw [place?_of_map_id hr.distinct hj] at hsame
  exact (Option.some.inj hsame).symm

/-- A plan runs the selected handlers, each once, and a handler runs behind every selected one
that it waits for, directly or through handlers that are not selected. -/
theorem make_ordered (hbuild : Registry.build handlers = .ok r)
    (hplan : make resourceType r d = .ok plan) :
    (∃ chosen, selected? r d = some chosen ∧ plan.handlers.Perm (chosen.filterMap r.at?)) ∧
      plan.ids.Nodup ∧
        ∀ a ∈ plan.ids, ∀ b ∈ plan.ids, TransGen (Awaits r) b a → [a, b].Sublist plan.ids := by
  obtain ⟨-, hr⟩ := Registry.accepted_of_build hbuild
  obtain ⟨chosen, rank, hchosen, -, hrank, hperm, hhandlers⟩ := ordered_of_make hr hplan
  have hids := ids_of_handlers hhandlers
  refine ⟨⟨chosen, hchosen, hhandlers ▸ hperm.filterMap r.at?⟩, nodup_ids_of_make hr hplan, ?_⟩
  have hmem : ∀ id ∈ plan.ids, ∃ place ∈ chosen, (r.at? place).map Handler.id = some id := by
    intro id hid
    rw [hids] at hid
    obtain ⟨place, hplace, hat⟩ := List.mem_filterMap.mp hid
    exact ⟨place, hperm.mem_iff.mp hplace, hat⟩
  intro a ha b hb hreach
  obtain ⟨i, hi, hai⟩ := hmem a ha
  obtain ⟨j, hj, hbj⟩ := hmem b hb
  obtain ⟨i', hi', hreach⟩ := transGen_before hr hreach (place?_of_map_id hr.distinct hbj)
  rw [place?_of_map_id hr.distinct hai] at hi'
  cases hi'
  have hsub := (order_sublist hrank hi hj hreach).filterMap fun place =>
    (r.at? place).map Handler.id
  rw [hids]
  simpa [hai, hbj] using hsub

/-- A chain of three handlers, registered from its end. -/
def chained : List (Handler Unit) :=
  [⟨"attach", KeySet.ofNames ["attachedTo"], ["format"], ()⟩,
    ⟨"format", KeySet.ofNames ["format"], ["provision"], ()⟩,
    ⟨"provision", KeySet.ofNames ["region"], [], ()⟩]

/-- The settings of the ends of the chain are unset. -/
def endsUnset : Diff :=
  ⟨KeyMap.ofList [("attachedTo", ⟨"attachedTo", .unset, some .null, none⟩),
    ("region", ⟨"region", .unset, some .null, none⟩)]⟩

/-- The last handler waits for the first one through one that is not selected. -/
theorem make_ordered_chained : Registry.build chained = .ok ⟨chained⟩ ∧
    ∃ plan, make "volume" ⟨chained⟩ endsUnset = .ok plan ∧
      TransGen (Awaits ⟨chained⟩) "attach" "provision" ∧
        ["provision", "attach"].Sublist plan.ids := by
  have hreach : TransGen (Awaits ⟨chained⟩) "attach" "provision" :=
    .head ⟨_, List.mem_cons_self, rfl, List.mem_cons_self⟩
      (.single ⟨_, List.mem_cons_of_mem _ List.mem_cons_self, rfl, List.mem_cons_self⟩)
  have hbuild : Registry.build chained = .ok ⟨chained⟩ := rfl
  have hmake : make "volume" ⟨chained⟩ endsUnset =
      .ok ⟨(order ⟨chained⟩ [0, 2]).filterMap (Registry.at? ⟨chained⟩)⟩ := rfl
  refine ⟨hbuild, _, hmake, hreach, ?_⟩
  exact (make_ordered hbuild hmake).2.2 _ (by decide) _ (by decide) hreach

end Plan

end DesiredState
