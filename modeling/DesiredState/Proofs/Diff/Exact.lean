import DesiredState.Proofs.Diff.Entries

/-!
# Differences are exact

A comparison fails just if a setting that takes part cannot be resolved, with the cause of the
first such setting. Otherwise each key at which what is recorded is not what is wanted has one
entry, with both sides and the way it changes, and no other key has one.
-/

namespace DesiredState.Diff

/-- What is recorded is what is wanted. -/
inductive Settled : Option Json → Option Desired → Prop where
  | absent : Settled none none
  | equal {v w : Json} (h : v.same w = true) : Settled (some v) (some (.value w))

/-- An entry that a comparison owes: what is recorded at its key, what is wanted there, and how
the one changes into the other. -/
structure Due (d : Definition) (current : KeyMap Json) (reserved : List String)
    (resolve : Resolver) (entry : Entry) : Prop where
  free : entry.key ∉ reserved
  recorded : entry.current = current.find? entry.key
  wanted : Wants d resolve entry.key entry.desired
  change : Change entry.current entry.desired entry.kind

variable {d : Definition} {current : KeyMap Json} {reserved : List String} {resolve : Resolver}
  {key : String} {setting : Setting} {recorded : Option Json} {wanted : Option Desired}
  {kind : Kind} {entry : Entry} {cause : Failure} {changes : List Entry} {diff : Diff}

theorem classify_eq_none_iff : classify recorded wanted = none ↔ Settled recorded wanted := by
  constructor
  · intro h
    rcases recorded with _ | v <;> rcases wanted with _ | w | target <;>
      simp only [classify, reduceCtorEq, ite_eq_left_iff] at h
    · exact .absent
    · exact .equal (by simpa using h)
  · rintro (_ | h)
    · rfl
    · exact if_pos h

theorem settled_none_iff : Settled recorded none ↔ recorded = none := by
  constructor
  · rintro ⟨⟩
    rfl
  · rintro rfl
    exact .absent

theorem not_settled_pending {target : Reference} :
    ¬ Settled recorded (some (.pending target)) := nofun

/-- Something changes unless what is recorded is what is wanted. -/
theorem exists_change_iff : (∃ kind, Change recorded wanted kind) ↔ ¬ Settled recorded wanted := by
  simp only [← classify_eq_some_iff, ← classify_eq_none_iff, Option.ne_none_iff_exists']

theorem mem_changes_iff
    (h : settingChanges d current reserved resolve d.settings.entries = .ok changes) :
    entry ∈ changes ++ leftovers d current reserved ↔ Due d current reserved resolve entry := by
  rw [List.mem_append, mem_settingChanges_iff h, mem_leftovers_iff]
  constructor
  · rintro (⟨hr, setting, wanted, hm, hw, hchange⟩ | ⟨hr, hd, v, hv, he⟩)
    · obtain ⟨-, hcurrent, hdesired, hkind⟩ := changeAt?_eq_some_iff.mp hchange
      have hget : d.get? entry.key = some setting := KeyMap.find?_eq_some_iff.mpr hm
      exact ⟨hr, hcurrent, hdesired ▸ (wants_iff hget).mpr hw, hcurrent ▸ hdesired ▸ hkind⟩
    · rw [he]
      exact ⟨hr, hv.symm, .unmentioned hd, .unset v⟩
  · rintro ⟨hr, hcurrent, hwanted, hchange⟩
    cases hget : d.get? entry.key with
    | some setting =>
      have hw := (wants_iff hget).mp hwanted
      exact Or.inl ⟨hr, setting, entry.desired, KeyMap.find?_eq_some_iff.mp hget, hw,
        changeAt?_eq_some_iff.mpr ⟨rfl, hcurrent, rfl, hcurrent ▸ hchange⟩⟩
    | none =>
      obtain ⟨key, kind, recorded, wanted⟩ := entry
      obtain rfl : wanted = none := (wants_of_unmentioned hget).mp hwanted
      rcases hchange with _ | _ | v
      exact Or.inr ⟨hr, rfl, v, hcurrent.symm, rfl⟩

/-- No key is listed twice. -/
theorem nodup_changes
    (h : settingChanges d current reserved resolve d.settings.entries = .ok changes) :
    ((changes ++ leftovers d current reserved).map Entry.key).Nodup := by
  rw [List.map_append]
  refine List.Nodup.append (d.settings.nodup_keys.sublist (keys_settingChanges_sublist h))
    (current.nodup_keys.sublist keys_leftovers_sublist) fun key hchange hleft => ?_
  obtain ⟨entry, hentry, rfl⟩ := List.mem_map.mp hchange
  obtain ⟨left, hleft, hkey⟩ := List.mem_map.mp hleft
  obtain ⟨-, setting, -, hm, -⟩ := (mem_settingChanges_iff h).mp hentry
  have hnone := (mem_leftovers_iff.mp hleft).2.1
  rw [hkey] at hnone
  cases hnone.symm.trans (KeyMap.find?_eq_some_iff.mpr hm)

theorem compute_eq_map : compute d current reserved resolve =
    (settingChanges d current reserved resolve d.settings.entries).map fun changes =>
      ⟨KeyMap.ofList
        ((changes ++ leftovers d current reserved).map fun entry => (entry.key, entry))⟩ := by
  rw [compute]
  cases settingChanges d current reserved resolve d.settings.entries <;> rfl

theorem compute_eq_error_iff : compute d current reserved resolve = .error cause ↔
    settingChanges d current reserved resolve d.settings.entries = .error cause := by
  rw [compute_eq_map]
  cases settingChanges d current reserved resolve d.settings.entries <;> simp [Except.map]

theorem compute_eq_ok_iff : compute d current reserved resolve = .ok diff ↔
    ∃ changes, settingChanges d current reserved resolve d.settings.entries = .ok changes ∧
      diff = ⟨KeyMap.ofList
        ((changes ++ leftovers d current reserved).map fun entry => (entry.key, entry))⟩ := by
  rw [compute_eq_map]
  cases settingChanges d current reserved resolve d.settings.entries with
  | error failed => simp [Except.map]
  | ok changes => simp [Except.map, eq_comm]

/-- A key has the entry that it is owed. -/
theorem get?_eq_some_iff (h : compute d current reserved resolve = .ok diff) :
    diff.get? key = some entry ↔ entry.key = key ∧ Due d current reserved resolve entry := by
  obtain ⟨changes, hc, rfl⟩ := compute_eq_ok_iff.mp h
  rw [get?, KeyMap.find?_ofList (by simpa [Function.comp_def] using nodup_changes hc),
    List.mem_map, ← mem_changes_iff hc]
  constructor
  · rintro ⟨found, hm, he⟩
    cases he
    exact ⟨rfl, hm⟩
  · rintro ⟨rfl, hm⟩
    exact ⟨entry, hm, rfl⟩

theorem mem_entries_iff : entry ∈ diff.entries ↔ ∃ key, diff.get? key = some entry := by
  simp [entries, KeyMap.values, get?, KeyMap.find?_eq_some_iff]

theorem mem_changedKeys_iff_exists_entry :
    key ∈ diff.changedKeys ↔ ∃ entry, diff.get? key = some entry := by
  rw [changedKeys, ← KeyMap.contains_iff, KeyMap.contains, Option.isSome_iff_exists, get?]

/-- The entries stand under their own keys. -/
theorem keys_entries (h : compute d current reserved resolve = .ok diff) :
    diff.entries.map Entry.key = diff.changedKeys := by
  rw [entries, changedKeys, KeyMap.values, KeyMap.keys, List.map_map]
  refine List.map_congr_left fun pair hpair => ?_
  exact ((get?_eq_some_iff h).mp (KeyMap.find?_eq_some_iff.mpr hpair)).1

/-- A key has an entry unless it is reserved or what is recorded there is what is wanted. -/
theorem exists_entry_iff (h : compute d current reserved resolve = .ok diff) :
    (∃ entry, diff.get? key = some entry) ↔ key ∉ reserved ∧
      ∃ wanted, Wants d resolve key wanted ∧ ¬ Settled (current.find? key) wanted := by
  simp only [get?_eq_some_iff h, ← exists_change_iff]
  constructor
  · rintro ⟨entry, rfl, hr, hcurrent, hwanted, hchange⟩
    exact ⟨hr, entry.desired, hwanted, entry.kind, hcurrent ▸ hchange⟩
  · rintro ⟨hr, wanted, hwanted, kind, hchange⟩
    exact ⟨⟨key, kind, current.find? key, wanted⟩, rfl, hr, rfl, hwanted, hchange⟩

/-- The counts by kind count every entry once. -/
theorem total_summary (diff : Diff) : diff.summary.total = diff.entries.length := by
  simp only [summary, Summary.total, count]
  induction diff.entries with
  | nil => rfl
  | cons entry rest ih =>
    simp only [List.countP_cons, List.length_cons]
    cases entry.kind <;> simp <;> omega

/-- A setting that takes part and cannot be resolved. -/
def Stops (d : Definition) (reserved : List String) (resolve : Resolver) (key : String)
    (cause : Failure) : Prop :=
  key ∉ reserved ∧ Unresolvable d resolve key cause

/-- A comparison fails with the cause of the first setting that stops it. -/
theorem compute_eq_error_iff_first : compute d current reserved resolve = .error cause ↔
    ∃ key, Stops d reserved resolve key cause ∧
      ∀ other < key, ∀ cause', ¬ Stops d reserved resolve other cause' := by
  rw [compute_eq_error_iff, settingChanges_eq_error_iff, KeyMap.findSome?_entries_eq_some_iff]
  constructor
  · rintro ⟨key, setting, hget, hstop, hfirst⟩
    refine ⟨key, (stop?_eq_some_iff hget).mp hstop, fun other hlt cause' hother => ?_⟩
    obtain ⟨setting', hget'⟩ := hother.2.mentioned
    have hsome := (stop?_eq_some_iff hget').mpr hother
    rw [hfirst other setting' hlt hget'] at hsome
    cases hsome
  · rintro ⟨key, hstop, hfirst⟩
    obtain ⟨setting, hget⟩ := hstop.2.mentioned
    refine ⟨key, setting, hget, (stop?_eq_some_iff hget).mpr hstop,
      fun other setting' hlt hget' => ?_⟩
    refine Option.eq_none_iff_forall_ne_some.mpr fun cause' hsome => ?_
    exact hfirst other hlt cause' ((stop?_eq_some_iff hget').mp hsome)

theorem exists_compute_eq_error_iff : (∃ cause, compute d current reserved resolve = .error cause) ↔
    ∃ key cause, Stops d reserved resolve key cause := by
  simp only [compute_eq_error_iff, settingChanges_eq_error_iff]
  constructor
  · rintro ⟨cause, h⟩
    obtain ⟨entry, hm, hstop⟩ := List.exists_of_findSome?_eq_some h
    exact ⟨entry.1, cause, (stop?_eq_some_iff (KeyMap.find?_eq_some_iff.mpr hm)).mp hstop⟩
  · rintro ⟨key, cause, hstop⟩
    obtain ⟨setting, hget⟩ := hstop.2.mentioned
    rw [← Option.isSome_iff_exists, List.findSome?_isSome_iff]
    exact ⟨(key, setting), KeyMap.find?_eq_some_iff.mp hget,
      Option.isSome_iff_exists.mpr ⟨cause, (stop?_eq_some_iff hget).mpr hstop⟩⟩

theorem settingChanges_congr {resolve' : Resolver} {settings : List (String × Setting)}
    (h : ∀ key target, key ∉ reserved → (key, Setting.reference target) ∈ settings →
      resolve' target = resolve target) :
    settingChanges d current reserved resolve' settings =
      settingChanges d current reserved resolve settings := by
  induction settings with
  | nil => rfl
  | cons head rest ih =>
    obtain ⟨key, setting⟩ := head
    have hrest := ih fun key target hr hm => h key target hr (List.mem_cons_of_mem _ hm)
    by_cases hr : key ∈ reserved
    · rw [settingChanges_cons_reserved hr, settingChanges_cons_reserved hr, hrest]
    · have hdesired : desired d resolve' setting = desired d resolve setting := by
        cases setting with
        | value v => rfl
        | reference target => rw [desired, desired, h key target hr List.mem_cons_self]
      rw [settingChanges_cons hr, settingChanges_cons hr, hdesired, hrest]

/-- Only references at keys that are not reserved are resolved. -/
theorem compute_congr {resolve' : Resolver}
    (h : ∀ key target, key ∉ reserved → d.get? key = some (.reference target) →
      resolve' target = resolve target) :
    compute d current reserved resolve' = compute d current reserved resolve := by
  have hsettings : settingChanges d current reserved resolve' d.settings.entries =
      settingChanges d current reserved resolve d.settings.entries :=
    settingChanges_congr fun key target hr hm => h key target hr (KeyMap.find?_eq_some_iff.mpr hm)
  rw [compute, compute, hsettings]

/-- Comparing is exact. It fails just if a setting that takes part cannot be resolved, with the
cause of the first such setting in the order of keys, and reserved settings are not resolved.
Otherwise each entry is one that is owed, under its own key and in the order of keys; a key has an
entry just if it takes part and what is recorded is not what is wanted; nothing pending is left
out; and the counts add up. -/
theorem compute_exact (d : Definition) (current : KeyMap Json) (reserved : List String)
    (resolve : Resolver) :
    ((∃ cause, compute d current reserved resolve = .error cause) ↔
      ∃ key cause, key ∉ reserved ∧ Unresolvable d resolve key cause) ∧
    (∀ cause, compute d current reserved resolve = .error cause ↔
      ∃ key, (key ∉ reserved ∧ Unresolvable d resolve key cause) ∧
        ∀ other < key, ∀ cause', ¬ (other ∉ reserved ∧ Unresolvable d resolve other cause')) ∧
    (∀ resolve' : Resolver,
      (∀ key target, key ∉ reserved → d.get? key = some (.reference target) →
        resolve' target = resolve target) →
      compute d current reserved resolve' = compute d current reserved resolve) ∧
    ∀ diff, compute d current reserved resolve = .ok diff →
      (∀ key entry, diff.get? key = some entry ↔
        entry.key = key ∧ Due d current reserved resolve entry) ∧
      (∀ entry, entry ∈ diff.entries ↔ Due d current reserved resolve entry) ∧
      (diff.entries.map Entry.key).Pairwise (· < ·) ∧
      (∀ key, (∃ entry, diff.get? key = some entry) ↔ key ∉ reserved ∧
        ∃ wanted, Wants d resolve key wanted ∧ ¬ Settled (current.find? key) wanted) ∧
      (∀ key target, key ∉ reserved → d.get? key = some (.reference target) →
        resolve target = .ok .pending →
        ∃ entry, diff.get? key = some entry ∧ entry.desired = some (.pending target)) ∧
      diff.summary.total = diff.entries.length := by
  refine ⟨exists_compute_eq_error_iff, fun _ => compute_eq_error_iff_first,
    fun _ => compute_congr, fun diff h => ?_⟩
  have hget : ∀ key entry, diff.get? key = some entry ↔
      entry.key = key ∧ Due d current reserved resolve entry := fun _ _ => get?_eq_some_iff h
  refine ⟨hget, fun entry => ?_, ?_, fun _ => exists_entry_iff h, ?_, total_summary diff⟩
  case refine_1 =>
    rw [mem_entries_iff]
    exact ⟨fun ⟨key, hk⟩ => ((hget key entry).mp hk).2, fun hdue => ⟨_, (hget _ _).mpr ⟨rfl, hdue⟩⟩⟩
  case refine_2 =>
    rw [keys_entries h]
    exact diff.changes.pairwise_keys
  case refine_3 =>
    intro key target hr htarget hpending
    have hwants : Wants d resolve key (some (.pending target)) := .pending htarget hpending
    obtain ⟨kind, hchange⟩ : ∃ kind, Change (current.find? key) (some (.pending target)) kind :=
      exists_change_iff.mpr not_settled_pending
    exact ⟨⟨key, kind, current.find? key, some (.pending target)⟩,
      (hget _ _).mpr ⟨rfl, hr, rfl, hwants, hchange⟩, rfl⟩

/-- A definition with a setting of each kind; the place of display is not for it to choose. -/
def moving : Definition :=
  ((((Definition.bare "data" "volume").withSetting "label" (.value (.str "new"))).withSetting
    "region" (.value .null)).withSetting "server" (.reference ⟨"web", "id"⟩)).withSetting
    "index" (.reference ⟨"nobody", "index"⟩)

def recordedBefore : KeyMap Json :=
  .ofList [("index", .ofInt 3), ("region", .str "us-east-1"), ("server", .str "i-1"),
    ("size", .ofInt 8)]

/-- There is nothing yet but the one server, which is not up. -/
def webOnly : Resolver := fun target =>
  .ok (if target.resource = "web" then .pending else .unknown)

theorem compute_exact_moving : ∃ diff, compute moving recordedBefore ["index"] webOnly = .ok diff ∧
    diff.changedKeys = ["label", "region", "server", "size"] ∧
    diff.get? "server" =
      some ⟨"server", .update, some (.str "i-1"), some (.pending ⟨"web", "id"⟩)⟩ ∧
    Due moving recordedBefore ["index"] webOnly
      ⟨"server", .update, some (.str "i-1"), some (.pending ⟨"web", "id"⟩)⟩ := by
  refine ⟨_, rfl, by decide +kernel, by decide +kernel, ?_⟩
  obtain ⟨-, -, -, hexact⟩ := compute_exact moving recordedBefore ["index"] webOnly
  exact (((hexact _ rfl).1 "server" _).mp (by decide +kernel)).2

end DesiredState.Diff
