import DesiredState.Diff.Compute
import DesiredState.Proofs.KeyMap
import DesiredState.Proofs.Outcome

/-!
# The entries of a difference

A comparison stops at the first setting, in the order of keys, that refers to something that cannot
be resolved; reserved settings are not resolved at all. Otherwise the difference has one entry for
each key at which what is recorded differs from what is wanted, and no other entry.
-/

namespace DesiredState.Diff

/-- What a definition wants for a key. -/
inductive Wants (d : Definition) (resolve : Resolver) (key : String) : Option Desired → Prop where
  | unmentioned (h : d.get? key = none) : Wants d resolve key none
  | null (h : d.get? key = some (.value .null)) : Wants d resolve key none
  | literal {v : Json} (h : d.get? key = some (.value v)) (hv : v ≠ .null) :
      Wants d resolve key (some (.value v))
  | ready {target : Reference} {v : Json} (h : d.get? key = some (.reference target))
      (hr : resolve target = .ok (.ready v)) : Wants d resolve key (some (.value v))
  | pending {target : Reference} (h : d.get? key = some (.reference target))
      (hr : resolve target = .ok .pending) : Wants d resolve key (some (.pending target))

/-- The setting at a key refers to something that cannot be resolved. -/
inductive Unresolvable (d : Definition) (resolve : Resolver) (key : String) : Failure → Prop where
  | failed {target : Reference} {cause : Failure} (h : d.get? key = some (.reference target))
      (hr : resolve target = .error cause) : Unresolvable d resolve key cause
  | unknown {target : Reference} (h : d.get? key = some (.reference target))
      (hr : resolve target = .ok .unknown) :
      Unresolvable d resolve key (.danglingReference d.name target.resource)

/-- What is recorded differs from what is wanted. Nothing equals a value that is pending. -/
inductive Change : Option Json → Option Desired → Kind → Prop where
  | set (wanted : Desired) : Change none (some wanted) .set
  | update {v : Json} {wanted : Desired} (h : ∀ w, wanted = .value w → v.same w = false) :
      Change (some v) (some wanted) .update
  | unset (v : Json) : Change (some v) none .unset

variable {d : Definition} {current : KeyMap Json} {reserved : List String} {resolve : Resolver}
  {key : String} {setting : Setting} {recorded : Option Json} {wanted : Option Desired}
  {kind : Kind} {entry : Entry} {cause : Failure} {settings : List (String × Setting)}
  {changes : List Entry}

theorem isNull_eq_true_iff {v : Json} : v.isNull = true ↔ v = .null := by
  cases v <;> simp [Json.isNull]

theorem wants_iff (h : d.get? key = some setting) :
    Wants d resolve key wanted ↔ desired d resolve setting = .ok wanted := by
  constructor
  · rintro (h' | h' | ⟨h', hv⟩ | ⟨h', hr⟩ | ⟨h', hr⟩) <;> cases h.symm.trans h'
    · rfl
    · rw [desired, if_neg (mt isNull_eq_true_iff.mp hv)]
    · rw [desired, hr]
    · rw [desired, hr]
  · intro hw
    cases setting with
    | value v =>
      by_cases hv : v = .null
      · subst hv
        cases hw
        exact .null h
      · rw [desired, if_neg (mt isNull_eq_true_iff.mp hv)] at hw
        cases hw
        exact .literal h hv
    | reference target =>
      rw [desired] at hw
      split at hw <;> cases hw
      · exact .ready h ‹_›
      · exact .pending h ‹_›

theorem wants_of_unmentioned (h : d.get? key = none) :
    Wants d resolve key wanted ↔ wanted = none := by
  constructor
  · rintro (_ | _ | ⟨h', -⟩ | ⟨h', -⟩ | ⟨h', -⟩)
    · rfl
    · rfl
    all_goals cases h.symm.trans h'
  · rintro rfl
    exact .unmentioned h

theorem unresolvable_iff (h : d.get? key = some setting) :
    Unresolvable d resolve key cause ↔ desired d resolve setting = .error cause := by
  constructor
  · rintro (⟨h', hr⟩ | ⟨h', hr⟩) <;> cases h.symm.trans h'
    · rw [desired, hr]
    · rw [desired, hr]
  · intro hw
    cases setting with
    | value v => cases hw
    | reference target =>
      rw [desired] at hw
      split at hw <;> cases hw
      · exact .failed h ‹_›
      · exact .unknown h ‹_›

theorem Unresolvable.mentioned (h : Unresolvable d resolve key cause) :
    ∃ setting, d.get? key = some setting := by
  cases h with
  | failed h => exact ⟨_, h⟩
  | unknown h => exact ⟨_, h⟩

theorem classify_eq_some_iff :
    classify recorded wanted = some kind ↔ Change recorded wanted kind := by
  constructor
  · intro h
    rcases recorded with _ | v <;> rcases wanted with _ | w | target <;>
      simp only [classify, Option.some.injEq, reduceCtorEq] at h
    · exact h ▸ .set _
    · exact h ▸ .set _
    · exact h ▸ .unset v
    · split at h
      · cases h
      · rename_i hsame
        cases h
        refine .update fun _ he => ?_
        cases he
        simpa using hsame
    · exact h ▸ .update fun _ he => by cases he
  · rintro (wanted | ⟨h⟩ | v)
    · rfl
    · rename_i v wanted
      cases wanted with
      | value w => simp [classify, h w rfl]
      | pending target => rfl
    · rfl

theorem changeAt?_eq_some_iff : changeAt? key recorded wanted = some entry ↔
    entry.key = key ∧ entry.current = recorded ∧ entry.desired = wanted ∧
      Change recorded wanted entry.kind := by
  rw [changeAt?, Option.map_eq_some_iff]
  constructor
  · rintro ⟨kind, hkind, rfl⟩
    exact ⟨rfl, rfl, rfl, classify_eq_some_iff.mp hkind⟩
  · rintro ⟨rfl, rfl, rfl, hchange⟩
    exact ⟨entry.kind, classify_eq_some_iff.mpr hchange, rfl⟩

theorem settingChanges_cons_reserved (h : key ∈ reserved) :
    settingChanges d current reserved resolve ((key, setting) :: settings) =
      settingChanges d current reserved resolve settings := by
  rw [settingChanges, if_pos (by simpa using h)]

theorem settingChanges_cons (h : key ∉ reserved) :
    settingChanges d current reserved resolve ((key, setting) :: settings) =
      (desired d resolve setting).bind fun wanted =>
        (settingChanges d current reserved resolve settings).map fun changes =>
          (changeAt? key (current.find? key) wanted).toList ++ changes := by
  rw [settingChanges, if_neg (by simpa using h)]
  rfl

/-- The cause for which a setting stops the comparison. -/
def stop? (d : Definition) (reserved : List String) (resolve : Resolver)
    (entry : String × Setting) : Option Failure :=
  if entry.1 ∈ reserved then none
  else
    match desired d resolve entry.2 with
    | .error cause => some cause
    | .ok _ => none

theorem stop?_eq_some_iff (h : d.get? key = some setting) :
    stop? d reserved resolve (key, setting) = some cause ↔
      key ∉ reserved ∧ Unresolvable d resolve key cause := by
  rw [unresolvable_iff h, stop?]
  by_cases hr : key ∈ reserved
  · simp [hr]
  · cases desired d resolve setting <;> simp [hr]

/-- The first setting that cannot be resolved stops the comparison. -/
theorem settingChanges_eq_error_iff :
    settingChanges d current reserved resolve settings = .error cause ↔
      settings.findSome? (stop? d reserved resolve) = some cause := by
  induction settings with
  | nil => simp [settingChanges]
  | cons head rest ih =>
    obtain ⟨key, setting⟩ := head
    rw [List.findSome?_cons]
    by_cases hr : key ∈ reserved
    · rw [settingChanges_cons_reserved hr, ih, stop?, if_pos hr]
    · rw [settingChanges_cons hr, stop?, if_neg hr]
      cases desired d resolve setting with
      | error failed => simp [Except.bind]
      | ok wanted =>
        simp only [← ih]
        cases settingChanges d current reserved resolve rest <;> simp [Except.bind, Except.map]

/-- The changes are those of the settings, each at its own key. -/
theorem mem_settingChanges_iff
    (h : settingChanges d current reserved resolve settings = .ok changes) :
    entry ∈ changes ↔ entry.key ∉ reserved ∧ ∃ setting wanted, (entry.key, setting) ∈ settings ∧
      desired d resolve setting = .ok wanted ∧
      changeAt? entry.key (current.find? entry.key) wanted = some entry := by
  induction settings generalizing changes with
  | nil =>
    cases h
    simp
  | cons head rest ih =>
    obtain ⟨key, setting⟩ := head
    by_cases hr : key ∈ reserved
    · rw [settingChanges_cons_reserved hr] at h
      rw [ih h]
      refine and_congr_right fun hkey => exists₂_congr fun _ _ => and_congr_left fun _ => ?_
      refine ⟨List.mem_cons_of_mem _, fun hm => (List.mem_cons.mp hm).resolve_left fun he => ?_⟩
      cases he
      exact hkey hr
    · rw [settingChanges_cons hr] at h
      obtain ⟨wanted, hw, h⟩ := Action.bind_eq_ok h
      cases hc : settingChanges d current reserved resolve rest with
      | error failed =>
        rw [hc] at h
        cases h
      | ok tail =>
        rw [hc] at h
        cases h
        rw [List.mem_append, Option.mem_toList, ih hc]
        constructor
        · rintro (hchange | ⟨hkey, setting', wanted', hm, hrest⟩)
          · obtain rfl := (changeAt?_eq_some_iff.mp hchange).1
            exact ⟨hr, setting, wanted, List.mem_cons_self, hw, hchange⟩
          · exact ⟨hkey, setting', wanted', List.mem_cons_of_mem _ hm, hrest⟩
        · rintro ⟨hkey, setting', wanted', hm, hw', hchange⟩
          rcases List.mem_cons.mp hm with he | hm
          · cases he
            cases hw.symm.trans hw'
            exact Or.inl hchange
          · exact Or.inr ⟨hkey, setting', wanted', hm, hw', hchange⟩

theorem keys_settingChanges_sublist
    (h : settingChanges d current reserved resolve settings = .ok changes) :
    (changes.map Entry.key).Sublist (settings.map Prod.fst) := by
  induction settings generalizing changes with
  | nil =>
    cases h
    exact .refl _
  | cons head rest ih =>
    obtain ⟨key, setting⟩ := head
    by_cases hr : key ∈ reserved
    · rw [settingChanges_cons_reserved hr] at h
      exact (ih h).cons _
    · rw [settingChanges_cons hr] at h
      obtain ⟨wanted, -, h⟩ := Action.bind_eq_ok h
      cases hc : settingChanges d current reserved resolve rest with
      | error failed =>
        rw [hc] at h
        cases h
      | ok tail =>
        rw [hc] at h
        cases h
        rw [List.map_append, List.map_cons]
        cases hchange : changeAt? key (current.find? key) wanted with
        | none => exact (ih hc).cons _
        | some entry =>
          obtain rfl := (changeAt?_eq_some_iff.mp hchange).1
          exact (ih hc).cons_cons _

/-- Each leftover is a recorded value without a setting. -/
theorem mem_leftovers_iff : entry ∈ leftovers d current reserved ↔
    entry.key ∉ reserved ∧ d.get? entry.key = none ∧
      ∃ v, current.find? entry.key = some v ∧ entry = ⟨entry.key, .unset, some v, none⟩ := by
  have hkept : ∀ key, ¬ reserved.contains key ∧ ¬ d.settings.contains key ↔
      key ∉ reserved ∧ d.get? key = none := fun key => by
    simp [KeyMap.contains, Definition.get?]
  simp only [leftovers, List.mem_map, List.mem_filter, decide_eq_true_eq, hkept, Prod.exists,
    ← KeyMap.find?_eq_some_iff]
  constructor
  · rintro ⟨key, v, ⟨hv, hr, hd⟩, rfl⟩
    exact ⟨hr, hd, v, hv, rfl⟩
  · rintro ⟨hr, hd, v, hv, he⟩
    exact ⟨entry.key, v, ⟨hv, hr, hd⟩, he.symm⟩

theorem keys_leftovers_sublist :
    ((leftovers d current reserved).map Entry.key).Sublist current.keys := by
  rw [leftovers, List.map_map]
  exact List.filter_sublist.map Prod.fst

end DesiredState.Diff
