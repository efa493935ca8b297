import DesiredState.Proofs.Diff.Exact
import DesiredState.Proofs.Json.RoundTrip

/-!
# The keys of a difference

A difference lists a key just if it changes. Where a definition says everything by plain values, a
key changes just if what is recorded is not what is wanted, and nothing stops the comparison.
-/

namespace DesiredState.Diff

/-- Every setting that takes part is a plain value other than `null`. -/
def Literal (d : Definition) (reserved : List String) : Prop :=
  ∀ key setting, key ∉ reserved → d.get? key = some setting →
    ∃ v, setting = .value v ∧ v.isNull = false ∧ v.plain = true

/-- A setting asks for a change of its key. -/
def Asked (d : Definition) (resolve : Resolver) (recorded : Option Json) (setting : Setting) :
    Prop :=
  ∃ wanted, desired d resolve setting = .ok wanted ∧ (classify recorded wanted).isSome

variable {d : Definition} {current : KeyMap Json} {reserved : List String} {resolve : Resolver}
  {key : String} {recorded : Option Json}

/-- A key is listed if its setting asks for a change, or if it is recorded without a setting. -/
theorem mem_changedKeys {diff : Diff} (h : compute d current reserved resolve = .ok diff) :
    key ∈ diff.changedKeys ↔ key ∉ reserved ∧
      match d.get? key with
      | none => (current.find? key).isSome
      | some setting => Asked d resolve (current.find? key) setting := by
  rw [mem_changedKeys_iff_exists_entry, exists_entry_iff h]
  refine and_congr_right fun _ => ?_
  cases hget : d.get? key with
  | none => simp [wants_of_unmentioned hget, settled_none_iff, Option.isSome_iff_ne_none]
  | some setting =>
    simp [wants_iff hget, Asked, ← classify_eq_none_iff, Option.isSome_iff_ne_none]

theorem desired_of_literal {v : Json} (hv : v.isNull = false) :
    desired d resolve (.value v) = .ok (some (.value v)) := by
  simp [desired, hv]

theorem asked_literal_iff {v : Json} (hv : v.isNull = false) (hp : v.plain = true) :
    Asked d resolve recorded (.value v) ↔ recorded ≠ some v := by
  have hasked : Asked d resolve recorded (.value v) ↔
      (classify recorded (some (.value v))).isSome :=
    ⟨fun ⟨wanted, hw, hs⟩ => by rw [desired_of_literal hv] at hw; cases hw; exact hs,
      fun hs => ⟨_, desired_of_literal hv, hs⟩⟩
  rw [hasked]
  cases recorded with
  | none => simp [classify]
  | some old =>
    by_cases he : old = v
    · subst he
      simp [classify, old.same_refl]
    · have hsame : ¬ old.same v = true := fun hs => he (Json.eq_of_same old v hp hs)
      simp [classify, hsame, he]

/-- A key changes just if what is recorded is not what is wanted. -/
theorem mem_changedKeys_iff (hd : Literal d reserved) {diff : Diff}
    (h : compute d current reserved resolve = .ok diff) :
    key ∈ diff.changedKeys ↔ key ∉ reserved ∧ current.find? key ≠ d.value? key := by
  rw [mem_changedKeys h]
  refine and_congr_right fun hr => ?_
  cases hk : d.get? key with
  | none => simp [Definition.value?, hk, Option.isSome_iff_ne_none]
  | some setting =>
    obtain ⟨v, rfl, hv, hp⟩ := hd key setting hr hk
    simpa [Definition.value?, hk] using asked_literal_iff hv hp

theorem settingChanges_isOk (hd : Literal d reserved) {settings : List (String × Setting)}
    (hs : ∀ entry ∈ settings, d.get? entry.1 = some entry.2) :
    ∃ changes, settingChanges d current reserved resolve settings = .ok changes := by
  induction settings with
  | nil => exact ⟨[], rfl⟩
  | cons head rest ih =>
    obtain ⟨other, setting⟩ := head
    obtain ⟨tail, ht⟩ := ih fun entry he => hs entry (List.mem_cons_of_mem _ he)
    rw [settingChanges]
    by_cases hr : reserved.contains other = true
    · exact ⟨tail, by rw [if_pos hr, ht]⟩
    · rw [if_neg hr]
      obtain ⟨v, rfl, hv, -⟩ :=
        hd other setting (by simpa using hr) (hs _ List.mem_cons_self)
      rw [desired_of_literal hv, ht]
      exact ⟨_, rfl⟩

/-- A definition by plain values can be compared with anything. -/
theorem compute_isOk (hd : Literal d reserved) :
    ∃ diff, compute d current reserved resolve = .ok diff := by
  have hchanges : ∃ changes,
      settingChanges d current reserved resolve d.settings.entries = .ok changes :=
    settingChanges_isOk hd fun entry he => KeyMap.find?_eq_some_iff.mpr he
  obtain ⟨changes, hc⟩ := hchanges
  exact ⟨_, by rw [compute, hc]; rfl⟩

end DesiredState.Diff
