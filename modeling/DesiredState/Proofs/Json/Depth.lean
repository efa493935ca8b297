import DesiredState.Proofs.Json.RoundTrip

/-!
# Values that are nested too deeply

Any value can be written, but only a value that is not nested too deeply can be read: whatever a
text denotes fits in the levels that it was read with, and more levels do not change it.
-/

namespace DesiredState.Json

mutual

/-- What a document denotes fits in the levels, and is the same with more levels. -/
theorem value?_of_le : (d : Document) → {levels more : Nat} → {v : Json} → levels ≤ more →
    d.value? levels = some v → v.depth ≤ levels ∧ d.value? more = some v
  | .null, _, _, _, _, h => by
    rw [Document.value?] at h ⊢
    cases h
    exact ⟨Nat.zero_le _, rfl⟩
  | .bool _, _, _, _, _, h => by
    rw [Document.value?] at h ⊢
    cases h
    exact ⟨Nat.zero_le _, rfl⟩
  | .number _, _, _, _, _, h => by
    rw [Document.value?] at h ⊢
    obtain ⟨_, -, rfl⟩ := Option.map_eq_some_iff.mp h
    exact ⟨Nat.zero_le _, h⟩
  | .string _, _, _, _, _, h => by
    rw [Document.value?] at h ⊢
    obtain ⟨_, -, rfl⟩ := Option.map_eq_some_iff.mp h
    exact ⟨Nat.zero_le _, h⟩
  | .array _, 0, _, _, _, h => by cases h
  | .array items, levels + 1, more + 1, _, hle, h => by
    rw [Document.value?] at h ⊢
    obtain ⟨values, hvalues, rfl⟩ := Option.map_eq_some_iff.mp h
    obtain ⟨hdepth, hmore⟩ := itemValues?_of_le items (Nat.le_of_succ_le_succ hle) hvalues
    exact ⟨Nat.succ_le_succ hdepth, by rw [hmore]; rfl⟩
  | .object _, 0, _, _, _, h => by cases h
  | .object members, levels + 1, more + 1, _, hle, h => by
    rw [Document.value?] at h ⊢
    obtain ⟨values, hvalues, rfl⟩ := Option.map_eq_some_iff.mp h
    obtain ⟨hdepth, hmore⟩ := memberValues?_of_le members (Nat.le_of_succ_le_succ hle) hvalues
    exact ⟨Nat.succ_le_succ hdepth, by rw [hmore]; rfl⟩

theorem itemValues?_of_le : (items : List Document) → {levels more : Nat} → {values : List Json} →
    levels ≤ more → itemValues? levels items = some values →
    depthItems values ≤ levels ∧ itemValues? more items = some values
  | [], _, _, _, _, h => by
    rw [itemValues?] at h ⊢
    cases h
    exact ⟨Nat.zero_le _, rfl⟩
  | item :: rest, _, _, _, hle, h => by
    rw [itemValues?] at h ⊢
    obtain ⟨v, hv, h⟩ := Option.bind_eq_some_iff.mp h
    obtain ⟨values, hvalues, h⟩ := Option.bind_eq_some_iff.mp h
    cases h
    obtain ⟨hdepth, hmore⟩ := value?_of_le item hle hv
    obtain ⟨hdepths, hmores⟩ := itemValues?_of_le rest hle hvalues
    exact ⟨Nat.max_le.mpr ⟨hdepth, hdepths⟩, by rw [hmore, hmores]; rfl⟩

theorem memberValues?_of_le : (members : List (List Piece × Document)) → {levels more : Nat} →
    {values : List (String × Json)} → levels ≤ more → memberValues? levels members = some values →
    depthMembers values ≤ levels ∧ memberValues? more members = some values
  | [], _, _, _, _, h => by
    rw [memberValues?] at h ⊢
    cases h
    exact ⟨Nat.zero_le _, rfl⟩
  | (key, value) :: rest, _, _, _, hle, h => by
    rw [memberValues?] at h ⊢
    obtain ⟨k, hk, h⟩ := Option.bind_eq_some_iff.mp h
    obtain ⟨v, hv, h⟩ := Option.bind_eq_some_iff.mp h
    obtain ⟨values, hvalues, h⟩ := Option.bind_eq_some_iff.mp h
    cases h
    obtain ⟨hdepth, hmore⟩ := value?_of_le value hle hv
    obtain ⟨hdepths, hmores⟩ := memberValues?_of_le rest hle hvalues
    exact ⟨Nat.max_le.mpr ⟨hdepth, hdepths⟩, by rw [hk, hmore, hmores]; rfl⟩

end

/-- A precise value that is nested too deeply cannot be read back. -/
theorem parse?_render_eq_none {v : Json} (hp : v.precise = true) (hd : maxDepth < v.depth) :
    parse? v.render = none := by
  obtain ⟨document, hdocument, hvalue⟩ := exists_document_render hp (Nat.le_refl v.depth)
  rw [parse?, parseAsWritten?, hdocument, Option.bind_some]
  cases hread : document.value? maxDepth with
  | none => rfl
  | some w =>
    obtain ⟨hdepth, hmore⟩ := value?_of_le document (Nat.le_of_lt hd) hread
    obtain rfl : w = v := Option.some.inj (hmore.symm.trans hvalue)
    exact absurd hdepth (Nat.not_le.mpr hd)

/-- The text of a plain value denotes it if the value is not nested too deeply, and nothing
otherwise. -/
theorem decode_render_eq {v : Json} (hp : v.plain = true) :
    decode v.render = if v.depth ≤ maxDepth then .ok v else .error .unreadable := by
  split
  · rename_i hd
    exact decode_render hp hd
  · rename_i hd
    rw [decode, parse?_render_eq_none (precise_of_plain v hp) (Nat.lt_of_not_le hd)]

end DesiredState.Json
