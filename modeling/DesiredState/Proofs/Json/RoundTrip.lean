import DesiredState.Json.Decode
import DesiredState.Proofs.Json.Spacing
import DesiredState.Proofs.KeyMap

/-!
# Values read back

A plain value has no doubles, its whole numbers fit in their words, and the members of its
objects stand in the order of their keys. The text of a plain value that is not nested too deeply
denotes that very value.
-/

namespace DesiredState.Json

mutual

/-- Whether a value has no doubles, no number too large, and its members in order. -/
def plain : Json → Bool
  | .num (.int i) => InWords i
  | .num (.float _) => false
  | .arr items => plainItems items
  | .obj members => Ascending members && plainMembers members
  | _ => true

def plainItems : List Json → Bool
  | [] => true
  | v :: rest => plain v && plainItems rest

def plainMembers : List (String × Json) → Bool
  | [] => true
  | (_, v) :: rest => plain v && plainMembers rest

end

theorem plainMembers_iff {members : List (String × Json)} :
    plainMembers members = true ↔ ∀ member ∈ members, member.2.plain = true := by
  induction members with
  | nil => simp [plainMembers]
  | cons member members ih =>
    obtain ⟨k, v⟩ := member
    simp [plainMembers, ih]

mutual

/-- What is the same value as a plain one is equal to it. -/
theorem eq_of_same : (v w : Json) → w.plain = true → v.same w = true → v = w
  | v, .null, _, h => by cases v <;> simp_all [same]
  | v, .bool _, _, h => by cases v <;> simp_all [same]
  | v, .num (.int _), _, h => by
    rcases v with _ | _ | n | _ | _ | _ <;> simp_all [same]
    cases n <;> simp_all [Number.same]
  | _, .num (.float _), hp, _ => by simp [plain] at hp
  | v, .str _, _, h => by cases v <;> simp_all [same]
  | v, .arr items, hp, h => by
    cases v <;> simp only [same, Bool.false_eq_true] at h
    rw [eq_of_sameItems _ items (by simpa [plain] using hp) h]
  | v, .obj members, hp, h => by
    cases v <;> simp only [same, Bool.false_eq_true] at h
    rw [eq_of_sameMembers _ members (by simp [plain] at hp; exact hp.2) h]

theorem eq_of_sameItems : (as bs : List Json) → plainItems bs = true → sameItems as bs = true →
    as = bs
  | as, [], _, h => by cases as <;> simp_all [sameItems]
  | as, b :: bs, hp, h => by
    cases as with
    | nil => simp [sameItems] at h
    | cons a as =>
      simp only [plainItems, sameItems, Bool.and_eq_true] at hp h
      rw [eq_of_same a b hp.1 h.1, eq_of_sameItems as bs hp.2 h.2]

theorem eq_of_sameMembers : (as bs : List (String × Json)) → plainMembers bs = true →
    sameMembers as bs = true → as = bs
  | as, [], _, h => by cases as <;> simp_all [sameMembers]
  | as, (l, b) :: bs, hp, h => by
    cases as with
    | nil => simp [sameMembers] at h
    | cons a as =>
      obtain ⟨k, a⟩ := a
      simp only [plainMembers, sameMembers, Bool.and_eq_true, decide_eq_true_eq] at hp h
      rw [h.1.1, eq_of_same a b hp.1 h.1.2, eq_of_sameMembers as bs hp.2 h.2]

end

mutual

/-- A plain value is in its canonical form. -/
theorem canonical_of_plain : (v : Json) → v.plain = true → v.canonical = v
  | .null, _ => rfl
  | .bool _, _ => rfl
  | .num _, _ => rfl
  | .str _, _ => rfl
  | .arr items, hp => by
    simp only [plain] at hp
    rw [canonical, canonicalItems_of_plain items hp]
  | .obj members, hp => by
    simp only [plain, Bool.and_eq_true, decide_eq_true_eq] at hp
    rw [canonical, canonicalMembers_of_plain members hp.2, KeyMap.entries_ofList hp.1]

theorem canonicalItems_of_plain : (items : List Json) → plainItems items = true →
    canonicalItems items = items
  | [], _ => rfl
  | v :: rest, hp => by
    simp only [plainItems, Bool.and_eq_true] at hp
    rw [canonicalItems, canonical_of_plain v hp.1, canonicalItems_of_plain rest hp.2]

theorem canonicalMembers_of_plain : (members : List (String × Json)) →
    plainMembers members = true → canonicalMembers members = members
  | [], _ => rfl
  | (k, v) :: rest, hp => by
    simp only [plainMembers, Bool.and_eq_true] at hp
    rw [canonicalMembers, canonical_of_plain v hp.1, canonicalMembers_of_plain rest hp.2]

end

mutual

theorem precise_of_plain : (v : Json) → v.plain = true → v.precise = true
  | .null, _ | .bool _, _ | .str _, _ => rfl
  | .num (.int _), hp => hp
  | .num (.float _), hp => hp
  | .arr items, hp => preciseItems_of_plain items (by simpa [plain] using hp)
  | .obj members, hp => by
    simp only [plain, Bool.and_eq_true] at hp
    exact preciseMembers_of_plain members hp.2

theorem preciseItems_of_plain : (items : List Json) → plainItems items = true →
    preciseItems items = true
  | [], _ => rfl
  | v :: rest, hp => by
    simp only [plainItems, preciseItems, Bool.and_eq_true] at hp ⊢
    exact ⟨precise_of_plain v hp.1, preciseItems_of_plain rest hp.2⟩

theorem preciseMembers_of_plain : (members : List (String × Json)) → plainMembers members = true →
    preciseMembers members = true
  | [], _ => rfl
  | (_, v) :: rest, hp => by
    simp only [plainMembers, preciseMembers, Bool.and_eq_true] at hp ⊢
    exact ⟨precise_of_plain v hp.1, preciseMembers_of_plain rest hp.2⟩

end

/-- The stored text of a plain value denotes the value. -/
theorem decode_render {v : Json} (hp : v.plain = true) (hd : v.depth ≤ maxDepth) :
    decode v.render = .ok v := by
  have hread := parseAsWritten?_render (precise_of_plain v hp) hd
  simp [decode, parse?, hread, canonical_of_plain v hp]

end DesiredState.Json
