import DesiredState.Json.Field
import DesiredState.Proofs.KeyMap

/-!
# Canonical values

The canonical form of a value is its own canonical form. Where no object repeats a key, a value and
its canonical form have the same members.
-/

namespace DesiredState.Json

/-- No object in a value repeats a key. -/
inductive UniqueKeys : Json → Prop where
  | null : UniqueKeys .null
  | bool (b : Bool) : UniqueKeys (.bool b)
  | num (n : Number) : UniqueKeys (.num n)
  | str (s : String) : UniqueKeys (.str s)
  | arr {items : List Json} (inner : ∀ v ∈ items, UniqueKeys v) : UniqueKeys (.arr items)
  | obj {members : List (String × Json)} (distinct : (members.map Prod.fst).Nodup)
      (inner : ∀ member ∈ members, UniqueKeys member.2) : UniqueKeys (.obj members)

variable {members : List (String × Json)} {key s : String} {v w : Json}

theorem canonicalItems_eq_map (items : List Json) : canonicalItems items = items.map canonical := by
  induction items with
  | nil => rfl
  | cons v rest ih => rw [canonicalItems, ih, List.map_cons]

theorem canonicalMembers_eq_map (members : List (String × Json)) :
    canonicalMembers members = members.map fun member => (member.1, member.2.canonical) := by
  induction members with
  | nil => rfl
  | cons member rest ih => rw [canonicalMembers, ih, List.map_cons]

theorem canonical_eq_str_iff : v.canonical = .str s ↔ v = .str s := by
  cases v <;> simp [canonical]

theorem canonicalMembers_eq_self (h : ∀ member ∈ members, member.2.canonical = member.2) :
    canonicalMembers members = members := by
  rw [canonicalMembers_eq_map]
  refine (List.map_congr_left fun member hm => ?_).trans (List.map_id members)
  rw [h member hm, id]

mutual

/-- Taking the canonical form twice is taking it once. -/
theorem canonical_canonical : (v : Json) → v.canonical.canonical = v.canonical
  | .null | .bool _ | .num _ | .str _ => rfl
  | .arr items => by
    have hitems := canonical_of_mem_canonicalItems items
    rw [canonical, canonical, canonicalItems_eq_map (canonicalItems items),
      List.map_congr_left hitems, List.map_id']
  | .obj members => by
    have hmembers := canonical_of_mem_canonicalMembers members
    have hself : canonicalMembers (KeyMap.ofList (canonicalMembers members)).entries =
        (KeyMap.ofList (canonicalMembers members)).entries :=
      canonicalMembers_eq_self fun member hm =>
        hmembers member (KeyMap.mem_of_find?_ofList (KeyMap.find?_eq_some_iff.mpr hm))
    rw [canonical, canonical, hself, KeyMap.ofList_entries]

theorem canonical_of_mem_canonicalItems :
    (items : List Json) → ∀ v ∈ canonicalItems items, v.canonical = v
  | [] => List.forall_mem_nil _
  | v :: rest =>
    List.forall_mem_cons.mpr ⟨canonical_canonical v, canonical_of_mem_canonicalItems rest⟩

theorem canonical_of_mem_canonicalMembers : (members : List (String × Json)) →
    ∀ member ∈ canonicalMembers members, member.2.canonical = member.2
  | [] => List.forall_mem_nil _
  | (_, v) :: rest =>
    List.forall_mem_cons.mpr ⟨canonical_canonical v, canonical_of_mem_canonicalMembers rest⟩

end

/-- A canonical object repeats no key. -/
theorem nodup_of_canonical (h : (obj members).canonical = obj members) :
    (members.map Prod.fst).Nodup := by
  rw [canonical] at h
  rw [← obj.inj h]
  exact KeyMap.nodup_keys _

/-- The members of a canonical form are those of the value. -/
theorem mem_canonical_iff (h : (members.map Prod.fst).Nodup) :
    (key, w) ∈ (KeyMap.ofList (canonicalMembers members)).entries ↔
      ∃ v, (key, v) ∈ members ∧ v.canonical = w := by
  have hkeys : ((canonicalMembers members).map Prod.fst).Nodup := by
    simpa [canonicalMembers_eq_map, Function.comp_def] using h
  rw [← KeyMap.find?_eq_some_iff, KeyMap.find?_ofList hkeys, canonicalMembers_eq_map]
  simp

theorem Field.find_eq_once_iff (h : (members.map Prod.fst).Nodup) :
    Field.find key members = .once v ↔ (key, v) ∈ members := by
  induction members with
  | nil => simp [Field.find]
  | cons member rest ih =>
    obtain ⟨name, w⟩ := member
    obtain ⟨hnew, hrest⟩ := List.nodup_cons.mp h
    by_cases hname : name = key
    · subst hname
      have hnone : rest.filter (fun member => member.1 = name) = [] := by
        refine List.filter_eq_nil_iff.mpr fun member hm he => hnew ?_
        rw [← of_decide_eq_true he]
        exact List.mem_map.mpr ⟨member, hm, rfl⟩
      have hfind : Field.find name ((name, w) :: rest) = .once w := by
        rw [Field.find, List.filter_cons_of_pos (by simp), hnone]
      have hother : (name, v) ∉ rest := fun hm => hnew (List.mem_map.mpr ⟨_, hm, rfl⟩)
      simp [hfind, hother, eq_comm]
    · have hfind : Field.find key ((name, w) :: rest) = Field.find key rest := by
        rw [Field.find, List.filter_cons_of_neg (by simpa using hname), Field.find]
      rw [hfind, ih hrest]
      simp [Ne.symm hname]

theorem Field.string?_eq_some_iff {field : Field} :
    field.string? = some s ↔ field = .once (.str s) := by
  unfold Field.string?
  split <;> simp_all

end DesiredState.Json
