import DesiredState.KeyMap
import Mathlib.Data.List.Forall2
import Mathlib.Data.List.Induction
import Mathlib.Data.List.Nodup

/-!
# Look-ups decide everything about a map

Maps with the same look-ups are equal, a list of ascending entries is its own map, and a map
whose values are all transformed looks up the transformed values.
-/

namespace DesiredState

variable {α β ε : Type}

theorem findEntry_eq_some_of_mem {entries : List (String × α)} (h : Ascending entries)
    {key : String} {value : α} (hm : (key, value) ∈ entries) :
    findEntry key entries = some value := by
  induction entries with
  | nil => cases hm
  | cons head rest ih =>
    obtain ⟨k, v⟩ := head
    rcases List.mem_cons.mp hm with he | hm
    · cases he
      simp [findEntry]
    · have hlt : k < key := (List.pairwise_cons.mp h).1 _ hm
      have hne : k ≠ key := fun he => Std.lt_irrefl (he ▸ hlt)
      simpa [findEntry, hne] using ih (List.pairwise_cons.mp h).2 hm

theorem mem_of_findEntry {entries : List (String × α)} {key : String} {value : α}
    (h : findEntry key entries = some value) : (key, value) ∈ entries := by
  induction entries with
  | nil => cases h
  | cons head rest ih =>
    obtain ⟨k, v⟩ := head
    by_cases hk : k = key
    · subst hk
      have hv : v = value := by simpa [findEntry] using h
      exact hv ▸ List.mem_cons_self
    · exact List.mem_cons_of_mem _ (ih (by simpa [findEntry, hk] using h))

theorem findEntry_isSome_iff {entries : List (String × α)} {key : String} :
    (findEntry key entries).isSome ↔ key ∈ entries.map Prod.fst := by
  induction entries with
  | nil => simp [findEntry]
  | cons head rest ih =>
    obtain ⟨k, v⟩ := head
    by_cases hk : k = key
    · simp [findEntry, hk]
    · simp [findEntry, hk, Ne.symm hk, ih]

theorem findEntry_eq_none {entries : List (String × α)} {key : String}
    (h : ∀ entry ∈ entries, entry.1 ≠ key) : findEntry key entries = none := by
  cases hf : findEntry key entries with
  | none => rfl
  | some value => exact absurd rfl (h _ (mem_of_findEntry hf))

theorem findEntry_eq_none_of_lt {entries : List (String × α)} {key : String}
    (h : ∀ entry ∈ entries, key < entry.1) : findEntry key entries = none :=
  findEntry_eq_none fun entry he heq => Std.lt_irrefl (heq ▸ h entry he)

/-- A key above all others takes the last place. -/
theorem insertEntry_of_forall_lt {entries : List (String × α)} {key : String}
    (h : ∀ entry ∈ entries, entry.1 < key) (value : α) :
    insertEntry key value entries = entries ++ [(key, value)] := by
  induction entries with
  | nil => rfl
  | cons head rest ih =>
    obtain ⟨k, v⟩ := head
    have hlt : k < key := h _ List.mem_cons_self
    have hnot : ¬ key < k := fun hback => Std.lt_irrefl (Std.lt_trans hlt hback)
    have hne : key ≠ k := fun he => Std.lt_irrefl (he ▸ hlt)
    have hrest := ih fun entry he => h entry (List.mem_cons_of_mem _ he)
    rw [insertEntry, if_neg hnot, if_neg hne, hrest, List.cons_append]

theorem findEntry_map (f : α → β) (entries : List (String × α)) (key : String) :
    findEntry key (entries.map fun entry => (entry.1, f entry.2)) =
      (findEntry key entries).map f := by
  induction entries with
  | nil => rfl
  | cons head rest ih =>
    obtain ⟨k, v⟩ := head
    by_cases hk : k = key <;> simp [findEntry, hk, ih]

/-- Ascending lists with the same look-ups are the same list. -/
theorem ascending_ext {as bs : List (String × α)} (ha : Ascending as) (hb : Ascending bs)
    (h : ∀ key, findEntry key as = findEntry key bs) : as = bs := by
  have hmem : ∀ entry, entry ∈ as ↔ entry ∈ bs := fun entry =>
    ⟨fun hm => mem_of_findEntry ((h _).symm.trans (findEntry_eq_some_of_mem ha hm)),
      fun hm => mem_of_findEntry ((h _).trans (findEntry_eq_some_of_mem hb hm))⟩
  induction as generalizing bs with
  | nil =>
    cases bs with
    | nil => rfl
    | cons b bs => cases (hmem b).mpr List.mem_cons_self
  | cons a as ih =>
    cases bs with
    | nil => cases (hmem a).mp List.mem_cons_self
    | cons b bs =>
      have hab := List.pairwise_cons.mp ha
      have hbb := List.pairwise_cons.mp hb
      have heq : a = b := by
        rcases List.mem_cons.mp ((hmem a).mp List.mem_cons_self) with he | hm
        · exact he
        · rcases List.mem_cons.mp ((hmem b).mpr List.mem_cons_self) with he | hm'
          · exact he.symm
          · exact absurd (Std.lt_trans (hab.1 _ hm') (hbb.1 _ hm)) Std.lt_irrefl
      subst heq
      have hrest : ∀ entry, entry ∈ as ↔ entry ∈ bs := by
        intro entry
        have hne : ∀ {l : List (String × α)}, (∀ x ∈ l, a.1 < x.1) → entry ∈ l → entry ≠ a :=
          fun hl hm he => Std.lt_irrefl (he ▸ hl _ hm)
        constructor
        · intro hm
          exact (List.mem_cons.mp ((hmem entry).mp (List.mem_cons_of_mem _ hm))).resolve_left
            (hne hab.1 hm)
        · intro hm
          exact (List.mem_cons.mp ((hmem entry).mpr (List.mem_cons_of_mem _ hm))).resolve_left
            (hne hbb.1 hm)
      rw [ih hab.2 hbb.2 (fun key => ?_) hrest]
      cases hf : findEntry key as with
      | some v =>
        exact (findEntry_eq_some_of_mem hbb.2 ((hrest _).mp (mem_of_findEntry hf))).symm
      | none =>
        cases hg : findEntry key bs with
        | none => rfl
        | some v =>
          have := findEntry_eq_some_of_mem hab.2 ((hrest _).mpr (mem_of_findEntry hg))
          rw [hf] at this
          cases this

/-- A list is transformed if each of its members is. -/
theorem mapM_eq_ok_iff {f : α → Except ε β} {xs : List α} {ys : List β} :
    xs.mapM f = .ok ys ↔ List.Forall₂ (fun x y => f x = .ok y) xs ys := by
  induction xs generalizing ys with
  | nil =>
    rw [List.forall₂_nil_left_iff]
    exact ⟨fun h => (Except.ok.inj h).symm, fun h => congrArg Except.ok h.symm⟩
  | cons x xs ih =>
    rw [List.mapM_cons, List.forall₂_cons_left_iff]
    constructor
    · intro h
      cases hf : f x with
      | error e =>
        rw [hf] at h
        cases h
      | ok y =>
        cases hr : xs.mapM f with
        | error e =>
          rw [hf, hr] at h
          cases h
        | ok rest =>
          rw [hf, hr] at h
          exact ⟨y, rest, rfl, ih.mp hr, (Except.ok.inj h).symm⟩
    · rintro ⟨y, rest, hy, hrest, rfl⟩
      rw [hy, ih.mpr hrest]
      rfl

/-- What each result tells of its origin, the transformed list tells of the list. -/
theorem map_of_mapM {γ : Type} {f : α → Except ε β} {g : β → γ} {k : α → γ} {xs : List α}
    {ys : List β} (h : xs.mapM f = .ok ys) (hg : ∀ x y, f x = .ok y → g y = k x) :
    ys.map g = xs.map k := by
  have hall := mapM_eq_ok_iff.mp h
  clear h
  induction hall with
  | nil => rfl
  | cons hab _ ih => rw [List.map_cons, List.map_cons, ih, hg _ _ hab]

/-- Every member of a transformed list comes from one of the list. -/
theorem exists_of_mem_mapM {f : α → Except ε β} {xs : List α} {ys : List β}
    (h : xs.mapM f = .ok ys) {y : β} (hy : y ∈ ys) : ∃ x ∈ xs, f x = .ok y := by
  have hall := mapM_eq_ok_iff.mp h
  clear h
  induction hall with
  | nil => cases hy
  | cons hab _ ih =>
    rcases List.mem_cons.mp hy with rfl | hy
    · exact ⟨_, List.mem_cons_self, hab⟩
    · obtain ⟨x, hx, hxy⟩ := ih hy
      exact ⟨x, List.mem_cons_of_mem _ hx, hxy⟩

/-- Every member of a list that is transformed comes to stand in the result. -/
theorem ok_of_mem_mapM {f : α → Except ε β} {xs : List α} {ys : List β}
    (h : xs.mapM f = .ok ys) {x : α} (hx : x ∈ xs) : ∃ y ∈ ys, f x = .ok y := by
  have hall := mapM_eq_ok_iff.mp h
  clear h
  induction hall with
  | nil => cases hx
  | @cons _ b _ _ hab _ ih =>
    rcases List.mem_cons.mp hx with rfl | hx
    · exact ⟨b, List.mem_cons_self, hab⟩
    · obtain ⟨y, hy, hxy⟩ := ih hx
      exact ⟨y, List.mem_cons_of_mem _ hy, hxy⟩

/-- Where each member is transformed with a property, so is the list. -/
theorem exists_mapM {f : α → Except ε β} {Q : β → Prop} {xs : List α}
    (h : ∀ x ∈ xs, ∃ y, f x = .ok y ∧ Q y) : ∃ ys, xs.mapM f = .ok ys ∧ ∀ y ∈ ys, Q y := by
  induction xs with
  | nil => exact ⟨[], rfl, fun _ hy => absurd hy List.not_mem_nil⟩
  | cons x xs ih =>
    obtain ⟨y, hy, hQ⟩ := h x List.mem_cons_self
    obtain ⟨ys, hys, hall⟩ := ih fun z hz => h z (List.mem_cons_of_mem _ hz)
    exact ⟨y :: ys, mapM_eq_ok_iff.mpr (.cons hy (mapM_eq_ok_iff.mp hys)),
      List.forall_mem_cons.mpr ⟨hQ, hall⟩⟩

namespace KeyMap

theorem find?_eq_some_iff {m : KeyMap α} {key : String} {value : α} :
    m.find? key = some value ↔ (key, value) ∈ m.entries :=
  ⟨mem_of_findEntry, findEntry_eq_some_of_mem m.ascending⟩

theorem contains_iff {m : KeyMap α} {key : String} : m.contains key ↔ key ∈ m.keys :=
  findEntry_isSome_iff

theorem pairwise_keys (m : KeyMap α) : m.keys.Pairwise (· < ·) :=
  List.pairwise_map.mpr m.ascending

theorem nodup_keys (m : KeyMap α) : m.keys.Nodup := by
  refine m.pairwise_keys.imp ?_
  rintro key _ hlt rfl
  exact Std.lt_irrefl hlt

theorem ext {m n : KeyMap α} (h : ∀ key, m.find? key = n.find? key) : m = n := by
  obtain ⟨as, ha⟩ := m
  obtain ⟨bs, hb⟩ := n
  cases ascending_ext ha hb h
  rfl

theorem find?_insert (m : KeyMap α) (key other : String) (value : α) :
    (m.insert key value).find? other = if other = key then some value else m.find? other := by
  split
  · subst other
    exact m.find?_insert_self key value
  · exact find?_insert_ne ‹_› m value

theorem find?_erase (m : KeyMap α) (key other : String) :
    (m.erase key).find? other = if other = key then none else m.find? other := by
  split
  · subst other
    exact m.find?_erase_self key
  · exact find?_erase_ne ‹_› m

theorem insert_insert (m : KeyMap α) (key : String) (old new : α) :
    (m.insert key old).insert key new = m.insert key new := by
  refine ext fun other => ?_
  rw [find?_insert, find?_insert, find?_insert]
  split <;> rfl

/-- Putting what is there changes nothing. -/
theorem insert_of_find? {m : KeyMap α} {key : String} {value : α}
    (h : m.find? key = some value) : m.insert key value = m := by
  refine ext fun other => ?_
  rw [find?_insert]
  split
  · rename_i he
    rw [he, h]
  · rfl

theorem find?_map (f : α → β) (m : KeyMap α) (key : String) :
    (m.map f).find? key = (m.find? key).map f := findEntry_map f m.entries key

theorem values_map (f : α → β) (m : KeyMap α) : (m.map f).values = m.values.map f := by
  simp [values, map]

theorem map_map {γ : Type} (f : α → β) (g : β → γ) (m : KeyMap α) :
    (m.map f).map g = m.map fun value => g (f value) := by
  refine ext fun key => ?_
  rw [find?_map, find?_map, find?_map, Option.map_map]
  rfl

theorem map_insert (f : α → β) (m : KeyMap α) (key : String) (value : α) :
    (m.insert key value).map f = (m.map f).insert key (f value) := by
  refine ext fun other => ?_
  rw [find?_map, find?_insert, find?_insert, find?_map]
  split <;> rfl

theorem map_erase (f : α → β) (m : KeyMap α) (key : String) :
    (m.erase key).map f = (m.map f).erase key := by
  refine ext fun other => ?_
  rw [find?_map, find?_erase, find?_erase, find?_map]
  split <;> rfl

theorem map_eq_self {f : α → α} {m : KeyMap α} : m.map f = m ↔ ∀ v ∈ m.values, f v = v := by
  have hentries : m.map f = m ↔
      m.entries.map (fun entry => (entry.1, f entry.2)) = m.entries.map id := by
    rw [List.map_id]
    cases m
    simp [map]
  rw [hentries, List.map_inj_left, values, List.forall_mem_map]
  exact forall₂_congr fun entry _ => by simp [Prod.ext_iff]

theorem ofList_append (as bs : List (String × α)) :
    ofList (as ++ bs) = bs.foldl (fun m pair => m.insert pair.1 pair.2) (ofList as) :=
  List.foldl_append

theorem contains_ofList {pairs : List (String × α)} {key : String} :
    (ofList pairs).contains key ↔ key ∈ pairs.map Prod.fst := by
  induction pairs using List.reverseRecOn with
  | nil => simp [ofList, contains]
  | append_singleton pairs pair ih =>
    rw [ofList_append]
    simp only [contains, List.foldl_cons, List.foldl_nil, find?_insert, List.map_append,
      List.map_cons, List.map_nil, List.mem_append, List.mem_singleton] at ih ⊢
    split
    · simp_all
    · rename_i hne
      rw [ih]
      simp [hne]

/-- What a list is looked up for stands in it. -/
theorem mem_of_find?_ofList {pairs : List (String × α)} {key : String} {value : α}
    (h : (ofList pairs).find? key = some value) : (key, value) ∈ pairs := by
  induction pairs using List.reverseRecOn with
  | nil => cases h
  | append_singleton pairs pair ih =>
    rw [ofList_append, List.foldl_cons, List.foldl_nil, find?_insert] at h
    split at h
    · rename_i he
      rw [he, ← Option.some.inj h]
      exact List.mem_append_right _ List.mem_cons_self
    · exact List.mem_append_left _ (ih h)

/-- Where no key is repeated, every pair of a list is found. -/
theorem find?_ofList {pairs : List (String × α)} (h : (pairs.map Prod.fst).Nodup) {key : String}
    {value : α} : (ofList pairs).find? key = some value ↔ (key, value) ∈ pairs := by
  refine ⟨mem_of_find?_ofList, fun hm => ?_⟩
  have hsome : (ofList pairs).contains key := contains_ofList.mpr (List.mem_map_of_mem hm)
  obtain ⟨found, hfound⟩ := Option.isSome_iff_exists.mp hsome
  have hpair := List.inj_on_of_nodup_map h (mem_of_find?_ofList hfound) hm rfl
  obtain rfl : found = value := congrArg Prod.snd hpair
  exact hfound

/-- Pairs in ascending order are the entries of their map. -/
theorem entries_ofList {pairs : List (String × α)} (h : Ascending pairs) :
    (ofList pairs).entries = pairs := by
  refine ascending_ext (ofList pairs).ascending h fun key => ?_
  induction pairs using List.reverseRecOn with
  | nil => rfl
  | append_singleton pairs pair ih =>
    have hsplit := List.pairwise_append.mp h
    have hlast : ∀ entry ∈ pairs, entry.1 < pair.1 :=
      fun entry he => hsplit.2.2 entry he pair List.mem_cons_self
    have hfind := ih hsplit.1
    have hinsert : findEntry key (ofList (pairs ++ [pair])).entries =
        ((ofList pairs).insert pair.1 pair.2).find? key := by
      rw [ofList_append]
      rfl
    rw [hinsert, find?_insert]
    by_cases hk : key = pair.1
    · rw [if_pos hk, @findEntry_eq_some_of_mem _ _ h key pair.2]
      simp [hk]
    · rw [if_neg hk, find?, hfind]
      cases hf : findEntry key pairs with
      | some v =>
        exact (findEntry_eq_some_of_mem h (List.mem_append_left _ (mem_of_findEntry hf))).symm
      | none =>
        symm
        rw [← Option.not_isSome_iff_eq_none, findEntry_isSome_iff]
        have hnot : ¬ (findEntry key pairs).isSome := by simp [hf]
        rw [findEntry_isSome_iff] at hnot
        simp only [List.map_append, List.map_cons, List.map_nil, List.mem_append,
          List.mem_singleton]
        exact fun hm => hm.elim hnot hk

theorem ofList_entries (m : KeyMap α) : ofList m.entries = m := by
  obtain ⟨entries, h⟩ := m
  have := entries_ofList h
  cases hm : ofList entries with
  | mk found _ =>
    rw [hm] at this
    cases this
    rfl

/-- Transforming entries one by one: each keeps its key. -/
private theorem mapM_entries_iff {f : α → Except ε β} {entries : List (String × α)}
    {found : List (String × β)} :
    (entries.mapM fun entry => (f entry.2).map fun value => (entry.1, value)) = .ok found ↔
      List.Forall₂ (fun a b => b.1 = a.1 ∧ f a.2 = .ok b.2) entries found := by
  have hentry : ∀ (a : String × α) (b : String × β),
      (f a.2).map (fun value => (a.1, value)) = .ok b ↔ b.1 = a.1 ∧ f a.2 = .ok b.2 := by
    rintro ⟨k, x⟩ ⟨l, y⟩
    cases hf : f x with
    | error e => simp [Except.map]
    | ok z => simp [Except.map, eq_comm]
  rw [mapM_eq_ok_iff]
  exact ⟨fun h => h.imp fun a b => (hentry a b).mp, fun h => h.imp fun a b => (hentry a b).mpr⟩

theorem mapM?_eq_ok_iff {f : α → Except ε β} {m : KeyMap α} {n : KeyMap β} :
    m.mapM? f = .ok n ↔
      List.Forall₂ (fun a b => b.1 = a.1 ∧ f a.2 = .ok b.2) m.entries n.entries := by
  have hkeys : ∀ {as : List (String × α)} {bs : List (String × β)}, Ascending as →
      List.Forall₂ (fun a b => b.1 = a.1 ∧ f a.2 = .ok b.2) as bs → Ascending bs := by
    intro as bs ha h
    have heq : bs.map Prod.fst = as.map Prod.fst := by
      induction h with
      | nil => rfl
      | cons hab _ ih => simp [hab.1, ih (List.pairwise_cons.mp ha).2]
    have hasc : (as.map Prod.fst).Pairwise (· < ·) := List.pairwise_map.mpr ha
    rw [← heq] at hasc
    exact List.pairwise_map.mp hasc
  unfold mapM?
  constructor
  · intro h
    cases hr : m.entries.mapM fun entry => (f entry.2).map fun value => (entry.1, value) with
    | error e =>
      rw [hr] at h
      cases h
    | ok found =>
      rw [hr] at h
      have hfound := mapM_entries_iff.mp hr
      rw [← Except.ok.inj h, entries_ofList (hkeys m.ascending hfound)]
      exact hfound
  · intro h
    rw [mapM_entries_iff.mpr h]
    exact congrArg Except.ok n.ofList_entries

/-- A transformed map looks up transformed values. -/
theorem find?_of_mapM? {f : α → Except ε β} {m : KeyMap α} {n : KeyMap β}
    (h : m.mapM? f = .ok n) (key : String) :
    n.find? key = (m.find? key).bind fun a => (f a).toOption := by
  have hall := mapM?_eq_ok_iff.mp h
  unfold find?
  generalize m.entries = as at hall ⊢
  generalize n.entries = bs at hall ⊢
  induction hall with
  | nil => rfl
  | @cons a b _ _ hab _ ih =>
    obtain ⟨k, v⟩ := a
    obtain ⟨l, w⟩ := b
    obtain ⟨rfl, hv⟩ := hab
    by_cases hk : l = key
    · simp only [findEntry, if_pos hk, Option.bind_some]
      rw [hv]
      rfl
    · simpa only [findEntry, if_neg hk] using ih

/-- Where a map is transformed, each of its values can be. -/
theorem ok_of_mapM? {f : α → Except ε β} {m : KeyMap α} {n : KeyMap β} (h : m.mapM? f = .ok n)
    {key : String} {a : α} (ha : m.find? key = some a) : ∃ b, f a = .ok b := by
  have hmem := find?_eq_some_iff.mp ha
  have hall := mapM?_eq_ok_iff.mp h
  generalize m.entries = as at hall hmem
  generalize n.entries = bs at hall
  induction hall with
  | nil => cases hmem
  | @cons a b _ _ hab _ ih =>
    rcases List.mem_cons.mp hmem with rfl | hmem
    · exact ⟨b.2, hab.2⟩
    · exact ih hmem

/-- A map whose values can all be transformed is transformed. -/
theorem mapM?_isOk {f : α → Except ε β} {m : KeyMap α}
    (h : ∀ key a, m.find? key = some a → ∃ b, f a = .ok b) : ∃ n, m.mapM? f = .ok n := by
  have hlist : ∀ entries : List (String × α), (∀ entry ∈ entries, ∃ b, f entry.2 = .ok b) →
      ∃ found, (entries.mapM fun entry => (f entry.2).map fun value => (entry.1, value)) =
        .ok found := by
    intro entries hall
    induction entries with
    | nil => exact ⟨[], rfl⟩
    | cons head rest ih =>
      obtain ⟨b, hb⟩ := hall head List.mem_cons_self
      obtain ⟨tail, ht⟩ := ih fun entry he => hall entry (List.mem_cons_of_mem _ he)
      exact ⟨(head.1, b) :: tail, by rw [List.mapM_cons, hb, ht]; rfl⟩
  obtain ⟨found, hfound⟩ := hlist m.entries fun entry he =>
    h entry.1 entry.2 (find?_eq_some_iff.mpr he)
  exact ⟨ofList found, by rw [mapM?, hfound]; rfl⟩

/-- Whether one map is another one transformed is seen key by key. -/
theorem mapM?_eq_ok_iff_find? {f : α → Except ε β} {m : KeyMap α} {n : KeyMap β} :
    m.mapM? f = .ok n ↔ ∀ key, (m.find? key).map f = (n.find? key).map .ok := by
  have hfind : ∀ {n : KeyMap β}, m.mapM? f = .ok n →
      ∀ key, (m.find? key).map f = (n.find? key).map .ok := by
    intro n h key
    rw [find?_of_mapM? h key]
    cases hk : m.find? key with
    | none => rfl
    | some a =>
      obtain ⟨b, hb⟩ := ok_of_mapM? h hk
      simp [hb, Except.toOption]
  refine ⟨hfind, fun h => ?_⟩
  have hall : ∀ key a, m.find? key = some a → ∃ b, f a = .ok b := by
    intro key a hk
    have hkey := h key
    rw [hk, Option.map_some] at hkey
    obtain ⟨b, -, hb⟩ := Option.map_eq_some_iff.mp hkey.symm
    exact ⟨b, hb.symm⟩
  obtain ⟨found, hfound⟩ := mapM?_isOk hall
  have hsame : found = n := by
    refine ext fun key => ?_
    have hkey := (hfind hfound key).symm.trans (h key)
    exact Option.map_injective (fun _ _ => Except.ok.inj) hkey
  rw [hfound, hsame]

theorem mapM?_empty (f : α → Except ε β) : (empty : KeyMap α).mapM? f = .ok empty := rfl

theorem mapM?_insert {f : α → Except ε β} {m : KeyMap α} {n : KeyMap β} (h : m.mapM? f = .ok n)
    (key : String) {a : α} {b : β} (hf : f a = .ok b) :
    (m.insert key a).mapM? f = .ok (n.insert key b) := by
  refine mapM?_eq_ok_iff_find?.mpr fun other => ?_
  rw [find?_insert, find?_insert]
  split
  · rw [Option.map_some, Option.map_some, hf]
  · exact mapM?_eq_ok_iff_find?.mp h other

theorem mapM?_erase {f : α → Except ε β} {m : KeyMap α} {n : KeyMap β} (h : m.mapM? f = .ok n)
    (key : String) : (m.erase key).mapM? f = .ok (n.erase key) := by
  refine mapM?_eq_ok_iff_find?.mpr fun other => ?_
  rw [find?_erase, find?_erase]
  split
  · rfl
  · exact mapM?_eq_ok_iff_find?.mp h other

/-- Transforming values keeps the keys. -/
theorem keys_of_mapM? {f : α → Except ε β} {m : KeyMap α} {n : KeyMap β}
    (h : m.mapM? f = .ok n) : m.keys = n.keys := by
  have hall := mapM?_eq_ok_iff.mp h
  unfold keys
  generalize m.entries = as at hall ⊢
  generalize n.entries = bs at hall ⊢
  induction hall with
  | nil => rfl
  | cons hab _ ih => rw [List.map_cons, List.map_cons, ih, hab.1]

/-- What a search through the entries finds first stands at the least key at which there is
something to find. -/
theorem findSome?_entries_eq_some_iff {f : String × α → Option β} {m : KeyMap α} {b : β} :
    m.entries.findSome? f = some b ↔ ∃ key a, m.find? key = some a ∧ f (key, a) = some b ∧
      ∀ other a', other < key → m.find? other = some a' → f (other, a') = none := by
  rw [List.findSome?_eq_some_iff]
  constructor
  · rintro ⟨before, ⟨key, a⟩, rest, hsplit, hfound, hbefore⟩
    have hascending : Ascending (before ++ (key, a) :: rest) := hsplit ▸ m.ascending
    have hrest := (List.pairwise_cons.mp (List.pairwise_append.mp hascending).2.1).1
    refine ⟨key, a, find?_eq_some_iff.mpr (hsplit ▸ by simp), hfound, ?_⟩
    intro other a' hlt hother
    have hmem := find?_eq_some_iff.mp hother
    rw [hsplit, List.mem_append] at hmem
    rcases hmem with hmem | hmem
    · exact hbefore _ hmem
    rcases List.mem_cons.mp hmem with he | hmem
    · cases he
      exact absurd hlt Std.lt_irrefl
    · exact absurd (Std.lt_trans hlt (hrest _ hmem)) Std.lt_irrefl
  · rintro ⟨key, a, hkey, hfound, hleast⟩
    obtain ⟨before, rest, hsplit⟩ := List.append_of_mem (find?_eq_some_iff.mp hkey)
    have hascending : Ascending (before ++ (key, a) :: rest) := hsplit ▸ m.ascending
    refine ⟨before, (key, a), rest, hsplit, hfound, fun entry he => ?_⟩
    have hlt := (List.pairwise_append.mp hascending).2.2 entry he _ List.mem_cons_self
    have hmem : entry ∈ m.entries := hsplit ▸ List.mem_append_left _ he
    exact hleast entry.1 entry.2 hlt (find?_eq_some_iff.mpr hmem)

theorem find?_filter (p : String → α → Bool) (m : KeyMap α) (key : String) :
    (m.filter p).find? key = (m.find? key).filter (p key) := by
  unfold find? filter
  obtain ⟨entries, h⟩ := m
  simp only
  induction entries with
  | nil => rfl
  | cons head rest ih =>
    obtain ⟨k, v⟩ := head
    have hrest := ih (List.pairwise_cons.mp h).2
    rw [List.filter_cons]
    by_cases hk : k = key
    · subst hk
      have hnone := findEntry_eq_none_of_lt (List.pairwise_cons.mp h).1
      rw [hnone] at hrest
      by_cases hp : p k v = true
      · simp [findEntry, hp, Option.filter]
      · simpa [findEntry, hp, Option.filter] using hrest
    · by_cases hp : p k v = true
      · simpa [findEntry, hp, hk] using hrest
      · simpa [findEntry, hp, hk] using hrest

theorem filter_eq_self {p : String → α → Bool} {m : KeyMap α}
    (h : ∀ entry ∈ m.entries, p entry.1 entry.2 = true) : m.filter p = m := by
  refine ext fun key => ?_
  rw [find?_filter]
  cases hk : m.find? key with
  | none => rfl
  | some v => simp [Option.filter, h _ (find?_eq_some_iff.mp hk)]

end KeyMap

end DesiredState
