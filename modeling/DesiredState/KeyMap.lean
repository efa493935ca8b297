/-!
# Maps with text keys, in the order of their keys

A map is the list of its entries in strictly ascending key order, so two maps with the same
look-ups are equal and listing a map needs no sorting. Keys compare by code point.
-/

namespace DesiredState

variable {α β : Type}

def Ascending (entries : List (String × α)) : Prop :=
  entries.Pairwise (fun a b => a.1 < b.1)

instance (entries : List (String × α)) : Decidable (Ascending entries) := by
  unfold Ascending; infer_instance

/-- Put a value at its key's place, over what was there. -/
def insertEntry (key : String) (value : α) : List (String × α) → List (String × α)
  | [] => [(key, value)]
  | (k, v) :: rest =>
    if key < k then (key, value) :: (k, v) :: rest
    else if key = k then (key, value) :: rest
    else (k, v) :: insertEntry key value rest

def findEntry (key : String) : List (String × α) → Option α
  | [] => none
  | (k, v) :: rest => if k = key then some v else findEntry key rest

def eraseEntry (key : String) (entries : List (String × α)) : List (String × α) :=
  entries.filter fun entry => entry.1 ≠ key

theorem mem_insertEntry {key : String} {value : α} {entry : String × α}
    {entries : List (String × α)} (h : entry ∈ insertEntry key value entries) :
    entry = (key, value) ∨ entry ∈ entries := by
  induction entries with
  | nil => simpa [insertEntry] using h
  | cons head rest ih =>
    obtain ⟨k, v⟩ := head
    rw [insertEntry] at h
    split at h
    · simpa using h
    · split at h
      · rcases List.mem_cons.mp h with h | h
        · exact Or.inl h
        · exact Or.inr (List.mem_cons_of_mem _ h)
      · rcases List.mem_cons.mp h with h | h
        · exact Or.inr (h ▸ List.mem_cons_self)
        · exact (ih h).imp id (List.mem_cons_of_mem _)

private theorem lt_of_not_lt_of_ne {a b : String} (h : ¬ a < b) (hne : a ≠ b) : b < a := by
  rcases Std.lt_trichotomy a b with hlt | heq | hgt
  · exact absurd hlt h
  · exact absurd heq hne
  · exact hgt

theorem ascending_insertEntry {key : String} {value : α} {entries : List (String × α)}
    (h : Ascending entries) : Ascending (insertEntry key value entries) := by
  induction entries with
  | nil => simp [insertEntry, Ascending]
  | cons head rest ih =>
    obtain ⟨k, v⟩ := head
    have hrest : Ascending rest := (List.pairwise_cons.mp h).2
    have hhead : ∀ entry ∈ rest, k < entry.1 := (List.pairwise_cons.mp h).1
    rw [insertEntry]
    split
    · rename_i hlt
      refine List.pairwise_cons.mpr ⟨fun entry hentry => ?_, h⟩
      rcases List.mem_cons.mp hentry with rfl | hentry
      · exact hlt
      · exact String.lt_trans hlt (hhead entry hentry)
    · split
      · rename_i heq
        subst heq
        exact List.pairwise_cons.mpr ⟨hhead, hrest⟩
      · rename_i hlt hne
        refine List.pairwise_cons.mpr ⟨fun entry hentry => ?_, ih hrest⟩
        rcases mem_insertEntry hentry with rfl | hentry
        · exact lt_of_not_lt_of_ne hlt hne
        · exact hhead entry hentry

theorem ascending_eraseEntry {key : String} {entries : List (String × α)}
    (h : Ascending entries) : Ascending (eraseEntry key entries) :=
  List.Pairwise.filter _ h

/-- A finite map from text to values. -/
structure KeyMap (α : Type) where
  entries : List (String × α)
  ascending : Ascending entries := by decide
  deriving DecidableEq

namespace KeyMap

def empty : KeyMap α := ⟨[], List.Pairwise.nil⟩

instance : Inhabited (KeyMap α) := ⟨empty⟩

def find? (m : KeyMap α) (key : String) : Option α := findEntry key m.entries

def contains (m : KeyMap α) (key : String) : Bool := (m.find? key).isSome

def insert (m : KeyMap α) (key : String) (value : α) : KeyMap α :=
  ⟨insertEntry key value m.entries, ascending_insertEntry m.ascending⟩

def erase (m : KeyMap α) (key : String) : KeyMap α :=
  ⟨eraseEntry key m.entries, ascending_eraseEntry m.ascending⟩

def ofList (pairs : List (String × α)) : KeyMap α :=
  pairs.foldl (fun m pair => m.insert pair.1 pair.2) empty

def keys (m : KeyMap α) : List String := m.entries.map Prod.fst

def values (m : KeyMap α) : List α := m.entries.map Prod.snd

def size (m : KeyMap α) : Nat := m.entries.length

def isEmpty (m : KeyMap α) : Bool := m.entries.isEmpty

def map (f : α → β) (m : KeyMap α) : KeyMap β :=
  ⟨m.entries.map fun entry => (entry.1, f entry.2),
    by simpa [Ascending, List.pairwise_map] using m.ascending⟩

def filter (p : String → α → Bool) (m : KeyMap α) : KeyMap α :=
  ⟨m.entries.filter fun entry => p entry.1 entry.2, List.Pairwise.filter _ m.ascending⟩

/-- Every value must be transformed for the whole map to be. -/
def mapM? {ε : Type} (f : α → Except ε β) (m : KeyMap α) : Except ε (KeyMap β) :=
  (m.entries.mapM fun entry => (f entry.2).map fun value => (entry.1, value)).map ofList

end KeyMap

theorem findEntry_insertEntry_self (key : String) (value : α) (entries : List (String × α)) :
    findEntry key (insertEntry key value entries) = some value := by
  induction entries with
  | nil => simp [insertEntry, findEntry]
  | cons head rest ih =>
    obtain ⟨k, v⟩ := head
    rw [insertEntry]
    split
    · simp [findEntry]
    · split
      · simp [findEntry]
      · rename_i hne
        simp [findEntry, Ne.symm hne, ih]

theorem findEntry_insertEntry_ne {key other : String} (h : other ≠ key) (value : α)
    (entries : List (String × α)) :
    findEntry other (insertEntry key value entries) = findEntry other entries := by
  induction entries with
  | nil => simp [insertEntry, findEntry, Ne.symm h]
  | cons head rest ih =>
    obtain ⟨k, v⟩ := head
    rw [insertEntry]
    split
    · simp [findEntry, Ne.symm h]
    · split
      · rename_i heq
        subst heq
        simp [findEntry, Ne.symm h]
      · by_cases hk : k = other <;> simp [findEntry, hk, ih]

theorem findEntry_eraseEntry_self (key : String) (entries : List (String × α)) :
    findEntry key (eraseEntry key entries) = none := by
  induction entries with
  | nil => simp [eraseEntry, findEntry]
  | cons head rest ih =>
    obtain ⟨k, v⟩ := head
    by_cases hk : k = key
    · simpa [eraseEntry, hk] using ih
    · simpa [eraseEntry, hk, findEntry] using ih

theorem findEntry_eraseEntry_ne {key other : String} (h : other ≠ key)
    (entries : List (String × α)) :
    findEntry other (eraseEntry key entries) = findEntry other entries := by
  induction entries with
  | nil => simp [eraseEntry, findEntry]
  | cons head rest ih =>
    obtain ⟨k, v⟩ := head
    by_cases hk : k = key
    · subst hk
      simpa [eraseEntry, findEntry, Ne.symm h] using ih
    · by_cases ho : k = other
      · simp [eraseEntry, findEntry, ho, h]
      · simpa [eraseEntry, hk, findEntry, ho] using ih

namespace KeyMap

@[simp] theorem find?_empty (key : String) : (empty : KeyMap α).find? key = none := rfl

@[simp] theorem find?_insert_self (m : KeyMap α) (key : String) (value : α) :
    (m.insert key value).find? key = some value :=
  findEntry_insertEntry_self key value m.entries

theorem find?_insert_ne {key other : String} (h : other ≠ key) (m : KeyMap α) (value : α) :
    (m.insert key value).find? other = m.find? other :=
  findEntry_insertEntry_ne h value m.entries

@[simp] theorem find?_erase_self (m : KeyMap α) (key : String) :
    (m.erase key).find? key = none :=
  findEntry_eraseEntry_self key m.entries

theorem find?_erase_ne {key other : String} (h : other ≠ key) (m : KeyMap α) :
    (m.erase key).find? other = m.find? other :=
  findEntry_eraseEntry_ne h m.entries

end KeyMap

/-- A set of texts in ascending order. -/
abbrev KeySet : Type := KeyMap Unit

namespace KeySet

def ofNames (names : List String) : KeySet := KeyMap.ofList (names.map fun name => (name, ()))

def names (set : KeySet) : List String := KeyMap.keys set

end KeySet

end DesiredState
