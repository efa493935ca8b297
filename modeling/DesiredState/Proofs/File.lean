import DesiredState.File.Walk
import DesiredState.Proofs.Outcome

/-!
# Trees that grow

To open a file or to make a directory only adds to a tree. What a path leads to does not depend on
what stands in a tree, only whether it can be followed does; and once it can, with all directories
on its way made, it can be followed whatever else is added.
-/

namespace DesiredState.FileTree

open DesiredState.Action

variable {t u v : FileTree} {place next : Place} {part path : String} {parts : List String}
  {made again : Bool}

/-- What stands somewhere in the one tree stands there in the other, and nothing else starts
elsewhere. -/
structure Grows (t u : FileTree) : Prop where
  start : u.start = t.start
  stands : ∀ place node, t.at? place = some node → u.at? place = some node

theorem Grows.refl (t : FileTree) : t.Grows t := ⟨rfl, fun _ _ h => h⟩

theorem Grows.trans (h : t.Grows u) (k : u.Grows v) : t.Grows v :=
  ⟨k.start.trans h.start, fun place node hnode => k.stands place node (h.stands place node hnode)⟩

theorem ne_nil_of_at? (h : t.at? place = none) : place ≠ [] := by
  rintro rfl
  cases h

theorem grows_put (h : t.at? place = none) (node : FileNode) : t.Grows (t.put place node) := by
  refine ⟨rfl, fun other old hold => ?_⟩
  rw [at?_put_ne t _ node, hold]
  rintro rfl
  rw [h] at hold
  cases hold

theorem at?_create_self (h : t.at? place = none) (content : FileContent) :
    (t.create place content).at? place = some (.file t.nextNumber) :=
  at?_put_self t (ne_nil_of_at? h) _

theorem grows_create (h : t.at? place = none) (content : FileContent) :
    t.Grows (t.create place content) :=
  ⟨rfl, (grows_put h _).stands⟩

def follow (place : Place) (part : String) : Place :=
  if part = "." then place else if part = ".." then place.dropLast else place ++ [part]

def target (start : Place) (path : String) : Place :=
  (Path.steps path).foldl follow (if Path.isAbsolute path then [] else start)

theorem at?_of_enter (h : t.enter place part = .ok next) :
    t.at? place = some .directory ∧ next = follow place part := by
  unfold enter at h
  unfold follow
  split at h
  · cases h
  · cases h
  · rename_i hplace
    refine ⟨hplace, ?_⟩
    split at h
    · rename_i hdot
      rw [if_pos hdot]
      exact (Except.ok.inj h).symm
    · rename_i hdot
      rw [if_neg hdot]
      split at h
      · rename_i hup
        rw [if_pos hup]
        exact (Except.ok.inj h).symm
      · rename_i hup
        rw [if_neg hup]
        split at h
        · cases h
        · exact (Except.ok.inj h).symm

theorem Grows.enter (h : t.Grows u) (henter : t.enter place part = .ok next) :
    u.enter place part = .ok next := by
  have hplace := (at?_of_enter henter).1
  rw [← henter]
  unfold FileTree.enter
  rw [hplace, h.stands place _ hplace]

theorem foldlM_enter (h : parts.foldlM t.enter place = .ok next) :
    next = parts.foldl follow place := by
  induction parts generalizing place with
  | nil => exact (Except.ok.inj h).symm
  | cons part rest ih =>
    obtain ⟨middle, henter, hrest⟩ := bind_eq_ok h
    rw [List.foldl_cons, ← (at?_of_enter henter).2]
    exact ih hrest

theorem Grows.foldlM_enter (h : t.Grows u) (hwalk : parts.foldlM t.enter place = .ok next) :
    parts.foldlM u.enter place = .ok next := by
  induction parts generalizing place with
  | nil => exact hwalk
  | cons part rest ih =>
    obtain ⟨middle, henter, hrest⟩ := bind_eq_ok hwalk
    rw [List.foldlM_cons, h.enter henter]
    exact ih hrest

theorem Grows.origin (h : t.Grows u) (path : String) : u.origin path = t.origin path := by
  rw [FileTree.origin, FileTree.origin, h.start]

theorem eq_target_of_resolve (h : t.resolve path = .ok place) : place = target t.start path := by
  obtain ⟨_, -, hwalk⟩ := bind_eq_ok h
  exact foldlM_enter hwalk

theorem Grows.resolve (h : t.Grows u) (hresolve : t.resolve path = .ok place) :
    u.resolve path = .ok place := by
  obtain ⟨_, hpath, hwalk⟩ := bind_eq_ok hresolve
  rw [FileTree.resolve, hpath, h.origin]
  exact h.foldlM_enter hwalk

theorem grows_makeAlong (made : Bool) (place : Place) (parts : List String) :
    t.Grows (t.makeAlong made place parts).2 := by
  induction parts generalizing t made place with
  | nil => exact .refl t
  | cons part rest ih =>
    unfold makeAlong
    split
    · exact .refl t
    · split
      · rename_i hnone
        exact (grows_put hnone .directory).trans (ih ..)
      · exact ih ..
      · exact .refl t

/-- Directories that were made are there, so there is nothing to make. -/
theorem makeAlong_again (h : t.makeAlong made place parts = (.ok (), u)) (hgrows : u.Grows v) :
    v.makeAlong again place parts = (.ok (), v) := by
  induction parts generalizing t made again place with
  | nil => rfl
  | cons part rest ih =>
    have htu : t.Grows u := by
      have := grows_makeAlong (t := t) made place (part :: rest)
      rwa [h] at this
    unfold makeAlong at h
    split at h
    · cases h
    · rename_i next henter
      rw [makeAlong, (htu.trans hgrows).enter henter]
      -- Either way the next place is a directory by now.
      have hthere : v.at? next = some .directory ∧ v.makeAlong again next rest = (.ok (), v) := by
        split at h
        · rename_i hnone
          have hput : (t.put next .directory).Grows u := by
            have := grows_makeAlong (t := t.put next .directory) true next rest
            rwa [h] at this
          have hnext := at?_put_self t (ne_nil_of_at? hnone) .directory
          exact ⟨(hput.trans hgrows).stands _ _ hnext, ih h⟩
        · rename_i hdirectory
          exact ⟨(htu.trans hgrows).stands _ _ hdirectory, ih h⟩
        · cases h
      simp only [hthere]

theorem grows_createDirectories (path : String) (t : FileTree) :
    t.Grows ((createDirectories path).run t).2 := by
  unfold Action.run createDirectories
  split
  · exact .refl t
  · split
    · exact .refl t
    · exact grows_makeAlong ..

theorem createDirectories_again (h : (createDirectories path).run t = (.ok (), u))
    (hgrows : u.Grows v) : (createDirectories path).run v = (.ok (), v) := by
  have htu := grows_createDirectories path t
  rw [h] at htu
  unfold Action.run createDirectories at h ⊢
  split at h
  · rw [if_pos ‹_›]
  · rw [if_neg ‹_›]
    split at h
    · cases h
    · rw [(htu.trans hgrows).origin]
      exact makeAlong_again h hgrows

end DesiredState.FileTree
