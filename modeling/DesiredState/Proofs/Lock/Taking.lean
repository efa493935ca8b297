import DesiredState.Lock.StoreLock
import DesiredState.Proofs.File
import Mathlib.Data.List.Nodup
import Mathlib.Data.Set.Pairwise.Basic

/-!
# Taking locks and giving them back

To take a lock its file is opened, which adds to the tree, and a file that was opened once can
always be opened again. The locks that are taken on a disk are accounted for as long as they are
those of the live guards: then a lock is refused just if there is a live guard for its file.
-/

namespace DesiredState.StoreLock

open DesiredState.Action DesiredState.FileTree

variable {stores : Set String} {start : Place} {d t : Disk} {lock : StoreLock}
  {live others : List StoreLock} {store path : String} {place : Place}

/-- Directories and files were added at most, and no lock was taken or given back. -/
structure Adds (d t : Disk) : Prop where
  files : d.files.Grows t.files
  taken : t.taken = d.taken

theorem Adds.refl (d : Disk) : Adds d d := ⟨.refl d.files, rfl⟩

theorem Adds.trans {u : Disk} (h : Adds d t) (k : Adds t u) : Adds d u :=
  ⟨h.files.trans k.files, k.taken.trans h.taken⟩

/-- The file at a path is there, and to open it changes nothing, however much is added. -/
structure Filed (files : FileTree) (path : String) (place : Place) : Prop where
  place_eq : place = target files.start path
  stands : ∃ number, files.at? place = some (.file number)
  opens : ∀ d : Disk, files.Grows d.files → (openFile path).run d = (.ok place, d)

theorem Filed.grow {files more : FileTree} (h : Filed files path place)
    (hgrows : files.Grows more) : Filed more path place where
  place_eq := hgrows.start ▸ h.place_eq
  stands := by
    obtain ⟨number, hnumber⟩ := h.stands
    exact ⟨number, hgrows.stands place _ hnumber⟩
  opens d hd := h.opens d (hgrows.trans hd)

theorem createParent_ends (path : String) (onError : String → FileError → LockError) (d : Disk) :
    (Disk.createParent path onError).Ends d
      (fun _ t => Adds d t ∧ ∀ u : Disk, t.files.Grows u.files →
        (Disk.createParent path onError).run u = (.ok (), u))
      fun _ t => Adds d t := by
  unfold Disk.createParent
  split
  · exact ends_pure ⟨.refl d, fun _ _ => rfl⟩
  · rename_i dir _
    have hmade := ends_of_state (grows_createDirectories dir d.files)
    refine Ends.zoom (Ends.mapError (hmade.traced.mono (fun _ files ⟨hrun, hgrows⟩ => ?_)
      fun _ files hgrows => ⟨hgrows, rfl⟩))
    refine ⟨⟨hgrows, rfl⟩, fun u hu => ?_⟩
    rw [run_zoom, run_mapError, createDirectories_again hrun hu]
    rfl

def openThere (path : String) : Action Disk LockError Place := fun d =>
  match d.files.open? path with
  | .error cause => (.error (.lockFile path cause), d)
  | .ok (place, some _) => (.ok place, d)
  | .ok (place, none) => (.ok place, { d with files := d.files.create place (.text "") })

theorem openFile_eq (path : String) :
    openFile path =
      Disk.createParent path (fun _ cause => .lockFile path cause) >>= fun _ => openThere path :=
  rfl

/-- A file that stands where a path leads is opened as it is. -/
theorem openThere_file {number : Nat} (hplace : d.files.resolve path = .ok place)
    (hnode : d.files.at? place = some (.file number)) :
    (openThere path).run d = (.ok place, d) := by
  simp only [run, openThere, FileTree.open?, hplace, hnode]

theorem openThere_ends (path : String) (d : Disk) :
    (openThere path).Ends d
      (fun place t => Adds d t ∧ t.files.resolve path = .ok place ∧
        ∃ number, t.files.at? place = some (.file number))
      fun _ t => t = d := by
  cases hplace : d.files.resolve path with
  | error cause =>
    refine Ends.of_error (e := .lockFile path cause) ?_ rfl
    simp only [run, openThere, FileTree.open?, hplace]
  | ok place =>
    cases hnode : d.files.at? place with
    | none =>
      have hgrows := grows_create hnode (.text "")
      refine Ends.of_ok (t := { d with files := d.files.create place (.text "") }) ?_
        ⟨⟨hgrows, rfl⟩, hgrows.resolve hplace, _, at?_create_self hnode _⟩
      simp only [run, openThere, FileTree.open?, hplace, hnode]
    | some node =>
      cases node with
      | directory =>
        refine Ends.of_error (e := .lockFile path .isDirectory) ?_ rfl
        simp only [run, openThere, FileTree.open?, hplace, hnode]
      | file number => exact Ends.of_ok (openThere_file hplace hnode) ⟨.refl d, hplace, _, hnode⟩

theorem openFile_ends (path : String) (d : Disk) :
    (openFile path).Ends d (fun place t => Adds d t ∧ Filed t.files path place)
      fun _ t => Adds d t := by
  rw [openFile_eq]
  refine Ends.bind ((createParent_ends path _ d).imp fun _ t ⟨hadds, hagain⟩ => ?_)
  refine (openThere_ends path t).mono (fun place u ⟨hopen, hplace, number, hnode⟩ => ?_)
    fun _ u hu => hu ▸ hadds
  refine ⟨hadds.trans hopen, eq_target_of_resolve hplace, ⟨number, hnode⟩, fun v hv => ?_⟩
  rw [openFile_eq, run_bind_ok (hagain v (hopen.files.trans hv))]
  exact openThere_file (hv.resolve hplace) (hv.stands place _ hnode)

/-- How trying to take the lock of a store ends. -/
inductive Tried (store : String) (d : Disk) :
    Except LockError (Option StoreLock) → Disk → Prop where
  | unopened {cause : LockError} {t : Disk} : Adds d t → Tried store d (.error cause) t
  | refused {place : Place} {t : Disk} :
    Adds d t → Filed t.files (lockPath store) place → place ∈ d.taken →
      Tried store d (.ok none) t
  | granted {place : Place} {t : Disk} :
    Adds d t → Filed t.files (lockPath store) place → place ∉ d.taken →
      Tried store d (.ok (some ⟨lockPath store, place⟩)) { t with taken := place :: t.taken }

theorem run_take (path : String) (place : Place) (d : Disk) :
    (take path place).run d =
      if place ∈ d.taken then (.ok none, d)
      else (.ok (some ⟨path, place⟩), { d with taken := place :: d.taken }) := by
  simp [run, take]

theorem tryAcquire_eq (store : String) :
    tryAcquire store = openFile (lockPath store) >>= take (lockPath store) := rfl

theorem tried (store : String) (d : Disk) :
    Tried store d ((tryAcquire store).run d).1 ((tryAcquire store).run d).2 := by
  rw [tryAcquire_eq]
  refine (openFile_ends (lockPath store) d).elim (fun place t hrun ⟨hadds, hfiled⟩ => ?_)
    fun cause t hrun hadds => ?_
  · rw [run_bind_ok hrun, run_take]
    split
    · rename_i htaken
      exact .refused hadds hfiled (hadds.taken ▸ htaken)
    · rename_i hfree
      exact .granted hadds hfiled (hadds.taken ▸ hfree)
  · rw [run_bind_error hrun]
    exact .unopened hadds

/-- Stores whose lock files are different files. -/
def Distinct (start : Place) (stores : Set String) : Prop :=
  stores.Pairwise fun a b => target start (lockPath a) ≠ target start (lockPath b)

/-- A guard for one of some stores, whose lock file is there. -/
structure Genuine (stores : Set String) (files : FileTree) (lock : StoreLock) : Prop where
  store : ∃ store ∈ stores, lock.path = lockPath store
  filed : Filed files lock.path lock.place

/-- The locks that are taken on a disk are those of the live guards, each taken once. -/
structure Accounts (stores : Set String) (start : Place) (d : Disk) (live : List StoreLock) :
    Prop where
  start_eq : d.files.start = start
  taken : d.taken.Perm (live.map StoreLock.place)
  nodup : d.taken.Nodup
  genuine : ∀ lock ∈ live, Genuine stores d.files lock

theorem accounts_ofFiles (stores : Set String) (files : FileTree) :
    Accounts stores files.start (.ofFiles files) [] where
  start_eq := rfl
  taken := .nil
  nodup := .nil
  genuine _ h := nomatch h

namespace Accounts

theorem perm (h : Accounts stores start d live) (hperm : live.Perm others) :
    Accounts stores start d others where
  start_eq := h.start_eq
  taken := h.taken.trans (hperm.map _)
  nodup := h.nodup
  genuine lock hlock := h.genuine lock (hperm.mem_iff.mpr hlock)

theorem add (h : Accounts stores start d live) (hadds : Adds d t) :
    Accounts stores start t live where
  start_eq := hadds.files.start.trans h.start_eq
  taken := hadds.taken ▸ h.taken
  nodup := hadds.taken ▸ h.nodup
  genuine lock hlock :=
    ⟨(h.genuine lock hlock).store, (h.genuine lock hlock).filed.grow hadds.files⟩

theorem grant (h : Accounts stores start d live) (hlock : Genuine stores d.files lock)
    (hfree : lock.place ∉ d.taken) :
    Accounts stores start { d with taken := lock.place :: d.taken } (lock :: live) where
  start_eq := h.start_eq
  taken := h.taken.cons _
  nodup := List.nodup_cons.mpr ⟨hfree, h.nodup⟩
  genuine other hother := by
    rcases List.mem_cons.mp hother with rfl | hother
    · exact hlock
    · exact h.genuine other hother

theorem release (h : Accounts stores start d (lock :: live)) :
    Accounts stores start { d with taken := d.taken.erase lock.place } live where
  start_eq := h.start_eq
  taken := by
    have herase := h.taken.erase lock.place
    rwa [List.map_cons, List.erase_cons_head] at herase
  nodup := h.nodup.erase _
  genuine other hother := h.genuine other (List.mem_cons_of_mem _ hother)

/-- There is at most one live guard for a lock file. -/
theorem nodup_paths (h : Accounts stores start d live) : (live.map StoreLock.path).Nodup := by
  have hplaces : live.map StoreLock.place = (live.map StoreLock.path).map (target start) := by
    rw [List.map_map]
    refine List.map_congr_left fun lock hlock => ?_
    rw [(h.genuine lock hlock).filed.place_eq, h.start_eq]
    rfl
  have hnodup := h.taken.nodup_iff.mp h.nodup
  rw [hplaces] at hnodup
  exact List.Nodup.of_map _ hnodup

/-- What remains when a guard is dropped is not for its lock file. -/
theorem path_ne (h : Accounts stores start d (lock :: live)) :
    ∀ other ∈ live, other.path ≠ lock.path := by
  intro other hother heq
  have hnotMem := (List.nodup_cons.mp h.nodup_paths).1
  exact hnotMem (heq ▸ List.mem_map_of_mem hother)

theorem mem_taken_iff (h : Accounts stores start d live) :
    place ∈ d.taken ↔ ∃ lock ∈ live, lock.place = place := by
  rw [h.taken.mem_iff, List.mem_map]

/-- Where the lock files are different files, a lock is refused just if there is a live guard for
its file. Whether the file can be opened makes no difference: a guard proves that it can. -/
theorem tryAcquire_none_iff (h : Accounts stores start d live) (hdistinct : Distinct start stores)
    (hstore : store ∈ stores) :
    ((tryAcquire store).run d).1 = .ok none ↔ ∃ lock ∈ live, lock.path = lockPath store := by
  constructor
  · intro hnone
    have htried := tried store d
    rw [hnone] at htried
    cases htried with
    | refused hadds hfiled htaken =>
      obtain ⟨lock, hlock, hplace⟩ := h.mem_taken_iff.mp htaken
      obtain ⟨⟨other, hother, hpath⟩, hthere⟩ := h.genuine lock hlock
      refine ⟨lock, hlock, ?_⟩
      have hsame : target start (lockPath other) = target start (lockPath store) := by
        rw [← hpath, ← h.start_eq, ← hthere.place_eq, hplace, hfiled.place_eq, hadds.files.start]
      rw [hpath, hdistinct.eq hother hstore (not_not.mpr hsame)]
  · rintro ⟨lock, hlock, hpath⟩
    have hopen := (h.genuine lock hlock).filed.opens d (.refl d.files)
    rw [hpath] at hopen
    rw [tryAcquire_eq, run_bind_ok hopen, run_take, if_pos (h.mem_taken_iff.mpr ⟨lock, hlock, rfl⟩)]

/-- Trying keeps the accounts: a lock that is granted comes with a guard. -/
theorem tryAcquire_ends (h : Accounts stores start d live) (hstore : store ∈ stores) :
    (tryAcquire store).Ends d
      (fun got t => d.files.Grows t.files ∧ Accounts stores start t (got.toList ++ live) ∧
        ∀ lock ∈ got, lock.path = lockPath store)
      fun _ t => d.files.Grows t.files ∧ Accounts stores start t live := by
  have htried := tried store d
  constructor
  all_goals
    intro outcome t hrun
    rw [hrun] at htried
  · cases htried with
    | refused hadds => exact ⟨hadds.files, h.add hadds, fun _ hlock => nomatch hlock⟩
    | granted hadds hfiled hfree =>
      have hgenuine : Genuine stores _ ⟨lockPath store, _⟩ := ⟨⟨store, hstore, rfl⟩, hfiled⟩
      refine ⟨hadds.files, (h.add hadds).grant hgenuine (hadds.taken ▸ hfree), ?_⟩
      rintro _ ⟨⟩
      rfl
  · cases htried with
    | unopened hadds => exact ⟨hadds.files, h.add hadds⟩

theorem acquire_ends (h : Accounts stores start d live) (hstore : store ∈ stores) :
    (acquire store).Ends d
      (fun lock t => d.files.Grows t.files ∧ Accounts stores start t (lock :: live) ∧
        lock.path = lockPath store)
      fun _ t => d.files.Grows t.files ∧ Accounts stores start t live := by
  refine Ends.bind ((h.tryAcquire_ends hstore).imp fun got t ⟨hgrows, haccounts, hpath⟩ => ?_)
  cases got with
  | some lock => exact ends_pure ⟨hgrows, haccounts, hpath lock rfl⟩
  | none => exact ends_fail ⟨hgrows, haccounts⟩

/-- The lock of a store is granted where its file can be opened and no live guard is for it. -/
theorem exists_tryAcquire (h : Accounts stores start d live) (hdistinct : Distinct start stores)
    (hstore : store ∈ stores) (hopens : (openFile (lockPath store)).run d = (.ok place, t))
    (hfree : ¬ ∃ lock ∈ live, lock.path = lockPath store) :
    ∃ lock u, (tryAcquire store).run d = (.ok (some lock), u) := by
  have htry : (tryAcquire store).run d = (take (lockPath store) place).run t := run_bind_ok hopens
  rw [run_take] at htry
  split at htry
  · exact absurd ((h.tryAcquire_none_iff hdistinct hstore).mp (congrArg Prod.fst htry)) hfree
  · exact ⟨_, _, htry⟩

end Accounts

end DesiredState.StoreLock
