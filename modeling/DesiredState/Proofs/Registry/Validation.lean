import DesiredState.Proofs.Registry
import Mathlib.Data.List.Chain

/-!
# The validation of a registry is exact

Handlers are accepted just if their ids are distinct, all that they wait for is registered and none
of them waits for itself, directly or through others. Otherwise the refusal names the first id that
repeats an earlier one; where none does, the first dependency that is not registered; and where
there is none either, a simple cycle.
-/

namespace DesiredState.Registry

variable {ω : Type} {r : Registry ω} {handlers : List (Handler ω)}

/-- One id lists the other among those that it waits for. -/
def Waits (handlers : List (Handler ω)) (id other : String) : Prop :=
  ∃ h ∈ handlers, h.id = id ∧ other ∈ h.after

/-- Every id that one of the listed handlers waits for is among the names. -/
def Known (names : List String) (handlers : List (Handler ω)) : Prop :=
  ∀ h ∈ handlers, ∀ id ∈ h.after, id ∈ names

structure Valid (handlers : List (Handler ω)) : Prop where
  distinct : (handlers.map Handler.id).Nodup
  known : Known (handlers.map Handler.id) handlers
  acyclic : ∀ id, ¬ Relation.TransGen (Waits handlers) id id

/-- Why a list of handlers is refused. A reason is given only where those before it do not apply. -/
inductive Refused (handlers : List (Handler ω)) : Failure → Prop where
  /-- The first handler whose id repeats an earlier one. -/
  | duplicate {before rest : List (Handler ω)} {h : Handler ω}
      (split : handlers = before ++ h :: rest) (distinct : (before.map Handler.id).Nodup)
      (repeats : h.id ∈ before.map Handler.id) : Refused handlers (.duplicateHandler h.id)
  /-- The first id that a handler waits for and that is not registered. -/
  | unknown {before rest : List (Handler ω)} {h : Handler ω} {known more : List String}
      {id : String} (distinct : (handlers.map Handler.id).Nodup)
      (split : handlers = before ++ h :: rest) (after : h.after = known ++ id :: more)
      (earlier : Known (handlers.map Handler.id) before)
      (first : ∀ other ∈ known, other ∈ handlers.map Handler.id)
      (missing : id ∉ handlers.map Handler.id) : Refused handlers (.unknownHandler h.id id)
  /-- A closed path of ids, each of which lists the next one, that meets no id twice. -/
  | cycle {id : String} {inner : List String} (distinct : (handlers.map Handler.id).Nodup)
      (known : Known (handlers.map Handler.id) handlers) (simple : (id :: inner).Nodup)
      (path : List.IsChain (Waits handlers) (id :: inner ++ [id])) :
      Refused handlers (.handlerCycle (id :: inner ++ [id]))

theorem transGen_of_isChain {α : Type} {R : α → α → Prop} {a : α} {inner : List α}
    (h : List.IsChain R (a :: inner ++ [a])) : Relation.TransGen R a a := by
  cases inner with
  | nil => exact .single (List.isChain_cons_cons.mp h).1
  | cons b rest =>
    obtain ⟨hfirst, hrest⟩ := List.isChain_cons_cons.mp h
    exact .head' hfirst (List.relationReflTransGen_of_exists_isChain_cons _ hrest (by simp))

/-- Nothing valid is refused. -/
theorem Refused.not_valid {cause : Failure} (h : Refused handlers cause) : ¬ Valid handlers := by
  intro hvalid
  cases h with
  | duplicate split _ repeats =>
    have hdistinct := hvalid.distinct
    rw [split, List.map_append, List.map_cons, List.nodup_append] at hdistinct
    exact hdistinct.2.2 _ repeats _ List.mem_cons_self rfl
  | unknown _ split after _ _ missing =>
    refine missing (hvalid.known _ (split ▸ List.mem_append_right _ List.mem_cons_self) _ ?_)
    rw [after]
    exact List.mem_append_right _ List.mem_cons_self
  | cycle _ _ _ path => exact hvalid.acyclic _ (transGen_of_isChain path)

theorem repeatedId?_eq_some {seen names : List String} {id : String}
    (h : repeatedId? seen names = some id) :
    ∃ before rest, names = before ++ id :: rest ∧ before.Nodup ∧ (∀ name ∈ before, name ∉ seen) ∧
      (id ∈ seen ∨ id ∈ before) := by
  induction names generalizing seen with
  | nil => cases h
  | cons name rest ih =>
    rw [repeatedId?] at h
    split at h
    · rename_i hseen
      cases h
      exact ⟨[], rest, rfl, List.nodup_nil, List.forall_mem_nil _,
        Or.inl (List.contains_iff_mem.mp hseen)⟩
    · rename_i hnew
      obtain ⟨before, rest', rfl, hnodup, hfresh, hid⟩ := ih h
      refine ⟨name :: before, rest', rfl, List.nodup_cons.mpr ⟨?_, hnodup⟩, ?_, ?_⟩
      · exact fun hm => hfresh name hm List.mem_cons_self
      · intro other hm
        rcases List.mem_cons.mp hm with rfl | hm
        · simpa using hnew
        · exact fun hseen => hfresh other hm (List.mem_cons_of_mem _ hseen)
      · rw [List.mem_cons] at hid ⊢
        tauto

theorem refused_of_repeatedId? {id : String}
    (h : repeatedId? [] (handlers.map Handler.id) = some id) :
    Refused handlers (.duplicateHandler id) := by
  obtain ⟨before, rest, hsplit, hnodup, -, hid⟩ := repeatedId?_eq_some h
  obtain ⟨front, back, rfl, rfl, hback⟩ := List.map_eq_append_iff.mp hsplit
  obtain ⟨handler, rest', rfl, rfl, rfl⟩ := List.map_eq_cons_iff.mp hback
  exact .duplicate rfl hnodup (hid.resolve_left List.not_mem_nil)

theorem unknownDependency?_eq_some {names : List String} {waiting : List (Handler ω)}
    {name id : String} (h : unknownDependency? names waiting = some (name, id)) :
    ∃ before handler rest known more, waiting = before ++ handler :: rest ∧ handler.id = name ∧
      handler.after = known ++ id :: more ∧ Known names before ∧
      (∀ other ∈ known, other ∈ names) ∧ id ∉ names := by
  induction waiting with
  | nil => cases h
  | cons head rest ih =>
    rw [unknownDependency?] at h
    split at h
    · rename_i missing hfind
      cases h
      obtain ⟨hmissing, known, more, hafter, hknown⟩ := List.find?_eq_some_iff_append.mp hfind
      exact ⟨[], head, rest, known, more, rfl, rfl, hafter, List.forall_mem_nil _,
        fun other hm => (by simpa using hknown other hm), by simpa using hmissing⟩
    · rename_i hnone
      obtain ⟨before, handler, rest', known, more, rfl, hname, hafter, hbefore, hrest⟩ := ih h
      refine ⟨head :: before, handler, rest', known, more, rfl, hname, hafter, ?_, hrest⟩
      intro h' hm id' hid
      rcases List.mem_cons.mp hm with rfl | hm
      · simpa using List.find?_eq_none.mp hnone id' hid
      · exact hbefore h' hm id' hid

variable {next : Nat → List Nat} {size fuel place target : Nat}
  {trail done path targets : List Nat} {visit : List Nat → Nat → Except (List Nat) (List Nat)}

/-- A closed path along edges that meets no place twice. -/
inductive Cycle (next : Nat → List Nat) : List Nat → Prop where
  | mk {place : Nat} {inner : List Nat} (simple : (place :: inner).Nodup)
      (path : List.IsChain (fun a b => b ∈ next a) (place :: inner ++ [place])) :
      Cycle next (place :: inner ++ [place])

/-- Places on the way to the first one, innermost first, none of them twice. -/
structure Trail (next : Nat → List Nat) (trail : List Nat) : Prop where
  simple : trail.Nodup
  edges : List.IsChain (fun a b => a ∈ next b) trail

theorem Trail.cons (h : Trail next (place :: trail)) (hnew : target ∉ place :: trail)
    (hedge : target ∈ next place) : Trail next (target :: place :: trail) :=
  ⟨List.nodup_cons.mpr ⟨hnew, h.simple⟩, List.isChain_cons_cons.mpr ⟨hedge, h.edges⟩⟩

/-- An edge from the innermost place of a trail back to the trail closes a cycle. -/
theorem Trail.cycle (h : Trail next (place :: trail)) (hmem : target ∈ place :: trail)
    (hedge : target ∈ next place) : Cycle next (closedPath target (place :: trail)) := by
  obtain ⟨inner, outer, hsplit, hfirst⟩ := List.eq_append_cons_of_mem hmem
  have hinner : (place :: trail).takeWhile (· ≠ target) = inner := by
    have hother : ∀ a ∈ inner, decide (a ≠ target) = true := fun a ha => by
      simpa using ne_of_mem_of_not_mem ha hfirst
    rw [hsplit, List.takeWhile_append_of_pos hother]
    simp
  have hsimple : (inner ++ target :: outer).Nodup := hsplit ▸ h.simple
  -- The path read backwards begins with the closing edge and goes on along the trail.
  have hclosed : List.IsChain (fun a b => a ∈ next b) (target :: inner ++ [target]) := by
    have hwhole : List.IsChain (fun a b => a ∈ next b) (target :: (inner ++ target :: outer)) :=
      hsplit ▸ List.isChain_cons_cons.mpr ⟨hedge, h.edges⟩
    exact hwhole.prefix ⟨outer, by simp⟩
  have hback : target :: inner.reverse ++ [target] = (target :: inner ++ [target]).reverse := by
    simp
  rw [closedPath, hinner]
  refine Cycle.mk ?_ ?_
  · have hnodup := (List.nodup_middle.mp hsimple).sublist
      ((List.sublist_append_left inner outer).cons_cons target)
    exact ((List.reverse_perm inner).cons target).nodup_iff.mpr hnodup
  · exact hback ▸ List.isChain_reverse.mpr hclosed

theorem exists_of_foldlM_eq_error {α β ε : Type} {f : β → α → Except ε β} {xs : List α} {b : β}
    {e : ε} (h : xs.foldlM f b = .error e) : ∃ x ∈ xs, ∃ c, f c x = .error e := by
  induction xs generalizing b with
  | nil => cases h
  | cons x xs ih =>
    rw [List.foldlM_cons] at h
    cases hx : f b x with
    | error cause =>
      rw [hx] at h
      cases h
      exact ⟨x, List.mem_cons_self, b, hx⟩
    | ok c =>
      rw [hx] at h
      obtain ⟨y, hy, hrest⟩ := ih h
      exact ⟨y, List.mem_cons_of_mem _ hy, hrest⟩

/-- A walk that fails has found a cycle. -/
theorem walk_error (htrail : Trail next (place :: trail))
    (h : walk next fuel trail done place = .error path) : Cycle next path := by
  induction fuel generalizing trail done place with
  | zero => cases h
  | succ fuel ih =>
    rw [walk_succ] at h
    cases hfold : (next place).foldlM
        (follow (walk next fuel (place :: trail)) (place :: trail)) done with
    | ok middle =>
      rw [hfold] at h
      cases h
    | error cause =>
      rw [hfold] at h
      cases h
      obtain ⟨target, hedge, done', hfollow⟩ := exists_of_foldlM_eq_error hfold
      rw [follow] at hfollow
      split at hfollow
      · rename_i hmem
        cases hfollow
        exact htrail.cycle (List.contains_iff_mem.mp hmem) hedge
      · rename_i hnew
        split at hfollow
        · cases hfollow
        · exact ih (htrail.cons (by simpa using hnew) hedge) hfollow

theorem findCycle?_eq_some (h : findCycle? next size = some path) : Cycle next path := by
  unfold findCycle? at h
  simp only at h
  split at h
  · rename_i hfold
    cases h
    obtain ⟨place, -, done, hwalk⟩ := exists_of_foldlM_eq_error hfold
    split at hwalk
    · cases hwalk
    · exact walk_error ⟨List.nodup_singleton place, .singleton place⟩ hwalk
  · cases h

/-- The id registered at a place, or nothing at all. -/
def idAt (r : Registry ω) (place : Nat) : String := ((r.at? place).map Handler.id).getD ""

theorem idAt_of_at? {h : Handler ω} (hat : r.at? place = some h) : r.idAt place = h.id := by
  rw [idAt, hat]
  rfl

theorem at?_of_place? {id : String} (h : r.place? id = some place) :
    ∃ handler, r.at? place = some handler ∧ handler.id = id := by
  obtain ⟨hlt, hid, -⟩ := List.findIdx?_eq_some_iff_getElem.mp h
  exact ⟨r.handlers[place], List.getElem?_eq_getElem hlt, by simpa using hid⟩

theorem mem_before_iff : target ∈ r.before place ↔
    ∃ h, r.at? place = some h ∧ ∃ id ∈ h.after, r.place? id = some target := by
  unfold before
  cases r.at? place with
  | none => simp
  | some h => simp [List.mem_filterMap]

theorem waits_of_mem_before (h : target ∈ r.before place) :
    Waits r.handlers (r.idAt place) (r.idAt target) := by
  obtain ⟨handler, hat, id, hid, hplace⟩ := mem_before_iff.mp h
  obtain ⟨other, hother, rfl⟩ := at?_of_place? hplace
  exact ⟨handler, mem_of_at? hat, (idAt_of_at? hat).symm, idAt_of_at? hother ▸ hid⟩

theorem exists_next_of_isChain {α : Type} {R : α → α → Prop} {xs : List α} {last : α}
    (h : List.IsChain R (xs ++ [last])) : ∀ x ∈ xs, ∃ y, R x y := by
  induction xs with
  | nil => exact fun _ hx => by cases hx
  | cons x xs ih =>
    refine List.forall_mem_cons.mpr ⟨?_, ih h.tail⟩
    cases xs with
    | nil => exact ⟨last, (List.isChain_cons_cons.mp h).1⟩
    | cons y ys => exact ⟨y, (List.isChain_cons_cons.mp h).1⟩

/-- A cycle of places is a cycle of ids. -/
theorem Cycle.refused (hids : r.ids.Nodup) (hknown : Known r.ids r.handlers)
    (h : Cycle r.before path) :
    Refused r.handlers
      (.handlerCycle (path.filterMap fun place => (r.at? place).map Handler.id)) := by
  obtain ⟨hsimple, hpath⟩ := h
  rename_i place inner
  have hat : ∀ x ∈ place :: inner, ∃ handler, r.at? x = some handler := by
    intro x hx
    obtain ⟨y, hy⟩ := exists_next_of_isChain hpath x hx
    obtain ⟨handler, hx, -⟩ := mem_before_iff.mp hy
    exact ⟨handler, hx⟩
  have hnames : (place :: inner ++ [place]).filterMap (fun x => (r.at? x).map Handler.id) =
      r.idAt place :: inner.map r.idAt ++ [r.idAt place] := by
    have hsome : ∀ x ∈ place :: inner ++ [place], (r.at? x).map Handler.id = some (r.idAt x) := by
      intro x hx
      have hmem : x ∈ place :: inner := by
        simp only [List.mem_append, List.mem_cons, List.not_mem_nil, or_false] at hx ⊢
        tauto
      obtain ⟨handler, hx⟩ := hat x hmem
      rw [hx, idAt_of_at? hx, Option.map_some]
    rw [List.filterMap_congr hsome, List.filterMap_eq_map']
    simp
  rw [hnames]
  refine .cycle hids hknown ?_ ?_
  · -- Where ids are distinct, different places have different ids.
    refine List.Nodup.map_on (fun x hx y hy hsame => ?_) hsimple
    obtain ⟨hx', hx⟩ := hat x hx
    obtain ⟨hy', hy⟩ := hat y hy
    rw [idAt_of_at? hx, idAt_of_at? hy] at hsame
    have hplace := place?_of_at? hids hy
    rw [← hsame, place?_of_at? hids hx] at hplace
    exact Option.some.inj hplace
  · have hmapped := List.isChain_map_of_isChain r.idAt (fun _ _ => waits_of_mem_before) hpath
    simpa using hmapped

/-- Handlers whose places are ranked do not wait for themselves. -/
theorem Accepted.valid (h : Accepted r) : Valid r.handlers := by
  refine ⟨h.distinct, h.known, fun id hcycle => ?_⟩
  obtain ⟨rank, hrank⟩ := h.ranked
  let height := fun id => rank ((r.place? id).getD 0)
  have hdecreases : ∀ a b, Waits r.handlers a b → height b < height a := by
    rintro a b ⟨handler, hmem, rfl, hafter⟩
    obtain ⟨place, hat⟩ := exists_place hmem
    obtain ⟨other, hother, rfl⟩ := List.mem_map.mp (h.known handler hmem b hafter)
    obtain ⟨target, htarget⟩ := exists_place hother
    have hplace := place?_of_at? h.distinct hat
    have hplace' := place?_of_at? h.distinct htarget
    simp only [height, hplace, hplace', Option.getD_some]
    exact hrank.decreases place target (mem_before_iff.mpr ⟨handler, hat, _, hafter, hplace'⟩)
  have hfalls : ∀ {a b}, Relation.TransGen (Waits r.handlers) a b → height b < height a := by
    intro a b hpath
    induction hpath with
    | single hab => exact hdecreases _ _ hab
    | tail _ hbc ih => exact Nat.lt_trans (hdecreases _ _ hbc) ih
  exact Nat.lt_irrefl _ (hfalls hcycle)

theorem refused_of_build {cause : Failure} (h : build handlers = .error cause) :
    Refused handlers cause := by
  unfold build at h
  simp only at h
  split at h
  · rename_i hrepeated
    cases h
    exact refused_of_repeatedId? hrepeated
  · rename_i hrepeated
    have hdistinct := (nodup_of_repeatedId?_eq_none hrepeated).1
    split at h
    · rename_i hunknown
      cases h
      obtain ⟨before, handler, rest, known, more, hsplit, rfl, hafter, hbefore, hknown, hmissing⟩ :=
        unknownDependency?_eq_some hunknown
      exact .unknown hdistinct hsplit hafter hbefore hknown hmissing
    · rename_i hunknown
      split at h
      · rename_i hcycle
        cases h
        exact (findCycle?_eq_some hcycle).refused hdistinct
          (known_of_unknownDependency?_eq_none hunknown)
      · cases h

/-- Validation is exact: a registry is built just from valid handlers and holds them as listed, and
whatever is refused is refused for the first reason that applies. -/
theorem build_exact (handlers : List (Handler ω)) :
    ((∃ r, build handlers = .ok r) ↔ Valid handlers) ∧
    (∀ r, build handlers = .ok r → r.handlers = handlers) ∧
    ∀ cause, build handlers = .error cause → Refused handlers cause := by
  refine ⟨⟨?_, ?_⟩, fun r h => (accepted_of_build h).1, fun _ => refused_of_build⟩
  · rintro ⟨r, h⟩
    obtain ⟨rfl, haccepted⟩ := accepted_of_build h
    exact haccepted.valid
  · intro hvalid
    cases h : build handlers with
    | ok r => exact ⟨r, rfl⟩
    | error cause => exact absurd hvalid (refused_of_build h).not_valid

/-- Three handlers wait for each other, one of them says so twice, and one waits for two of them. -/
def tangled : List (Handler Unit) :=
  [⟨"report", .ofNames [], ["tag", "resize"], ()⟩,
    ⟨"tag", .ofNames ["tags"], ["attach", "attach"], ()⟩,
    ⟨"resize", .ofNames ["size"], ["tag"], ()⟩,
    ⟨"attach", .ofNames ["attachedTo"], ["resize"], ()⟩]

theorem build_exact_tangled :
    build tangled = .error (.handlerCycle ["tag", "attach", "resize", "tag"]) ∧
    Refused tangled (.handlerCycle ["tag", "attach", "resize", "tag"]) ∧ ¬ Valid tangled := by
  have hbuild : build tangled = .error (.handlerCycle ["tag", "attach", "resize", "tag"]) := rfl
  obtain ⟨hvalid, -, hrefused⟩ := build_exact tangled
  refine ⟨hbuild, hrefused _ hbuild, fun h => ?_⟩
  obtain ⟨r, hr⟩ := hvalid.mpr h
  cases hbuild.symm.trans hr

end DesiredState.Registry
