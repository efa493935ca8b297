import DesiredState.Proofs.Plan.Make

/-!
# Plans keep the order of registration

The walk starts at the chosen places in the order of registration. What it puts in order comes
behind all that is there, and a start so far leads to it. So a place is put before an earlier one
only where a start that is not later than the earlier one leads to it.
-/

namespace DesiredState

open Relation

variable {ω : Type} {r : Registry ω} {handlers : List (Handler ω)} {d : Diff} {plan : Plan ω}
  {resourceType : String}

namespace Plan

/-- What visits of some places do to the order: nothing there moves, and they lead to all that is
new. -/
structure Appends (before : Nat → List Nat) (places : List Nat) (v w : Visited) : Prop where
  start : v.ordered <+: w.ordered
  led : ∀ x ∈ w.ordered, x ∈ v.ordered ∨
    ∃ place ∈ places, ReflTransGen (fun b a => a ∈ before b) place x

variable {before : Nat → List Nat} {chosen places more : List Nat} {u v w : Visited}
  {rank : Nat → Nat} {place i j k : Nat} {a b c : String}

theorem Appends.refl (places : List Nat) (v : Visited) : Appends before places v v :=
  ⟨List.prefix_refl _, fun _ hx => Or.inl hx⟩

theorem Appends.trans (h : Appends before places u v) (h' : Appends before more v w) :
    Appends before (places ++ more) u w := by
  constructor
  · exact h.start.trans h'.start
  · intro x hx
    rcases h'.led x hx with hx | ⟨place, hplace, hreach⟩
    · rcases h.led x hx with hx | ⟨place, hplace, hreach⟩
      · exact Or.inl hx
      · exact Or.inr ⟨place, List.mem_append_left more hplace, hreach⟩
    · exact Or.inr ⟨place, List.mem_append_right places hplace, hreach⟩

theorem foldl_appends {visitOne : Visited → Nat → Visited}
    (hvisit : ∀ v place, Appends before [place] v (visitOne v place)) (places : List Nat)
    (v : Visited) : Appends before places v (places.foldl visitOne v) := by
  induction places generalizing v with
  | nil => exact .refl [] v
  | cons place rest ih => exact (hvisit v place).trans (ih (visitOne v place))

theorem prefix_leave : v.ordered <+: (leave chosen place v).ordered := by
  unfold leave
  split
  · exact List.prefix_append _ _
  · exact List.prefix_refl _

/-- A visit leads to all that it appends. -/
theorem visit_appends (before : Nat → List Nat) (chosen : List Nat) (fuel : Nat) (v : Visited)
    (place : Nat) : Appends before [place] v (visit before chosen fuel v place) := by
  induction fuel generalizing v place with
  | zero => exact .refl [place] v
  | succ fuel ih =>
    rw [visit_succ]
    split
    · exact .refl [place] v
    · have hfold := foldl_appends ih (before place) (enter place v)
      constructor
      · exact hfold.start.trans prefix_leave
      · intro x hx
        rcases mem_ordered_leave.mp hx with hx | ⟨rfl, -⟩
        · rcases hfold.led x hx with hx | ⟨y, hy, hreach⟩
          · exact Or.inl hx
          · exact Or.inr ⟨place, List.mem_cons_self, .head hy hreach⟩
        · exact Or.inr ⟨x, List.mem_cons_self, .refl⟩

/-- The walk has put the places it started from in order, and only what they lead to, before it
starts from the others. -/
theorem order_append (hr : Registry.Ranked r rank) (front rest : List Nat) :
    ∃ early later, order r (front ++ rest) = early ++ later ∧ (∀ x ∈ front, x ∈ early) ∧
      ∀ x ∈ early, ∃ place ∈ front, ReflTransGen (fun b a => a ∈ r.before b) place x := by
  let visitOne := visit r.before (front ++ rest) (r.size + 1)
  let middle := front.foldl visitOne ⟨[], []⟩
  have hfront : Appends r.before front ⟨[], []⟩ middle :=
    foldl_appends (visit_appends r.before (front ++ rest) (r.size + 1)) front _
  have hrest : Appends r.before rest middle (rest.foldl visitOne middle) :=
    foldl_appends (visit_appends r.before (front ++ rest) (r.size + 1)) rest _
  obtain ⟨later, hlater⟩ := hrest.start
  refine ⟨middle.ordered, later, ?_, ?_, ?_⟩
  · rw [hlater, order, List.foldl_append]
  · intro x hx
    obtain ⟨-, hall⟩ := visited_good hr (front ++ rest) front
    exact hall x hx x (List.mem_append_left rest hx) .refl
  · intro x hx
    exact (hfront.led x hx).resolve_left List.not_mem_nil

/-- Of two chosen places the earlier one comes first, unless a chosen place that is not later than
it leads to the other. -/
theorem order_stable (hr : Registry.Ranked r rank) (hchosen : chosen.Pairwise (· < ·))
    (hi : i ∈ chosen) (hk : k ∈ chosen) (hlt : i < k)
    (hfree : ∀ j ∈ chosen, j ≤ i → ¬ TransGen (fun b a => a ∈ r.before b) j k) :
    [i, k].Sublist (order r chosen) := by
  have hmem := (order_good hr chosen).2.2 k
  obtain ⟨front, rest, rfl⟩ := List.append_of_mem hi
  have hsplit : front ++ i :: rest = (front ++ [i]) ++ rest := by simp
  have hearly : ∀ j ∈ front ++ [i], j ≤ i := by
    intro j hj
    rcases List.mem_append.mp hj with hj | hj
    · have hbefore := (List.pairwise_append.mp hchosen).2.2 j hj i List.mem_cons_self
      omega
    · exact Nat.le_of_eq (List.mem_singleton.mp hj)
  obtain ⟨early, later, horder, hstarts, hled⟩ := order_append hr (front ++ [i]) rest
  rw [← hsplit] at horder
  have hnot : k ∉ early := by
    intro hk
    obtain ⟨j, hj, hreach⟩ := hled k hk
    have hle := hearly j hj
    rcases reflTransGen_iff_eq_or_transGen.mp hreach with rfl | hreach
    · omega
    · exact hfree j (hsplit ▸ List.mem_append_left rest hj) hle hreach
  have hlater : k ∈ later := (List.mem_append.mp (horder ▸ hmem.mpr hk)).resolve_left hnot
  have hi : i ∈ early := hstarts i (List.mem_append_right front List.mem_cons_self)
  rw [horder]
  exact (List.singleton_sublist.mpr hi).append (List.singleton_sublist.mpr hlater)

/-- The handler with the first id is registered before the one with the second id. -/
def Earlier (r : Registry ω) (a b : String) : Prop :=
  ∃ i j, r.place? a = some i ∧ r.place? b = some j ∧ i < j

theorem map_id_of_place? (h : r.place? a = some i) : (r.at? i).map Handler.id = some a := by
  obtain ⟨hlt, hid, -⟩ := List.findIdx?_eq_some_iff_getElem.mp h
  rw [Registry.at?, List.getElem?_eq_getElem hlt, Option.map_some]
  exact congrArg some (of_decide_eq_true hid)

/-- Where places lead, ids wait. -/
theorem transGen_awaits (h : TransGen (fun b a => a ∈ r.before b) i j)
    (ha : (r.at? i).map Handler.id = some a) :
    ∃ b, (r.at? j).map Handler.id = some b ∧ TransGen (Awaits r) a b := by
  have hstep : ∀ {i j a}, j ∈ r.before i → (r.at? i).map Handler.id = some a →
      ∃ b, (r.at? j).map Handler.id = some b ∧ Awaits r a b := by
    intro i j a hj ha
    obtain ⟨handler, hat, hid⟩ := Option.map_eq_some_iff.mp ha
    unfold Registry.before at hj
    rw [hat] at hj
    obtain ⟨b, hb, hplace⟩ := List.mem_filterMap.mp hj
    exact ⟨b, map_id_of_place? hplace, handler, Registry.mem_of_at? hat, hid, hb⟩
  induction h with
  | single hj =>
    obtain ⟨b, hb, hawaits⟩ := hstep hj ha
    exact ⟨b, hb, .single hawaits⟩
  | tail _ hj ih =>
    obtain ⟨b, hb, hawaits⟩ := ih
    obtain ⟨c, hc, hlast⟩ := hstep hj hb
    exact ⟨c, hc, hawaits.tail hlast⟩

/-- The planned ids are those at the chosen places. -/
theorem mem_ids_iff (h : plan.handlers.Perm (chosen.filterMap r.at?)) :
    a ∈ plan.ids ↔ ∃ i ∈ chosen, (r.at? i).map Handler.id = some a := by
  rw [Plan.ids, (h.map Handler.id).mem_iff, List.map_filterMap, List.mem_filterMap]

theorem place_mem_of_mem_ids (hids : r.ids.Nodup)
    (h : plan.handlers.Perm (chosen.filterMap r.at?)) (ha : a ∈ plan.ids)
    (hi : r.place? a = some i) : i ∈ chosen := by
  obtain ⟨j, hj, hat⟩ := (mem_ids_iff h).mp ha
  have hsame : i = j := Option.some.inj (hi.symm.trans (place?_of_map_id hids hat))
  exact hsame ▸ hj

/-- A chosen place holds a planned handler, which waits for whatever the place leads to. -/
theorem exists_awaits (h : plan.handlers.Perm (chosen.filterMap r.at?)) (hi : i ∈ chosen)
    (hlt : i < r.size) (hk : r.place? b = some k)
    (hreach : TransGen (fun b a => a ∈ r.before b) i k) :
    ∃ a ∈ plan.ids, (r.at? i).map Handler.id = some a ∧ TransGen (Awaits r) a b := by
  have hat : (r.at? i).map Handler.id = some r.handlers[i].id :=
    congrArg (Option.map Handler.id) (List.getElem?_eq_getElem hlt)
  obtain ⟨b', hb', hawaits⟩ := transGen_awaits hreach hat
  obtain rfl : b = b' := Option.some.inj ((map_id_of_place? hk).symm.trans hb')
  exact ⟨_, (mem_ids_iff h).mpr ⟨i, hi, hat⟩, hat, hawaits⟩

/-- Without a selected handler that is registered no later and needs the other, the handler that is
registered first runs first. -/
theorem sublist_ids_of_unneeded (hr : Registry.Accepted r)
    (hplan : make resourceType r d = .ok plan) (ha : a ∈ plan.ids) (hb : b ∈ plan.ids)
    (hearlier : Earlier r a b)
    (hfree : ∀ c ∈ plan.ids, c = a ∨ Earlier r c a → ¬ TransGen (Awaits r) c b) :
    [a, b].Sublist plan.ids := by
  obtain ⟨i, k, hi, hk, hlt⟩ := hearlier
  obtain ⟨chosen, rank, -, hcover, hrank, hperm, hhandlers⟩ := ordered_of_make hr hplan
  have hselected : plan.handlers.Perm (chosen.filterMap r.at?) := hhandlers ▸ hperm.filterMap r.at?
  have hunreached : ∀ j ∈ chosen, j ≤ i → ¬ TransGen (fun b a => a ∈ r.before b) j k := by
    intro j hj hle hreach
    obtain ⟨c, hc, hat, hawaits⟩ :=
      exists_awaits hselected hj (hcover.subset.below j hj) hk hreach
    apply hfree c hc ?_ hawaits
    rcases Nat.lt_or_eq_of_le hle with hlt | rfl
    · exact Or.inr ⟨j, i, place?_of_map_id hr.distinct hat, hi, hlt⟩
    · exact Or.inl (Option.some.inj (hat.symm.trans (map_id_of_place? hi)))
  have hi' := place_mem_of_mem_ids hr.distinct hselected ha hi
  have hk' := place_mem_of_mem_ids hr.distinct hselected hb hk
  have hsub := (order_stable hrank hcover.subset.ascending hi' hk' hlt hunreached).filterMap
    fun place => (r.at? place).map Handler.id
  rw [ids_of_handlers hhandlers]
  simpa [map_id_of_place? hi, map_id_of_place? hk] using hsub

/-- In a list without repetition no two members stand in both orders. -/
theorem not_sublist_swap {names : List String} (hnames : names.Nodup)
    (h : [a, b].Sublist names) : ¬ [b, a].Sublist names := by
  have hascending : names.Pairwise fun a b => names.idxOf a < names.idxOf b := by
    apply List.pairwise_iff_getElem.mpr
    intro i j hi hj hlt
    rwa [hnames.idxOf_getElem, hnames.idxOf_getElem]
  have hforward := List.pairwise_iff_forall_sublist.mp hascending h
  intro hswap
  have hbackward := List.pairwise_iff_forall_sublist.mp hascending hswap
  omega

/-- Of two selected handlers the one that is registered first runs first, unless a selected handler
that is registered no later than it waits for the other, directly or through any handlers. So a
handler overtakes one that is registered before it only where such a handler needs it. -/
theorem make_stable (hbuild : Registry.build handlers = .ok r)
    (hplan : make resourceType r d = .ok plan) :
    (∃ chosen, selected? r d = some chosen ∧ plan.handlers.Perm (chosen.filterMap r.at?)) ∧
      (∀ a ∈ plan.ids, ∀ b ∈ plan.ids, Earlier r a b →
        (∀ c ∈ plan.ids, c = a ∨ Earlier r c a → ¬ TransGen (Awaits r) c b) →
          [a, b].Sublist plan.ids) ∧
        ∀ a ∈ plan.ids, ∀ b ∈ plan.ids, Earlier r a b → [b, a].Sublist plan.ids →
          ∃ c ∈ plan.ids, (c = a ∨ Earlier r c a) ∧ TransGen (Awaits r) c b := by
  obtain ⟨-, hr⟩ := Registry.accepted_of_build hbuild
  refine ⟨?_, ?_, ?_⟩
  · obtain ⟨chosen, rank, hchosen, -, -, hperm, hhandlers⟩ := ordered_of_make hr hplan
    exact ⟨chosen, hchosen, hhandlers ▸ hperm.filterMap r.at?⟩
  · intro a ha b hb hearlier hfree
    exact sublist_ids_of_unneeded hr hplan ha hb hearlier hfree
  · intro a ha b hb hearlier hovertakes
    by_contra hnone
    push Not at hnone
    have hsub := sublist_ids_of_unneeded hr hplan ha hb hearlier hnone
    exact not_sublist_swap (nodup_ids_of_make hr hplan) hsub hovertakes

/-- Handlers of a disk: the one that attaches it waits, through formatting, for the one that
provides it, which is registered last. -/
def disk : List (Handler Unit) :=
  [⟨"label", KeySet.ofNames ["label"], [], ()⟩,
    ⟨"attach", KeySet.ofNames ["attachedTo"], ["format"], ()⟩,
    ⟨"format", KeySet.ofNames ["format"], ["provision"], ()⟩,
    ⟨"provision", KeySet.ofNames ["region"], [], ()⟩]

/-- Everything but the format is unset. -/
def formatKept : Diff :=
  ⟨KeyMap.ofList [("attachedTo", ⟨"attachedTo", .unset, some .null, none⟩),
    ("label", ⟨"label", .unset, some .null, none⟩),
    ("region", ⟨"region", .unset, some .null, none⟩)]⟩

/-- The label does not wait for the provision, which overtakes the attachment that needs it. -/
theorem make_stable_disk : Registry.build disk = .ok ⟨disk⟩ ∧
    ∃ plan, make "disk" ⟨disk⟩ formatKept = .ok plan ∧
      plan.ids = ["label", "provision", "attach"] ∧
        ["label", "provision"].Sublist plan.ids ∧ Earlier ⟨disk⟩ "attach" "provision" ∧
          ∃ c ∈ plan.ids, (c = "attach" ∨ Earlier ⟨disk⟩ c "attach") ∧
            TransGen (Awaits ⟨disk⟩) c "provision" := by
  have hbuild : Registry.build disk = .ok ⟨disk⟩ := rfl
  have hmake : make "disk" ⟨disk⟩ formatKept =
      .ok ⟨(order ⟨disk⟩ [0, 1, 3]).filterMap (Registry.at? ⟨disk⟩)⟩ := rfl
  obtain ⟨-, hstable, hneeded⟩ := make_stable hbuild hmake
  have hearlier : Earlier ⟨disk⟩ "attach" "provision" := ⟨1, 3, rfl, rfl, by decide⟩
  refine ⟨hbuild, _, hmake, rfl, ?_, hearlier, ?_⟩
  · apply hstable "label" (by decide) "provision" (by decide) ⟨0, 3, rfl, rfl, by decide⟩
    rintro c - hc hawaits
    have hlabel : c = "label" := by
      rcases hc with rfl | ⟨i, j, -, hj, hlt⟩
      · rfl
      · cases hj
        exact absurd hlt (Nat.not_lt_zero i)
    obtain ⟨id, ⟨handler, hmem, hid, hafter⟩, -⟩ := TransGen.head'_iff.mp hawaits
    rw [hlabel] at hid
    simp only [disk, List.mem_cons, List.not_mem_nil, or_false] at hmem
    rcases hmem with rfl | rfl | rfl | rfl
    · cases hafter
    all_goals exact absurd hid (by decide)
  · exact hneeded "attach" (by decide) "provision" (by decide) hearlier (by decide)

end Plan

end DesiredState
