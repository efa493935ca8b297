import DesiredState.Proofs.Plan
import DesiredState.Proofs.Registry
import Mathlib.Logic.Relation

/-!
# The order of a plan

The walk that puts chosen places in order passes through places that are not chosen. A place is
complete when every chosen place that it leads to, itself included, is in order. Below the places
that the walk is still at, everything seen is complete; ranks tell what is below.
-/

namespace DesiredState.Plan

open Relation

variable {before : Nat → List Nat} {chosen : List Nat} {rank : Nat → Nat}

/-- Every chosen place that a place leads to is in order. -/
def Complete (before : Nat → List Nat) (chosen : List Nat) (v : Visited) (place : Nat) : Prop :=
  ∀ a ∈ chosen, ReflTransGen (fun b a => a ∈ before b) place a → a ∈ v.ordered

/-- Every place stands behind the chosen ones that it leads to. -/
def Arranged (before : Nat → List Nat) (chosen ordered : List Nat) : Prop :=
  ∀ front b rest, ordered = front ++ b :: rest →
    ∀ a ∈ chosen, TransGen (fun b a => a ∈ before b) b a → a ∈ front

/-- What holds between two visits: places below the limit are complete once they are seen. -/
structure Good (before : Nat → List Nat) (chosen : List Nat) (rank : Nat → Nat) (limit : Nat)
    (v : Visited) : Prop where
  complete : ∀ x ∈ v.seen, rank x < limit → Complete before chosen v x
  seen : ∀ x ∈ v.ordered, x ∈ v.seen
  subset : ∀ x ∈ v.ordered, x ∈ chosen
  nodup : v.ordered.Nodup
  arranged : Arranged before chosen v.ordered

/-- What a visit adds: only places not seen before, and these are complete. -/
structure Grows (before : Nat → List Nat) (chosen : List Nat) (v w : Visited) : Prop where
  seen : ∀ x ∈ v.seen, x ∈ w.seen
  ordered : ∀ x ∈ v.ordered, x ∈ w.ordered
  fresh : ∀ x ∈ w.ordered, x ∈ v.ordered ∨ x ∉ v.seen
  complete : ∀ x ∈ w.seen, x ∈ v.seen ∨ Complete before chosen w x

/-- What a visit of a place comes to. -/
structure Completes (before : Nat → List Nat) (chosen : List Nat) (rank : Nat → Nat) (limit : Nat)
    (v : Visited) (place : Nat) (w : Visited) : Prop where
  good : Good before chosen rank limit w
  grows : Grows before chosen v w
  complete : Complete before chosen w place

variable {u v w : Visited} {place limit fuel : Nat}

theorem Complete.mono (h : Complete before chosen v place)
    (hvw : ∀ x ∈ v.ordered, x ∈ w.ordered) : Complete before chosen w place :=
  fun a ha hreach => hvw a (h a ha hreach)

theorem Grows.refl (v : Visited) : Grows before chosen v v :=
  ⟨fun _ h => h, fun _ h => h, fun _ h => Or.inl h, fun _ h => Or.inl h⟩

theorem Grows.trans (h : Grows before chosen u v) (k : Grows before chosen v w) :
    Grows before chosen u w := by
  refine ⟨fun x hx => k.seen x (h.seen x hx), fun x hx => k.ordered x (h.ordered x hx), ?_, ?_⟩
  · intro x hx
    rcases k.fresh x hx with hx | hx
    · exact h.fresh x hx
    · exact Or.inr fun hu => hx (h.seen x hu)
  · intro x hx
    rcases k.complete x hx with hx | hx
    · exact (h.complete x hx).imp_right fun hc => hc.mono k.ordered
    · exact Or.inr hx

/-- A place may stand at the end once every chosen place that it leads to is in order. -/
theorem arranged_snoc {ordered : List Nat} (h : Arranged before chosen ordered)
    (hplace : ∀ a ∈ chosen, TransGen (fun b a => a ∈ before b) place a → a ∈ ordered) :
    Arranged before chosen (ordered ++ [place]) := by
  intro front b rest hsplit a ha hreach
  rcases List.eq_nil_or_concat rest with rfl | ⟨rest, last, rfl⟩
  · -- The split is at the new place itself.
    obtain ⟨rfl, hb⟩ := List.append_inj' hsplit rfl
    have hb : place = b := by simpa using hb
    exact hplace a ha (hb ▸ hreach)
  · have hsplit : ordered ++ [place] = (front ++ b :: rest) ++ [last] := by simpa using hsplit
    exact h front b rest (List.append_inj' hsplit rfl).1 a ha hreach

/-- Visits in turn complete all their places, given that each visit does. -/
theorem foldl_visit {visitOne : Visited → Nat → Visited} {places : List Nat}
    (hvisit : ∀ v, ∀ place ∈ places, Good before chosen rank limit v →
      Completes before chosen rank limit v place (visitOne v place))
    (hv : Good before chosen rank limit v) :
    Good before chosen rank limit (places.foldl visitOne v) ∧
      Grows before chosen v (places.foldl visitOne v) ∧
        ∀ place ∈ places, Complete before chosen (places.foldl visitOne v) place := by
  induction places generalizing v with
  | nil => exact ⟨hv, Grows.refl v, List.forall_mem_nil _⟩
  | cons place rest ih =>
    have hfirst := hvisit v place List.mem_cons_self hv
    obtain ⟨hgood, hgrows, hall⟩ :=
      ih (fun v x hx => hvisit v x (List.mem_cons_of_mem place hx)) hfirst.good
    rw [List.foldl_cons]
    exact ⟨hgood, hfirst.grows.trans hgrows,
      List.forall_mem_cons.mpr ⟨hfirst.complete.mono hgrows.ordered, hall⟩⟩

/-- Whatever a place leads to is the place itself or reached through one that it waits for. -/
theorem complete_of_before (hbefore : ∀ y ∈ before place, Complete before chosen v y)
    (hself : place ∈ chosen → place ∈ v.ordered) : Complete before chosen v place := by
  intro a ha hreach
  rcases ReflTransGen.cases_head hreach with rfl | ⟨y, hy, hreach⟩
  · exact hself ha
  · exact hbefore y hy a ha hreach

/-- See a place. -/
def enter (place : Nat) (v : Visited) : Visited := { v with seen := place :: v.seen }

/-- Put a place in order if it is chosen. -/
def leave (chosen : List Nat) (place : Nat) (v : Visited) : Visited :=
  if chosen.contains place then { v with ordered := v.ordered ++ [place] } else v

theorem visit_succ (before : Nat → List Nat) (chosen : List Nat) (fuel : Nat) (v : Visited)
    (place : Nat) :
    visit before chosen (fuel + 1) v place =
      if v.seen.contains place then v
      else leave chosen place ((before place).foldl (visit before chosen fuel) (enter place v)) :=
  rfl

theorem seen_leave : (leave chosen place v).seen = v.seen := by
  unfold leave
  split <;> rfl

theorem mem_ordered_leave {x : Nat} :
    x ∈ (leave chosen place v).ordered ↔ x ∈ v.ordered ∨ x = place ∧ place ∈ chosen := by
  unfold leave
  split <;> simp_all

/-- While the walk is at a place, only what has a lower rank needs to be complete. -/
theorem good_enter (hv : Good before chosen rank limit v) (hlimit : rank place ≤ limit) :
    Good before chosen rank (rank place) (enter place v) := by
  refine ⟨?_, fun x hx => List.mem_cons_of_mem place (hv.seen x hx), hv.subset, hv.nodup,
    hv.arranged⟩
  intro x hx hlt
  rcases List.mem_cons.mp hx with rfl | hx
  · exact absurd hlt (Nat.lt_irrefl _)
  · exact hv.complete x hx (by omega)

theorem nodup_leave (hv : v.ordered.Nodup) (hplace : place ∉ v.ordered) :
    (leave chosen place v).ordered.Nodup := by
  unfold leave
  split
  · refine List.nodup_append.mpr ⟨hv, List.nodup_singleton place, ?_⟩
    intro x hx y hy he
    rw [List.mem_singleton.mp hy] at he
    exact hplace (he ▸ hx)
  · exact hv

theorem arranged_leave (hv : Arranged before chosen v.ordered)
    (hall : ∀ y ∈ before place, Complete before chosen v y) :
    Arranged before chosen (leave chosen place v).ordered := by
  unfold leave
  split
  · refine arranged_snoc hv fun a ha hreach => ?_
    obtain ⟨y, hy, hreach⟩ := TransGen.head'_iff.mp hreach
    exact hall y hy a ha hreach
  · exact hv

/-- Once all that a new place waits for is complete, leaving the place completes it. -/
theorem grows_leave (hnew : place ∉ v.seen)
    (hgrows : Grows before chosen (enter place v) w)
    (hall : ∀ y ∈ before place, Complete before chosen w y) :
    Grows before chosen v (leave chosen place w) ∧
      Complete before chosen (leave chosen place w) place := by
  have hkept : ∀ x ∈ w.ordered, x ∈ (leave chosen place w).ordered :=
    fun x hx => mem_ordered_leave.mpr (Or.inl hx)
  have hcomplete : Complete before chosen (leave chosen place w) place :=
    complete_of_before (fun y hy => (hall y hy).mono hkept)
      fun hmem => mem_ordered_leave.mpr (Or.inr ⟨rfl, hmem⟩)
  refine ⟨⟨?_, fun x hx => hkept x (hgrows.ordered x hx), ?_, ?_⟩, hcomplete⟩
  · intro x hx
    rw [seen_leave]
    exact hgrows.seen x (List.mem_cons_of_mem place hx)
  · intro x hx
    rcases mem_ordered_leave.mp hx with hx | ⟨rfl, -⟩
    · exact (hgrows.fresh x hx).imp_right fun hout hin => hout (List.mem_cons_of_mem place hin)
    · exact Or.inr hnew
  · intro x hx
    rw [seen_leave] at hx
    rcases hgrows.complete x hx with hx | hx
    · rcases List.mem_cons.mp hx with rfl | hx
      · exact Or.inr hcomplete
      · exact Or.inl hx
    · exact Or.inr (hx.mono hkept)

theorem completes_leave (hv : Good before chosen rank limit v) (hnew : place ∉ v.seen)
    (hw : Good before chosen rank (rank place) w)
    (hgrows : Grows before chosen (enter place v) w)
    (hall : ∀ y ∈ before place, Complete before chosen w y) :
    Completes before chosen rank limit v place (leave chosen place w) := by
  obtain ⟨hgrowsAll, hcomplete⟩ := grows_leave hnew hgrows hall
  have hplace : place ∉ w.ordered := by
    intro hmem
    rcases hgrows.fresh place hmem with hmem | hmem
    · exact hnew (hv.seen place hmem)
    · exact hmem List.mem_cons_self
  refine ⟨⟨?_, ?_, ?_, nodup_leave hw.nodup hplace, arranged_leave hw.arranged hall⟩,
    hgrowsAll, hcomplete⟩
  · intro x hx hlt
    rcases hgrowsAll.complete x hx with hx | hx
    · exact (hv.complete x hx hlt).mono hgrowsAll.ordered
    · exact hx
  · intro x hx
    rw [seen_leave]
    rcases mem_ordered_leave.mp hx with hx | ⟨rfl, -⟩
    · exact hw.seen x hx
    · exact hgrows.seen x List.mem_cons_self
  · intro x hx
    rcases mem_ordered_leave.mp hx with hx | ⟨rfl, hmem⟩
    · exact hw.subset x hx
    · exact hmem

/-- A visit completes its place. Ranks fall along the way, so the fuel lasts. -/
theorem visit_completes (hrank : ∀ x, ∀ y ∈ before x, rank y < rank x) (hfuel : rank place < fuel)
    (hlimit : rank place < limit) (hv : Good before chosen rank limit v) :
    Completes before chosen rank limit v place (visit before chosen fuel v place) := by
  induction fuel generalizing limit place v with
  | zero => omega
  | succ fuel ih =>
    rw [visit_succ]
    split
    · -- A place that is seen and below the limit is complete already.
      rename_i hseen
      have hseen : place ∈ v.seen := List.contains_iff_mem.mp hseen
      exact ⟨hv, Grows.refl v, hv.complete place hseen hlimit⟩
    · rename_i hnew
      have hvisit : ∀ w, ∀ y ∈ before place, Good before chosen rank (rank place) w →
          Completes before chosen rank (rank place) w y (visit before chosen fuel w y) := by
        intro w y hy hw
        have hlt := hrank place y hy
        exact ih (by omega) hlt hw
      obtain ⟨hgood, hgrows, hall⟩ := foldl_visit hvisit (good_enter hv (Nat.le_of_lt hlimit))
      exact completes_leave hv (by simpa using hnew) hgood hgrows hall

variable {ω : Type} {r : Registry ω}

/-- Visits in turn, from nothing seen on, complete all their places. -/
theorem visited_good (hr : Registry.Ranked r rank) (chosen places : List Nat) :
    Good r.before chosen rank (r.size + 1)
        (places.foldl (visit r.before chosen (r.size + 1)) ⟨[], []⟩) ∧
      ∀ place ∈ places, Complete r.before chosen
        (places.foldl (visit r.before chosen (r.size + 1)) ⟨[], []⟩) place := by
  have hstart : Good r.before chosen rank (r.size + 1) ⟨[], []⟩ := by
    refine ⟨fun _ hx => ?_, fun _ hx => ?_, fun _ hx => ?_, List.nodup_nil, ?_⟩
    · cases hx
    · cases hx
    · cases hx
    · intro front b rest hsplit
      simp at hsplit
  have hvisit : ∀ v, ∀ place ∈ places, Good r.before chosen rank (r.size + 1) v →
      Completes r.before chosen rank (r.size + 1) v place
        (visit r.before chosen (r.size + 1) v place) := by
    intro v place _ hv
    have hle := hr.le_size place
    exact visit_completes hr.decreases (by omega) (by omega) hv
  obtain ⟨hgood, -, hall⟩ := foldl_visit hvisit hstart
  exact ⟨hgood, hall⟩

theorem order_good (hr : Registry.Ranked r rank) (chosen : List Nat) :
    Arranged r.before chosen (order r chosen) ∧ (order r chosen).Nodup ∧
      ∀ place, place ∈ order r chosen ↔ place ∈ chosen := by
  obtain ⟨hgood, hall⟩ := visited_good hr chosen chosen
  refine ⟨hgood.arranged, hgood.nodup, ?_⟩
  intro place
  constructor
  · exact hgood.subset place
  · intro hmem
    exact hall place hmem place hmem .refl

/-- Putting chosen places in order neither loses nor adds one. -/
theorem order_perm (hr : Registry.Ranked r rank) {chosen : List Nat} (hchosen : chosen.Nodup) :
    (order r chosen).Perm chosen := by
  obtain ⟨-, hnodup, hmem⟩ := order_good hr chosen
  exact (List.perm_ext_iff_of_nodup hnodup hchosen).mpr hmem

theorem mem_ordered_foldl {f : Visited → Nat → Visited} {x : Nat}
    (hstep : ∀ v place, x ∈ v.ordered → x ∈ (f v place).ordered) (places : List Nat)
    (hx : x ∈ v.ordered) : x ∈ (places.foldl f v).ordered := by
  induction places generalizing v with
  | nil => exact hx
  | cons place rest ih => exact ih (hstep v place hx)

/-- A visit takes nothing out of the order, whatever the places wait for. -/
theorem mem_ordered_visit {x : Nat} (fuel : Nat) (hx : x ∈ v.ordered) :
    x ∈ (visit before chosen fuel v place).ordered := by
  induction fuel generalizing place v with
  | zero => exact hx
  | succ fuel ih =>
    rw [visit_succ]
    split
    · exact hx
    · apply mem_ordered_leave.mpr
      left
      exact mem_ordered_foldl (fun w other hw => ih hw) _ hx

/-- A chosen place is put in order even where places wait for each other. -/
theorem head_mem_order {ω : Type} (r : Registry ω) (place : Nat) (rest : List Nat) :
    place ∈ order r (place :: rest) := by
  have hfirst : place ∈
      (visit r.before (place :: rest) (r.size + 1) ⟨[], []⟩ place).ordered := by
    rw [visit_succ]
    exact mem_ordered_leave.mpr (Or.inr ⟨rfl, List.mem_cons_self⟩)
  exact mem_ordered_foldl (fun v other hv => mem_ordered_visit _ hv) rest hfirst

/-- What a chosen place must wait for, directly or through others, comes before it. -/
theorem order_sublist (hr : Registry.Ranked r rank) {chosen : List Nat} {a b : Nat}
    (ha : a ∈ chosen) (hb : b ∈ chosen) (hreach : TransGen (fun b a => a ∈ r.before b) b a) :
    [a, b].Sublist (order r chosen) := by
  obtain ⟨harranged, -, hmem⟩ := order_good hr chosen
  obtain ⟨front, rest, hsplit⟩ := List.append_of_mem ((hmem b).mpr hb)
  have hfront : a ∈ front := harranged front b rest hsplit a ha hreach
  rw [hsplit]
  exact (List.singleton_sublist.mpr hfront).append (List.singleton_sublist.mpr List.mem_cons_self)

end DesiredState.Plan
