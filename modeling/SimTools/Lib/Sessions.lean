/- Module: SimTools/Lib/Sessions
   digest: Clients that make one call after the other keep their order in every linearization. -/

import SimTools.Lib.Linearization
import Mathlib.Data.List.Sort

set_option autoImplicit false
set_option relaxedAutoImplicit false

namespace SimTools.Lib.Sessions

open Linearization

universe u v w

section Lists

variable {A : Type u} {xs before after : List A} {x y : A}

theorem precedes_of_sublist (h : [x, y].Sublist xs) : Precedes xs x y := by
  obtain ⟨before, after, rfl, hx, hy⟩ := List.cons_sublist_iff.mp h
  exact ⟨before, after, rfl, hx, List.singleton_sublist.mp hy⟩

theorem mem_of_precedes (nodup : (before ++ after).Nodup) (h : Precedes (before ++ after) x y)
    (hy : y ∈ before) : x ∈ before := by
  obtain ⟨first, last, split, hx, hlast⟩ := h
  rw [split] at nodup
  rcases List.append_eq_append_iff.mp split with ⟨more, rfl, rfl⟩ | ⟨more, rfl, rfl⟩
  · exact absurd hlast ((List.nodup_append'.mp nodup).2.2 (List.mem_append_left _ hy))
  · exact List.mem_append_left _ hx

theorem not_precedes_of_precedes (nodup : xs.Nodup) (h : Precedes xs x y) : ¬ Precedes xs y x := by
  obtain ⟨before, after, rfl, hx, hy⟩ := h
  intro back
  exact (List.nodup_append'.mp nodup).2.2 (mem_of_precedes nodup back hx) hy

theorem precedes_trans (nodup : xs.Nodup) {z : A} (h : Precedes xs x y) (k : Precedes xs y z) :
    Precedes xs x z := by
  obtain ⟨before, after, rfl, hy, hz⟩ := k
  exact ⟨before, after, rfl, mem_of_precedes nodup h hy, hz⟩

theorem precedes_total (hx : x ∈ xs) (hy : y ∈ xs) (ne : x ≠ y) :
    Precedes xs x y ∨ Precedes xs y x := by
  obtain ⟨before, after, rfl⟩ := List.append_of_mem hx
  rcases List.mem_append.mp hy with hy | hy
  · exact .inr ⟨before, x :: after, rfl, hy, List.mem_cons_self⟩
  · rcases List.mem_cons.mp hy with rfl | hy
    · exact absurd rfl ne
    · exact .inl ⟨before ++ [x], after, by simp, by simp, hy⟩

theorem eq_range_of_closed {l : List Nat} (increasing : l.Pairwise (· < ·))
    (closed : ∀ k ∈ l, ∀ j < k, j ∈ l) : l = List.range l.length := by
  have hnodup : l.Nodup := increasing.imp (fun h => Nat.ne_of_lt h)
  have hsub : ∀ k ∈ l, k < l.length := by
    intro k hk
    have hall : ∀ j ∈ List.range (k + 1), j ∈ l := by
      intro j hj
      rcases Nat.lt_succ_iff_lt_or_eq.mp (List.mem_range.mp hj) with hj | rfl
      · exact closed k hk j hj
      · exact hk
    have hle := (List.subperm_of_subset List.nodup_range hall).length_le
    rwa [List.length_range] at hle
  have hperm : l.Perm (List.range l.length) :=
    (List.subperm_of_subset hnodup fun k hk => List.mem_range.mpr (hsub k hk)).perm_of_length_le
      (by rw [List.length_range])
  exact hperm.eq_of_pairwise (fun _ _ _ _ h h' => absurd h' (Nat.lt_asymm h)) increasing
    List.pairwise_lt_range

end Lists

variable {C : Type u} {O : Type v} {R : Type w}

/-- Every client numbers its calls, and makes one when all those before it have returned. -/
def Blocking (history : List (Event (C × Nat) O R)) : Prop :=
  ∀ before c k op after, history = before ++ .invoke (c, k) op :: after →
    ∀ j < k, ∃ r, .respond (c, j) r ∈ before

section Order

variable {history : List (Event (C × Nat) O R)} {order front back : List (Call (C × Nat) O R)}
  {a b : Call (C × Nat) O R}

theorem earlier_call (lin : Linearizes history order) (blocking : Blocking history)
    (hb : b ∈ order) {j : Nat} (hj : j < b.id.2) :
    ∃ a ∈ order, a.id = (b.id.1, j) ∧ Precedes order a b := by
  obtain ⟨first, last, split⟩ := List.append_of_mem (lin.invoked b hb)
  obtain ⟨r, hr⟩ := blocking first b.id.1 b.id.2 b.op last split j hj
  obtain ⟨op, ha⟩ := lin.returned (b.id.1, j) r (split ▸ List.mem_append_left _ hr)
  refine ⟨_, ha, rfl, lin.realTime _ ha b hb ?_⟩
  exact ⟨first, _, split, hr, List.mem_cons_self⟩

theorem lt_of_precedes (lin : Linearizes history order) (blocking : Blocking history)
    (h : Precedes order a b) (same : a.id.1 = b.id.1) : a.id.2 < b.id.2 := by
  have hnodup := lin.nodup.of_map
  have hab := h
  obtain ⟨first, last, rfl, ha, hb⟩ := h
  have ha := List.mem_append_left last ha
  have hb := List.mem_append_right first hb
  rcases Nat.lt_trichotomy a.id.2 b.id.2 with hlt | heq | hgt
  · exact hlt
  · obtain rfl := List.inj_on_of_nodup_map lin.nodup ha hb (Prod.ext same heq)
    exact absurd hab (not_precedes_of_precedes hnodup hab)
  · obtain ⟨b', hb', hid, hba⟩ := earlier_call lin blocking ha hgt
    obtain rfl := List.inj_on_of_nodup_map lin.nodup hb' hb (hid.trans (Prod.ext same rfl))
    exact absurd hba (not_precedes_of_precedes hnodup hab)

variable [DecidableEq C]

def made (c : C) (order : List (Call (C × Nat) O R)) : Nat := order.countP (·.id.1 = c)

/-- The numbers of the calls of each client go up one by one. -/
def InOrder (order : List (Call (C × Nat) O R)) : Prop :=
  ∀ c, (order.filter (·.id.1 = c)).map (·.id.2) = List.range (made c order)

theorem inOrder_front (lin : Linearizes history (front ++ back)) (blocking : Blocking history) :
    InOrder front := by
  intro c
  have hlength : ((front.filter (·.id.1 = c)).map (·.id.2)).length = made c front := by
    rw [List.length_map, ← List.countP_eq_length_filter, made]
  rw [← hlength]
  refine eq_range_of_closed ?_ ?_
  · rw [List.pairwise_map, List.pairwise_iff_forall_sublist]
    intro a b hab
    have ha : a.id.1 = c := by
      simpa using (List.mem_filter.mp (hab.subset List.mem_cons_self)).2
    have hb : b.id.1 = c := by
      simpa using (List.mem_filter.mp (hab.subset (by simp))).2
    refine lt_of_precedes lin blocking (precedes_of_sublist ?_) (ha.trans hb.symm)
    exact (hab.trans List.filter_sublist).trans (List.sublist_append_left front back)
  · intro k hk j hj
    obtain ⟨b, hb, rfl⟩ := List.mem_map.mp hk
    obtain ⟨hb, hc⟩ := List.mem_filter.mp hb
    obtain ⟨a, _, hid, hab⟩ := earlier_call lin blocking (List.mem_append_left back hb) hj
    have ha := mem_of_precedes lin.nodup.of_map hab hb
    refine List.mem_map.mpr ⟨a, List.mem_filter.mpr ⟨ha, ?_⟩, by rw [hid]⟩
    rwa [hid]

theorem InOrder.exists_iff (h : InOrder order) {c : C} {k : Nat} :
    (∃ a ∈ order, a.id = (c, k)) ↔ k < made c order := by
  rw [← List.mem_range, ← h c]
  simp only [List.mem_map, List.mem_filter, decide_eq_true_eq]
  constructor
  · rintro ⟨a, ha, hid⟩
    exact ⟨a, ⟨ha, by rw [hid]⟩, by rw [hid]⟩
  · rintro ⟨a, ⟨ha, rfl⟩, rfl⟩
    exact ⟨a, ha, rfl⟩

def before (id : C × Nat) (order : List (Call (C × Nat) O R)) : List (Call (C × Nat) O R) :=
  order.takeWhile (·.id ≠ id)

theorem split_before (nodup : (order.map Call.id).Nodup) (ha : a ∈ order) :
    ∃ after, order = before a.id order ++ a :: after := by
  induction order with
  | nil => cases ha
  | cons b order ih =>
    rcases List.mem_cons.mp ha with rfl | ha
    · exact ⟨order, by simp [before]⟩
    · have hne : b.id ≠ a.id := by
        intro same
        rw [List.map_cons, same] at nodup
        exact (List.nodup_cons.mp nodup).1 (List.mem_map_of_mem ha)
      obtain ⟨after, hafter⟩ := ih (List.nodup_cons.mp nodup).2 ha
      refine ⟨after, ?_⟩
      rw [before, List.takeWhile_cons_of_pos (by simpa using hne), List.cons_append, ← before,
        ← hafter]

theorem mem_before_iff (nodup : (order.map Call.id).Nodup) (ha : a ∈ order) :
    b ∈ before a.id order ↔ Precedes order b a := by
  obtain ⟨after, split⟩ := split_before nodup ha
  constructor
  · intro hb
    exact ⟨_, _, split, hb, List.mem_cons_self⟩
  · intro h
    have hnodup := nodup.of_map
    have hsplit : order = (before a.id order ++ [a]) ++ after := by
      rw [List.append_assoc]
      exact split
    have hb : b ∈ before a.id order ++ [a] :=
      mem_of_precedes (hsplit ▸ hnodup) (hsplit ▸ h) (by simp)
    rcases List.mem_append.mp hb with hb | hb
    · exact hb
    · obtain rfl := List.mem_singleton.mp hb
      exact absurd h (not_precedes_of_precedes hnodup h)

/-- A client has made a call before another exactly if the call stands before it. -/
theorem lt_made_before_iff (lin : Linearizes history order) (blocking : Blocking history)
    (ha : a ∈ order) {c : C} {k : Nat} :
    k < made c (before a.id order) ↔ ∃ b ∈ order, b.id = (c, k) ∧ Precedes order b a := by
  obtain ⟨after, split⟩ := split_before lin.nodup ha
  have hfront : InOrder (before a.id order) := inOrder_front (split ▸ lin) blocking
  rw [← hfront.exists_iff]
  constructor
  · rintro ⟨b, hb, hid⟩
    have hab := (mem_before_iff lin.nodup ha).mp hb
    exact ⟨b, List.takeWhile_subset _ hb, hid, hab⟩
  · rintro ⟨b, _, hid, hab⟩
    exact ⟨b, (mem_before_iff lin.nodup ha).mpr hab, hid⟩

theorem made_before_le (lin : Linearizes history order) (blocking : Blocking history)
    (ha : a ∈ order) (hb : b ∈ order) (h : Precedes order a b) (c : C) :
    made c (before a.id order) ≤ made c (before b.id order) := by
  by_contra more
  obtain ⟨d, hd, hid, hda⟩ :=
    (lt_made_before_iff lin blocking ha).mp (Nat.lt_of_not_le more)
  have hdb := precedes_trans lin.nodup.of_map hda h
  exact Nat.lt_irrefl _ ((lt_made_before_iff lin blocking hb).mpr ⟨d, hd, hid, hdb⟩)

end Order

end SimTools.Lib.Sessions
