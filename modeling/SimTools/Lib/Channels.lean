/- Module: SimTools/Lib/Channels
   digest: Reliable FIFO channels kept in one pool, and what a receive does to any count over it. -/

import Mathlib.Algebra.GroupWithZero.Nat
import Mathlib.Data.List.Perm.Basic
import Mathlib.Data.List.Count

set_option autoImplicit false
set_option relaxedAutoImplicit false

namespace SimTools.Lib.Channels

universe u v

variable {P : Type u} {M : Type v}

/-- All messages under way, oldest first, each with the place where it is. -/
abbrev Pool (P : Type u) (M : Type v) := List (P × M)

def queueAt [DecidableEq P] (place : P) (pool : Pool P M) : List M :=
  (pool.filter (fun x => x.1 = place)).map Prod.snd

/-- Take the oldest message of one place. -/
def receive [DecidableEq P] (place : P) : Pool P M → Option (M × Pool P M)
  | [] => none
  | x :: pool =>
    if x.1 = place then some (x.2, pool)
    else (receive place pool).map (fun r => (r.1, x :: r.2))

section Receive

variable [DecidableEq P] {place : P} {pool rest : Pool P M} {m : M}

theorem receive_cons_self (place : P) (m : M) (pool : Pool P M) :
    receive place ((place, m) :: pool) = some (m, pool) := if_pos rfl

theorem receive_split (h : receive place pool = some (m, rest)) :
    ∃ front back, pool = front ++ (place, m) :: back ∧ rest = front ++ back ∧
      ∀ x ∈ front, x.1 ≠ place := by
  induction pool generalizing rest with
  | nil => simp [receive] at h
  | cons x pool ih =>
    rw [receive] at h
    split at h
    · rename_i here
      cases h
      exact ⟨[], pool, by simp [← here], rfl, by simp⟩
    · rename_i elsewhere
      obtain ⟨⟨m', rest'⟩, hr, he⟩ := Option.map_eq_some_iff.mp h
      obtain ⟨rfl, rfl⟩ := Prod.mk.inj he
      obtain ⟨front, back, rfl, rfl, hfront⟩ := ih hr
      refine ⟨x :: front, back, rfl, rfl, ?_⟩
      intro y hy
      rcases List.mem_cons.mp hy with rfl | hy
      · exact elsewhere
      · exact hfront y hy

theorem receive_perm (h : receive place pool = some (m, rest)) :
    pool.Perm ((place, m) :: rest) := by
  obtain ⟨front, back, rfl, rfl, _⟩ := receive_split h
  exact List.perm_middle

theorem receive_mem (h : receive place pool = some (m, rest)) : (place, m) ∈ pool :=
  (receive_perm h).mem_iff.mpr List.mem_cons_self

theorem mem_of_mem_rest (h : receive place pool = some (m, rest)) {x : P × M} (hx : x ∈ rest) :
    x ∈ pool :=
  (receive_perm h).mem_iff.mpr (List.mem_cons_of_mem _ hx)

theorem mem_of_mem_moved (h : receive place pool = some (m, rest)) {x y : P × M}
    (hx : x ∈ rest ++ [y]) : x ∈ pool ∨ x = y := by
  rcases List.mem_append.mp hx with old | new
  · exact .inl (mem_of_mem_rest h old)
  · exact .inr (List.mem_singleton.mp new)

/-- First in, first out at the place that is read, and no other place is touched. -/
theorem receive_queueAt (h : receive place pool = some (m, rest)) (other : P) :
    queueAt other pool = if other = place then m :: queueAt other rest else queueAt other rest := by
  obtain ⟨front, back, rfl, rfl, hfront⟩ := receive_split h
  split
  · rename_i here
    subst here
    have hnone : front.filter (fun x => x.1 = other) = [] := by
      simpa [List.filter_eq_nil_iff] using hfront
    simp only [queueAt, List.filter_append, hnone]
    simp
  · rename_i elsewhere
    simp [queueAt, List.filter_append, Ne.symm elsewhere]

theorem length_queueAt_rest_le (h : receive place pool = some (m, rest)) (other : P) :
    (queueAt other rest).length ≤ (queueAt other pool).length := by
  rw [receive_queueAt h other]
  split <;> simp

theorem queueAt_append (other : P) (pool more : Pool P M) :
    queueAt other (pool ++ more) = queueAt other pool ++ queueAt other more := by
  rw [queueAt, List.filter_append, List.map_append, queueAt, queueAt]

theorem queueAt_append_singleton (other : P) :
    queueAt other (pool ++ [(place, m)]) =
      if other = place then queueAt other pool ++ [m] else queueAt other pool := by
  by_cases he : other = place
  · simp [queueAt, List.filter_append, he]
  · simp [queueAt, List.filter_append, he, Ne.symm he]

theorem length_queueAt (place : P) (pool : Pool P M) :
    (queueAt place pool).length = pool.countP (fun x => x.1 = place) := by
  rw [queueAt, List.length_map, List.countP_eq_length_filter]

theorem countP_mem_places {places : List P} (nodup : places.Nodup) (pool : Pool P M) :
    pool.countP (fun x => x.1 ∈ places) = (places.map (fun p => (queueAt p pool).length)).sum := by
  induction places with
  | nil => simp
  | cons p places ih =>
    obtain ⟨new, hrest⟩ := List.nodup_cons.mp nodup
    have hsplit : pool.countP (fun x => x.1 ∈ p :: places) =
        pool.countP (fun x => x.1 = p) + pool.countP (fun x => x.1 ∈ places) := by
      clear ih
      induction pool with
      | nil => rfl
      | cons x pool ihp =>
        rw [List.countP_cons, List.countP_cons, List.countP_cons, ihp]
        simp only [List.mem_cons, decide_eq_true_eq]
        by_cases here : x.1 = p
        · simp only [here, true_or, new, ↓reduceIte]
          omega
        · simp only [here, false_or, ↓reduceIte]
          omega
    rw [hsplit, ih hrest, List.map_cons, List.sum_cons, length_queueAt]

theorem receive_eq_none_iff : receive place pool = none ↔ queueAt place pool = [] := by
  induction pool with
  | nil => simp [receive, queueAt]
  | cons x pool ih =>
    rw [receive]
    by_cases here : x.1 = place
    · simp [here, queueAt]
    · simp only [here, ↓reduceIte, Option.map_eq_none_iff, ih]
      simp [queueAt, here]

theorem exists_receive {ms : List M} (h : queueAt place pool = m :: ms) :
    ∃ rest, receive place pool = some (m, rest) ∧ queueAt place rest = ms := by
  cases hreceive : receive place pool with
  | none =>
    rw [receive_eq_none_iff.mp hreceive] at h
    cases h
  | some r =>
    have hqueue := receive_queueAt hreceive place
    rw [if_pos rfl, h] at hqueue
    obtain ⟨rfl, hrest⟩ := List.cons.inj hqueue
    exact ⟨r.2, rfl, hrest.symm⟩

theorem mem_queueAt : m ∈ queueAt place pool ↔ (place, m) ∈ pool := by
  constructor
  · intro hm
    obtain ⟨⟨p, m'⟩, hp, rfl⟩ := List.mem_map.mp hm
    obtain ⟨hmem, here⟩ := List.mem_filter.mp hp
    obtain rfl : p = place := of_decide_eq_true here
    exact hmem
  · intro hm
    exact List.mem_map.mpr ⟨(place, m), by simp [hm], rfl⟩

theorem receive_isSome_of_mem (h : (place, m) ∈ pool) : (receive place pool).isSome := by
  by_contra hnone
  have hempty := receive_eq_none_iff.mp (Option.not_isSome_iff_eq_none.mp hnone)
  have hm := mem_queueAt.mpr h
  simp [hempty] at hm

theorem exists_receive_of_mem (h : (place, m) ∈ pool) :
    ∃ m rest, receive place pool = some (m, rest) := by
  obtain ⟨⟨m', rest⟩, got⟩ := Option.isSome_iff_exists.mp (receive_isSome_of_mem h)
  exact ⟨m', rest, got⟩

theorem exists_mem_of_queueAt_ne_nil (h : queueAt place pool ≠ []) : ∃ m, (place, m) ∈ pool := by
  obtain ⟨m, hm⟩ := List.exists_mem_of_ne_nil _ h
  exact ⟨m, mem_queueAt.mp hm⟩

theorem receive_concat_of_queueAt_nil (h : queueAt place pool = []) (m : M) :
    receive place (pool ++ [(place, m)]) = some (m, pool) := by
  induction pool with
  | nil => exact receive_cons_self place m []
  | cons x pool ih =>
    have elsewhere : x.1 ≠ place := by
      intro here
      simp [queueAt, here] at h
    have hrest : queueAt place pool = [] := by
      simpa [queueAt, elsewhere] using h
    rw [List.cons_append, receive, if_neg elsewhere, ih hrest]
    rfl

theorem receive_filter (h : receive place pool = some (m, rest)) (f : P × M → Bool) :
    (pool.filter f).Perm (if f (place, m) then (place, m) :: rest.filter f else rest.filter f) := by
  have hperm := (receive_perm h).filter f
  rwa [List.filter_cons] at hperm

theorem receive_filter_of_not (h : receive place pool = some (m, rest)) {f : P × M → Bool}
    (hf : f (place, m) = false) : rest.filter f = pool.filter f := by
  obtain ⟨front, back, rfl, rfl, _⟩ := receive_split h
  simp [List.filter_append, hf]

theorem receive_filter_of_singleton (h : receive place pool = some (m, rest)) {f : P × M → Bool}
    (hf : f (place, m) = true) {x : P × M} (only : pool.filter f = [x]) :
    x = (place, m) ∧ rest.filter f = [] := by
  have hperm := receive_filter h f
  rw [only, hf, if_pos rfl] at hperm
  have heq := List.perm_singleton.mp hperm.symm
  exact ⟨(List.cons.inj heq).1.symm, (List.cons.inj heq).2⟩

theorem receive_countP (h : receive place pool = some (m, rest)) (f : P × M → Bool) :
    pool.countP f = rest.countP f + if f (place, m) then 1 else 0 := by
  rw [(receive_perm h).countP_eq f, List.countP_cons]

theorem receive_append (h : receive place pool = some (m, rest)) (more : Pool P M) :
    receive place (pool ++ more) = some (m, rest ++ more) := by
  induction pool generalizing rest with
  | nil => simp [receive] at h
  | cons x pool ih =>
    rw [List.cons_append, receive]
    rw [receive] at h
    by_cases here : x.1 = place
    · rw [if_pos here] at h ⊢
      cases h
      rfl
    · rw [if_neg here] at h ⊢
      obtain ⟨⟨m', rest'⟩, hr, he⟩ := Option.map_eq_some_iff.mp h
      obtain ⟨rfl, rfl⟩ := Prod.mk.inj he
      rw [ih hr]
      rfl

end Receive

end SimTools.Lib.Channels
