/- Module: SimTools/Lib/OpenCalls
   digest: Systems in which every open call has one message under way, and nobody else has any. -/

import SimTools.Lib.Channels
import Mathlib.Logic.Function.Basic

set_option autoImplicit false
set_option relaxedAutoImplicit false

namespace SimTools.Lib.OpenCalls

open Channels

universe u v w x

variable {P : Type u} {M : Type v} {C : Type w} {Q : Type x}

/-- What the message of a call looks like at each place on its way, and how it tells its client. -/
structure Way (P : Type u) (M : Type v) (C : Type w) (Q : Type x) where
  on : C → Q → P → M → Prop
  owner : P × M → Option C
  owner_eq : ∀ c q p m, on c q p m → owner (p, m) = some c

variable [DecidableEq C]

/-- Every message is that of an open call, and every open call has one. -/
structure OneEach (W : Way P M C Q) (opened : C → Option Q) (pool : Pool P M) : Prop where
  onWay : ∀ p m, (p, m) ∈ pool → ∃ c q, opened c = some q ∧ W.on c q p m
  one : ∀ c, pool.countP (fun x => W.owner x = some c) = (opened c).toList.length

namespace OneEach

variable {W : Way P M C Q} {opened : C → Option Q} {pool rest : Pool P M} {c : C} {q : Q}
  {p p' : P} {m m' : M}

theorem nil (W : Way P M C Q) : OneEach W (fun _ => none) [] := ⟨by simp, by simp⟩

theorem countP_singleton (on : W.on c q p m) (d : C) :
    [(p, m)].countP (fun x => W.owner x = some d) = if c = d then 1 else 0 := by
  rw [List.countP_singleton, W.owner_eq c q p m on]
  simp

theorem send (h : OneEach W opened pool) (idle : opened c = none) (on : W.on c q p m) :
    OneEach W (Function.update opened c (some q)) (pool ++ [(p, m)]) := by
  refine ⟨fun p' m' hmem => ?_, fun d => ?_⟩
  · rcases List.mem_append.mp hmem with hmem | hmem
    · obtain ⟨d, r, hd, way⟩ := h.onWay p' m' hmem
      have hne : d ≠ c := by
        rintro rfl
        rw [idle] at hd
        cases hd
      exact ⟨d, r, by rw [Function.update_of_ne hne, hd], way⟩
    · cases List.mem_singleton.mp hmem
      exact ⟨c, q, Function.update_self _ _ _, on⟩
  · rw [List.countP_append, h.one d, countP_singleton on]
    by_cases here : c = d
    · subst here
      simp [idle]
    · simp [here, Function.update_of_ne (Ne.symm here)]

variable [DecidableEq P]

theorem exists_onWay (h : OneEach W opened pool) (got : receive p pool = some (m, rest)) :
    ∃ c q, opened c = some q ∧ W.on c q p m := h.onWay p m (receive_mem got)

theorem move (h : OneEach W opened pool) (got : receive p pool = some (m, rest))
    (hopen : opened c = some q) (on : W.on c q p m) (further : W.on c q p' m') :
    OneEach W opened (rest ++ [(p', m')]) := by
  refine ⟨fun p'' m'' hmem => ?_, fun d => ?_⟩
  · rcases mem_of_mem_moved got hmem with hmem | new
    · exact h.onWay p'' m'' hmem
    · cases new
      exact ⟨c, q, hopen, further⟩
  · have hgot := receive_countP got (fun x => W.owner x = some d)
    rw [W.owner_eq c q p m on] at hgot
    rw [List.countP_append, countP_singleton further, ← h.one d, hgot]
    simp

theorem close (h : OneEach W opened pool) (got : receive p pool = some (m, rest))
    (hopen : opened c = some q) (on : W.on c q p m) :
    OneEach W (Function.update opened c none) rest := by
  have hgot : ∀ d, pool.countP (fun x => W.owner x = some d) =
      rest.countP (fun x => W.owner x = some d) + if c = d then 1 else 0 := by
    intro d
    have hcount := receive_countP got (fun x => W.owner x = some d)
    rw [W.owner_eq c q p m on] at hcount
    simpa using hcount
  have hgone : rest.countP (fun x => W.owner x = some c) = 0 := by
    have hone := h.one c
    rw [hgot c, hopen, if_pos rfl] at hone
    simpa using hone
  refine ⟨fun p' m' hmem => ?_, fun d => ?_⟩
  · obtain ⟨d, r, hd, way⟩ := h.onWay p' m' (mem_of_mem_rest got hmem)
    have hne : d ≠ c := by
      rintro rfl
      have hnot := List.countP_eq_zero.mp hgone _ hmem
      simp [W.owner_eq d r p' m' way] at hnot
    exact ⟨d, r, by rw [Function.update_of_ne hne, hd], way⟩
  · by_cases here : c = d
    · subst here
      simp [hgone]
    · rw [Function.update_of_ne (Ne.symm here), ← h.one d, hgot d, if_neg here, Nat.add_zero]

omit [DecidableEq P] in
theorem exists_message (h : OneEach W opened pool) (hopen : opened c = some q) :
    ∃ p m, pool.filter (fun x => W.owner x = some c) = [(p, m)] ∧ W.on c q p m := by
  have hone := h.one c
  rw [hopen, Option.toList_some, List.length_singleton, List.countP_eq_length_filter] at hone
  obtain ⟨⟨p, m⟩, hfilter⟩ := List.length_eq_one_iff.mp hone
  have hmem : (p, m) ∈ pool.filter (fun x => W.owner x = some c) := by simp [hfilter]
  obtain ⟨hmem, howner⟩ := List.mem_filter.mp hmem
  obtain ⟨d, r, hd, way⟩ := h.onWay p m hmem
  rw [W.owner_eq d r p m way, decide_eq_true_eq, Option.some.injEq] at howner
  subst howner
  rw [hopen] at hd
  cases hd
  exact ⟨p, m, hfilter, way⟩

omit [DecidableEq P] in
theorem filter_of_idle (h : OneEach W opened pool) (idle : opened c = none) :
    pool.filter (fun x => W.owner x = some c) = [] := by
  have hone := h.one c
  rw [idle, Option.toList_none, List.length_nil, List.countP_eq_length_filter] at hone
  exact List.length_eq_zero_iff.mp hone

end OneEach

section Requested

variable [DecidableEq P]

/-- Nothing is under way but the requests of the open calls. -/
structure Requested (place : C → P) (ask : Q → M) (opened : C → Option Q) (pool : Pool P M) :
    Prop where
  waiting : ∀ c, queueAt (place c) pool = ((opened c).map ask).toList
  others : ∀ p, (∀ c, p ≠ place c) → queueAt p pool = []

variable {place : C → P} {ask : Q → M} {opened : C → Option Q} {pool : Pool P M} {c : C} {q : Q}

omit [DecidableEq C] in
theorem requested_nil (place : C → P) (ask : Q → M) : Requested place ask (fun _ => none) [] :=
  ⟨fun _ => rfl, fun _ _ => rfl⟩

namespace Requested

theorem send (h : Requested place ask opened pool) (injective : Function.Injective place)
    (idle : opened c = none) (q : Q) :
    Requested place ask (Function.update opened c (some q)) (pool ++ [(place c, ask q)]) := by
  refine ⟨fun d => ?_, fun p elsewhere => ?_⟩
  · rw [queueAt_append_singleton]
    by_cases here : d = c
    · subst here
      rw [if_pos rfl, Function.update_self, h.waiting d, idle]
      rfl
    · rw [if_neg (fun he => here (injective he)), Function.update_of_ne here]
      exact h.waiting d
  · rw [queueAt_append_singleton, if_neg (elsewhere c)]
    exact h.others p elsewhere

theorem take (h : Requested place ask opened pool) (injective : Function.Injective place)
    (hopen : opened c = some q) :
    ∃ rest, receive (place c) pool = some (ask q, rest) ∧
      Requested place ask (Function.update opened c none) rest := by
  have hqueue := h.waiting c
  rw [hopen] at hqueue
  obtain ⟨rest, got, hrest⟩ := exists_receive hqueue
  refine ⟨rest, got, fun d => ?_, fun p elsewhere => ?_⟩
  · by_cases here : d = c
    · subst here
      rw [hrest, Function.update_self]
      rfl
    · have hsame := receive_queueAt got (place d)
      rw [if_neg (fun he => here (injective he)), h.waiting d] at hsame
      rw [Function.update_of_ne here, hsame]
  · have hsame := receive_queueAt got p
    rw [if_neg (elsewhere c)] at hsame
    rw [← hsame]
    exact h.others p elsewhere

end Requested

end Requested

end SimTools.Lib.OpenCalls
