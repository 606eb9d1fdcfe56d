/- Module: SimTools/Lib/Views
   digest: Pools that hold the same messages at some of their places, and steps that keep it so. -/

import SimTools.Lib.Channels

set_option autoImplicit false
set_option relaxedAutoImplicit false

namespace SimTools.Lib.Views

open Channels

universe u v w

variable {P : Type u} {M : Type v} {N : Type w} [DecidableEq P]

/-- At the places in `K` the second pool has what `f` makes of the messages of the first. -/
def View (K : P → Prop) (f : M → N) (pool : Pool P M) (pool' : Pool P N) : Prop :=
  ∀ p, K p → queueAt p pool' = (queueAt p pool).map f

namespace View

variable {K : P → Prop} {f : M → N} {pool rest more : Pool P M} {pool' more' : Pool P N} {p : P}
  {m : M}

theorem append (h : View K f pool pool') (k : View K f more more') :
    View K f (pool ++ more) (pool' ++ more') := by
  intro q hq
  rw [queueAt_append, queueAt_append, List.map_append, h q hq, k q hq]

theorem receive (h : View K f pool pool') (got : receive p pool = some (m, rest)) (inside : K p) :
    ∃ rest', Channels.receive p pool' = some (f m, rest') ∧ View K f rest rest' := by
  have hqueue : queueAt p pool' = f m :: (queueAt p rest).map f := by
    rw [h p inside, receive_queueAt got, if_pos rfl, List.map_cons]
  obtain ⟨rest', got', hrest⟩ := exists_receive hqueue
  refine ⟨rest', got', fun q hq => ?_⟩
  by_cases here : q = p
  · subst here
    exact hrest
  · have hafter := receive_queueAt got' q
    have hbefore := receive_queueAt got q
    rw [if_neg here] at hafter hbefore
    rw [← hafter, h q hq, hbefore]

theorem exists_mem {n : N} (h : View K f pool pool') (hn : (p, n) ∈ pool') (inside : K p) :
    ∃ m, (p, m) ∈ pool ∧ f m = n := by
  have hqueue := mem_queueAt.mpr hn
  rw [h p inside] at hqueue
  obtain ⟨m, hm, rfl⟩ := List.mem_map.mp hqueue
  exact ⟨m, mem_queueAt.mp hm, rfl⟩

theorem skip (h : View K f pool pool') (got : Channels.receive p pool = some (m, rest))
    (outside : ¬ K p) : View K f rest pool' := by
  intro q hq
  have hne : q ≠ p := by
    rintro rfl
    exact outside hq
  have hbefore := receive_queueAt got q
  rw [if_neg hne] at hbefore
  rw [h q hq, hbefore]

theorem map (K : P → Prop) (f : M → N) (g : P × N → P × M) (place : ∀ x, (g x).1 = x.1)
    (message : ∀ x, f (g x).2 = x.2) (pool' : Pool P N) : View K f (pool'.map g) pool' := by
  intro q _
  induction pool' with
  | nil => rfl
  | cons x pool' ih =>
    simp only [queueAt] at ih ⊢
    by_cases here : x.1 = q
    · rw [List.map_cons, List.filter_cons_of_pos (by simpa using here),
        List.filter_cons_of_pos (by simpa [place] using here), List.map_cons, List.map_cons,
        List.map_cons, ih, message]
    · rw [List.map_cons, List.filter_cons_of_neg (by simpa using here),
        List.filter_cons_of_neg (by simpa [place] using here), ih]

theorem outside (outside : ∀ x ∈ pool, ¬ K x.1) : View K f pool [] := by
  intro q hq
  have hnone : pool.filter (fun x => x.1 = q) = [] := by
    rw [List.filter_eq_nil_iff]
    intro x hx here
    have hplace : x.1 = q := of_decide_eq_true here
    exact outside x hx (hplace ▸ hq)
  rw [queueAt, queueAt, hnone]
  rfl

end View

end SimTools.Lib.Views
