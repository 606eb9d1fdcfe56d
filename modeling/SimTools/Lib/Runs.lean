/- Module: SimTools/Lib/Runs
   digest: Runs of a labelled transition system, invariants over them, and bounds from a potential. -/

import Mathlib.Data.List.Count
import Mathlib.Order.Basic

set_option autoImplicit false
set_option relaxedAutoImplicit false

namespace SimTools.Lib.Runs

universe u v

variable {S : Type u} {E : Type v}

/-- A finite run with the events of its steps. -/
inductive Run (step : S → E → S → Prop) : S → List E → S → Prop
  | nil (s : S) : Run step s [] s
  | cons {s t w : S} {e : E} {es : List E} :
      step s e t → Run step t es w → Run step s (e :: es) w

namespace Run

variable {step : S → E → S → Prop} {s t w : S} {es fs : List E}

theorem append (h : Run step s es t) (k : Run step t fs w) : Run step s (es ++ fs) w := by
  induction h with
  | nil _ => exact k
  | cons hs _ ih => exact .cons hs (ih k)

theorem single {e : E} (h : step s e t) : Run step s [e] t := .cons h (.nil t)

theorem snoc {e : E} (h : Run step s es t) (k : step t e w) : Run step s (es ++ [e]) w :=
  h.append (single k)

theorem split (h : Run step s (es ++ fs) w) : ∃ t, Run step s es t ∧ Run step t fs w := by
  induction es generalizing s with
  | nil => exact ⟨s, .nil s, h⟩
  | cons e es ih =>
    cases h with
    | cons hs ht =>
      obtain ⟨t, hl, hr⟩ := ih ht
      exact ⟨t, .cons hs hl, hr⟩

theorem mono_of_mem {step' : S → E → S → Prop} (h : Run step s es t)
    (more : ∀ s e t, e ∈ es → step s e t → step' s e t) : Run step' s es t := by
  induction h with
  | nil s => exact .nil s
  | cons hs _ ih =>
    exact .cons (more _ _ _ List.mem_cons_self hs)
      (ih (fun _ _ _ he => more _ _ _ (List.mem_cons_of_mem _ he)))

theorem mono {step' : S → E → S → Prop} (h : Run step s es t)
    (more : ∀ s e t, step s e t → step' s e t) : Run step' s es t :=
  h.mono_of_mem (fun s e t _ => more s e t)

/-- What every step preserves holds at the end of a run. -/
theorem invariant {I : S → Prop} (preserved : ∀ s e t, I s → step s e t → I t)
    (h : Run step s es t) (start : I s) : I t := by
  induction h with
  | nil _ => exact start
  | cons hs _ ih => exact ih (preserved _ _ _ start hs)

theorem exists_past_of_mem (h : Run step s es t) {e : E} (he : e ∈ es) :
    ∃ past u v, Run step s past u ∧ step u e v ∧ past ++ [e] <+: es := by
  obtain ⟨past, later, rfl⟩ := List.append_of_mem he
  obtain ⟨u, hpast, hrest⟩ := h.split
  cases hrest with
  | @cons _ v _ _ _ hs _ =>
    exact ⟨past, u, v, hpast, hs, later, by rw [List.append_assoc, List.singleton_append]⟩

theorem exists_step_of_mem {I : S → Prop} (preserved : ∀ s e t, I s → step s e t → I t)
    (h : Run step s es t) (start : I s) {e : E} (he : e ∈ es) : ∃ u v, I u ∧ step u e v := by
  obtain ⟨past, u, v, hpast, hs, -⟩ := h.exists_past_of_mem he
  exact ⟨u, v, hpast.invariant preserved start, hs⟩

/-- What every step preserves of the events so far and the state reached. -/
theorem history_invariant {I : List E → S → Prop}
    (preserved : ∀ past s e t, I past s → step s e t → I (past ++ [e]) t)
    (h : Run step s es t) {past : List E} (start : I past s) : I (past ++ es) t := by
  induction h generalizing past with
  | nil _ => simpa using start
  | cons hs _ ih =>
    have hnext := ih (preserved _ _ _ _ start hs)
    rwa [List.append_assoc] at hnext

theorem exists_trace (h : Run step s es t) :
    ∃ σ : Nat → S, σ 0 = s ∧ σ es.length = t ∧ ∀ k < es.length, ∃ e, step (σ k) e (σ (k + 1)) := by
  induction h with
  | nil s => exact ⟨fun _ => s, rfl, rfl, by simp⟩
  | @cons s t w e es hs _ ih =>
    obtain ⟨σ, hstart, hend, hsteps⟩ := ih
    refine ⟨fun k => k.casesOn s σ, rfl, hend, ?_⟩
    intro k hk
    cases k with
    | zero => exact ⟨e, by rw [← hstart] at hs; exact hs⟩
    | succ k => exact hsteps k (Nat.lt_of_succ_lt_succ hk)

theorem exists_numbered [Inhabited E] (h : Run step s es t) :
    ∃ (σ : Nat → S) (act : Nat → E), σ 0 = s ∧ σ es.length = t ∧
      (List.range es.length).map act = es ∧ ∀ k < es.length, step (σ k) (act k) (σ (k + 1)) := by
  induction h with
  | nil s => exact ⟨fun _ => s, fun _ => default, rfl, rfl, rfl, by simp⟩
  | @cons s t w e es hs _ ih =>
    obtain ⟨σ, act, hstart, hend, hes, hsteps⟩ := ih
    refine ⟨fun k => k.casesOn s σ, fun k => k.casesOn e act, rfl, hend, ?_, ?_⟩
    · rw [List.length_cons, List.range_succ_eq_map, List.map_cons, List.map_map]
      exact congrArg (e :: ·) hes
    · intro k hk
      cases k with
      | zero =>
        rw [← hstart] at hs
        exact hs
      | succ k => exact hsteps k (Nat.lt_of_succ_lt_succ hk)

end Run

/-- A potential that no step raises and that every step of the class `K` lowers. -/
structure Potential (step : S → E → S → Prop) (I : S → Prop) (K : E → Bool) (value : S → Nat) :
    Prop where
  preserved : ∀ s e t, I s → step s e t → I t
  antitone : ∀ s e t, I s → step s e t → value t ≤ value s
  lowered : ∀ s e t, I s → step s e t → K e = true → value t < value s

namespace Potential

variable {step : S → E → S → Prop} {I : S → Prop} {K : E → Bool} {value : S → Nat}
  {s t : S} {es : List E}

/-- The steps of the class are paid for by the potential. -/
theorem countP_add_le (p : Potential step I K value) (h : Run step s es t) (start : I s) :
    es.countP K + value t ≤ value s := by
  induction h with
  | nil _ => simp
  | @cons s t w e es hs _ ih =>
    have hrest := ih (p.preserved _ _ _ start hs)
    have hle := p.antitone _ _ _ start hs
    rw [List.countP_cons]
    split
    · rename_i hK
      have hlt := p.lowered _ _ _ start hs hK
      omega
    · omega

theorem countP_eq_zero_of_lt (p : Potential step I K value) {L : E → Bool} {level : Nat}
    (at_level : ∀ s e t, I s → step s e t → L e = true → level ≤ value s)
    (h : Run step s es t) (start : I s) (below : value s < level) : es.countP L = 0 := by
  induction h with
  | nil _ => simp
  | @cons s t w e es hs ht ih =>
    have hle := p.antitone _ _ _ start hs
    rw [List.countP_cons, ih (p.preserved _ _ _ start hs) (by omega)]
    split
    · rename_i hL
      have := at_level _ _ _ start hs hL
      omega
    · rfl

theorem countP_le_one (p : Potential step I K value) {L : E → Bool} {level : Nat}
    (sub : ∀ e, L e = true → K e = true)
    (at_level : ∀ s e t, I s → step s e t → L e = true → value s = level)
    (h : Run step s es t) (start : I s) : es.countP L ≤ 1 := by
  induction h with
  | nil _ => simp
  | @cons s t w e es hs ht ih =>
    have hI := p.preserved _ _ _ start hs
    rw [List.countP_cons]
    split
    · rename_i hL
      have hlt := p.lowered _ _ _ start hs (sub e hL)
      have hlevel := at_level _ _ _ start hs hL
      have hneeds : ∀ s e t, I s → step s e t → L e = true → level ≤ value s := by
        intro s e t hI hs hL
        exact Nat.le_of_eq (at_level s e t hI hs hL).symm
      have hnone := p.countP_eq_zero_of_lt hneeds ht hI (by omega)
      omega
    · have := ih hI
      omega

end Potential

end SimTools.Lib.Runs
