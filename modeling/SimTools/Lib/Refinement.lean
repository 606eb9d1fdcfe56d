/- Module: SimTools/Lib/Refinement
   digest: What can be seen of the runs of a transition system, and simulations that preserve it. -/

import SimTools.Lib.Runs
import Mathlib.Data.Set.Basic

set_option autoImplicit false
set_option relaxedAutoImplicit false

namespace SimTools.Lib.Refinement

open Runs

universe u v w

/-- A transition system with what an observer sees of a step, by its event and the state that it
leads to. -/
structure Observed (S : Type u) (E : Type v) (V : Type w) where
  step : S → E → S → Prop
  see : E → S → Option V

variable {S S' : Type u} {E E' : Type v} {V : Type w}

/-- A run from `s` to `t` of which `vs` is seen. -/
inductive Seen (O : Observed S E V) : S → List V → S → Prop
  | nil (s : S) : Seen O s [] s
  | cons {s t w : S} {e : E} {vs : List V} :
      O.step s e t → Seen O t vs w → Seen O s ((O.see e t).toList ++ vs) w

/-- All that an observer may see from `start` on. -/
def traces (O : Observed S E V) (start : S) : Set (List V) := {vs | ∃ t, Seen O start vs t}

namespace Seen

variable {O : Observed S E V} {s t w : S} {vs ws : List V} {e : E}

theorem append (h : Seen O s vs t) (k : Seen O t ws w) : Seen O s (vs ++ ws) w := by
  induction h with
  | nil _ => exact k
  | cons hs _ ih =>
    rw [List.append_assoc]
    exact .cons hs (ih k)

theorem single (h : O.step s e t) : Seen O s (O.see e t).toList t := by
  simpa using Seen.cons h (.nil t)

theorem exists_of_run {es : List E} (h : Run O.step s es t) : ∃ vs, Seen O s vs t := by
  induction h with
  | nil s => exact ⟨[], .nil s⟩
  | cons hs _ ih =>
    obtain ⟨vs, h⟩ := ih
    exact ⟨_, .cons hs h⟩

theorem silent (h : Seen O s vs t) (k : O.step t e w) (hidden : O.see e w = none) :
    Seen O s vs w := by
  have hlast := h.append (single k)
  rwa [hidden, Option.toList_none, List.append_nil] at hlast

theorem snoc {v : V} (h : Seen O s vs t) (k : O.step t e w) (shown : O.see e w = some v) :
    Seen O s (vs ++ [v]) w := by
  have hlast := h.append (single k)
  rwa [shown, Option.toList_some] at hlast

/-- What every step preserves of what has been seen so far and the state reached. -/
theorem invariant {I : List V → S → Prop}
    (preserved : ∀ past s e t, I past s → O.step s e t → I (past ++ (O.see e t).toList) t)
    (h : Seen O s vs t) (start : I [] s) : I vs t := by
  have hlater : ∀ past, I past s → I (past ++ vs) t := by
    clear start
    induction h with
    | nil _ =>
      intro past hpast
      rwa [List.append_nil]
    | cons hs _ ih =>
      intro past hpast
      rw [← List.append_assoc]
      exact ih _ (preserved _ _ _ _ hpast hs)
  exact hlater [] start

end Seen

/-- Every step of the first system is answered by a run of the second that looks the same. -/
structure Simulates (O : Observed S E V) (O' : Observed S' E' V) (rel : S → S' → Prop) : Prop where
  answer : ∀ s e t a, rel s a → O.step s e t → ∃ b, Seen O' a (O.see e t).toList b ∧ rel t b

namespace Simulates

variable {O : Observed S E V} {O' : Observed S' E' V} {rel : S → S' → Prop} {s t : S} {a : S'}
  {vs : List V}

theorem seen (sim : Simulates O O' rel) (h : Seen O s vs t) (start : rel s a) :
    ∃ b, Seen O' a vs b ∧ rel t b := by
  induction h generalizing a with
  | nil _ => exact ⟨a, .nil a, start⟩
  | cons hs _ ih =>
    obtain ⟨b, hb, hrel⟩ := sim.answer _ _ _ _ start hs
    obtain ⟨c, hc, hend⟩ := ih hrel
    exact ⟨c, hb.append hc, hend⟩

theorem traces_subset (sim : Simulates O O' rel) (start : rel s a) : traces O s ⊆ traces O' a := by
  rintro vs ⟨t, h⟩
  obtain ⟨b, hb, _⟩ := sim.seen h start
  exact ⟨b, hb⟩

end Simulates

end SimTools.Lib.Refinement
