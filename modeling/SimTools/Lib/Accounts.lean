/- Module: SimTools/Lib/Accounts
   digest: Weights of what is under way, values that steps spend and earn, and runs that drain them. -/

import SimTools.Lib.Channels
import SimTools.Lib.Runs
import Mathlib.Algebra.BigOperators.Group.Finset.Basic
import Mathlib.Logic.Function.Basic

set_option autoImplicit false
set_option relaxedAutoImplicit false

namespace SimTools.Lib.Accounts

open Channels
open Runs

universe u v w x

section Weight

variable {P : Type u} {M : Type v}

def weight (rank : P × M → Nat) (pool : Pool P M) : Nat := (pool.map rank).sum

variable {rank : P × M → Nat} {pool rest more : Pool P M} {p : P} {m : M}

@[simp] theorem weight_nil (rank : P × M → Nat) : weight rank [] = 0 := rfl

@[simp] theorem weight_singleton (rank : P × M → Nat) (x : P × M) : weight rank [x] = rank x :=
  Nat.add_zero _

@[simp] theorem weight_append :
    weight rank (pool ++ more) = weight rank pool + weight rank more := by
  rw [weight, List.map_append, List.sum_append, weight, weight]

theorem weight_receive [DecidableEq P] (rank : P × M → Nat)
    (got : receive p pool = some (m, rest)) :
    weight rank pool = rank (p, m) + weight rank rest := by
  rw [weight, ((receive_perm got).map rank).sum_nat, List.map_cons, List.sum_cons, weight]

theorem weight_eq_zero_iff (pos : ∀ x ∈ pool, rank x ≠ 0) : weight rank pool = 0 ↔ pool = [] := by
  cases pool with
  | nil => simp
  | cons x pool =>
    have hpos := pos x List.mem_cons_self
    simp [weight, hpos]

end Weight

theorem sum_update {W : Type u} {X : Type v} [DecidableEq W] (ws : Finset W) (worth : X → Nat)
    (f : W → X) {w : W} (hw : w ∈ ws) (x : X) :
    ∑ v ∈ ws, worth (Function.update f w x v) + worth (f w) = ∑ v ∈ ws, worth (f v) + worth x := by
  have hothers : ∑ v ∈ ws.erase w, worth (Function.update f w x v) =
      ∑ v ∈ ws.erase w, worth (f v) := by
    refine Finset.sum_congr rfl fun v hv => ?_
    rw [Function.update_of_ne (Finset.ne_of_mem_erase hv)]
  rw [← Finset.add_sum_erase ws _ hw, ← Finset.add_sum_erase ws (fun v => worth (f v)) hw, hothers,
    Function.update_self]
  omega

variable {S : Type u} {E : Type v}

/-- In every step the value changes by what the step earns and spends. -/
structure Account (step : S → E → S → Prop) (I : S → Prop) (value : S → Nat)
    (spent earned : E → Nat) : Prop where
  preserved : ∀ s e t, I s → step s e t → I t
  balanced : ∀ s e t, I s → step s e t → value t + spent e = value s + earned e

theorem Account.run {step : S → E → S → Prop} {I : S → Prop} {value : S → Nat}
    {spent earned : E → Nat} (account : Account step I value spent earned) {s t : S} {es : List E}
    (h : Run step s es t) (start : I s) :
    value t + (es.map spent).sum = value s + (es.map earned).sum := by
  induction h with
  | nil _ => rfl
  | cons hs _ ih =>
    have hfirst := account.balanced _ _ _ start hs
    have hrest := ih (account.preserved _ _ _ start hs)
    rw [List.map_cons, List.sum_cons, List.map_cons, List.sum_cons]
    omega

/-- In no step the value grows by more than what the step earns and does not spend. -/
structure Budget (step : S → E → S → Prop) (I : S → Prop) (value : S → Nat)
    (spent earned : E → Nat) : Prop where
  preserved : ∀ s e t, I s → step s e t → I t
  covered : ∀ s e t, I s → step s e t → value t + spent e ≤ value s + earned e

theorem Budget.run {step : S → E → S → Prop} {I : S → Prop} {value : S → Nat}
    {spent earned : E → Nat} (budget : Budget step I value spent earned) {s t : S} {es : List E}
    (h : Run step s es t) (start : I s) :
    value t + (es.map spent).sum ≤ value s + (es.map earned).sum := by
  induction h with
  | nil _ => exact Nat.le_refl _
  | cons hs _ ih =>
    have hfirst := budget.covered _ _ _ start hs
    have hrest := ih (budget.preserved _ _ _ start hs)
    rw [List.map_cons, List.sum_cons, List.map_cons, List.sum_cons]
    omega

theorem sum_map_ite (K : E → Bool) (n : Nat) (es : List E) :
    (es.map (fun e => if K e then n else 0)).sum = n * es.countP K := by
  induction es with
  | nil => rfl
  | cons e es ih =>
    rw [List.map_cons, List.sum_cons, ih, List.countP_cons]
    split
    · rw [Nat.mul_add, Nat.mul_one, Nat.add_comm]
    · rw [Nat.zero_add, Nat.add_zero]

section Calls

variable {C : Type w} {Q : Type x} [DecidableEq C]

/-- A step opens a call of a client that has none, closes the call of one, or leaves all calls. -/
inductive Turn (opened : C → Option Q) (sends receives : C → Bool) : (C → Option Q) → Prop
  | sends {c : C} {q : Q} : opened c = none → (∀ i, sends i = decide (c = i)) →
      (∀ i, receives i = false) → Turn opened sends receives
        (Function.update opened c (some q))
  | receives {c : C} : opened c ≠ none → (∀ i, receives i = decide (c = i)) →
      (∀ i, sends i = false) → Turn opened sends receives (Function.update opened c none)
  | keeps : (∀ i, sends i = false) → (∀ i, receives i = false) →
      Turn opened sends receives opened

theorem Turn.balanced {f g : C → Option Q} {sends receives : C → Bool}
    (h : Turn f sends receives g) (i : C) :
    (g i).toList.length + (if receives i then 1 else 0) =
      (f i).toList.length + (if sends i then 1 else 0) := by
  cases h with
  | @sends c q idle hsends hreceives =>
    rw [hsends, hreceives]
    by_cases here : c = i
    · subst here
      simp [idle]
    · simp [here, Function.update_of_ne (Ne.symm here)]
  | @receives c waits hreceives hsends =>
    rw [hsends, hreceives]
    by_cases here : c = i
    · subst here
      obtain ⟨q, hq⟩ := Option.ne_none_iff_exists'.mp waits
      simp [hq]
    · simp [here, Function.update_of_ne (Ne.symm here)]
  | keeps hsends hreceives => rw [hsends, hreceives]

/-- A client has as many answers as requests, but for the one that it waits for. -/
theorem calls_of_run {step : S → E → S → Prop} {opened : S → C → Option Q}
    {sends receives : C → E → Bool}
    (turn : ∀ s e t, step s e t →
      Turn (opened s) (sends · e) (receives · e) (opened t))
    {s t : S} {es : List E} (h : Run step s es t) (start : ∀ i, opened s i = none) (i : C) :
    es.countP (sends i) = es.countP (receives i) + (opened t i).toList.length := by
  have account : Account step (fun _ => True) (fun s => (opened s i).toList.length)
      (fun e => if receives i e then 1 else 0) (fun e => if sends i e then 1 else 0) :=
    ⟨fun _ _ _ _ _ => trivial, fun s e t _ hs => (turn s e t hs).balanced i⟩
  have hbalance := account.run h trivial
  rw [sum_map_ite, sum_map_ite, start i] at hbalance
  simp only [Option.toList_none, List.length_nil, Nat.one_mul] at hbalance
  omega

end Calls

/-- Every step is one of those that are left, and while some are left there is a step. -/
structure Countdown (step : S → E → S → Prop) (I : S → Prop) (left : S → Nat) : Prop where
  preserved : ∀ s e t, I s → step s e t → I t
  counts : ∀ s e t, I s → step s e t → left t + 1 = left s
  goes_on : ∀ s, I s → left s ≠ 0 → ∃ e t, step s e t

namespace Countdown

variable {step : S → E → S → Prop} {I : S → Prop} {left : S → Nat} {s t : S} {es : List E}

theorem run (countdown : Countdown step I left) (h : Run step s es t) (start : I s) :
    es.length + left t = left s := by
  induction h with
  | nil _ => exact Nat.zero_add _
  | cons hs _ ih =>
    have hfirst := countdown.counts _ _ _ start hs
    have hrest := ih (countdown.preserved _ _ _ start hs)
    rw [List.length_cons]
    omega

theorem eq_zero_of_stuck (countdown : Countdown step I left) (start : I s)
    (stuck : ∀ e t, ¬ step s e t) : left s = 0 := by
  by_contra more
  obtain ⟨e, t, hs⟩ := countdown.goes_on s start more
  exact stuck e t hs

theorem exists_end (countdown : Countdown step I left) (start : I s) :
    ∃ es t, Run step s es t ∧ I t ∧ left t = 0 := by
  obtain ⟨n, hn⟩ : ∃ n, left s = n := ⟨_, rfl⟩
  induction n generalizing s with
  | zero => exact ⟨[], s, .nil s, start, hn⟩
  | succ n ih =>
    obtain ⟨e, t, hs⟩ := countdown.goes_on s start (by omega)
    have hless := countdown.counts s e t start hs
    obtain ⟨es, u, hrest, hu, hend⟩ := ih (countdown.preserved s e t start hs) (by omega)
    exact ⟨e :: es, u, .cons hs hrest, hu, hend⟩

end Countdown

end SimTools.Lib.Accounts
