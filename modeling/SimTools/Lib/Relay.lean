/- Module: SimTools/Lib/Relay
   digest: Samples of a signal relayed through registers and queues reach the end in order, and soon. -/

import Mathlib.Order.Nat
import Mathlib.Data.List.Basic

set_option autoImplicit false
set_option relaxedAutoImplicit false

namespace SimTools.Lib.Relay

universe u

variable {V : Type u} {signal : Nat → V}

/-- The values under way, oldest first, were sampled in this order, at times from `lo` to `now`. -/
def Sampled (signal : Nat → V) (lo now : Nat) (xs : List V) : Prop :=
  ∃ times : List Nat, times.Pairwise (· ≤ ·) ∧ (∀ t ∈ times, lo ≤ t ∧ t ≤ now) ∧
    xs = times.map signal

section Sampled

variable {lo now : Nat} {xs : List V} {x v : V}

theorem Sampled.later (h : Sampled signal lo now xs) {next : Nat} (le : now ≤ next) :
    Sampled signal lo next xs := by
  obtain ⟨times, sorted, within, rfl⟩ := h
  exact ⟨times, sorted, fun t ht => ⟨(within t ht).1, (within t ht).2.trans le⟩, rfl⟩

private theorem Sampled.split_last (h : Sampled signal lo now (xs ++ [v])) :
    ∃ (times : List Nat) (t : Nat), xs = times.map signal ∧ v = signal t ∧ times.Pairwise (· ≤ ·) ∧
      (∀ s ∈ times, lo ≤ s ∧ s ≤ t) ∧ lo ≤ t ∧ t ≤ now := by
  obtain ⟨all, sorted, within, heq⟩ := h
  obtain ⟨times, last, rfl, hxs, hlast⟩ := List.append_eq_map_iff.mp heq
  obtain ⟨t, rest, rfl, hv, hrest⟩ := List.map_eq_cons_iff.mp hlast
  obtain rfl : rest = [] := by simpa using hrest
  obtain ⟨hsorted, _, hlt⟩ := List.pairwise_append.mp sorted
  have ht := within t (by simp)
  refine ⟨times, t, hxs.symm, hv.symm, hsorted, ?_, ht.1, ht.2⟩
  intro s hs
  exact ⟨(within s (by simp [hs])).1, hlt s hs t (by simp)⟩

theorem Sampled.store (h : Sampled signal lo now (xs ++ [v])) :
    Sampled signal lo now (xs ++ [signal now]) := by
  obtain ⟨times, t, rfl, rfl, sorted, before, hlo, hnow⟩ := h.split_last
  refine ⟨times ++ [now], ?_, ?_, by simp⟩
  · refine List.pairwise_append.mpr ⟨sorted, by simp, ?_⟩
    intro s hs u hu
    rw [List.mem_singleton.mp hu]
    exact (before s hs).2.trans hnow
  · intro s hs
    rcases List.mem_append.mp hs with hs | hs
    · exact ⟨(before s hs).1, (before s hs).2.trans hnow⟩
    · rw [List.mem_singleton.mp hs]
      exact ⟨hlo.trans hnow, le_rfl⟩

theorem Sampled.load (h : Sampled signal lo now (xs ++ [v])) :
    Sampled signal lo now (xs ++ [v, v]) := by
  obtain ⟨times, t, rfl, rfl, sorted, before, hlo, hnow⟩ := h.split_last
  refine ⟨times ++ [t, t], ?_, ?_, by simp⟩
  · refine List.pairwise_append.mpr ⟨sorted, by simp, ?_⟩
    intro s hs u hu
    obtain rfl : u = t := by simpa using hu
    exact (before s hs).2
  · intro s hs
    rcases List.mem_append.mp hs with hs | hs
    · exact ⟨(before s hs).1, (before s hs).2.trans hnow⟩
    · obtain rfl : s = t := by simpa using hs
      exact ⟨hlo, hnow⟩

theorem Sampled.pull (h : Sampled signal lo now (x :: xs)) :
    ∃ t, lo ≤ t ∧ t ≤ now ∧ x = signal t ∧ Sampled signal t now xs := by
  obtain ⟨all, sorted, within, heq⟩ := h
  obtain ⟨t, times, rfl, hx, rfl⟩ := List.map_eq_cons_iff.mp heq.symm
  obtain ⟨first, hsorted⟩ := List.pairwise_cons.mp sorted
  have ht := within t (by simp)
  refine ⟨t, ht.1, ht.2, hx.symm, times, hsorted, ?_, rfl⟩
  intro s hs
  exact ⟨first s hs, (within s (by simp [hs])).2⟩

end Sampled

/-- One step of a relay at time `now`: what it shows at its end, and the values under way. -/
inductive Relays (signal : Nat → V) (now : Nat) : Option V × List V → Option V × List V → Prop
  | keep (view : Option V) (xs : List V) : Relays signal now (view, xs) (view, xs)
  | store (view : Option V) (xs : List V) (v : V) :
      Relays signal now (view, xs ++ [v]) (view, xs ++ [signal now])
  | load (view : Option V) (xs : List V) (v : V) :
      Relays signal now (view, xs ++ [v]) (view, xs ++ [v, v])
  | pull (view : Option V) (x : V) (xs : List V) : Relays signal now (view, x :: xs) (some x, xs)

theorem Relays.sampled {lo now : Nat} {before after : Option V × List V}
    (step : Relays signal (now + 1) before after) (le : lo ≤ now)
    (h : Sampled signal lo now before.2) :
    ∃ t, lo ≤ t ∧ t ≤ now + 1 ∧ Sampled signal t (now + 1) after.2 ∧
      (t = lo ∧ after.1 = before.1 ∨ after.1 = some (signal t)) := by
  have hlater := h.later (Nat.le_succ now)
  have hle := Nat.le_succ_of_le le
  cases step with
  | keep view xs => exact ⟨lo, le_rfl, hle, hlater, .inl ⟨rfl, rfl⟩⟩
  | store view xs v => exact ⟨lo, le_rfl, hle, hlater.store, .inl ⟨rfl, rfl⟩⟩
  | load view xs v => exact ⟨lo, le_rfl, hle, hlater.load, .inl ⟨rfl, rfl⟩⟩
  | pull view x xs =>
    obtain ⟨t, hlo, hnow, rfl, hrest⟩ := hlater.pull
    exact ⟨t, hlo, hnow, hrest, .inr rfl⟩

/-- The first `n` views are past values of the signal, at the given times, which do not go back. -/
structure Shown (signal : Nat → V) (view : Nat → Option V) (n : Nat) (time : Nat → Nat) : Prop where
  monotone : ∀ j k, j ≤ k → k ≤ n → time j ≤ time k
  past : ∀ k ≤ n, time k ≤ k
  shown : ∀ k ≤ n, ∀ v, view k = some v → v = signal (time k)

theorem Shown.extend {view : Nat → Option V} {n : Nat} {time : Nat → Nat}
    (h : Shown signal view n time)
    {t : Nat} (lo : time n ≤ t) (le : t ≤ n + 1)
    (last : ∀ v, view (n + 1) = some v → v = signal t) :
    ∃ next, Shown signal view (n + 1) next ∧ next (n + 1) = t := by
  obtain ⟨next, hold, hnew⟩ : ∃ next : Nat → Nat, (∀ k ≤ n, next k = time k) ∧ next (n + 1) = t :=
    ⟨fun k => if k ≤ n then time k else t, fun k hk => if_pos hk, if_neg (by omega)⟩
  refine ⟨next, ⟨?_, ?_, ?_⟩, hnew⟩
  · intro j k hjk hk
    rcases Nat.le_succ_iff.mp hk with hk | rfl
    · rw [hold k hk, hold j (hjk.trans hk)]
      exact h.monotone j k hjk hk
    · rw [hnew]
      rcases Nat.le_succ_iff.mp hjk with hj | rfl
      · rw [hold j hj]
        exact (h.monotone j n hj le_rfl).trans lo
      · exact hnew.le
  · intro k hk
    rcases Nat.le_succ_iff.mp hk with hk | rfl
    · rw [hold k hk]
      exact h.past k hk
    · rwa [hnew]
  · intro k hk v hv
    rcases Nat.le_succ_iff.mp hk with hk | rfl
    · rw [hold k hk]
      exact h.shown k hk v hv
    · rw [hnew]
      exact last v hv

/-- What a relay shows is a past value of the signal, and the times of these values do not go
back. -/
theorem exists_times (view : Nat → Option V) (pipe : Nat → List V) (n : Nat)
    (none_shown : view 0 = none) (start : pipe 0 = [signal 0])
    (steps : ∀ k < n, Relays signal (k + 1) (view k, pipe k) (view (k + 1), pipe (k + 1))) :
    ∃ time : Nat → Nat, Shown signal view n time := by
  suffices h : ∃ time : Nat → Nat, Shown signal view n time ∧ Sampled signal (time n) n (pipe n) by
    obtain ⟨time, hshown, _⟩ := h
    exact ⟨time, hshown⟩
  induction n with
  | zero =>
    refine ⟨fun _ => 0, ⟨fun _ _ _ _ => le_rfl, fun _ _ => Nat.zero_le _, ?_⟩, [0],
      by simp, by simp, by simp [start]⟩
    intro k hk v hv
    obtain rfl : k = 0 := Nat.le_zero.mp hk
    simp [none_shown] at hv
  | succ n ih =>
    obtain ⟨time, hshown, hsampled⟩ := ih (fun k hk => steps k (Nat.lt_succ_of_lt hk))
    obtain ⟨t, hlo, hle, hnext, hview⟩ :=
      (steps n (Nat.lt_succ_self n)).sampled (hshown.past n le_rfl) hsampled
    have hlast : ∀ v, view (n + 1) = some v → v = signal t := by
      intro v hv
      rcases hview with ⟨rfl, hsame⟩ | hnew
      · exact hshown.shown n le_rfl v (hsame.symm.trans hv)
      · exact (Option.some.inj (hnew.symm.trans hv)).symm
    obtain ⟨next, hshown', rfl⟩ := hshown.extend hlo hle hlast
    exact ⟨next, hshown', hnext⟩

/-- `pulls` values have left a relay since `old` were in it: what was sampled since then is
`recent`, and so is what the relay shows once no older value is left. -/
def Refreshed (recent : V → Prop) (old pulls : Nat) (view : Option V) (xs : List V) : Prop :=
  ∃ before after, xs = before ++ after ∧ (after = [] → before = []) ∧ (∀ v ∈ after, recent v) ∧
    ((before = [] ∧ ∃ v, view = some v ∧ recent v) ∨ before.length + pulls ≤ old)

namespace Refreshed

variable {recent : V → Prop} {old pulls now : Nat} {view : Option V} {x v : V} {xs : List V}

theorem start (holds : recent v) (view : Option V) (xs : List V) :
    Refreshed recent xs.length 0 view (xs ++ [v]) := by
  refine ⟨xs, [v], rfl, by simp, ?_, .inr le_rfl⟩
  intro u hu
  rwa [List.mem_singleton.mp hu]

theorem mono {recent' : V → Prop} (h : Refreshed recent old pulls view xs)
    (more : ∀ v, recent v → recent' v) : Refreshed recent' old pulls view xs := by
  obtain ⟨before, after, split, ends, hrecent, shown⟩ := h
  refine ⟨before, after, split, ends, fun v hv => more v (hrecent v hv), ?_⟩
  exact shown.imp_left fun ⟨none_left, v, hview, hv⟩ => ⟨none_left, v, hview, more v hv⟩

private theorem split_last (h : Refreshed recent old pulls view (xs ++ [v])) :
    recent v ∧ ∃ before after, xs = before ++ after ∧ (∀ u ∈ after, recent u) ∧
      ((before = [] ∧ ∃ u, view = some u ∧ recent u) ∨ before.length + pulls ≤ old) := by
  obtain ⟨before, all, split, ends, hrecent, shown⟩ := h
  rcases List.eq_nil_or_concat all with rfl | ⟨after, u, rfl⟩
  · simp [ends rfl] at split
  · rw [List.concat_eq_append, ← List.append_assoc] at split
    obtain ⟨rfl, hlast⟩ := List.append_inj' split rfl
    obtain rfl := List.singleton_inj.mp hlast
    exact ⟨hrecent v (by simp), before, after, rfl, fun w hw => hrecent w (by simp [hw]), shown⟩

private theorem replace (h : Refreshed recent old pulls view (xs ++ [v])) {new : List V}
    (some_new : new ≠ []) (all_new : ∀ u ∈ new, recent u) :
    Refreshed recent old pulls view (xs ++ new) := by
  obtain ⟨_, before, after, rfl, hrecent, shown⟩ := h.split_last
  refine ⟨before, after ++ new, List.append_assoc .., fun he => ?_, fun u hu => ?_, shown⟩
  · exact absurd (List.append_eq_nil_iff.mp he).2 some_new
  · exact (List.mem_append.mp hu).elim (hrecent u) (all_new u)

theorem pull (h : Refreshed recent old pulls view (x :: xs)) :
    Refreshed recent old (pulls + 1) (some x) xs := by
  obtain ⟨before, after, split, ends, hrecent, shown⟩ := h
  cases before with
  | nil =>
    -- no older value is left, and from now on recent values only are shown
    rw [List.nil_append] at split
    subst split
    refine ⟨[], xs, rfl, fun _ => rfl, fun v hv => hrecent v (List.mem_cons_of_mem x hv), .inl ?_⟩
    exact ⟨rfl, x, rfl, hrecent x List.mem_cons_self⟩
  | cons y before =>
    obtain ⟨rfl, rfl⟩ := List.cons.inj split
    have hfew : (x :: before).length + pulls ≤ old := by simpa using shown
    rw [List.length_cons] at hfew
    exact ⟨before, after, rfl, fun he => absurd (ends he) (by simp), hrecent, .inr (by omega)⟩

theorem relays {before after : Option V × List V} (h : Refreshed recent old pulls before.1 before.2)
    (step : Relays signal now before after) (holds : recent (signal now)) :
    Refreshed recent old pulls after.1 after.2 := by
  cases step with
  | keep view xs => exact h
  | store view xs v => exact h.replace (by simp) (by simpa using holds)
  | load view xs v => exact h.replace (by simp) (by simpa using h.split_last.1)
  | pull view x xs =>
    obtain ⟨older, rest, split, ends, hrecent, shown⟩ := h.pull
    exact ⟨older, rest, split, ends, hrecent, shown.imp_right (by omega)⟩

/-- After more pulls than there were values in it, a relay shows a recent value. -/
theorem shown (h : Refreshed recent old pulls view xs) (often : old < pulls) :
    ∃ v, view = some v ∧ recent v := by
  obtain ⟨before, after, split, ends, hrecent, ⟨_, hview⟩ | hfew⟩ := h
  · exact hview
  · omega

end Refreshed

end SimTools.Lib.Relay
