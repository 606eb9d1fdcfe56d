/- Module: SimTools/Lib/Selection
   digest: A loop that keeps a candidate and a running maximum ends at the first maximum. -/

import Mathlib.Order.Lattice
import Mathlib.Order.Defs.LinearOrder

set_option autoImplicit false
set_option relaxedAutoImplicit false

namespace SimTools.Lib.Selection

universe u v w

variable {A : Type u} {K : Type v} {B : Type w} [LinearOrder B]

/-- Everything before `x` scores less and everything after it scores no more. -/
def FirstMax (score : A → B) (xs : List A) (x : A) : Prop :=
  ∃ before after, xs = before ++ x :: after ∧
    (∀ y ∈ before, score y < score x) ∧ ∀ y ∈ after, score y ≤ score x

theorem FirstMax.mem {score : A → B} {xs : List A} {x : A} (h : FirstMax score xs x) : x ∈ xs := by
  obtain ⟨before, after, rfl, _, _⟩ := h
  simp

theorem FirstMax.le {score : A → B} {xs : List A} {x y : A} (h : FirstMax score xs x)
    (hy : y ∈ xs) : score y ≤ score x := by
  obtain ⟨before, after, rfl, hbefore, hafter⟩ := h
  rcases List.mem_append.mp hy with hy | hy
  · exact (hbefore y hy).le
  · rcases List.mem_cons.mp hy with rfl | hy
    · exact le_rfl
    · exact hafter y hy

theorem FirstMax.unique {score : A → B} {xs : List A} {x y : A} (hx : FirstMax score xs x)
    (hy : FirstMax score xs y) : x = y := by
  have hle := hy.le hx.mem
  have hge := hx.le hy.mem
  obtain ⟨before, after, rfl, hbefore, _⟩ := hx
  obtain ⟨before', after', heq, hbefore', _⟩ := hy
  rcases List.append_eq_append_iff.mp heq with ⟨more, rfl, hrest⟩ | ⟨more, rfl, hrest⟩
  · cases more with
    | nil => exact (List.cons.inj hrest).1
    | cons z zs =>
      obtain ⟨rfl, _⟩ := List.cons.inj hrest
      exact absurd (hbefore' x (by simp)) (not_lt.mpr hge)
  · cases more with
    | nil => exact (List.cons.inj hrest).1.symm
    | cons z zs =>
      obtain ⟨rfl, _⟩ := List.cons.inj hrest
      exact absurd (hbefore y (by simp)) (not_lt.mpr hle)

theorem FirstMax.before {score : A → B} {xs : List A} {x y : A} {r : A → A → Prop}
    (h : FirstMax score xs x) (sorted : xs.Pairwise r) (hy : y ∈ xs) (same : score y = score x) :
    y = x ∨ r x y := by
  obtain ⟨before, after, rfl, hbefore, _⟩ := h
  rcases List.mem_append.mp hy with hy | hy
  · exact absurd same (hbefore y hy).ne
  · rcases List.mem_cons.mp hy with rfl | hy
    · exact .inl rfl
    · have hrest := (List.pairwise_append.mp sorted).2.1
      exact .inr ((List.pairwise_cons.mp hrest).1 y hy)

/-- One iteration: the candidate is replaced by a strictly better element only. -/
def scan (score : A → B) (label : A → K) (acc : K × B) (x : A) : K × B :=
  (if acc.2 < score x then label x else acc.1, max acc.2 (score x))

/-- Either nothing beats the start value, or the first maximum is the result. -/
theorem foldl_scan (score : A → B) (label : A → K) (xs : List A) (acc : K × B) :
    (xs.foldl (scan score label) acc = acc ∧ ∀ x ∈ xs, score x ≤ acc.2) ∨
    ∃ x, FirstMax score xs x ∧ acc.2 < score x ∧
      xs.foldl (scan score label) acc = (label x, score x) := by
  induction xs generalizing acc with
  | nil => exact .inl ⟨rfl, by simp⟩
  | cons y ys ih =>
    rw [List.foldl_cons]
    rcases lt_or_ge acc.2 (score y) with better | worse
    · have hstep : scan score label acc y = (label y, score y) := by
        rw [scan, if_pos better, max_eq_right better.le]
      rw [hstep]
      right
      rcases ih (label y, score y) with ⟨hsame, hle⟩ |
        ⟨x, ⟨before, after, rfl, hbefore, hafter⟩, hlt, heq⟩
      · exact ⟨y, ⟨[], ys, rfl, by simp, hle⟩, better, hsame⟩
      · refine ⟨x, ⟨y :: before, after, rfl, ?_, hafter⟩, better.trans hlt, heq⟩
        intro z hz
        rcases List.mem_cons.mp hz with rfl | hz
        · exact hlt
        · exact hbefore z hz
    · have hstep : scan score label acc y = acc := by
        rw [scan, if_neg (not_lt.mpr worse), max_eq_left worse]
      rw [hstep]
      rcases ih acc with ⟨hsame, hle⟩ | ⟨x, ⟨before, after, rfl, hbefore, hafter⟩, hlt, heq⟩
      · refine .inl ⟨hsame, ?_⟩
        intro z hz
        rcases List.mem_cons.mp hz with rfl | hz
        · exact worse
        · exact hle z hz
      · refine .inr ⟨x, ⟨y :: before, after, rfl, ?_, hafter⟩, hlt, heq⟩
        intro z hz
        rcases List.mem_cons.mp hz with rfl | hz
        · exact lt_of_le_of_lt worse hlt
        · exact hbefore z hz

end SimTools.Lib.Selection
