/- Module: SimTools/Lib/Checked
   digest: Computations that may fail: when they come to a value, and when one comes to what another does. -/

import SimTools.Lib.Memory

set_option autoImplicit false
set_option relaxedAutoImplicit false

namespace SimTools.Lib.Checked

open Memory

variable {Err A B : Type} {x y : Except Err A} {f g : A → Except Err B}

def Succeeds (x : Except Err A) : Prop := ∃ a, x = .ok a

@[simp] theorem succeeds_pure (a : A) : Succeeds (pure a : Except Err A) := ⟨a, rfl⟩

theorem succeeds_bind : Succeeds (x >>= f) ↔ ∃ a, x = .ok a ∧ Succeeds (f a) := by
  constructor
  · rintro ⟨b, run⟩
    obtain ⟨a, hx, run⟩ := bind_eq_ok run
    exact ⟨a, hx, b, run⟩
  · rintro ⟨a, rfl, b, run⟩
    exact ⟨b, run⟩

theorem succeeds_bind_iff {p : Prop} (rest : ∀ a, x = .ok a → (Succeeds (f a) ↔ p)) :
    Succeeds (x >>= f) ↔ Succeeds x ∧ p := by
  rw [succeeds_bind]
  constructor
  · rintro ⟨a, hx, run⟩
    exact ⟨⟨a, hx⟩, (rest a hx).mp run⟩
  · rintro ⟨⟨a, hx⟩, hp⟩
    exact ⟨a, hx, (rest a hx).mpr hp⟩

/-- The second comes to every value that the first comes to. -/
def Follows (x y : Except Err A) : Prop := ∀ a, x = .ok a → y = .ok a

namespace Follows

theorem refl (x : Except Err A) : Follows x x := fun _ run => run

theorem bind (rest : ∀ a, Follows (f a) (g a)) : Follows (x >>= f) (x >>= g) := by
  intro b run
  obtain ⟨a, rfl, run⟩ := bind_eq_ok run
  exact rest a b run

theorem skip {z : Except Err B} (rest : ∀ a, Follows (f a) z) : Follows (x >>= f) z := by
  intro b run
  obtain ⟨a, _, run⟩ := bind_eq_ok run
  exact rest a b run

theorem ite {c : Prop} [Decidable c] {x' y' : Except Err A} (yes : Follows x y)
    (no : Follows x' y') : Follows (if c then x else x') (if c then y else y') := by
  split
  · exact yes
  · exact no

theorem eq (follows : Follows x y) (succeeds : Succeeds x) : x = y := by
  obtain ⟨a, hx⟩ := succeeds
  rw [hx, follows a hx]

end Follows

end SimTools.Lib.Checked
