/- Module: SimTools/Lib/Decimal
   digest: Numbers in decimal: what std::to_string writes, and what std::atoi makes of a string. -/

import SimTools.Lib.Memory
import Mathlib.Data.Nat.Digits.Lemmas

set_option autoImplicit false
set_option relaxedAutoImplicit false

namespace SimTools.Lib.Decimal

open Memory

def zeroCode : Nat := 48

def isDigit (b : UInt8) : Bool := 48 ≤ b.toNat && b.toNat ≤ 57

/-- Blank, tab, line feed, vertical tab, form feed and carriage return. -/
def isSpace (b : UInt8) : Bool := b.toNat = 32 || (9 ≤ b.toNat && b.toNat ≤ 13)

/-- `std::to_string` of a number that is not negative. -/
def toString (n : Nat) : Bytes :=
  if n = 0 then [48] else (Nat.digits 10 n).reverse.map (fun d => UInt8.ofNat (zeroCode + d))

def value (digits : Bytes) : Nat := digits.foldl (fun n b => 10 * n + (b.toNat - zeroCode)) 0

/-- `std::atoi`: blanks, a sign, digits; what follows is not looked at. A value that is not one of
`int` is undefined. -/
def atoi (str : Bytes) : Option Int :=
  let str := str.dropWhile isSpace
  let n : Int :=
    match str with
    | [] => 0
    | b :: rest =>
      if b.toNat = 45 then - (value (rest.takeWhile isDigit) : Int)
      else if b.toNat = 43 then value (rest.takeWhile isDigit)
      else value (str.takeWhile isDigit)
  if -2 ^ 31 ≤ n ∧ n < 2 ^ 31 then some n else none

variable {n m d : Nat}

theorem toNat_digit (small : d < 10) : (UInt8.ofNat (zeroCode + d)).toNat = zeroCode + d := by
  rw [UInt8.toNat_ofNat']
  exact Nat.mod_eq_of_lt (by rw [zeroCode]; omega)

theorem value_toString (n : Nat) : value (toString n) = n := by
  have hdigits : ∀ ds : List Nat, (∀ d ∈ ds, d < 10) →
      value (ds.reverse.map (fun d => UInt8.ofNat (zeroCode + d))) = Nat.ofDigits 10 ds := by
    intro ds small
    induction ds with
    | nil => rfl
    | cons d ds ih =>
      have hd := toNat_digit (small d List.mem_cons_self)
      have hrest := ih fun d hd => small d (List.mem_cons_of_mem _ hd)
      rw [value] at hrest ⊢
      rw [List.reverse_cons, List.map_append, List.foldl_append, hrest, List.map_singleton,
        List.foldl_cons, List.foldl_nil, hd, Nat.ofDigits_cons]
      omega
  rw [toString]
  split
  · rename_i hn
    rw [hn]
    rfl
  · rw [hdigits _ fun d hd => Nat.digits_lt_base (by decide) hd, Nat.ofDigits_digits]

theorem toString_injective : Function.Injective toString := by
  intro n m same
  rw [← value_toString n, same, value_toString]

theorem isDigit_of_mem {b : UInt8} (hb : b ∈ toString n) : isDigit b = true := by
  rw [toString] at hb
  split at hb
  · rw [List.mem_singleton.mp hb]
    decide
  · obtain ⟨d, hd, rfl⟩ := List.mem_map.mp hb
    have hsmall := Nat.digits_lt_base (by decide) (List.mem_reverse.mp hd)
    rw [isDigit, toNat_digit hsmall, zeroCode]
    simp only [Bool.and_eq_true, decide_eq_true_eq]
    omega

theorem toString_ne_nil (n : Nat) : toString n ≠ [] := by
  rw [toString]
  split
  · exact List.cons_ne_nil _ _
  · rename_i hn
    simpa [Nat.digits_eq_nil_iff_eq_zero] using hn

theorem zero_not_mem_toString (n : Nat) : 0 ∉ toString n := by
  intro hnul
  exact absurd (isDigit_of_mem hnul) (by decide)

theorem length_toString_le {k : Nat} (pos : 0 < k) (small : n < 10 ^ k) :
    (toString n).length ≤ k := by
  rw [toString]
  split
  · exact pos
  · rw [List.length_map, List.length_reverse]
    exact (Nat.digits_length_le_iff (by decide) n).mpr small

/-- `std::atoi` reads what `std::to_string` writes. -/
theorem atoi_toString (n : Nat) :
    atoi (toString n) = if n < 2 ^ 31 then some (n : Int) else none := by
  obtain ⟨b, rest, hcons⟩ := List.exists_cons_of_ne_nil (toString_ne_nil n)
  have hdigits : ∀ b' ∈ b :: rest, isDigit b' = true := by
    intro b' hb'
    exact isDigit_of_mem (hcons ▸ hb')
  have hdigit : 48 ≤ b.toNat ∧ b.toNat ≤ 57 := by
    simpa [isDigit] using hdigits b List.mem_cons_self
  have hspace : isSpace b = false := by
    simp only [isSpace, Bool.or_eq_false_iff, Bool.and_eq_false_iff, decide_eq_false_iff_not]
    omega
  have hall : (b :: rest).takeWhile isDigit = b :: rest := by
    rw [List.takeWhile_eq_self_iff]
    exact hdigits
  have hvalue : value (b :: rest) = n := by rw [← hcons, value_toString]
  have hminus : b.toNat ≠ 45 := by omega
  have hplus : b.toNat ≠ 43 := by omega
  simp only [atoi, hcons, List.dropWhile_cons, hspace, Bool.false_eq_true, ↓reduceIte, hminus,
    hplus, hall, hvalue]
  by_cases small : n < 2 ^ 31
  · rw [if_pos small, if_pos ⟨by omega, by omega⟩]
  · rw [if_neg small, if_neg fun h => small (by omega)]

theorem toString_of_lt_ten (small : d < 10) : toString d = [UInt8.ofNat (zeroCode + d)] := by
  rw [toString]
  split
  · rename_i hd
    rw [hd]
    rfl
  · rename_i hd
    rw [Nat.digits_of_lt 10 d hd small]
    rfl

end SimTools.Lib.Decimal
