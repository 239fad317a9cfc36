import Mathlib.Algebra.Group.Int.Defs
import Mathlib.Algebra.Group.Nat.Defs
import Mathlib.Data.Int.Init

namespace ChaiBeast.Data

/-! Signed integers of `w` bits and a sign.  A conversion keeps the residue of
what it is given, so that it is exact just on the numbers that fit. -/

variable {w : Nat} {m n : Int}

def Fits (w : Nat) (n : Int) : Prop :=
  -(2 ^ w) ≤ n ∧ n < 2 ^ w

instance (w : Nat) (n : Int) : Decidable (Fits w n) := inferInstanceAs (Decidable (_ ∧ _))

def wrap (w : Nat) (n : Int) : Int :=
  n.bmod (2 ^ (w + 1))

theorem wrap_bounds (w : Nat) : ((2 ^ (w + 1) : Nat) : Int) = 2 * 2 ^ w := by
  rw [Nat.pow_succ, Nat.mul_comm]
  simp

theorem wrap_fits (w : Nat) (n : Int) : Fits w (wrap w n) := by
  have positive : 0 < 2 ^ (w + 1) := Nat.two_pow_pos _
  have lower := @Int.le_bmod n _ positive
  have upper := @Int.bmod_lt n _ positive
  rw [wrap_bounds] at lower upper
  rw [Fits, wrap]
  omega

theorem wrap_of_fits (fits : Fits w n) : wrap w n = n := by
  obtain ⟨lower, upper⟩ := fits
  refine Int.bmod_eq_of_le ?_ ?_
  · rw [wrap_bounds]
    omega
  · rw [wrap_bounds]
    omega

theorem wrap_emod (w : Nat) (n : Int) : wrap w n % 2 ^ (w + 1) = n % 2 ^ (w + 1) := by
  have kept := @Int.bmod_emod n (2 ^ (w + 1))
  simpa [wrap] using kept

/-- What a conversion makes of a natural number is its residue, unless that is
negative. -/
theorem wrap_of_mod_lt {n : Nat} (small : n % 2 ^ (w + 1) < 2 ^ w) :
    wrap w n = (n % 2 ^ (w + 1) : Nat) := by
  refine (Int.bmod_eq_emod_of_lt ?_).trans (Int.natCast_emod ..).symm
  have half : (2 ^ (w + 1) + 1) / 2 = 2 ^ w := by
    rw [Nat.pow_succ]
    omega
  have residue : (n : Int) % ((2 ^ (w + 1) : Nat) : Int) < ((2 ^ w : Nat) : Int) := by exact_mod_cast small
  rw [show (((2 ^ (w + 1) : Nat) : Int) + 1) / 2 = ((2 ^ w : Nat) : Int) by exact_mod_cast half]
  exact residue

theorem mod_lt_of_wrap_nonneg {n : Nat} (nonneg : 0 ≤ wrap w n) : n % 2 ^ (w + 1) < 2 ^ w := by
  have upper := (wrap_fits w n).2
  have bound : wrap w n < 2 ^ (w + 1) := by
    rw [Int.pow_succ]
    omega
  have kept := wrap_emod w n
  rw [Int.emod_eq_of_lt nonneg bound] at kept
  rw [kept] at upper
  exact_mod_cast upper

theorem wrap_add (w : Nat) (m n : Int) : wrap w (wrap w m + n) = wrap w (m + n) :=
  Int.bmod_add_bmod

end ChaiBeast.Data
