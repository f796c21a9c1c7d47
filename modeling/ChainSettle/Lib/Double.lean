import Mathlib.Algebra.Ring.Nat
import Mathlib.Data.Nat.Log

/-!
Integers as doubles. A double has a significand of 53 bits, so an integer from `2 ^ 53` on is
rounded to the nearest multiple of a power of two, a tie to the even one.
-/

namespace Lib

def significandBits : Nat := 53

/-- The double nearest to an integer that is below `2 ^ 1023`. -/
def nearestDouble (n : Nat) : Nat :=
  if n < 2 ^ significandBits then n
  else
    let ulp := 2 ^ (n.log2 + 1 - significandBits)
    let low := n / ulp
    let rest := 2 * (n % ulp)
    if rest < ulp ∨ rest = ulp ∧ low % 2 = 0 then low * ulp else (low + 1) * ulp

/-- Multiples of the unit in the last place are doubles. -/
theorem nearestDouble_of_dvd {n : Nat} (h : 2 ^ (n.log2 + 1 - significandBits) ∣ n) :
    nearestDouble n = n := by
  unfold nearestDouble
  split
  · rfl
  · simp only [Nat.mod_eq_zero_of_dvd h]
    rw [if_pos (.inl (Nat.two_pow_pos _))]
    exact Nat.div_mul_cancel h

/-- An integer whose significand fits is a double. -/
theorem nearestDouble_mul_two_pow {m : Nat} (hm : m < 2 ^ significandBits) (k : Nat) :
    nearestDouble (m * 2 ^ k) = m * 2 ^ k := by
  by_cases hzero : m = 0
  · rw [hzero, Nat.zero_mul]
    rfl
  · apply nearestDouble_of_dvd
    have hbits : (m * 2 ^ k).log2 < significandBits + k := by
      rw [Nat.log2_lt (Nat.mul_ne_zero hzero (Nat.two_pow_pos k).ne'), Nat.pow_add]
      exact Nat.mul_lt_mul_of_pos_right hm (Nat.two_pow_pos k)
    exact Nat.dvd_mul_left_of_dvd (Nat.pow_dvd_pow 2 (by omega)) m

example : nearestDouble (10 ^ 23) = 10 ^ 23 - 8388608 := by decide +kernel

end Lib
