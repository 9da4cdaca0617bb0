import Mathlib

/-!
# Double precision numbers

A double precision number is given by its 64 bits: a sign, a biased exponent of eleven bits and a fraction of 52 bits.
`magnitude` is the rational number that a finite one stands for, up to its sign. From an exponent of 1075 on the number
is an integer (`magnitude_of_le`), and up to it the significand over a power of two (`magnitude_eq_div`).
-/

namespace KaiT2en.Lib.Binary64

variable (bits : Nat)

def fraction : Nat := bits % 2 ^ 52

def exponentField : Nat := bits / 2 ^ 52 % 2 ^ 11

def isNegative : Bool := bits / 2 ^ 63 % 2 = 1

/-- Infinities and NaNs have the largest exponent. -/
def isFinite : Bool := exponentField bits ≠ 2047

/-- The significand, without the hidden bit for the smallest exponent. -/
def significand : Nat := if exponentField bits = 0 then fraction bits else 2 ^ 52 + fraction bits

/-- The absolute value of a finite number. -/
def magnitude : ℚ := significand bits * 2 ^ ((max (exponentField bits) 1 : ℤ) - 1075)

variable {bits}

theorem fraction_lt : fraction bits < 2 ^ 52 := Nat.mod_lt _ (by decide)

theorem magnitude_of_le (h : 1075 ≤ exponentField bits) :
    magnitude bits = ((2 ^ 52 + fraction bits) * 2 ^ (exponentField bits - 1075) : ℕ) := by
  have hexp : (max (exponentField bits) 1 : ℤ) - 1075 = ((exponentField bits - 1075 : ℕ) : ℤ) := by omega
  rw [magnitude, significand, if_neg (by omega), hexp, zpow_natCast]
  push_cast
  rfl

theorem magnitude_eq_div (hpos : 0 < exponentField bits) (h : exponentField bits ≤ 1075) :
    magnitude bits = ((2 ^ 52 + fraction bits : ℕ) : ℚ) / ((2 ^ (1075 - exponentField bits) : ℕ) : ℚ) := by
  have hexp : (max (exponentField bits) 1 : ℤ) - 1075 = -((1075 - exponentField bits : ℕ) : ℤ) := by omega
  rw [magnitude, significand, if_neg (by omega), hexp, zpow_neg, zpow_natCast, div_eq_mul_inv]
  push_cast
  rfl

theorem magnitude_lt_one (h : exponentField bits < 1023) : magnitude bits < 1 := by
  have hlt : (significand bits : ℚ) < 2 ^ 53 := by
    have hfrac : fraction bits < 2 ^ 52 := fraction_lt
    have hsig : significand bits < 2 ^ 53 := by
      rw [significand]
      split <;> omega
    exact_mod_cast hsig
  have hpow : (2 : ℚ) ^ ((max (exponentField bits) 1 : ℤ) - 1075) ≤ 2 ^ (-53 : ℤ) :=
    zpow_le_zpow_right₀ (by norm_num) (by omega)
  calc
    magnitude bits ≤ significand bits * 2 ^ (-53 : ℤ) := by
      rw [magnitude]
      gcongr
    _ < 2 ^ 53 * 2 ^ (-53 : ℤ) := by gcongr
    _ = 1 := by norm_num

end KaiT2en.Lib.Binary64
