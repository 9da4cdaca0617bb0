import Mathlib

/-!
# Single precision numbers

A single precision number is given by its 32 bits: a sign, a biased exponent of eight bits and a fraction of 23 bits.
`magnitude` and `value` are the rational numbers that finite ones stand for. An exponent of at least 150 makes the number
an integer (`magnitude_of_le`); up to that it is the significand over a power of two (`magnitude_eq_div`).
-/

namespace KaiT2en.Lib.Binary32

variable (raw : Nat)

def fraction : Nat := raw % 2 ^ 23

def exponentField : Nat := raw / 2 ^ 23 % 2 ^ 8

def isNegative : Bool := raw / 2 ^ 31 % 2 = 1

/-- Infinities and NaNs have the largest exponent. -/
def isFinite : Bool := exponentField raw ≠ 255

/-- The significand, without the hidden bit for the smallest exponent. -/
def significand : Nat := if exponentField raw = 0 then fraction raw else 2 ^ 23 + fraction raw

/-- The absolute value of a finite number. -/
def magnitude : ℚ := significand raw * 2 ^ ((max (exponentField raw) 1 : ℤ) - 150)

def value : ℚ := if isNegative raw then -magnitude raw else magnitude raw

variable {raw}

theorem fraction_lt : fraction raw < 2 ^ 23 := Nat.mod_lt _ (by decide)

theorem significand_lt : significand raw < 2 ^ 24 := by
  have hfrac : fraction raw < 2 ^ 23 := fraction_lt
  rw [significand]
  split <;> omega

theorem significand_of_pos (h : 0 < exponentField raw) : significand raw = 2 ^ 23 + fraction raw :=
  if_neg (Nat.ne_of_gt h)

theorem magnitude_nonneg : 0 ≤ magnitude raw := by
  rw [magnitude]
  positivity

theorem magnitude_of_le (h : 150 ≤ exponentField raw) :
    magnitude raw = ((2 ^ 23 + fraction raw) * 2 ^ (exponentField raw - 150) : ℕ) := by
  have hexp : (max (exponentField raw) 1 : ℤ) - 150 = ((exponentField raw - 150 : ℕ) : ℤ) := by omega
  rw [magnitude, significand_of_pos (by omega), hexp, zpow_natCast]
  push_cast
  rfl

theorem magnitude_eq_div (hpos : 0 < exponentField raw) (h : exponentField raw ≤ 150) :
    magnitude raw = ((2 ^ 23 + fraction raw : ℕ) : ℚ) / ((2 ^ (150 - exponentField raw) : ℕ) : ℚ) := by
  have hexp : (max (exponentField raw) 1 : ℤ) - 150 = -((150 - exponentField raw : ℕ) : ℤ) := by omega
  rw [magnitude, significand_of_pos hpos, hexp, zpow_neg, zpow_natCast, div_eq_mul_inv]
  push_cast
  rfl

theorem magnitude_lt (h : exponentField raw < 150) : magnitude raw < 2 ^ 24 / 2 ^ (149 - (exponentField raw - 1)) := by
  have hexp : (max (exponentField raw) 1 : ℤ) - 150 = -((149 - (exponentField raw - 1) : ℕ) : ℤ) := by omega
  have hsig : (significand raw : ℚ) < 2 ^ 24 := by exact_mod_cast significand_lt
  rw [magnitude, hexp, zpow_neg, zpow_natCast, ← div_eq_mul_inv]
  gcongr

end KaiT2en.Lib.Binary32
