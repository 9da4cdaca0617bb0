import Mathlib.Algebra.Order.Field.Basic
import Mathlib.Algebra.Order.Ring.Basic
import Mathlib.Order.Interval.Set.Basic
import Mathlib.Tactic.Linarith
import Mathlib.Tactic.Ring

/-!
# Monotone cubic pieces

A cubic on the unit interval is given by its values and its slopes at both ends. If the slopes point in the
direction of the rise and are at most three times as steep, the piece is monotone (`hermite_mono`). The bound
is the box of Fritsch and Carlson: the difference of two values is linear in each slope, so that it is least
in a corner of the box, and in the corners it is a difference of cubes or of `3 t² - 2 t³`.
-/

namespace KaiT2en.Lib.Hermite

variable {K : Type*} [Field K]

/-- The cubic with the values `ya` and `yb` and the slopes `sa` and `sb` at zero and one. -/
def hermite (ya sa yb sb t : K) : K :=
  (2 * t ^ 3 - 3 * t ^ 2 + 1) * ya + (t ^ 3 - 2 * t ^ 2 + t) * sa + (-2 * t ^ 3 + 3 * t ^ 2) * yb + (t ^ 3 - t ^ 2) * sb

@[simp] theorem hermite_zero (ya sa yb sb : K) : hermite ya sa yb sb 0 = ya := by
  unfold hermite
  ring

@[simp] theorem hermite_one (ya sa yb sb : K) : hermite ya sa yb sb 1 = yb := by
  unfold hermite
  ring

theorem hermite_neg (ya sa yb sb t : K) : hermite (-ya) (-sa) (-yb) (-sb) t = -hermite ya sa yb sb t := by
  unfold hermite
  ring

/-- The difference of two values in terms of the rise and the slopes. -/
theorem hermite_sub (ya sa yb sb t s : K) : hermite ya sa yb sb s - hermite ya sa yb sb t =
      (yb - ya) * ((3 * s ^ 2 - 2 * s ^ 3) - (3 * t ^ 2 - 2 * t ^ 3)) +
        sa * ((s ^ 3 - 2 * s ^ 2 + s) - (t ^ 3 - 2 * t ^ 2 + t)) +
        sb * ((s ^ 3 - s ^ 2) - (t ^ 3 - t ^ 2)) := by
  unfold hermite
  ring

section Order

variable [LinearOrder K] [IsStrictOrderedRing K] {t s : K}

theorem corner_flat (ht : 0 ≤ t) (hts : t ≤ s) (hs : s ≤ 1) :
    0 ≤ (3 * s ^ 2 - 2 * s ^ 3) - (3 * t ^ 2 - 2 * t ^ 3) := by
  have hfac : (3 * s ^ 2 - 2 * s ^ 3) - (3 * t ^ 2 - 2 * t ^ 3) =
      (s - t) * (3 * (s + t) - 2 * (s ^ 2 + s * t + t ^ 2)) := by ring
  have hsquare_s : s ^ 2 ≤ s := by nlinarith
  have hsquare_t : t ^ 2 ≤ t := by nlinarith
  have hmix : 2 * (s * t) ≤ s + t := by nlinarith
  rw [hfac]
  exact mul_nonneg (sub_nonneg.2 hts) (by linarith)

theorem corner_first (hts : t ≤ s) : 0 ≤ ((3 * s ^ 2 - 2 * s ^ 3) - (3 * t ^ 2 - 2 * t ^ 3)) +
      3 * ((s ^ 3 - 2 * s ^ 2 + s) - (t ^ 3 - 2 * t ^ 2 + t)) := by
  have hcub : ((3 * s ^ 2 - 2 * s ^ 3) - (3 * t ^ 2 - 2 * t ^ 3)) +
      3 * ((s ^ 3 - 2 * s ^ 2 + s) - (t ^ 3 - 2 * t ^ 2 + t)) = (1 - t) ^ 3 - (1 - s) ^ 3 := by ring
  have hle : (1 - s) ^ 3 ≤ (1 - t) ^ 3 := (Odd.strictMono_pow (by decide : Odd 3)).monotone (by linarith)
  rw [hcub]
  exact sub_nonneg.2 hle

theorem corner_second (hts : t ≤ s) :
    0 ≤ ((3 * s ^ 2 - 2 * s ^ 3) - (3 * t ^ 2 - 2 * t ^ 3)) + 3 * ((s ^ 3 - s ^ 2) - (t ^ 3 - t ^ 2)) := by
  have hcub : ((3 * s ^ 2 - 2 * s ^ 3) - (3 * t ^ 2 - 2 * t ^ 3)) +
      3 * ((s ^ 3 - s ^ 2) - (t ^ 3 - t ^ 2)) = s ^ 3 - t ^ 3 := by ring
  have hle : t ^ 3 ≤ s ^ 3 := (Odd.strictMono_pow (by decide : Odd 3)).monotone hts
  rw [hcub]
  exact sub_nonneg.2 hle

theorem corner_steep (hts : t ≤ s) : 0 ≤ ((3 * s ^ 2 - 2 * s ^ 3) - (3 * t ^ 2 - 2 * t ^ 3)) +
      3 * ((s ^ 3 - 2 * s ^ 2 + s) - (t ^ 3 - 2 * t ^ 2 + t)) + 3 * ((s ^ 3 - s ^ 2) - (t ^ 3 - t ^ 2)) := by
  have hle : (2 * t - 1) ^ 3 ≤ (2 * s - 1) ^ 3 := (Odd.strictMono_pow (by decide : Odd 3)).monotone (by linarith)
  linarith

theorem min_le_mul {bound coefficient x : K} (h0 : 0 ≤ coefficient) (h1 : coefficient ≤ bound) :
    min 0 (bound * x) ≤ coefficient * x := by
  rcases le_total 0 x with hx | hx
  · exact (min_le_left _ _).trans (mul_nonneg h0 hx)
  · exact (min_le_right _ _).trans (mul_le_mul_of_nonpos_right h1 hx)

/-- The piece is monotone if its slopes are in the box. -/
theorem hermite_mono {ya sa yb sb : K} (hsa : 0 ≤ sa) (hsa' : sa ≤ 3 * (yb - ya)) (hsb : 0 ≤ sb)
    (hsb' : sb ≤ 3 * (yb - ya)) (ht : 0 ≤ t) (hts : t ≤ s) (hs : s ≤ 1) :
    hermite ya sa yb sb t ≤ hermite ya sa yb sb s := by
  have hrise : 0 ≤ yb - ya := by linarith
  have hfst := min_le_mul (x := (s ^ 3 - 2 * s ^ 2 + s) - (t ^ 3 - 2 * t ^ 2 + t)) hsa hsa'
  have hsec := min_le_mul (x := (s ^ 3 - s ^ 2) - (t ^ 3 - t ^ 2)) hsb hsb'
  rw [← sub_nonneg, hermite_sub]
  -- the four corners, according to the signs of the two terms
  rcases min_choice 0 (3 * (yb - ya) * ((s ^ 3 - 2 * s ^ 2 + s) - (t ^ 3 - 2 * t ^ 2 + t))) with h1 | h1 <;>
    rcases min_choice 0 (3 * (yb - ya) * ((s ^ 3 - s ^ 2) - (t ^ 3 - t ^ 2))) with h2 | h2 <;>
    rw [h1] at hfst <;> rw [h2] at hsec
  · linarith [mul_nonneg hrise (corner_flat ht hts hs)]
  · linarith [mul_nonneg hrise (corner_second hts)]
  · linarith [mul_nonneg hrise (corner_first hts)]
  · linarith [mul_nonneg hrise (corner_steep hts)]

end Order

end KaiT2en.Lib.Hermite
