import Mathlib.Data.Real.Basic
import Mathlib.Tactic.Linarith
import Mathlib.Tactic.Ring

/-!
# The ambient-light curve

The line of `curve.rs` that gives the brightness for the ambient light, and how it learns from an adjustment. The model
computes in any ordered field. A quotient by zero, which is infinite or not a number in the source, is spelled out in
`bound`. The product only picks the factory anchors, and the file of the curve is not part of the model.
-/

namespace KaiT2en.Brightness

variable {K : Type} [Field K] [LinearOrder K]

structure Curve (K : Type) where
  (e1 e2 bl1 bl2 luxLow luxHigh threshold : K)

inductive Product where
  | macBookPro | macBookAir | other

def factoryAnchors : Product → K × K
  | .macBookPro => (0.107505, 0.341785)
  | .macBookAir => (0.13438125, 0.42723125)
  | .other => (0.14, 0.615)

def factoryLuxHigh : K := 262.5

def maxLux : K := 5000

def minSlopeFloor : K := 0.00035385703

def maxSlopeFloor : K := 0.0031847134

def minSlope (lux linear : K) : K := max (2.0 * linear / (2.0 * lux + 500.0)) minSlopeFloor

def maxSlope (lux linear : K) : K := max (71.0 * linear / (71.0 * lux + 500.0)) maxSlopeFloor

/-- `bound` of the quotient of `num` and `den`. -/
def bound (lux linear num den : K) : K :=
  if den = 0 then if 0 < num then max (maxSlope lux linear) (minSlope lux linear) else minSlope lux linear
  else max (min (num / den) (maxSlope lux linear)) (minSlope lux linear)

namespace Curve

variable (c : Curve K)

def slope : K := (c.bl2 - c.bl1) / (c.e2 - c.e1)

def linearForLux (lux lo hi : K) : K := max lo (min (c.bl1 + c.slope * min lux maxLux) hi)

def updateThreshold : Curve K :=
  let crossing := (c.bl1 - c.slope * c.e1) / c.slope
  let threshold := min (if crossing ≤ 0 then (c.e1 + c.e2) * 0.5 else crossing) 500
  let threshold := if c.luxHigh / 1.2 < threshold then c.luxHigh / 1.2 else threshold
  let threshold := if threshold < 20 then 20 else threshold
  { c with threshold := if threshold < c.luxLow * 1.2 then c.luxLow * 1.2 else threshold }

def factory (product : Product) : Curve K :=
  updateThreshold ⟨0, factoryLuxHigh, (factoryAnchors product).1, (factoryAnchors product).2, 0, factoryLuxHigh, 0⟩

/-- The line that `learn` turns, before the threshold follows. -/
def turn (lux linear : K) : Curve K :=
  if lux ≤ c.threshold then
    let slope := bound lux linear (c.bl2 - linear) (c.e2 - lux)
    { c with luxLow := lux, bl1 := slope * (c.e1 - lux) + linear, bl2 := slope * (c.e2 - lux) + linear }
  else
    let slope := bound lux linear (linear - c.bl1) (lux - c.e1)
    let e2 := max lux 150
    let bl2 := if lux < 150 then linear + (150 - lux) * slope else linear
    { c with luxHigh := lux, e2 := e2, bl2 := bl2, bl1 := (c.e1 - e2) * slope + bl2 }

def learn (lux linear : K) : Curve K := (c.turn (if lux ≤ 0 then 0.01 else min lux maxLux) linear).updateThreshold

/-- What the curve is right after it has learned `linear` for `lux`. -/
structure Learned (lux linear : K) : Prop where
  e1 : c.e1 = 0
  e2 : 150 ≤ c.e2
  slope_ge : minSlopeFloor ≤ c.slope
  slope_le : c.slope ≤ max maxSlopeFloor (71.0 * linear / (71.0 * lux + 500.0))
  through : c.linearForLux lux 0 1 = linear
  threshold_ge : 20 ≤ c.threshold
  luxLow_le : 1.2 * c.luxLow ≤ c.threshold

end Curve

/-- An adjustment in the range of the sensor and of the panel. -/
structure Adjustment (K : Type) [Field K] [LinearOrder K] where
  lux : K
  linear : K
  lux_pos : 0 < lux
  lux_le : lux ≤ maxLux
  linear_pos : 0 < linear
  linear_le : linear ≤ 1

def Curve.adjust (c : Curve K) (a : Adjustment K) : Curve K := c.learn a.lux a.linear

variable [IsStrictOrderedRing K] (a : Adjustment K)

theorem minSlope_le_maxSlope : minSlope a.lux a.linear ≤ maxSlope a.lux a.linear := by
  have hlux := a.lux_pos
  have hlin := a.linear_pos
  apply max_le_max
  · rw [div_le_div_iff₀ (by linarith) (by linarith)]
    linarith
  · norm_num [minSlopeFloor, maxSlopeFloor]

theorem bound_mem (num den : K) :
    bound a.lux a.linear num den ∈ Set.Icc (minSlope a.lux a.linear) (maxSlope a.lux a.linear) := by
  have hle := minSlope_le_maxSlope a
  unfold bound
  split
  · split
    · exact ⟨le_max_right _ _, max_le le_rfl hle⟩
    · exact ⟨le_rfl, hle⟩
  · exact ⟨le_max_right _ _, max_le (min_le_right _ _) hle⟩

namespace Curve

variable {a} {c : Curve K} {k : K}

def Anchored (c : Curve K) : Prop := c.e1 = 0 ∧ 150 ≤ c.e2

/-- The anchors lie on a line of slope `k` through the adjustment. -/
structure Line (c : Curve K) (k : K) (a : Adjustment K) : Prop where
  e1 : c.e1 = 0
  e2 : 150 ≤ c.e2
  bl1 : c.bl1 = a.linear - k * a.lux
  bl2 : c.bl2 = a.linear + k * (c.e2 - a.lux)

theorem Anchored.turn (h : c.Anchored) :
    ∃ k ∈ Set.Icc (minSlope a.lux a.linear) (maxSlope a.lux a.linear), (c.turn a.lux a.linear).Line k a := by
  obtain ⟨he1, he2⟩ := h
  unfold Curve.turn
  split
  · refine ⟨_, bound_mem a (c.bl2 - a.linear) (c.e2 - a.lux), he1, he2, ?_, ?_⟩
    · simp only [he1]
      ring
    · ring
  · refine ⟨_, bound_mem a (a.linear - c.bl1) (a.lux - c.e1), he1, le_max_right _ _, ?_, ?_⟩
    -- the bright anchor is the adjustment itself from 150 lux on
    all_goals
      rcases lt_or_ge a.lux 150 with hlt | hge
      · simp only [if_pos hlt, max_eq_right hlt.le, he1]
        ring
      · simp only [if_neg hge.not_gt, max_eq_left hge, he1]
        ring

theorem Line.slope_eq (h : c.Line k a) : c.slope = k := by
  have hne : c.e2 ≠ 0 := (by linarith [h.e2] : 0 < c.e2).ne'
  rw [slope, h.bl2, h.bl1, h.e1, sub_zero, div_eq_iff hne]
  ring

theorem Line.learned (h : c.Line k a) (hk : k ∈ Set.Icc (minSlope a.lux a.linear) (maxSlope a.lux a.linear)) :
    c.updateThreshold.Learned a.lux a.linear where
  e1 := h.e1
  e2 := h.e2
  slope_ge := (le_max_right _ _).trans (hk.1.trans_eq h.slope_eq.symm)
  slope_le := h.slope_eq.trans_le (hk.2.trans_eq (max_comm _ _))
  through := by
    have hat : c.bl1 + c.slope * min a.lux maxLux = a.linear := by
      rw [min_eq_left a.lux_le, h.slope_eq, h.bl1]
      ring
    show max 0 (min (c.bl1 + c.slope * min a.lux maxLux) 1) = a.linear
    rw [hat, min_eq_left a.linear_le, max_eq_right a.linear_pos.le]
  threshold_ge := by
    simp only [updateThreshold, ← max_def_lt]
    exact (le_max_right _ _).trans (le_max_left _ _)
  luxLow_le := by
    simp only [updateThreshold, ← max_def_lt, mul_comm (1.2 : K)]
    exact le_max_right _ _

theorem Anchored.adjust (h : c.Anchored) (a : Adjustment K) : (c.adjust a).Learned a.lux a.linear := by
  obtain ⟨k, hk, hl⟩ := h.turn (a := a)
  rw [Curve.adjust, learn, if_neg a.lux_pos.not_ge, min_eq_left a.lux_le]
  exact hl.learned hk

/-- However a factory curve was adjusted before, it learns each adjustment. -/
theorem learned_after_adjustments (product : Product) (before : List (Adjustment ℝ)) (a : Adjustment ℝ) :
    ((before.foldl adjust (factory product)).learn a.lux a.linear).Learned a.lux a.linear := by
  have hanc : (before.foldl adjust (factory product)).Anchored := by
    refine List.foldlRecOn (motive := Anchored) before _ ⟨rfl, ?_⟩ fun c hc b _ => ?_
    · norm_num [factory, updateThreshold, factoryLuxHigh]
    · exact ⟨(hc.adjust b).e1, (hc.adjust b).e2⟩
  exact hanc.adjust a

/-- However a factory curve was adjusted, more light never makes the panel darker. -/
theorem brightness_rises (product : Product) (adjustments : List (Adjustment ℝ)) (lo hi : ℝ) :
    Monotone fun lux => (adjustments.foldl adjust (factory product)).linearForLux lux lo hi := by
  have hrises : (adjustments.foldl adjust (factory product)).Anchored ∧
      0 ≤ (adjustments.foldl adjust (factory product)).slope := by
    refine List.foldlRecOn (motive := fun c : Curve ℝ => c.Anchored ∧ 0 ≤ c.slope) adjustments _ ⟨⟨rfl, ?_⟩, ?_⟩ ?_
    · norm_num [factory, updateThreshold, factoryLuxHigh]
    · cases product <;> norm_num [factory, updateThreshold, slope, factoryLuxHigh, factoryAnchors]
    · intro c hc a _
      have hl := hc.1.adjust a
      exact ⟨⟨hl.e1, hl.e2⟩, le_trans (by norm_num [minSlopeFloor]) hl.slope_ge⟩
  intro lux lux' hle
  have hlux : min lux maxLux ≤ min lux' maxLux := min_le_min_right _ hle
  exact max_le_max_left _ (min_le_min_right _ (add_le_add_right (mul_le_mul_of_nonneg_left hlux hrises.2) _))

end Curve

end KaiT2en.Brightness
