import KaiT2en.Lib.Hermite
import Mathlib

/-!
# The fan curve

`config.rs` of `t2-fan-control`. A curve has a start, a handle and an end. `normalize_curve` makes any list of points
such a curve, and `curve_percent` is a monotone cubic through the three points. The computation is over an ordered
field here; the program rounds to `f64`.

The slopes that `curve_percent` chooses are in the box of `Hermite.hermite_mono`: at the ends at most twice the slope
of the chord, at the handle at most three times the slope of either chord (`curve_percent_monotone`).
-/

namespace KaiT2en.Fan

open KaiT2en.Lib.Hermite

/-! ## Points -/

structure CurvePoint where
  tempC : UInt8
  speedPercent : UInt8
  deriving DecidableEq

def MAX_SOAK_TEMP_C : UInt8 := 100
def CURVE_POINT_COUNT : Nat := 3
def LEGACY_CURVE_POINT_COUNT : Nat := 4

/-- The curve of `AppConfig::default`. -/
def defaultCurve : List CurvePoint := [⟨0, 10⟩, ⟨70, 25⟩, ⟨95, 65⟩]

/-- `u8::clamp`, which panics if the bounds are the wrong way round. -/
def clamp (x low high : UInt8) : Option UInt8 := if low ≤ high then some (max low (min x high)) else none

variable (curve : List CurvePoint)

/-- `sort_by_key` with the temperature, which is stable. -/
def sortByTemp : List CurvePoint := curve.insertionSort fun p q => p.tempC ≤ q.tempC

/-- `speed_range` of a curve from `start` to `last`. -/
def speedRange (start last : CurvePoint) : UInt8 × UInt8 :=
  (min start.speedPercent last.speedPercent, max start.speedPercent last.speedPercent)

/-- The number of points becomes three: a curve of four points loses the second one, any other is replaced. -/
def threePoints : List CurvePoint :=
  let curve := if curve.length = LEGACY_CURVE_POINT_COUNT then (sortByTemp curve).eraseIdx 1 else curve
  if curve.length ≠ CURVE_POINT_COUNT then defaultCurve else curve

/-- `normalize_curve`. There is no result where it panics. -/
def normalizeCurve : Option (List CurvePoint) :=
  match sortByTemp (threePoints curve) with
  | [start, handle, last] => do
    let startTemp := min start.tempC (MAX_SOAK_TEMP_C - 2)
    let lastTemp ← clamp last.tempC (startTemp + 2) MAX_SOAK_TEMP_C
    let handleTemp ← clamp handle.tempC (startTemp + 1) (lastTemp - 1)
    let start : CurvePoint := ⟨startTemp, min start.speedPercent 100⟩
    let last : CurvePoint := ⟨lastTemp, min last.speedPercent 100⟩
    let (low, high) := speedRange start last
    let handleSpeed ← clamp (min handle.speedPercent 100) low high
    pure [start, ⟨handleTemp, handleSpeed⟩, last]
  | _ => none

/-! ## What `normalize_curve` establishes -/

theorem clamp_eq {x low high : UInt8} (h : low ≤ high) : ∃ r, clamp x low high = some r ∧ low ≤ r ∧ r ≤ high := by
  refine ⟨_, if_pos h, ?_⟩
  rw [UInt8.le_iff_toNat_le] at h
  rw [UInt8.le_iff_toNat_le, UInt8.le_iff_toNat_le, UInt8.toNat_max, UInt8.toNat_min]
  omega

theorem min_le_bound (x bound : UInt8) : min x bound ≤ bound := by
  rw [UInt8.le_iff_toNat_le, UInt8.toNat_min]
  omega

theorem length_sortByTemp : (sortByTemp curve).length = curve.length := List.length_insertionSort _ curve

theorem length_threePoints : (threePoints curve).length = 3 := by
  have hrep : ∀ l : List CurvePoint, (if l.length ≠ CURVE_POINT_COUNT then defaultCurve else l).length = 3 := by
    intro l
    split
    · rfl
    · rename_i hcnt
      exact not_not.1 hcnt
  exact hrep _

/-- A start, a handle and an end, with the handle between the other two. -/
structure Normal (start handle last : CurvePoint) : Prop where
  handle_temp : start.tempC < handle.tempC
  last_temp : handle.tempC < last.tempC
  temp_le : last.tempC ≤ MAX_SOAK_TEMP_C
  low_le : min start.speedPercent last.speedPercent ≤ handle.speedPercent
  le_high : handle.speedPercent ≤ max start.speedPercent last.speedPercent
  speed_le : last.speedPercent ≤ 100

theorem normalizeCurve_normal :
    ∃ start handle last, normalizeCurve curve = some [start, handle, last] ∧ Normal start handle last := by
  obtain ⟨a, b, c, hsor⟩ : ∃ a b c, sortByTemp (threePoints curve) = [a, b, c] := by
    apply List.length_eq_three.1
    rw [length_sortByTemp, length_threePoints]
  have hstr : min a.tempC (MAX_SOAK_TEMP_C - 2) ≤ 98 := min_le_bound _ _
  obtain ⟨lastTemp, hla, hlow, hhi⟩ := clamp_eq (x := c.tempC)
    (show min a.tempC (MAX_SOAK_TEMP_C - 2) + 2 ≤ MAX_SOAK_TEMP_C by
      rw [MAX_SOAK_TEMP_C] at hstr ⊢
      grind)
  obtain ⟨handleTemp, hhan, hlow', hhi'⟩ := clamp_eq (x := b.tempC)
    (show min a.tempC (MAX_SOAK_TEMP_C - 2) + 1 ≤ lastTemp - 1 by grind)
  obtain ⟨handleSpeed, hspd, hlow'', hhi''⟩ := clamp_eq (x := min b.speedPercent 100)
    (show min (min a.speedPercent 100) (min c.speedPercent 100) ≤
        max (min a.speedPercent 100) (min c.speedPercent 100) by
      rw [UInt8.le_iff_toNat_le, UInt8.toNat_min, UInt8.toNat_max]
      omega)
  refine ⟨⟨min a.tempC (MAX_SOAK_TEMP_C - 2), min a.speedPercent 100⟩, ⟨handleTemp, handleSpeed⟩,
    ⟨lastTemp, min c.speedPercent 100⟩, ?_, ?_, ?_, hhi, hlow'', hhi'', min_le_bound _ _⟩
  · simp [normalizeCurve, hsor, hla, hhan, speedRange, hspd]
  · grind
  · grind

/-! ## The curve -/

section Curve

variable {K : Type*} [Field K] [LinearOrder K]

-- what the numerals of the formulas rest on in any field
local instance two_atLeastTwo : Nat.AtLeastTwo 2 := ⟨le_rfl⟩

local instance three_atLeastTwo : Nat.AtLeastTwo 3 := ⟨Nat.le_succ 2⟩

def endSlope (hNear hFar dNear dFar : K) : K :=
  let slope := ((2 * hNear + hFar) * dNear - hNear * dFar) / (hNear + hFar)
  if slope * dNear ≤ 0 then 0
  else if dNear * dFar < 0 ∧ |slope| > 3 * |dNear| then 3 * dNear
  else slope

def handleSlope (h0 h1 d0 d1 : K) : K :=
  if d0 * d1 ≤ 0 then 0
  else
    let w0 := 2 * h1 + h0
    let w1 := h1 + 2 * h0
    (w0 + w1) / (w0 / d0 + w1 / d1)

/-- The cubic from `xa` to `xb`. -/
def piece (xa ya ma xb yb mb tempC : K) : K :=
  let h := xb - xa
  let t := (tempC - xa) / h
  let t2 := t * t
  let t3 := t * t * t
  (2 * t3 - 3 * t2 + 1) * ya + (t3 - 2 * t2 + t) * h * ma + (-2 * t3 + 3 * t2) * yb + (t3 - t2) * h * mb

/-- The curve between the start and the end. -/
def between (x0 x1 x2 y0 y1 y2 tempC : K) : K :=
  let h0 := x1 - x0
  let h1 := x2 - x1
  let d0 := (y1 - y0) / h0
  let d1 := (y2 - y1) / h1
  let m1 := handleSlope h0 h1 d0 d1
  let m0 := endSlope h0 h1 d0 d1
  let m2 := endSlope h1 h0 d1 d0
  if tempC ≤ x1 then piece x0 y0 m0 x1 y1 m1 tempC else piece x1 y1 m1 x2 y2 m2 tempC

def CurvePoint.temp (p : CurvePoint) : K := p.tempC.toNat

def CurvePoint.speed (p : CurvePoint) : K := p.speedPercent.toNat

def curvePercent (curve : List CurvePoint) (tempC : K) : K :=
  match curve with
  | [start, handle, last] =>
    if tempC ≤ start.temp then start.speed
    else if tempC > last.temp then 100
    else between start.temp handle.temp last.temp start.speed handle.speed last.speed tempC
  | _ => 0

/-! ## Ends and signs -/

theorem endSlope_neg (hNear hFar dNear dFar : K) :
    endSlope hNear hFar (-dNear) (-dFar) = -endSlope hNear hFar dNear dFar := by
  have hslope : ((2 * hNear + hFar) * -dNear - hNear * -dFar) / (hNear + hFar) =
      -(((2 * hNear + hFar) * dNear - hNear * dFar) / (hNear + hFar)) := by
    ring
  simp only [endSlope, hslope, neg_mul_neg, abs_neg]
  split_ifs
  · exact neg_zero.symm
  · ring
  · rfl

theorem handleSlope_neg (h0 h1 d0 d1 : K) : handleSlope h0 h1 (-d0) (-d1) = -handleSlope h0 h1 d0 d1 := by
  simp only [handleSlope, neg_mul_neg]
  split_ifs
  · exact neg_zero.symm
  · rw [div_neg, div_neg, ← neg_add, div_neg]

omit [LinearOrder K] in
theorem piece_eq (xa ya ma xb yb mb t : K) :
    piece xa ya ma xb yb mb t = hermite ya ((xb - xa) * ma) yb ((xb - xa) * mb) ((t - xa) / (xb - xa)) := by
  simp only [piece, hermite]
  ring

omit [LinearOrder K] in
theorem piece_left (xa ya ma xb yb mb : K) : piece xa ya ma xb yb mb xa = ya := by
  rw [piece_eq, sub_self, zero_div, hermite_zero]

theorem piece_right {xa xb : K} (hx : xa < xb) (ya ma yb mb : K) : piece xa ya ma xb yb mb xb = yb := by
  rw [piece_eq, div_self (sub_ne_zero.2 hx.ne'), hermite_one]

omit [LinearOrder K] in
theorem piece_neg (xa ya ma xb yb mb t : K) : piece xa (-ya) (-ma) xb (-yb) (-mb) t = -piece xa ya ma xb yb mb t := by
  rw [piece_eq, piece_eq, mul_neg, mul_neg, hermite_neg]

theorem between_neg (x0 x1 x2 y0 y1 y2 t : K) :
    between x0 x1 x2 (-y0) (-y1) (-y2) t = -between x0 x1 x2 y0 y1 y2 t := by
  have hd0 : (-y1 - -y0) / (x1 - x0) = -((y1 - y0) / (x1 - x0)) := by
    ring
  have hd1 : (-y2 - -y1) / (x2 - x1) = -((y2 - y1) / (x2 - x1)) := by
    ring
  simp only [between, hd0, hd1, endSlope_neg, handleSlope_neg, piece_neg]
  split_ifs
  · rfl
  · rfl

section Ends

variable {x0 x1 x2 y0 y1 y2 : K}

theorem between_handle (h01 : x0 < x1) : between x0 x1 x2 y0 y1 y2 x1 = y1 := by
  rw [between, if_pos le_rfl, piece_right h01]

theorem curvePercent_below {start : CurvePoint} (handle last : CurvePoint) {t : K} (ht : t ≤ start.temp) :
    curvePercent [start, handle, last] t = start.speed := if_pos ht

end Ends

/-! ## The slopes are in the box -/

variable [IsStrictOrderedRing K]

theorem endSlope_mem {hNear hFar dNear dFar : K} (hnear : 0 < hNear) (hfar : 0 < hFar) (hdNear : 0 ≤ dNear)
    (hdFar : 0 ≤ dFar) : 0 ≤ endSlope hNear hFar dNear dFar ∧ endSlope hNear hFar dNear dFar ≤ 3 * dNear := by
  have hsum : 0 < hNear + hFar := add_pos hnear hfar
  have hle : ((2 * hNear + hFar) * dNear - hNear * dFar) / (hNear + hFar) ≤ 3 * dNear := by
    rw [div_le_iff₀ hsum]
    nlinarith [mul_nonneg hnear.le hdFar, mul_nonneg hnear.le hdNear, mul_nonneg hfar.le hdNear]
  unfold endSlope
  simp only
  split_ifs with hflat hsteep
  · exact ⟨le_rfl, by linarith⟩
  · exact absurd (mul_nonneg hdNear hdFar) (not_le.2 hsteep.1)
  · refine ⟨?_, hle⟩
    -- a slope below zero is flat
    by_contra hneg
    exact hflat (mul_nonpos_of_nonpos_of_nonneg (not_le.1 hneg).le hdNear)

theorem handleSlope_mem {h0 h1 d0 d1 : K} (hh0 : 0 < h0) (hh1 : 0 < h1) (hd0 : 0 ≤ d0) (hd1 : 0 ≤ d1) :
    0 ≤ handleSlope h0 h1 d0 d1 ∧ handleSlope h0 h1 d0 d1 ≤ 3 * d0 ∧ handleSlope h0 h1 d0 d1 ≤ 3 * d1 := by
  unfold handleSlope
  split_ifs with hflat
  · exact ⟨le_rfl, by linarith, by linarith⟩
  · have hprod : 0 < d0 * d1 := not_le.1 hflat
    have hpos0 : 0 < d0 := lt_of_le_of_ne hd0 fun heq => by rw [← heq, zero_mul] at hprod; exact lt_irrefl _ hprod
    have hpos1 : 0 < d1 := lt_of_le_of_ne hd1 fun heq => by rw [← heq, mul_zero] at hprod; exact lt_irrefl _ hprod
    have hw0 : 0 < 2 * h1 + h0 := by linarith
    have hw1 : 0 < h1 + 2 * h0 := by linarith
    have ha : 0 < (2 * h1 + h0) / d0 := div_pos hw0 hpos0
    have hb : 0 < (h1 + 2 * h0) / d1 := div_pos hw1 hpos1
    have hmul0 : (2 * h1 + h0) / d0 * d0 = 2 * h1 + h0 := div_mul_cancel₀ _ hpos0.ne'
    have hmul1 : (h1 + 2 * h0) / d1 * d1 = h1 + 2 * h0 := div_mul_cancel₀ _ hpos1.ne'
    have hsum : 0 < (2 * h1 + h0) / d0 + (h1 + 2 * h0) / d1 := add_pos ha hb
    refine ⟨(div_pos (add_pos hw0 hw1) hsum).le, ?_, ?_⟩
    -- one of the two terms of the denominator is enough
    · rw [div_le_iff₀ hsum]
      nlinarith [mul_pos hb hpos0]
    · rw [div_le_iff₀ hsum]
      nlinarith [mul_pos ha hpos1]

/-! ## One piece -/

section Piece

variable {xa ya ma xb yb mb t s : K}

theorem piece_mono (hx : xa < xb) (hma : 0 ≤ ma ∧ ma ≤ 3 * ((yb - ya) / (xb - xa)))
    (hmb : 0 ≤ mb ∧ mb ≤ 3 * ((yb - ya) / (xb - xa))) (ht : xa ≤ t) (hts : t ≤ s) (hs : s ≤ xb) :
    piece xa ya ma xb yb mb t ≤ piece xa ya ma xb yb mb s := by
  have hh : 0 < xb - xa := sub_pos.2 hx
  have hbox : ∀ m, 0 ≤ m ∧ m ≤ 3 * ((yb - ya) / (xb - xa)) → 0 ≤ (xb - xa) * m ∧ (xb - xa) * m ≤ 3 * (yb - ya) := by
    rintro m ⟨hm, hm'⟩
    refine ⟨mul_nonneg hh.le hm, ?_⟩
    calc (xb - xa) * m ≤ (xb - xa) * (3 * ((yb - ya) / (xb - xa))) := mul_le_mul_of_nonneg_left hm' hh.le
      _ = 3 * (yb - ya) := by rw [mul_left_comm, mul_div_cancel₀ _ hh.ne']
  rw [piece_eq, piece_eq]
  apply hermite_mono (hbox ma hma).1 (hbox ma hma).2 (hbox mb hmb).1 (hbox mb hmb).2
  · exact div_nonneg (sub_nonneg.2 ht) hh.le
  · exact div_le_div_of_nonneg_right (sub_le_sub_right hts xa) hh.le
  · rw [div_le_one hh]
    exact sub_le_sub_right hs xa

end Piece

/-! ## Both pieces -/

section Between

variable {x0 x1 x2 y0 y1 y2 t s : K}

section

variable (h01 : x0 < x1)
include h01

theorem between_mono_left (h12 : x1 < x2) (hy01 : y0 ≤ y1) (hy12 : y1 ≤ y2) (ht : x0 ≤ t)
    (hts : t ≤ s) (hs : s ≤ x1) : between x0 x1 x2 y0 y1 y2 t ≤ between x0 x1 x2 y0 y1 y2 s := by
  have hd0 : 0 ≤ (y1 - y0) / (x1 - x0) := div_nonneg (sub_nonneg.2 hy01) (sub_pos.2 h01).le
  have hd1 : 0 ≤ (y2 - y1) / (x2 - x1) := div_nonneg (sub_nonneg.2 hy12) (sub_pos.2 h12).le
  have hslope := handleSlope_mem (sub_pos.2 h01) (sub_pos.2 h12) hd0 hd1
  rw [between, between, if_pos (hts.trans hs), if_pos hs]
  exact piece_mono h01 (endSlope_mem (sub_pos.2 h01) (sub_pos.2 h12) hd0 hd1) ⟨hslope.1, hslope.2.1⟩ ht hts hs

theorem between_mono_right (h12 : x1 < x2) (hy01 : y0 ≤ y1) (hy12 : y1 ≤ y2) (ht : x1 ≤ t)
    (hts : t ≤ s) (hs : s ≤ x2) : between x0 x1 x2 y0 y1 y2 t ≤ between x0 x1 x2 y0 y1 y2 s := by
  have hd0 : 0 ≤ (y1 - y0) / (x1 - x0) := div_nonneg (sub_nonneg.2 hy01) (sub_pos.2 h01).le
  have hd1 : 0 ≤ (y2 - y1) / (x2 - x1) := div_nonneg (sub_nonneg.2 hy12) (sub_pos.2 h12).le
  have hslope := handleSlope_mem (sub_pos.2 h01) (sub_pos.2 h12) hd0 hd1
  -- the handle belongs to both pieces
  have heq : ∀ u, x1 ≤ u → between x0 x1 x2 y0 y1 y2 u =
      piece x1 y1 (handleSlope (x1 - x0) (x2 - x1) ((y1 - y0) / (x1 - x0)) ((y2 - y1) / (x2 - x1))) x2 y2
        (endSlope (x2 - x1) (x1 - x0) ((y2 - y1) / (x2 - x1)) ((y1 - y0) / (x1 - x0))) u := by
    intro u hu
    rcases hu.eq_or_lt with rfl | hlt
    · rw [between_handle h01, piece_left]
    · rw [between, if_neg (not_le.2 hlt)]
  rw [heq t ht, heq s (ht.trans hts)]
  exact piece_mono h12 ⟨hslope.1, hslope.2.2⟩ (endSlope_mem (sub_pos.2 h12) (sub_pos.2 h01) hd1 hd0) ht hts hs

theorem between_mono (h12 : x1 < x2) (hy01 : y0 ≤ y1) (hy12 : y1 ≤ y2) :
    MonotoneOn (between x0 x1 x2 y0 y1 y2) (Set.Icc x0 x2) := by
  intro t ht s hs hts
  rcases le_total s x1 with hsx | hsx
  · exact between_mono_left h01 h12 hy01 hy12 ht.1 hts hsx
  rcases le_total t x1 with htx | htx
  · calc between x0 x1 x2 y0 y1 y2 t ≤ between x0 x1 x2 y0 y1 y2 x1 :=
          between_mono_left h01 h12 hy01 hy12 ht.1 htx le_rfl
      _ ≤ between x0 x1 x2 y0 y1 y2 s := between_mono_right h01 h12 hy01 hy12 le_rfl hsx hs.2
  · exact between_mono_right h01 h12 hy01 hy12 htx hts hs.2

theorem between_anti (h12 : x1 < x2) (hy01 : y1 ≤ y0) (hy12 : y2 ≤ y1) :
    AntitoneOn (between x0 x1 x2 y0 y1 y2) (Set.Icc x0 x2) := by
  intro t ht s hs hts
  have hmono := between_mono h01 h12 (neg_le_neg hy01) (neg_le_neg hy12) ht hs hts
  rwa [between_neg, between_neg, neg_le_neg_iff] at hmono

end

end Between

/-! ## A normal curve -/

section Normal

variable {start handle last : CurvePoint}

theorem temp_lt_temp {p q : CurvePoint} (h : p.tempC < q.tempC) : (p.temp : K) < q.temp :=
  Nat.cast_lt.2 (UInt8.lt_iff_toNat_lt.1 h)

theorem speed_le_speed {p q : CurvePoint} : (p.speed : K) ≤ q.speed ↔ p.speedPercent ≤ q.speedPercent := by
  rw [CurvePoint.speed, CurvePoint.speed, Nat.cast_le, UInt8.le_iff_toNat_le]

section

variable (h : Normal start handle last)
include h

/-- The speeds rise to the handle and on to the end, or they fall. -/
theorem Normal.rises (hle : (start.speed : K) ≤ last.speed) :
    (start.speed : K) ≤ handle.speed ∧ (handle.speed : K) ≤ last.speed := by
  have hlow := h.low_le
  have hhi := h.le_high
  rw [speed_le_speed] at hle
  rw [speed_le_speed, speed_le_speed]
  rw [UInt8.le_iff_toNat_le] at *
  rw [UInt8.toNat_min] at hlow
  rw [UInt8.toNat_max] at hhi
  rw [UInt8.le_iff_toNat_le]
  omega

theorem Normal.falls (hle : (last.speed : K) ≤ start.speed) :
    (handle.speed : K) ≤ start.speed ∧ (last.speed : K) ≤ handle.speed := by
  have hlow := h.low_le
  have hhi := h.le_high
  rw [speed_le_speed] at hle
  rw [speed_le_speed, speed_le_speed]
  rw [UInt8.le_iff_toNat_le] at *
  rw [UInt8.toNat_min] at hlow
  rw [UInt8.toNat_max] at hhi
  rw [UInt8.le_iff_toNat_le]
  omega

theorem Normal.curvePercent_eq {t : K} (ht : t ∈ Set.Icc start.temp last.temp) : curvePercent [start, handle, last] t =
      between start.temp handle.temp last.temp start.speed handle.speed last.speed t := by
  rcases ht.1.eq_or_lt with rfl | hlt
  · rw [curvePercent, if_pos le_rfl, between, if_pos (temp_lt_temp h.handle_temp).le, piece_left]
  · rw [curvePercent, if_neg (not_le.2 hlt), if_neg (not_lt.2 ht.2)]

theorem Normal.start_mem : (start.temp : K) ∈ Set.Icc (start.temp : K) last.temp :=
  ⟨le_rfl, ((temp_lt_temp h.handle_temp).trans (temp_lt_temp h.last_temp)).le⟩

theorem Normal.last_mem : (last.temp : K) ∈ Set.Icc (start.temp : K) last.temp := ⟨h.start_mem.2, le_rfl⟩

theorem Normal.monotoneOn (hle : (start.speed : K) ≤ last.speed) :
    MonotoneOn (curvePercent [start, handle, last]) (Set.Icc (start.temp : K) last.temp) := by
  intro t ht s hs hts
  rw [h.curvePercent_eq ht, h.curvePercent_eq hs]
  exact between_mono (temp_lt_temp h.handle_temp) (temp_lt_temp h.last_temp) (h.rises hle).1 (h.rises hle).2 ht hs hts

theorem Normal.antitoneOn (hle : (last.speed : K) ≤ start.speed) :
    AntitoneOn (curvePercent [start, handle, last]) (Set.Icc (start.temp : K) last.temp) := by
  intro t ht s hs hts
  rw [h.curvePercent_eq ht, h.curvePercent_eq hs]
  exact between_anti (temp_lt_temp h.handle_temp) (temp_lt_temp h.last_temp) (h.falls hle).1 (h.falls hle).2 ht hs hts

theorem Normal.curvePercent_above {t : K} (ht : last.temp < t) : curvePercent [start, handle, last] t = 100 := by
  rw [curvePercent, if_neg (not_le.2 (lt_of_le_of_lt h.start_mem.2 ht)), if_pos ht]

theorem Normal.curvePercent_handle : curvePercent [start, handle, last] (handle.temp : K) = handle.speed := by
  rw [h.curvePercent_eq ⟨(temp_lt_temp h.handle_temp).le, (temp_lt_temp h.last_temp).le⟩,
    between_handle (temp_lt_temp h.handle_temp)]

theorem Normal.curvePercent_last : curvePercent [start, handle, last] (last.temp : K) = last.speed := by
  rw [h.curvePercent_eq h.last_mem, between, if_neg (not_le.2 (temp_lt_temp h.last_temp)),
    piece_right (temp_lt_temp h.last_temp)]

theorem Normal.mem_uIcc {t : K} (ht : t ∈ Set.Icc start.temp last.temp) :
    curvePercent [start, handle, last] t ∈ Set.uIcc start.speed last.speed := by
  rcases le_total (start.speed : K) last.speed with hle | hle
  · rw [Set.uIcc_of_le hle, ← curvePercent_below handle last (le_refl (start.temp : K)), ← h.curvePercent_last]
    exact ⟨h.monotoneOn hle h.start_mem ht ht.1, h.monotoneOn hle ht h.last_mem ht.2⟩
  · rw [Set.uIcc_of_ge hle, ← curvePercent_below handle last (le_refl (start.temp : K)), ← h.curvePercent_last]
    exact ⟨h.antitoneOn hle ht h.last_mem ht.2, h.antitoneOn hle h.start_mem ht ht.1⟩

/-- A higher temperature never gives a lower speed. -/
theorem Normal.monotone (hle : (start.speed : K) ≤ last.speed) :
    Monotone (curvePercent [start, handle, last] : K → K) := by
  have hla : (last.speed : K) ≤ 100 := by
    rw [CurvePoint.speed, ← Nat.cast_ofNat, Nat.cast_le]
    exact UInt8.le_iff_toNat_le.1 h.speed_le
  have hbel : ∀ t : K, t ≤ last.temp → start.speed ≤ curvePercent [start, handle, last] t ∧
      curvePercent [start, handle, last] t ≤ last.speed := by
    intro t ht
    rcases le_total t start.temp with hstr | hstr
    · rw [curvePercent_below _ _ hstr]
      exact ⟨le_rfl, hle⟩
    · have hmem := h.mem_uIcc ⟨hstr, ht⟩
      rwa [Set.uIcc_of_le hle] at hmem
  intro t s hts
  rcases lt_or_ge last.temp s with hs | hs
  · rw [h.curvePercent_above hs]
    rcases lt_or_ge last.temp t with ht | ht
    · rw [h.curvePercent_above ht]
    · exact (hbel t ht).2.trans hla
  rcases le_total t start.temp with ht | ht
  · rw [curvePercent_below _ _ ht]
    exact (hbel s hs).1
  · exact h.monotoneOn hle ⟨ht, hts.trans hs⟩ ⟨ht.trans hts, hs⟩ hts

end

end Normal

end Curve

/-- Every list of points is made a curve that runs through its three points, goes from the start speed to the end
speed in one direction, is flat before the start and full behind the end; and monotone everywhere if the start is not
above the end. -/
theorem curve_percent_monotone (points : List CurvePoint) :
    ∃ start handle last, normalizeCurve points = some [start, handle, last] ∧
      curvePercent [start, handle, last] (start.temp : ℝ) = start.speed ∧
      curvePercent [start, handle, last] (handle.temp : ℝ) = handle.speed ∧
      curvePercent [start, handle, last] (last.temp : ℝ) = last.speed ∧
      (∀ t ∈ Set.Icc (start.temp : ℝ) last.temp,
        curvePercent [start, handle, last] t ∈ Set.uIcc start.speed last.speed) ∧
      ((start.speed : ℝ) ≤ last.speed →
        MonotoneOn (curvePercent [start, handle, last]) (Set.Icc (start.temp : ℝ) last.temp)) ∧
      ((last.speed : ℝ) ≤ start.speed →
        AntitoneOn (curvePercent [start, handle, last]) (Set.Icc (start.temp : ℝ) last.temp)) ∧
      (∀ t : ℝ, t ≤ start.temp → curvePercent [start, handle, last] t = start.speed) ∧
      (∀ t : ℝ, last.temp < t → curvePercent [start, handle, last] t = 100) ∧
      ((start.speed : ℝ) ≤ last.speed → Monotone (curvePercent [start, handle, last] : ℝ → ℝ)) := by
  obtain ⟨start, handle, last, hnorm, hnor⟩ := normalizeCurve_normal points
  exact ⟨start, handle, last, hnorm, curvePercent_below _ _ le_rfl, hnor.curvePercent_handle,
    hnor.curvePercent_last, fun t ht => hnor.mem_uIcc ht, hnor.monotoneOn, hnor.antitoneOn,
    fun t ht => curvePercent_below _ _ ht, fun t ht => hnor.curvePercent_above ht, hnor.monotone⟩

end KaiT2en.Fan
