import KaiT2en.Lib.Binary32
import KaiT2en.Smc.Access

/-!
# Sensor values of the SMC

`t2smc_read_scaled` reads a number from a key and multiplies it by a scale. The type of the key says how the number is
written: single precision, 16 bits of fixed point, or a big endian integer.

`exactValue` is the number that the bytes of a key stand for. Fixed point numbers and integers are scaled exactly. For
single precision the significand is shifted to the left in 64 bits, and only after that compared with the largest
`long`, so that a larger number loses its high bits (`read_scaled_exact`).
-/

namespace KaiT2en.Smc

open KaiT2en.Kernel KaiT2en.Lib KaiT2en.Lib.Bytes KaiT2en.Lib.Stateful Command Int Binary32

/-! ## Machine integers -/

def LONG_MAX : Nat := 2 ^ 63 - 1

variable (x : Int) (entry : KeyRecord)

/-- Conversion to `u64`. -/
def toU64 : Nat := (x % 2 ^ 64).toNat

/-- Conversion to `s64`. -/
def toS64 : Int := x.bmod (2 ^ 64)

/-- Conversion to `s16`. -/
def toS16 : Int := x.bmod (2 ^ 16)

def signExtend32 (value index : Nat) : Int := ((value * 2 ^ (31 - index) : Nat) : Int).bmod (2 ^ 32) / 2 ^ (31 - index)

/-- `mult_frac` of an `s16`. The divisor is an `unsigned long`, and so are quotient and remainder before they are
stored in an `s16`. -/
def multFracS16 (x n : Int) (d : Nat) : Int :=
  let q := toS16 (toU64 x / d : Nat)
  let r := toS16 (toU64 x % d : Nat)
  toS64 (toU64 (q * n) + toU64 (r * n) / d : Nat)

/-- `mult_frac` of a `u16`. -/
def multFracU16 (x : Nat) (n : Int) (d : Nat) : Int :=
  let q : Nat := x / d % 2 ^ 16
  let r : Nat := x % d % 2 ^ 16
  toS64 (toU64 (q * n) + toU64 (r * n) / d : Nat)

/-! ## Types of keys -/

def hexDigit (digit : UInt8) : Option Nat :=
  if 48 ≤ digit ∧ digit ≤ 57 then some (digit.toNat - 48)
  else if 97 ≤ digit ∧ digit ≤ 102 then some (digit.toNat - 97 + 10)
  else if 65 ≤ digit ∧ digit ≤ 70 then some (digit.toNat - 65 + 10)
  else none

/-- `t2smc_fixed_point_bits`: the number of fractional bits, and whether the number has a sign. -/
def fixedPointBits : Option (Nat × Bool) :=
  if entry.len ≠ 2 ∨ (entry.type.take 2 ≠ [115, 112] ∧ entry.type.take 2 ≠ [102, 112]) then none
  else
    let isSigned := entry.type.getD 0 0 = 115
    match hexDigit (entry.type.getD 2 0), hexDigit (entry.type.getD 3 0) with
    | some integerBits, some fractionalBits =>
      if integerBits + fractionalBits ≠ if isSigned then 15 else 16 then none else some (fractionalBits, isSigned)
    | _, _ => none

def isIntType : Bool :=
  (entry.type.getD 0 0 = 117 ∨ entry.type.getD 0 0 = 115) ∧ entry.type.getD 1 0 = 105 ∧
    (entry.len = 1 ∨ entry.len = 2 ∨ entry.len = 4)

/-! ## Reading -/

/-- The single precision branch of `t2smc_read_scaled`. -/
def scaledFloat (raw scale : Nat) : Int :=
  let magnitude := (raw &&& (2 ^ 23 - 1) ||| 2 ^ 23) * scale % 2 ^ 64
  let exponent : Int := (raw >>> 23 &&& (2 ^ 8 - 1) : Nat) - 127 - 23
  let magnitude :=
    if exponent < -63 then 0
    else if exponent < 0 then magnitude >>> (-exponent).toNat
    else if exponent < 63 then (magnitude <<< exponent.toNat) % 2 ^ 64
    else LONG_MAX
  let val : Int := (min magnitude LONG_MAX : Nat)
  if raw &&& 2 ^ 31 ≠ 0 then -val else val

/-- The fixed point branch. -/
def scaledFixed (fixed scale fractionalBits : Nat) (isSigned : Bool) : Int :=
  if isSigned then multFracS16 (toS16 fixed) scale (2 ^ fractionalBits)
  else multFracU16 fixed scale (2 ^ fractionalBits)

/-- The integer branch. -/
def scaledInt (raw scale : Nat) (len : Nat) (isSigned : Bool) : Int :=
  if isSigned then toS64 (signExtend32 raw (len * 8 - 1) * scale) else toS64 ((raw : Int) * scale)

def readScaled (t : KeyTable) (faults : Faults) (key : List UInt8) (scale : Nat) : Access Int := do
  let entry ← getEntry t faults key
  if entry.type = FLOAT_TYPE then
    let buf ← readKey t faults key 4
    return scaledFloat (ofLe buf) scale
  else
    match fixedPointBits entry with
    | some (fractionalBits, isSigned) =>
      let buf ← readKey t faults key 2
      return scaledFixed (ofBe buf) scale fractionalBits isSigned
    | none =>
      if isIntType entry then
        let buf ← readKey t faults key entry.len.toNat
        return scaledInt (ofBe buf) scale entry.len.toNat (entry.type.getD 0 0 = 115)
      else Command.fail (.errno (-EOPNOTSUPP))

/-! ## Exact values -/

/-- The number that the bytes of a key stand for. -/
def exactValue (buf : List UInt8) : ℚ :=
  if entry.type = FLOAT_TYPE then value (ofLe buf)
  else
    match fixedPointBits entry with
    | some (fractionalBits, true) => (((ofBe buf : Int).bmod (2 ^ 16) : Int) : ℚ) / 2 ^ fractionalBits
    | some (fractionalBits, false) => (ofBe buf : ℚ) / 2 ^ fractionalBits
    | none =>
      if entry.type.getD 0 0 = 115 then (((ofBe buf : Int).bmod (2 ^ (8 * buf.length)) : Int) : ℚ)
      else (ofBe buf : ℚ)

/-- `val` is `exact` up to less than one, or the end of the range of `long` beyond which `exact` is. -/
structure Scaled (exact : ℚ) (val : Int) : Prop where
  inside : -2 ^ 63 ≤ exact → exact ≤ LONG_MAX → |(val : ℚ) - exact| < 1
  above : LONG_MAX < exact → val = LONG_MAX
  below : exact < -2 ^ 63 → val = -LONG_MAX

/-- A scale of the driver: for thousandths or for millionths of a unit. -/
def IsScale (scale : Nat) : Prop := scale = 1000 ∨ scale = 1000000

variable {scale : Nat}

theorem IsScale.pos (h : IsScale scale) : 1000 ≤ scale ∧ scale ≤ 1000000 := by rcases h with rfl | rfl <;> decide

/-! ### Rounding down -/

/-- A value that was rounded down and is well inside the range. -/
theorem Scaled.of_floor {exact : ℚ} {val : Int} (hle : (val : ℚ) ≤ exact) (hlt : exact < val + 1)
    (hsm : |val| < 2 ^ 62) : Scaled exact val := by
  have hboun := abs_lt.1 hsm
  have hlower : -(2 : ℚ) ^ 62 < val := by exact_mod_cast hboun.1
  have hupp : (val : ℚ) + 1 ≤ 2 ^ 62 := by exact_mod_cast hboun.2
  have hmax : ((LONG_MAX : ℕ) : ℚ) = 2 ^ 63 - 1 := by norm_num [LONG_MAX]
  refine ⟨fun _ _ => abs_lt.2 ⟨by linarith, by linarith⟩, fun h => ?_, fun h => ?_⟩
  · linarith
  · linarith

theorem floor_div {a : Int} {d : Nat} (hd : 0 < d) :
    ((a / d : Int) : ℚ) ≤ (a : ℚ) / d ∧ (a : ℚ) / d < ((a / d : Int) : ℚ) + 1 := by
  have hfloor : ⌊(a : ℚ) / d⌋ = a / d := Rat.floor_intCast_div_natCast a d
  rw [← hfloor]
  exact ⟨floor_le _, lt_floor_add_one _⟩

/-! ### Fixed point -/

theorem coe_toU64 (x : Int) : ((toU64 x : Nat) : Int) = x % 2 ^ 64 := toNat_of_nonneg (emod_nonneg x (by decide))

variable {x : Int}

theorem toS64_of_small (h : |x| < 2 ^ 63) : toS64 x = x := by
  have hboun := abs_lt.1 h
  exact bmod_eq_of_le (by norm_num; omega) (by norm_num; omega)

theorem toS16_bounds (x : Int) : -2 ^ 15 ≤ toS16 x ∧ toS16 x < 2 ^ 15 := by
  have hlower : -(((2 ^ 16 : Nat) : Int) / 2) ≤ toS16 x := le_bmod (by decide)
  have hupp : toS16 x < (((2 ^ 16 : Nat) : Int) + 1) / 2 := bmod_lt (by decide)
  omega

theorem toS16_of_bounds (h : -2 ^ 15 ≤ x ∧ x < 2 ^ 15) : toS16 x = x :=
  bmod_eq_of_le (by norm_num; omega) (by norm_num; omega)

theorem natCast_two_pow (bits : Nat) : ((2 ^ bits : Nat) : Int) = 2 ^ bits := by rw [Nat.cast_pow, Nat.cast_ofNat]

section Quotient

variable {x : Int} {bits : Nat}

theorem pow_pos_le (hbi : bits ≤ 15) : (0 : Int) < 2 ^ bits ∧ (2 : Int) ^ bits ≤ 2 ^ 15 :=
  ⟨by positivity, pow_le_pow_right₀ (by decide) hbi⟩

/-- The quotient of an `s16` by a power of two, computed in `unsigned long` and stored in an `s16`, is rounded down. -/
theorem toS16_div (hx : -2 ^ 15 ≤ x ∧ x < 2 ^ 15) (hbi : bits ≤ 15) :
    toS16 (toU64 x / 2 ^ bits : Nat) = x / 2 ^ bits := by
  obtain ⟨hpos, hle⟩ := pow_pos_le hbi
  have hpow : (2 : Int) ^ 64 = 2 ^ bits * (2 ^ 16 * 2 ^ (48 - bits)) := by
    rw [← pow_add, ← pow_add]
    congr 1
    omega
  -- what the conversion to `unsigned long` adds is a multiple of what fits into an `s16`
  have hquot : ((toU64 x / 2 ^ bits : Nat) : Int) =
      x / 2 ^ bits - ((2 ^ 16 : Nat) : Int) * (2 ^ (48 - bits) * (x / 2 ^ 64)) := by
    have hmul : (2 : Int) ^ 64 * (x / 2 ^ 64) =
        2 ^ bits * (((2 ^ 16 : Nat) : Int) * (2 ^ (48 - bits) * (x / 2 ^ 64))) := by
      generalize x / 2 ^ 64 = c
      rw [hpow]
      ring
    rw [natCast_ediv, coe_toU64, emod_def, natCast_two_pow, hmul]
    exact sub_mul_ediv_left _ _ hpos.ne'
  rw [hquot, toS16, sub_mul_bmod_self_left]
  refine toS16_of_bounds ⟨?_, ?_⟩
  · exact Int.le_ediv_of_mul_le hpos (by nlinarith)
  · exact Int.ediv_lt_of_lt_mul hpos (by nlinarith)

/-- The remainder, likewise. -/
theorem toS16_mod (hbi : bits ≤ 15) : toS16 (toU64 x % 2 ^ bits : Nat) = x % 2 ^ bits := by
  obtain ⟨hpos, hle⟩ := pow_pos_le hbi
  have hdvd : (2 : Int) ^ bits ∣ 2 ^ 64 := pow_dvd_pow 2 (by omega)
  have hrem : ((toU64 x % 2 ^ bits : Nat) : Int) = x % 2 ^ bits := by
    rw [natCast_emod, coe_toU64, natCast_two_pow]
    exact emod_emod_of_dvd x hdvd
  rw [hrem]
  exact toS16_of_bounds ⟨by omega, by omega⟩

end Quotient

theorem toS64_add {a b : Int} (hb : 0 ≤ b) (hsum : |a + b| < 2 ^ 63) : toS64 (((toU64 a + b.toNat : Nat)) : Int) = a + b := by
  have hcast : ((toU64 a + b.toNat : Nat) : Int) = a + b - ((2 ^ 64 : Nat) : Int) * (a / 2 ^ 64) := by
    rw [natCast_add, coe_toU64, toNat_of_nonneg hb, emod_def, natCast_two_pow]
    generalize a / 2 ^ 64 = c
    ring
  rw [hcast, toS64, sub_mul_bmod_self_left]
  exact toS64_of_small hsum

/-- What `mult_frac` computes. -/
def splitProduct (x n : Int) (bits : Nat) : Int := x / 2 ^ bits * n + x % 2 ^ bits * n / 2 ^ bits

section MultFrac

variable {x n : Int} {bits : Nat}

theorem splitProduct_abs_lt (hx : |x| < 2 ^ 16) (hn : 0 ≤ n ∧ n ≤ 1000000) (hbi : bits ≤ 15) :
    |splitProduct x n bits| < 2 ^ 62 := by
  obtain ⟨hpos, hle⟩ := pow_pos_le hbi
  obtain ⟨hlower, hupp⟩ := abs_lt.1 hx
  have hquot : -2 ^ 16 ≤ x / 2 ^ bits ∧ x / 2 ^ bits < 2 ^ 16 :=
    ⟨Int.le_ediv_of_mul_le hpos (by nlinarith), Int.ediv_lt_of_lt_mul hpos (by nlinarith)⟩
  have hnn := Int.emod_nonneg x hpos.ne'
  have hlt := Int.emod_lt_of_pos x hpos
  have hrem : 0 ≤ x % 2 ^ bits * n / 2 ^ bits ∧ x % 2 ^ bits * n / 2 ^ bits ≤ n := by
    refine ⟨Int.ediv_nonneg (mul_nonneg hnn hn.1) hpos.le, ?_⟩
    refine Int.ediv_le_of_le_mul hpos ?_
    rw [mul_comm]
    exact mul_le_mul_of_nonneg_left hlt.le hn.1
  rw [splitProduct]
  generalize x / 2 ^ bits = q at hquot ⊢
  generalize x % 2 ^ bits * n / 2 ^ bits = r at hrem ⊢
  refine abs_lt.2 ⟨?_, ?_⟩ <;> nlinarith

theorem toU64_remainder (x : Int) (hn : 0 ≤ n ∧ n ≤ 1000000) (hbi : bits ≤ 15) :
    toU64 (x % 2 ^ bits * n) / 2 ^ bits = (x % 2 ^ bits * n / 2 ^ bits).toNat ∧ 0 ≤ x % 2 ^ bits * n / 2 ^ bits := by
  obtain ⟨hpos, hle⟩ := pow_pos_le hbi
  have hnn := mul_nonneg (emod_nonneg x hpos.ne') hn.1
  have hlt := emod_lt_of_pos x hpos
  have hquot := ediv_nonneg hnn hpos.le
  refine ⟨natCast_inj.1 ?_, hquot⟩
  rw [natCast_ediv, coe_toU64, emod_eq_of_lt hnn (by nlinarith), natCast_two_pow, toNat_of_nonneg hquot]

theorem multFracS16_eq (hx : -2 ^ 15 ≤ x ∧ x < 2 ^ 15) (hn : 0 ≤ n ∧ n ≤ 1000000) (hbi : bits ≤ 15) :
    multFracS16 x n (2 ^ bits) = splitProduct x n bits := by
  have habs : |x| < 2 ^ 16 := abs_lt.2 ⟨by omega, by omega⟩
  have hsm := splitProduct_abs_lt habs hn hbi
  obtain ⟨hsec, hnn⟩ := toU64_remainder x hn hbi
  rw [multFracS16, toS16_div hx hbi, toS16_mod hbi, hsec]
  exact toS64_add hnn (lt_trans hsm (by norm_num))

theorem multFracU16_eq {x : Nat} (hx : x < 2 ^ 16) (hn : 0 ≤ n ∧ n ≤ 1000000) (hbi : bits ≤ 15) :
    multFracU16 x n (2 ^ bits) = splitProduct x n bits := by
  have habs : |(x : Int)| < 2 ^ 16 := abs_lt.2 ⟨by omega, by exact_mod_cast hx⟩
  have hsm := splitProduct_abs_lt habs hn hbi
  have hquot : x / 2 ^ bits % 2 ^ 16 = x / 2 ^ bits := Nat.mod_eq_of_lt (Nat.lt_of_le_of_lt (Nat.div_le_self _ _) hx)
  have hrem : x % 2 ^ bits % 2 ^ 16 = x % 2 ^ bits := Nat.mod_eq_of_lt (Nat.lt_of_le_of_lt (Nat.mod_le _ _) hx)
  obtain ⟨hsec, hnn⟩ := toU64_remainder (x : Int) hn hbi
  rw [multFracU16, hquot, hrem, natCast_ediv, natCast_emod, natCast_two_pow, hsec]
  exact toS64_add hnn (lt_trans hsm (by norm_num))

theorem Scaled.of_splitProduct (hx : |x| < 2 ^ 16) (hn : 0 ≤ n ∧ n ≤ 1000000) (hbi : bits ≤ 15) :
    Scaled ((x : ℚ) / 2 ^ bits * n) (splitProduct x n bits) := by
  have hfloor := floor_div (a := x % 2 ^ bits * n) (Nat.two_pow_pos bits)
  rw [natCast_two_pow, Nat.cast_pow, Nat.cast_ofNat] at hfloor
  -- the quotient times `n` is an integer, only the part of the remainder is rounded
  have hex : (x : ℚ) / 2 ^ bits * n = ((x / 2 ^ bits * n : Int) : ℚ) + ((x % 2 ^ bits * n : Int) : ℚ) / 2 ^ bits := by
    have hspl : (x : ℚ) = 2 ^ bits * ((x / 2 ^ bits : Int) : ℚ) + ((x % 2 ^ bits : Int) : ℚ) := by
      exact_mod_cast (mul_ediv_add_emod x (2 ^ bits)).symm
    rw [hspl]
    push_cast
    field_simp
  refine Scaled.of_floor ?_ ?_ (splitProduct_abs_lt hx hn hbi)
  · rw [hex, splitProduct, cast_add]
    linarith
  · rw [hex, splitProduct, cast_add]
    linarith

end MultFrac

/-! ### Integers -/

variable {raw bits : Nat}

section

variable (hbi : bits = 8 ∨ bits = 16 ∨ bits = 32)
include hbi

theorem signExtend32_eq (hraw : raw < 2 ^ bits) : signExtend32 raw (bits - 1) = (raw : Int).bmod (2 ^ bits) := by
  unfold signExtend32
  simp only [bmod_def]
  rcases hbi with rfl | rfl | rfl
  · split <;> split <;> omega
  · split <;> split <;> omega
  · norm_num at hraw ⊢

theorem bmod_abs_le :
    |(raw : Int).bmod (2 ^ bits)| ≤ 2 ^ 32 := by
  have hlower : -(((2 ^ bits : Nat) : Int) / 2) ≤ (raw : Int).bmod (2 ^ bits) := le_bmod (by positivity)
  have hupp : (raw : Int).bmod (2 ^ bits) < (((2 ^ bits : Nat) : Int) + 1) / 2 := bmod_lt (by positivity)
  have hle : 2 ^ bits ≤ 2 ^ 32 := Nat.pow_le_pow_right (by decide) (by omega)
  generalize 2 ^ bits = m at hlower hupp hle ⊢
  exact abs_le.2 ⟨by omega, by omega⟩

end

/-- An integer times the scale is exact. -/
theorem Scaled.of_product (hx : |x| ≤ 2 ^ 32) (hsc : IsScale scale) : Scaled ((x : ℚ) * scale) (toS64 (x * scale)) := by
  obtain ⟨hpos, hle⟩ := hsc.pos
  have hsm : |x * scale| < 2 ^ 62 := by
    rw [abs_mul, abs_of_nonneg (natCast_nonneg scale)]
    nlinarith [abs_nonneg x]
  rw [toS64_of_small (lt_trans hsm (by norm_num))]
  refine Scaled.of_floor ?_ ?_ hsm
  · push_cast
    exact le_refl _
  · push_cast
    exact lt_add_one _

/-! ### Single precision -/

section Float

open Binary32

variable (raw scale : Nat)

/-- The number is not too large for 64 bits, or so large that the code does not shift. -/
def Fits : Prop := magnitude raw * scale < 2 ^ 64 ∨ 2 ^ 86 ≤ magnitude raw

/-- The shift to the left keeps all bits. -/
def KeepsBits : Prop :=
  exponentField raw - 150 < 63 → (2 ^ 23 + fraction raw) * scale * 2 ^ (exponentField raw - 150) < 2 ^ 64

variable {raw scale}

theorem keepsBits_iff_fits (hsc : IsScale scale) : KeepsBits raw scale ↔ Fits raw scale := by
  obtain ⟨hpos, hle⟩ := hsc.pos
  have hfrac : fraction raw < 2 ^ 23 := fraction_lt
  rw [KeepsBits, Fits]
  by_cases hexp : 150 ≤ exponentField raw
  · rw [magnitude_of_le hexp]
    generalize exponentField raw - 150 = e
    have hprod : (((2 ^ 23 + fraction raw) * 2 ^ e : ℕ) : ℚ) * scale < 2 ^ 64 ↔
        (2 ^ 23 + fraction raw) * scale * 2 ^ e < 2 ^ 64 := by
      rw [mul_right_comm]
      exact_mod_cast Iff.rfl
    by_cases he : e < 63
    · have hpow : 2 ^ e ≤ 2 ^ 62 := Nat.pow_le_pow_right (by decide) (by omega)
      have hlt : (2 ^ 23 + fraction raw) * 2 ^ e < 2 ^ 86 := by nlinarith
      constructor
      · exact fun h => .inl (hprod.2 (h he))
      · rintro (h | h) -
        · exact hprod.1 h
        · exact absurd (by exact_mod_cast h) (Nat.not_le.2 hlt)
    · have hpow : 2 ^ 63 ≤ 2 ^ e := Nat.pow_le_pow_right (by decide) (by omega)
      have hlg : 2 ^ 86 ≤ (2 ^ 23 + fraction raw) * 2 ^ e := by nlinarith
      exact ⟨fun _ => .inr (by exact_mod_cast hlg), fun _ h => absurd h he⟩
  have hz : exponentField raw - 150 = 0 := by omega
  have hsm : magnitude raw * scale < 2 ^ 64 := by
    have hlt := magnitude_lt (Nat.not_le.1 hexp)
    have hden : (1 : ℚ) ≤ 2 ^ (149 - (exponentField raw - 1)) := one_le_pow₀ (by norm_num)
    have hmag : magnitude raw < 2 ^ 24 := lt_of_lt_of_le hlt (div_le_self (by norm_num) hden)
    have hcast : (scale : ℚ) ≤ 1000000 := by exact_mod_cast hle
    calc magnitude raw * scale ≤ magnitude raw * 1000000 := mul_le_mul_of_nonneg_left hcast magnitude_nonneg
      _ < 2 ^ 64 := by linarith
  refine iff_of_true (fun _ => ?_) (.inl hsm)
  calc (2 ^ 23 + fraction raw) * scale * 2 ^ (exponentField raw - 150) ≤ 2 ^ 24 * 1000000 * 2 ^ 0 := by
        rw [hz]
        gcongr
        omega
    _ < 2 ^ 64 := by norm_num

/-- The absolute value before it is limited. -/
def floatMagnitude (raw scale : Nat) : Nat :=
  if exponentField raw < 87 then 0
  else if exponentField raw < 150 then (2 ^ 23 + fraction raw) * scale / 2 ^ (150 - exponentField raw)
  else if exponentField raw < 213 then (2 ^ 23 + fraction raw) * scale * 2 ^ (exponentField raw - 150) % 2 ^ 64
  else LONG_MAX

theorem and_two_pow_ne_zero : raw &&& 2 ^ 31 ≠ 0 ↔ isNegative raw := by
  rw [Nat.and_two_pow, isNegative, decide_eq_true_iff, Nat.testBit_eq_decide_div_mod_eq]
  simp

section

variable (hsc : IsScale scale)
include hsc

theorem scaledFloat_eq : scaledFloat raw scale =
    if isNegative raw then -((min (floatMagnitude raw scale) LONG_MAX : Nat) : Int)
    else ((min (floatMagnitude raw scale) LONG_MAX : Nat) : Int) := by
  obtain ⟨-, hle⟩ := hsc.pos
  have hfrac : fraction raw < 2 ^ 23 := fraction_lt
  have hlow : raw &&& 2 ^ 23 - 1 ||| 2 ^ 23 = 2 ^ 23 + fraction raw := by
    rw [Nat.and_two_pow_sub_one_eq_mod, ← fraction, Nat.or_two_pow_eq_add_of_lt hfrac, Nat.add_comm]
  have hprod : (2 ^ 23 + fraction raw) * scale % 2 ^ 64 = (2 ^ 23 + fraction raw) * scale := by
    refine Nat.mod_eq_of_lt ?_
    calc (2 ^ 23 + fraction raw) * scale ≤ 2 ^ 24 * 1000000 := by gcongr; omega
      _ < 2 ^ 64 := by norm_num
  have hfld : raw >>> 23 &&& 2 ^ 8 - 1 = exponentField raw := by
    rw [Nat.and_two_pow_sub_one_eq_mod, Nat.shiftRight_eq_div_pow, exponentField]
  have hmag : (if ((exponentField raw : Nat) : Int) - 127 - 23 < -63 then 0
      else if ((exponentField raw : Nat) : Int) - 127 - 23 < 0 then
        ((2 ^ 23 + fraction raw) * scale) >>> (-(((exponentField raw : Nat) : Int) - 127 - 23)).toNat
      else if ((exponentField raw : Nat) : Int) - 127 - 23 < 63 then
        (((2 ^ 23 + fraction raw) * scale) <<< (((exponentField raw : Nat) : Int) - 127 - 23).toNat) % 2 ^ 64
      else LONG_MAX) = floatMagnitude raw scale := by
    have hrig : (-(((exponentField raw : Nat) : Int) - 127 - 23)).toNat = 150 - exponentField raw := by omega
    have hlf : (((exponentField raw : Nat) : Int) - 127 - 23).toNat = exponentField raw - 150 := by omega
    rw [hrig, hlf, Nat.shiftRight_eq_div_pow, Nat.shiftLeft_eq, floatMagnitude]
    exact if_congr (by omega) rfl (if_congr (by omega) rfl (if_congr (by omega) rfl rfl))
  rw [scaledFloat, hlow, hprod, hfld]
  rw [hmag]
  exact if_congr and_two_pow_ne_zero rfl rfl

theorem product_lt : (2 ^ 23 + fraction raw) * scale < 2 ^ 44 := by
  obtain ⟨-, hle⟩ := hsc.pos
  have hfrac : fraction raw < 2 ^ 23 := fraction_lt
  calc (2 ^ 23 + fraction raw) * scale ≤ 2 ^ 24 * 1000000 := by gcongr; omega
    _ < 2 ^ 44 := by norm_num

/-- An integer that is a multiple of the scale is not a power of two. -/
theorem IsScale.mul_ne (k : Nat) : k * scale ≠ 2 ^ 63 := by rcases hsc with rfl | rfl <;> omega

end

/-- `n` is `exact` rounded down, or the end of the range. -/
def Limited (exact : ℚ) (n : Nat) : Prop :=
  ((n : ℚ) ≤ exact ∧ exact < n + 1 ∧ n ≤ LONG_MAX) ∨ (n = LONG_MAX ∧ 2 ^ 63 < exact)

/-- With a small exponent the product is shifted to the right, and all its bits if there are more than 63. -/
theorem floatMagnitude_of_lt (hexp : exponentField raw < 150) (hsc : IsScale scale) :
    (floatMagnitude raw scale : ℚ) ≤ magnitude raw * scale ∧ magnitude raw * scale < floatMagnitude raw scale + 1 ∧
      floatMagnitude raw scale ≤ LONG_MAX := by
  have hprod : (2 ^ 23 + fraction raw) * scale < 2 ^ 44 := product_lt hsc
  obtain ⟨-, hle⟩ := hsc.pos
  have hcast : (scale : ℚ) ≤ 1000000 := by exact_mod_cast hle
  by_cases hz : exponentField raw < 87
  · rw [floatMagnitude, if_pos hz]
    have hnn : 0 ≤ magnitude raw * scale := mul_nonneg magnitude_nonneg (Nat.cast_nonneg scale)
    have hsm : magnitude raw < 2 ^ 24 / 2 ^ 64 := by
      refine lt_of_lt_of_le (magnitude_lt hexp) ?_
      gcongr
      · norm_num
      · omega
    refine ⟨by exact_mod_cast hnn, ?_, Nat.zero_le _⟩
    calc magnitude raw * scale ≤ 2 ^ 24 / 2 ^ 64 * 1000000 := by gcongr
      _ < ((0 : ℕ) : ℚ) + 1 := by norm_num
  rw [floatMagnitude, if_neg hz, if_pos hexp, magnitude_eq_div (by omega) hexp.le]
  have hfloor := floor_div (a := ((2 ^ 23 + fraction raw) * scale : Nat)) (Nat.two_pow_pos (150 - exponentField raw))
  rw [← natCast_ediv, cast_natCast, cast_natCast, Nat.cast_mul, ← div_mul_eq_mul_div] at hfloor
  refine ⟨hfloor.1, hfloor.2, ?_⟩
  calc (2 ^ 23 + fraction raw) * scale / 2 ^ (150 - exponentField raw) ≤ (2 ^ 23 + fraction raw) * scale :=
        Nat.div_le_self _ _
    _ ≤ LONG_MAX := by rw [LONG_MAX]; omega

theorem two_pow_lt_cast {n : Nat} (h : 2 ^ 63 < n) : (2 : ℚ) ^ 63 < n := by
  have hcast : ((2 ^ 63 : ℕ) : ℚ) < n := Nat.cast_lt.2 h
  rwa [Nat.cast_pow, Nat.cast_ofNat] at hcast

theorem limited_of_le (hexp : 150 ≤ exponentField raw) (hsc : IsScale scale) (hkeeps : KeepsBits raw scale) :
    Limited (magnitude raw * scale) (min (floatMagnitude raw scale) LONG_MAX) := by
  obtain ⟨hpos, -⟩ := hsc.pos
  rw [magnitude_of_le hexp, ← Nat.cast_mul, floatMagnitude, if_neg (by omega), if_neg (by omega)]
  by_cases hshift : exponentField raw < 213
  · have hlt := hkeeps (by omega)
    rw [if_pos hshift, Nat.mod_eq_of_lt hlt, Nat.mul_right_comm]
    have hne := hsc.mul_ne ((2 ^ 23 + fraction raw) * 2 ^ (exponentField raw - 150))
    rw [Nat.mul_right_comm] at hne
    generalize (2 ^ 23 + fraction raw) * scale * 2 ^ (exponentField raw - 150) = n at hne ⊢
    by_cases hn : n ≤ LONG_MAX
    · rw [Nat.min_eq_left hn]
      exact .inl ⟨le_refl _, lt_add_one _, hn⟩
    have hlg : 2 ^ 63 < n := by
      rw [LONG_MAX] at hn
      omega
    rw [Nat.min_eq_right (by omega)]
    exact .inr ⟨rfl, two_pow_lt_cast hlg⟩
  rw [if_neg hshift, Nat.min_self]
  have hpow : 2 ^ 63 ≤ 2 ^ (exponentField raw - 150) := Nat.pow_le_pow_right (by decide) (by omega)
  have hlg : 2 ^ 63 < (2 ^ 23 + fraction raw) * 2 ^ (exponentField raw - 150) * scale := by
    calc 2 ^ 63 < 1 * 2 ^ 63 * 1000 := by norm_num
      _ ≤ (2 ^ 23 + fraction raw) * 2 ^ (exponentField raw - 150) * scale := by gcongr; omega
  exact .inr ⟨rfl, two_pow_lt_cast hlg⟩

theorem limited_floatMagnitude (hsc : IsScale scale) (hkeeps : KeepsBits raw scale) :
    Limited (magnitude raw * scale) (min (floatMagnitude raw scale) LONG_MAX) := by
  by_cases hexp : 150 ≤ exponentField raw
  · exact limited_of_le hexp hsc hkeeps
  · obtain ⟨hle, hlt, hmax⟩ := floatMagnitude_of_lt (Nat.not_le.1 hexp) hsc
    rw [Nat.min_eq_left hmax]
    exact .inl ⟨hle, hlt, hmax⟩

theorem Scaled.of_limited {exact : ℚ} {n : Nat} (hnn : 0 ≤ exact) (h : Limited exact n) :
    Scaled exact n ∧ Scaled (-exact) (-n) := by
  have hmax : ((LONG_MAX : ℕ) : ℚ) = 2 ^ 63 - 1 := by norm_num [LONG_MAX]
  rcases h with ⟨hle, hlt, hn⟩ | ⟨rfl, hlg⟩
  · have hn' : (LONG_MAX : ℚ) < exact → n = LONG_MAX := by
      intro h
      have hlow : LONG_MAX < n + 1 := by exact_mod_cast h.trans hlt
      omega
    refine ⟨⟨fun _ _ => ?_, fun h => ?_, fun h => ?_⟩, ⟨fun _ _ => ?_, fun h => ?_, fun h => ?_⟩⟩
    · push_cast
      exact abs_lt.2 ⟨by linarith, by linarith⟩
    · exact_mod_cast hn' h
    · linarith
    · push_cast
      exact abs_lt.2 ⟨by linarith, by linarith⟩
    · linarith
    · rw [hn' (by rw [hmax]; linarith)]
  refine ⟨⟨fun _ h => ?_, fun _ => rfl, fun h => ?_⟩, ⟨fun h _ => ?_, fun h => ?_, fun _ => rfl⟩⟩
  · linarith
  · linarith
  · linarith
  · linarith

/-- The single precision branch. -/
theorem Scaled.of_float (hsc : IsScale scale) (hkeeps : KeepsBits raw scale) :
    Scaled (value raw * scale) (scaledFloat raw scale) := by
  have hnn : 0 ≤ magnitude raw * scale := mul_nonneg magnitude_nonneg (Nat.cast_nonneg scale)
  have hscal := Scaled.of_limited hnn (limited_floatMagnitude hsc hkeeps)
  rw [scaledFloat_eq hsc, value]
  split
  · rw [neg_mul]
    exact hscal.2
  · exact hscal.1

end Float

/-! ## Every read -/

theorem hexDigit_le {digit : UInt8} {n : Nat} (h : hexDigit digit = some n) : n ≤ 15 := by
  rw [hexDigit] at h
  split at h
  · next hdig =>
      have hle : digit.toNat ≤ 57 := UInt8.le_iff_toNat_le.1 hdig.2
      cases h
      omega
  split at h
  · next hdig =>
      have hle : digit.toNat ≤ 102 := UInt8.le_iff_toNat_le.1 hdig.2
      cases h
      omega
  split at h
  · next hdig =>
      have hle : digit.toNat ≤ 70 := UInt8.le_iff_toNat_le.1 hdig.2
      cases h
      omega
  · cases h

theorem fixedPointBits_some {entry : KeyRecord} {bits : Nat} {isSigned : Bool}
    (h : fixedPointBits entry = some (bits, isSigned)) : entry.len = 2 ∧ bits ≤ 15 := by
  rw [fixedPointBits] at h
  split at h
  · cases h
  next hty =>
    have hlen : entry.len = 2 := Classical.not_not.1 (not_or.1 hty).1
    cases hinte : hexDigit (entry.type.getD 2 0) with
    | none =>
      rw [hinte] at h
      cases h
    | some integerBits =>
      cases hfract : hexDigit (entry.type.getD 3 0) with
      | none =>
        rw [hinte, hfract] at h
        cases h
      | some fractionalBits =>
        rw [hinte, hfract] at h
        obtain ⟨-, hbi⟩ := Option.ite_none_left_eq_some.1 h
        cases hbi
        exact ⟨hlen, hexDigit_le hfract⟩

/-- The types that the driver can read. -/
def supported (entry : KeyRecord) : Bool :=
  if entry.type = FLOAT_TYPE then entry.len = 4 else (fixedPointBits entry).isSome || isIntType entry

/-- The fixed point branch is exact. -/
theorem Scaled.of_scaledFixed (isSigned : Bool) (hraw : raw < 2 ^ 16) (hbi : bits ≤ 15) (hsc : IsScale scale) :
    Scaled ((if isSigned then (((raw : Int).bmod (2 ^ 16) : Int) : ℚ) else (raw : ℚ)) / 2 ^ bits * scale)
      (scaledFixed raw scale bits isSigned) := by
  have hn : 0 ≤ (scale : Int) ∧ (scale : Int) ≤ 1000000 := ⟨natCast_nonneg _, by exact_mod_cast hsc.pos.2⟩
  cases isSigned with
  | true =>
    obtain ⟨hlower, hupp⟩ := toS16_bounds raw
    rw [scaledFixed, if_pos rfl, if_pos rfl, multFracS16_eq ⟨hlower, hupp⟩ hn hbi]
    have habs : |toS16 raw| < 2 ^ 16 := abs_lt.2 ⟨by omega, by omega⟩
    have hscal := Scaled.of_splitProduct habs hn hbi
    rwa [cast_natCast] at hscal
  | false =>
    rw [scaledFixed, if_neg Bool.false_ne_true, if_neg Bool.false_ne_true, multFracU16_eq hraw hn hbi]
    have habs : |(raw : Int)| < 2 ^ 16 := abs_lt.2 ⟨by omega, by exact_mod_cast hraw⟩
    have hscal := Scaled.of_splitProduct habs hn hbi
    rwa [cast_natCast, cast_natCast] at hscal

theorem Scaled.of_scaledInt {raw len : Nat} (isSigned : Bool) (hlen : len = 1 ∨ len = 2 ∨ len = 4)
    (hraw : raw < 2 ^ (8 * len)) (hsc : IsScale scale) :
    Scaled ((if isSigned then (((raw : Int).bmod (2 ^ (8 * len)) : Int) : ℚ) else (raw : ℚ)) * scale)
      (scaledInt raw scale len isSigned) := by
  have hbi : 8 * len = 8 ∨ 8 * len = 16 ∨ 8 * len = 32 := by omega
  cases isSigned with
  | true =>
    rw [scaledInt, if_pos rfl, if_pos rfl, Nat.mul_comm len 8, signExtend32_eq hbi hraw]
    exact Scaled.of_product (bmod_abs_le hbi) hsc
  | false =>
    have habs : |(raw : Int)| ≤ 2 ^ 32 := by grind
    have hscal := Scaled.of_product habs hsc
    rw [scaledInt, if_neg Bool.false_ne_true, if_neg Bool.false_ne_true]
    rwa [cast_natCast] at hscal

theorem isIntType_len {entry : KeyRecord} (h : isIntType entry) :
    entry.len.toNat = 1 ∨ entry.len.toNat = 2 ∨ entry.len.toNat = 4 := by
  rcases (decide_eq_true_iff.1 h).2.2 with hlen | hlen | hlen <;> simp [hlen]

/-- The value is exact, and no high bits were dropped on the way. -/
def ExactlyScaled (entry : KeyRecord) (buf : List UInt8) (scale : Nat) (val : Int) : Prop :=
  Scaled (exactValue entry buf * scale) val ∧ (entry.type = FLOAT_TYPE → KeepsBits (ofLe buf) scale)

section Read

variable {t : KeyTable} {faults : Faults} {key : List UInt8} {entry : KeyRecord} {values : Values}

section

variable (hlk : faults .lookup key = false)
include hlk

section

variable (hrd : faults .read key = false)
include hrd

theorem readScaled_float (hfd : t.find key = some entry) (hln : (values key).length = entry.len.toNat)
    (hty : entry.type = FLOAT_TYPE) (hlen : entry.len = 4) :
    readScaled t faults key scale values = (.ok (scaledFloat (ofLe (values key)) scale), values) := by
  have hbs := readKey_of_find hlk hrd hfd hln
  rw [hlen] at hbs
  rw [readScaled, bind_of_ok (getEntry_of_find hlk hfd), if_pos hty]
  exact bind_of_ok hbs

theorem readScaled_fixed {bits : Nat} {isSigned : Bool} (hfd : t.find key = some entry)
    (hln : (values key).length = entry.len.toNat) (hty : entry.type ≠ FLOAT_TYPE)
    (hbi : fixedPointBits entry = some (bits, isSigned)) :
    readScaled t faults key scale values = (.ok (scaledFixed (ofBe (values key)) scale bits isSigned), values) := by
  have hbs := readKey_of_find hlk hrd hfd hln
  rw [(fixedPointBits_some hbi).1] at hbs
  rw [readScaled, bind_of_ok (getEntry_of_find hlk hfd), if_neg hty, hbi]
  exact bind_of_ok hbs

theorem readScaled_int (hfd : t.find key = some entry) (hln : (values key).length = entry.len.toNat)
    (hty : entry.type ≠ FLOAT_TYPE) (hbi : fixedPointBits entry = none) (hint : isIntType entry) :
    readScaled t faults key scale values =
      (.ok (scaledInt (ofBe (values key)) scale entry.len.toNat (entry.type.getD 0 0 = 115)), values) := by
  have hbs := readKey_of_find hlk hrd hfd hln
  rw [readScaled, bind_of_ok (getEntry_of_find hlk hfd), if_neg hty, hbi]
  rw [if_pos hint]
  exact bind_of_ok hbs

end

end

/-- `t2smc_read_scaled` is exact for all integers and fixed point numbers, and for a single precision number exactly
if the scaled number has at most 64 bits or is so large that it is not shifted. -/
theorem read_scaled_exact (hlookup : faults .lookup key = false) (hread : faults .read key = false)
    (hfind : t.find key = some entry) (hlength : (values key).length = entry.len.toNat) (hsupported : supported entry = true)
    (hscale : IsScale scale) :
    ∃ val, readScaled t faults key scale values = (.ok val, values) ∧
      (ExactlyScaled entry (values key) scale val ↔ (entry.type = FLOAT_TYPE → Fits (ofLe (values key)) scale)) := by
  have hraw : ofBe (values key) < 2 ^ (8 * entry.len.toNat) := by
    have hlt := ofBe_lt (values key)
    rwa [hlength, show 256 = 2 ^ 8 from rfl, ← Nat.pow_mul] at hlt
  by_cases hty : entry.type = FLOAT_TYPE
  · have hlen : entry.len = 4 := by grind [supported]
    refine ⟨_, readScaled_float hlookup hread hfind hlength hty hlen, ?_⟩
    rw [ExactlyScaled, exactValue, if_pos hty, ← keepsBits_iff_fits hscale]
    exact ⟨fun h => h.2, fun h => ⟨Scaled.of_float hscale (h hty), h⟩⟩
  -- without single precision nothing is shifted
  suffices h : ∃ val, readScaled t faults key scale values = (.ok val, values) ∧
      Scaled (exactValue entry (values key) * scale) val by
    obtain ⟨val, hok, hscal⟩ := h
    exact ⟨val, hok, iff_of_true ⟨hscal, fun h => absurd h hty⟩ fun h => absurd h hty⟩
  rw [supported, if_neg hty] at hsupported
  rw [exactValue, if_neg hty]
  cases hbi : fixedPointBits entry with
  | some fixed =>
    obtain ⟨bits, isSigned⟩ := fixed
    obtain ⟨hlen, hle⟩ := fixedPointBits_some hbi
    rw [hlen] at hraw
    have hscal := Scaled.of_scaledFixed isSigned hraw hle hscale
    refine ⟨_, readScaled_fixed hlookup hread hfind hlength hty hbi, ?_⟩
    cases isSigned <;> exact hscal
  | none =>
    rw [hbi] at hsupported
    have hint : isIntType entry = true := hsupported
    refine ⟨_, readScaled_int hlookup hread hfind hlength hty hbi hint, ?_⟩
    have hscal := Scaled.of_scaledInt (decide (entry.type.getD 0 0 = 115)) (isIntType_len hint) hraw hscale
    simpa only [decide_eq_true_eq, hlength] using hscal

/-- A key `TC0P` in single precision. -/
def sensorEntry : KeyRecord := ⟨[84, 67, 48, 80], 4, FLOAT_TYPE, 0⟩

def sensorTable : KeyTable where
  keys := [sensorEntry]
  four := List.forall_mem_singleton.2 rfl
  noNul := List.forall_mem_singleton.2 (List.count_eq_zero.1 rfl)
  sorted := List.pairwise_singleton _ _

/-- The temperature 36.5 in thousandths. -/
theorem read_scaled_exact_temperature :
    (readScaled sensorTable noFaults sensorEntry.name 1000 fun _ => [0, 0, 18, 66]).1 = .ok 36500 ∧
      ExactlyScaled sensorEntry [0, 0, 18, 66] 1000 36500 := by
  have hrd : ∃ val, readScaled sensorTable noFaults sensorEntry.name 1000 (fun _ => [0, 0, 18, 66]) =
      (.ok val, fun _ => [0, 0, 18, 66]) ∧ (ExactlyScaled sensorEntry [0, 0, 18, 66] 1000 val ↔
        (sensorEntry.type = FLOAT_TYPE → Fits (ofLe [0, 0, 18, 66]) 1000)) :=
    read_scaled_exact rfl rfl rfl rfl rfl (.inl rfl)
  obtain ⟨val, hok, hex⟩ := hrd
  have hval : val = 36500 := by exact (Except.ok.inj (congrArg Prod.fst hok)).symm.trans (by decide +kernel)
  subst hval
  exact ⟨congrArg Prod.fst hok, hex.2 fun _ => (keepsBits_iff_fits (.inl rfl)).1 (by unfold KeepsBits; decide)⟩

/-- The number 2 ^ 61 times 1000 is beyond the range of `long`, and the result is zero. -/
theorem read_scaled_drops_bits :
    (readScaled sensorTable noFaults sensorEntry.name 1000 fun _ => [0, 0, 0, 94]).1 = .ok 0 ∧
      exactValue sensorEntry [0, 0, 0, 94] = 2 ^ 61 ∧ ¬ ExactlyScaled sensorEntry [0, 0, 0, 94] 1000 0 := by
  have hok : (readScaled sensorTable noFaults sensorEntry.name 1000 fun _ => [0, 0, 0, 94]).1 = .ok 0 := by
    exact congrArg Except.ok (by decide +kernel)
  have hex : exactValue sensorEntry [0, 0, 0, 94] = 2 ^ 61 := by
    have hty : sensorEntry.type = FLOAT_TYPE := rfl
    have hfrac : fraction (ofLe [0, 0, 0, 94]) = 0 := rfl
    have hexp : exponentField (ofLe [0, 0, 0, 94]) = 188 := rfl
    rw [exactValue, if_pos hty, value, if_neg (by decide), magnitude_of_le (by decide), hfrac, hexp]
    norm_num
  refine ⟨hok, hex, ?_⟩
  rintro ⟨hscal, -⟩
  rw [hex] at hscal
  have habove := hscal.above (by norm_num [LONG_MAX])
  revert habove
  decide

end Read

end KaiT2en.Smc
