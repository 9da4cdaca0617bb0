import KaiT2en.Lib.Binary32
import KaiT2en.Lib.Numeral
import KaiT2en.Smc.Access

/-!
# Fans of the SMC

Speeds of fans are single precision numbers or fixed point numbers with two fractional bits. `float_to_u32` and
`u32_to_float` convert the first, with shifts whose counts are computed from the number. `t2smc_hwmon_write` sets the
minimum and the target of a fan; a target puts the fan into manual mode first, by the fan's own key or by a bit in a
key for all fans.

A speed is kept exactly if it is below `speedLimit` (`fan_speed_exact`). Of larger ones the conversion of `long` to
`unsigned int`, the shift in `u32_to_float` and the two bytes of fixed point drop the rest.
-/

namespace KaiT2en.Smc

open KaiT2en.Kernel KaiT2en.Lib KaiT2en.Lib.Bytes KaiT2en.Lib.Stateful Option Function Command Nat

/-! ## Shifts -/

/-- `x << n` of a `u32`. A count that is negative or not less than the width is undefined. -/
def shl32 (x : Nat) (n : Int) : Option Nat := if 0 ≤ n ∧ n < 32 then some ((x <<< n.toNat) % 2 ^ 32) else none

/-- `x >> n` of a `u32`. -/
def shr32 (x : Nat) (n : Int) : Option Nat := if 0 ≤ n ∧ n < 32 then some (x >>> n.toNat) else none

theorem shl32_natCast {x n : Nat} (hn : n < 32) : shl32 x n = some (x * 2 ^ n % 2 ^ 32) := by
  rw [shl32, if_pos ⟨Int.natCast_nonneg n, by omega⟩, Int.toNat_natCast, shiftLeft_eq]

theorem shr32_natCast {x n : Nat} (hn : n < 32) : shr32 x n = some (x / 2 ^ n) := by
  rw [shr32, if_pos ⟨Int.natCast_nonneg n, by omega⟩, Int.toNat_natCast, shiftRight_eq_div_pow]

/-! ## Single precision -/

/-- `float_to_u32`. No value stands for a shift that is undefined. -/
def floatToU32 (d : Nat) : Option Nat :=
  let sign := d >>> 31 &&& 1
  let exp : Int := (d >>> 23 &&& 0xff : Nat) - 0x7f
  let fr := d &&& (1 <<< 23 - 1)
  if sign ≠ 0 ∨ exp < 0 then some 0
  else do
    let one ← shl32 1 exp
    let rest ← shr32 fr (23 - exp)
    return (one + rest) % 2 ^ 32

/-- The loop of `u32_to_float`. A `u32` is zero after 32 shifts, so that no more than 32 rounds are needed. -/
def bitCount : Nat → Nat → Nat → Nat
  | 0, _, bc => bc
  | rounds + 1, dc, bc => if dc / 2 = 0 then bc else bitCount rounds (dc / 2) (bc + 1)

/-- `u32_to_float`. The count of the shift is computed in `u32`. -/
def u32ToFloat (d : Nat) : Option Nat :=
  if d = 0 then some 0
  else do
    let exp := 0x7f + bitCount 32 d 0
    let shifted ← shl32 d (((23 - (exp - 0x7f) : Int) % 2 ^ 32 : Int))
    return exp <<< 23 ||| (shifted &&& (1 <<< 23 - 1))

theorem bitCount_eq (rounds dc bc : Nat) (hdc : dc < 2 ^ rounds) : bitCount rounds dc bc = bc + log2 dc := by
  induction rounds generalizing dc bc with
  | zero =>
    have hz : dc = 0 := by omega
    rw [bitCount, hz, log2_zero, add_zero]
  | succ rounds ih =>
    rw [bitCount]
    split
    · rw [log2_def, if_neg (by omega), add_zero]
    · rw [ih _ _ (by omega), log2_def dc, if_pos (by omega)]
      omega

open Binary32

variable {d : Nat}

theorem pack_fields {e f : Nat} (hf : f < 2 ^ 23) (he : e < 2 ^ 8) :
    exponentField (e * 2 ^ 23 + f) = e ∧ fraction (e * 2 ^ 23 + f) = f ∧ isNegative (e * 2 ^ 23 + f) = false := by
  rw [exponentField, fraction, isNegative, decide_eq_false_iff_not]
  exact ⟨by omega, by omega, by omega⟩

theorem integerPart_eq (hpos : 127 ≤ exponentField d) (hle : exponentField d ≤ 150) :
    (2 ^ 23 + fraction d) / 2 ^ (150 - exponentField d) =
      2 ^ (exponentField d - 127) + fraction d / 2 ^ (150 - exponentField d) := by
  have hspl : 2 ^ 23 = 2 ^ (150 - exponentField d) * 2 ^ (exponentField d - 127) := by
    rw [← Nat.pow_add, show 150 - exponentField d + (exponentField d - 127) = 23 by omega]
  rw [hspl, Nat.add_comm, Nat.add_mul_div_left _ _ (Nat.two_pow_pos _), Nat.add_comm]

theorem floatToU32_eq (d : Nat) : floatToU32 d = if isNegative d ∨ exponentField d < 127 then some 0
    else if exponentField d ≤ 150 then some ((2 ^ 23 + fraction d) / 2 ^ (150 - exponentField d))
    else none := by
  have hsign : (d >>> 31 &&& 1 ≠ 0 ↔ isNegative d) := by
    rw [shiftRight_eq_div_pow, and_one_is_mod, isNegative, decide_eq_true_iff]
    omega
  have hexp : d >>> 23 &&& 0xff = exponentField d := by
    rw [show 0xff = 2 ^ 8 - 1 from rfl, and_two_pow_sub_one_eq_mod, shiftRight_eq_div_pow, exponentField]
  have hfrac : d &&& (1 <<< 23 - 1) = fraction d := by
    rw [shiftLeft_eq, one_mul, and_two_pow_sub_one_eq_mod, fraction]
  have hlt : fraction d < 2 ^ 23 := fraction_lt
  rw [floatToU32, hexp, hfrac]
  by_cases hz : isNegative d ∨ exponentField d < 127
  · rw [if_pos hz, if_pos (hz.imp hsign.2 (by omega))]
  obtain ⟨hposi, hpos⟩ := not_or.1 hz
  rw [if_neg hz, if_neg (not_or.2 ⟨fun h => hposi (hsign.1 h), by omega⟩)]
  by_cases hle : exponentField d ≤ 150
  · have hone : ((exponentField d : Nat) : Int) - 0x7f = ((exponentField d - 127 : Nat) : Int) := by omega
    have hrs : 23 - ((exponentField d - 127 : Nat) : Int) = ((150 - exponentField d : Nat) : Int) := by omega
    have hpow : 2 ^ (exponentField d - 127) ≤ 2 ^ 23 := Nat.pow_le_pow_right (by decide) (by omega)
    have hquot := div_le_self (fraction d) (2 ^ (150 - exponentField d))
    rw [if_pos hle, hone, hrs, shl32_natCast (by omega), shr32_natCast (by omega), integerPart_eq (by omega) hle]
    change some (_ % 2 ^ 32) = some _
    rw [one_mul, mod_eq_of_lt (a := 2 ^ (exponentField d - 127)) (by omega), mod_eq_of_lt (by omega)]
  · rw [if_neg hle, shr32, if_neg (by omega)]
    cases shl32 1 (((exponentField d : Nat) : Int) - 0x7f) <;> rfl

/-- A number below 2 ^ 24 is encoded, and its encoding stands for it. -/
theorem u32ToFloat_of_lt (hd : d < 2 ^ 24) :
    ∃ raw, raw < 2 ^ 32 ∧ u32ToFloat d = some raw ∧ floatToU32 raw = some d := by
  by_cases hz : d = 0
  · exact ⟨0, by decide, if_pos hz, by rw [hz]; decide⟩
  have hlow : 2 ^ log2 d ≤ d := log2_self_le hz
  have hhi : d < 2 ^ (log2 d + 1) := lt_log2_self
  have hbi : log2 d ≤ 23 := le_of_lt_succ ((log2_lt hz).2 hd)
  have hspl : 2 ^ Nat.log2 d * 2 ^ (23 - Nat.log2 d) = 2 ^ 23 := by rw [← Nat.pow_add, Nat.add_sub_cancel' hbi]
  have hpos : 0 < 2 ^ (23 - Nat.log2 d) := Nat.two_pow_pos _
  have hlower : 2 ^ 23 ≤ d * 2 ^ (23 - log2 d) := by
    rw [← hspl]
    exact mul_le_mul_right _ hlow
  have hupp : d * 2 ^ (23 - log2 d) < 2 * 2 ^ 23 := by
    rw [← hspl, ← Nat.mul_assoc, ← Nat.pow_succ']
    exact mul_lt_mul_of_pos_right hhi hpos
  have hmod : d * 2 ^ (23 - log2 d) % 2 ^ 23 = d * 2 ^ (23 - log2 d) - 2 ^ 23 := by omega
  have hcnt : (23 - (((0x7f + (0 + log2 d) : Nat) : Int) - 0x7f)) % 2 ^ 32 = ((23 - log2 d : Nat) : Int) := by omega
  obtain ⟨hexp, hfrac, hsign⟩ :=
    pack_fields (e := 0x7f + log2 d) (f := d * 2 ^ (23 - log2 d) - 2 ^ 23) (by omega) (by omega)
  refine ⟨(0x7f + log2 d) * 2 ^ 23 + (d * 2 ^ (23 - log2 d) - 2 ^ 23), by omega, ?_, ?_⟩
  · rw [u32ToFloat, if_neg hz, bitCount_eq 32 d 0 (by omega)]
    dsimp only
    rw [hcnt, shl32_natCast (by omega), mod_eq_of_lt (by omega), zero_add]
    change some (_ ||| (_ &&& (1 <<< 23 - 1))) = some _
    rw [shiftLeft_eq, shiftLeft_eq, one_mul, and_two_pow_sub_one_eq_mod, mul_comm,
      ← Nat.two_pow_add_eq_or_of_lt (Nat.mod_lt _ (Nat.two_pow_pos 23)), Nat.mul_comm, hmod]
  · rw [floatToU32_eq, hexp, hfrac, hsign, if_neg (by simp), if_pos (by omega), Nat.add_sub_cancel' hlower,
      show 150 - (0x7f + Nat.log2 d) = 23 - Nat.log2 d by omega, Nat.mul_div_cancel _ hpos]

/-- The count of the shift wraps for larger numbers. -/
theorem u32ToFloat_of_le (hd : 2 ^ 24 ≤ d) (hlt : d < 2 ^ 32) : u32ToFloat d = none := by
  have hz : d ≠ 0 := by omega
  have hbi : 24 ≤ log2 d := (le_log2 hz).2 hd
  have hmax : log2 d < 32 := (log2_lt hz).2 hlt
  rw [u32ToFloat, if_neg hz, bitCount_eq 32 d 0 hlt]
  dsimp only
  rw [shl32, if_neg (by omega)]
  rfl

/-- The integer part of a number, limited to the range of `u32`. -/
def integerPart (raw : Nat) : Nat :=
  if isNegative raw then 0 else if isFinite raw then min ⌊magnitude raw⌋₊ (2 ^ 32 - 1) else 2 ^ 32 - 1

theorem floor_magnitude (hle : exponentField d ≤ 150) : ⌊magnitude d⌋₊ =
    if exponentField d < 127 then 0 else (2 ^ 23 + fraction d) / 2 ^ (150 - exponentField d) := by
  split
  · next hlt =>
      refine floor_eq_zero.2 (lt_of_lt_of_le (magnitude_lt (by omega)) ?_)
      rw [div_le_one (by positivity)]
      exact pow_le_pow_right₀ (by norm_num) (by omega)
  · next hlt => rw [magnitude_eq_div (by omega) hle, floor_div_eq_div]

theorem floatToU32_iff (d : Nat) : floatToU32 d = some (integerPart d) ↔ isNegative d ∨ exponentField d ≤ 150 := by
  have hfrac : fraction d < 2 ^ 23 := fraction_lt
  rw [floatToU32_eq, integerPart]
  by_cases hneg : isNegative d
  · rw [if_pos (.inl hneg), if_pos hneg]
    exact iff_of_true rfl (.inl hneg)
  rw [if_neg hneg]
  by_cases hle : exponentField d ≤ 150
  · have hfin : isFinite d := decide_eq_true (by omega)
    rw [if_pos hfin, floor_magnitude hle]
    refine iff_of_true ?_ (.inr hle)
    by_cases hsm : exponentField d < 127
    · rw [if_pos (.inr hsm), if_pos hsm]
      rfl
    · have hquot := div_le_self (2 ^ 23 + fraction d) (2 ^ (150 - exponentField d))
      rw [if_neg (not_or.2 ⟨hneg, hsm⟩), if_pos hle, if_neg hsm, min_eq_left (by omega)]
  · grind

/-! ## Fans -/

/-- The options of a fan: the positions in `fan_speed_fmt`. -/
inductive FanOption
  | actual
  | min
  | max
  | safe
  | target
  deriving DecidableEq

/-- The letters after the number of the fan in `fan_speed_fmt`. -/
def FanOption.letters : FanOption → List UInt8
  | .actual => [65, 99]
  | .min => [77, 110]
  | .max => [77, 120]
  | .safe => [83, 102]
  | .target => [84, 103]

/-- `scnprintf` with the format `F%d..` into the five bytes of a key. -/
def fanKeyOf (letters : List UInt8) (fan : Nat) : List UInt8 := (70 :: Numeral.numeral 10 fan ++ letters).take 4

def FanOption.key (option : FanOption) (fan : Nat) : List UInt8 := fanKeyOf option.letters fan

/-- The key for the mode of a fan, by `FAN_MANUAL_FMT`. -/
def modeKey (fan : Nat) : List UInt8 := fanKeyOf [77, 100] fan

def FANS_MANUAL : List UInt8 := [70, 83, 33, 32]

variable (t : KeyTable) (faults : Faults)

/-- The result of arithmetic that can be undefined. -/
def defined {α : Type} : Option α → Access α
  | some a => pure a
  | none => Command.fail .undefined

variable (fan : Nat) (entry : KeyRecord)

def readFan (option : FanOption) : Access Nat := do
  let key := option.key fan
  let entry ← getEntry t faults key
  if entry.type = FLOAT_TYPE then
    let raw ← readKey t faults key 4
    defined (floatToU32 (ofLe raw))
  else
    let buffer ← readKey t faults key 2
    return ((buffer.getD 0 0).toNat <<< 8 ||| (buffer.getD 1 0).toNat) >>> 2

def writeFan (option : FanOption) (speed : Nat) : Access Unit := do
  let key := option.key fan
  let entry ← getEntry t faults key
  if entry.type = FLOAT_TYPE then
    let fval ← defined (u32ToFloat speed)
    writeKey t faults key (leBytes 4 fval)
  else writeKey t faults key [(speed >>> 6 &&& 0xff).toUInt8, (speed <<< 2 &&& 0xff).toUInt8]

/-- The number in the legacy key. -/
def maskOf (buf : List UInt8) : Nat := (buf.getD 0 0).toNat <<< 8 ||| (buf.getD 1 0).toNat

/-- The legacy key after one fan's bit is changed. -/
def maskWith (buf : List UInt8) (fan : Nat) (manual : Bool) : List UInt8 :=
  let val := if manual then maskOf buf ||| 1 <<< fan else (maskOf buf).ldiff (1 <<< fan)
  [(val >>> 8 &&& 0xff).toUInt8, (val &&& 0xff).toUInt8]

def writeFanManual (manual : Bool) : Access Unit := do
  let hasFmd ← hasKey t faults (modeKey fan)
  if hasFmd then writeKey t faults (modeKey fan) [if manual then 1 else 0]
  else
    let buf ← readKey t faults FANS_MANUAL 2
    writeKey t faults FANS_MANUAL (maskWith buf fan manual)

/-- The SMC, and what the driver remembers of the fans: `fan_manual` and `fan_target`. -/
structure Fans where
  values : Values
  manual : Nat → Bool
  target : Nat → Nat

/-- An access to the SMC. -/
def Fans.access {α : Type} (x : Access α) : Command Fans Failure α := x.zoom Fans.values fun values s => { s with values }

/-- `clear_bit` and `set_bit` on `fan_manual`. -/
def Fans.setManual (manual : Bool) : Command Fans Failure Unit := fun s =>
  (.ok (), { s with manual := update s.manual fan manual })

/-- The store to `fan_target`. -/
def Fans.setTarget (fan speed : Nat) : Command Fans Failure Unit := fun s =>
  (.ok (), { s with target := update s.target fan speed })

/-- The attributes of a fan that can be written. -/
inductive FanAttr
  | min
  | target
  deriving DecidableEq

def FanAttr.option : FanAttr → FanOption
  | .min => .min
  | .target => .target

/-- The conversion of a `long` to `unsigned int`. -/
def toU32 (val : Int) : Nat := (val % 2 ^ 32).toNat

/-- `t2smc_hwmon_write` of a fan. -/
def hwmonWrite (attr : FanAttr) (channel : Nat) (val : Int) : Command Fans Failure Unit :=
  match attr with
  | .min =>
    if val < 0 then Command.fail (.errno (-EINVAL))
    else Fans.access (writeFan t faults channel .min (toU32 val))
  | .target =>
    if val < 0 then Command.fail (.errno (-EINVAL))
    else if val = 0 then do
      Fans.setManual channel false
      Fans.access (writeFanManual t faults channel false)
    else do
      Fans.access (writeFanManual t faults channel true)
      Fans.access (writeFan t faults channel .target (toU32 val))
      Fans.setTarget channel (toU32 val)
      Fans.setManual channel true

/-! ## Speeds -/

def speedLength : Nat := if entry.type = FLOAT_TYPE then 4 else 2

/-- The bytes that are sent for a speed. -/
def encodeSpeed (speed : Nat) : Option (List UInt8) :=
  if entry.type = FLOAT_TYPE then (u32ToFloat speed).map (leBytes 4)
  else some [(speed >>> 6 &&& 0xff).toUInt8, (speed <<< 2 &&& 0xff).toUInt8]

def decodeSpeed (bytes : List UInt8) : Option Nat :=
  if entry.type = FLOAT_TYPE then floatToU32 (ofLe bytes)
  else some (((bytes.getD 0 0).toNat <<< 8 ||| (bytes.getD 1 0).toNat) >>> 2)

/-- Speeds from here on are not kept. -/
def speedLimit : Nat := if entry.type = FLOAT_TYPE then 2 ^ 24 else 2 ^ 14

/-- The integer part of a fixed point number has 14 bits. -/
theorem fixed_round_trip (speed : Nat) :
    ((speed >>> 6 &&& 0xff).toUInt8.toNat <<< 8 ||| (speed <<< 2 &&& 0xff).toUInt8.toNat) >>> 2 = speed % 2 ^ 14 := by
  have hhi : (speed >>> 6 &&& 0xff).toUInt8.toNat = speed / 2 ^ 6 % 2 ^ 8 := by
    rw [show 0xff = 2 ^ 8 - 1 from rfl, Nat.and_two_pow_sub_one_eq_mod, Nat.shiftRight_eq_div_pow, Nat.toUInt8,
      UInt8.toNat_ofNat']
    omega
  have hlow : (speed <<< 2 &&& 0xff).toUInt8.toNat = speed * 2 ^ 2 % 2 ^ 8 := by
    rw [show 0xff = 2 ^ 8 - 1 from rfl, Nat.and_two_pow_sub_one_eq_mod, Nat.shiftLeft_eq, Nat.toUInt8,
      UInt8.toNat_ofNat']
    omega
  rw [hhi, hlow, Nat.shiftLeft_eq, Nat.mul_comm,
    ← Nat.two_pow_add_eq_or_of_lt (Nat.mod_lt _ (Nat.two_pow_pos 8)), Nat.shiftRight_eq_div_pow]
  omega

variable {entry : KeyRecord} {speed : Nat}

variable {bytes : List UInt8}

theorem encodeSpeed_length (h : encodeSpeed entry speed = some bytes) : bytes.length = speedLength entry := by
  rw [encodeSpeed] at h
  rw [speedLength]
  split at h
  · next hty =>
      obtain ⟨raw, -, rfl⟩ := map_eq_some_iff.1 h
      rw [if_pos hty, length_leBytes]
  next hty =>
    cases h
    rw [if_neg hty]
    rfl

/-- A speed below the limit is sent and read back. -/
theorem encodeSpeed_of_lt (hspd : speed < speedLimit entry) :
    ∃ bytes, encodeSpeed entry speed = some bytes ∧ decodeSpeed entry bytes = some speed := by
  rw [speedLimit] at hspd
  rw [encodeSpeed]
  split at hspd
  · next hty =>
      obtain ⟨raw, hraw, henc, hdec⟩ := u32ToFloat_of_lt hspd
      refine ⟨leBytes 4 raw, by rw [if_pos hty, henc, map_some], ?_⟩
      rw [decodeSpeed, if_pos hty, ofLe_leBytes hraw, hdec]
  · next hty =>
      refine ⟨_, if_neg hty, ?_⟩
      rw [decodeSpeed, if_neg hty]
      exact congrArg some ((fixed_round_trip speed).trans (mod_eq_of_lt hspd))

/-- What is sent for another speed is not read back as that speed. -/
theorem decodeSpeed_ne {v : Nat} (hv : speedLimit entry ≤ v)
    (h : encodeSpeed entry (v % 2 ^ 32) = some bytes) : decodeSpeed entry bytes ≠ some v := by
  have hu : v % 2 ^ 32 < 2 ^ 32 := Nat.mod_lt _ (Nat.two_pow_pos 32)
  rw [speedLimit] at hv
  rw [encodeSpeed] at h
  rw [decodeSpeed]
  split at h
  · next hty =>
      obtain ⟨raw, henc, rfl⟩ := map_eq_some_iff.1 h
      by_cases hsm : v % 2 ^ 32 < 2 ^ 24
      · grind [ofLe_leBytes, u32ToFloat_of_lt]
      · rw [u32ToFloat_of_le (not_lt.1 hsm) hu] at henc
        cases henc
  · grind [fixed_round_trip]

/-! ## Writing a speed -/

def speedWritable (t : KeyTable) (faults : Faults) (key : List UInt8) : Bool :=
  !faults .lookup key && (t.find key).any (fun entry => entry.len.toNat = speedLength entry) && !faults .write key

variable {t faults}

variable {values : Values} {option : FanOption} {fan : Nat}

section

variable (hfd : t.find (option.key fan) = some entry)
include hfd

theorem writeFan_of_encode (henc : encodeSpeed entry speed = some bytes) : (speedWritable t faults (option.key fan) ∧
      writeFan t faults fan option speed values = (.ok (), update values (option.key fan) bytes)) ∨
    (speedWritable t faults (option.key fan) = false ∧
      ∃ e, writeFan t faults fan option speed values = (.error (.errno e), values)) := by
  have hln := encodeSpeed_length henc
  rcases getEntry_cases t faults (option.key fan) values with ⟨entry', hlk, hfd', hok⟩ | ⟨hno, e, herror⟩
  · cases hfd.symm.trans hfd'
    have hwr : writeFan t faults fan option speed values = writeKey t faults (option.key fan) bytes values := by
      rw [writeFan, bind_of_ok hok]
      rw [encodeSpeed] at henc
      split at henc
      · next hty =>
          obtain ⟨raw, hraw, rfl⟩ := map_eq_some_iff.1 henc
          rw [if_pos hty, hraw]
          rfl
      · next hty =>
          cases henc
          rw [if_neg hty]
    have hwrit : writable t faults (option.key fan) bytes.length = speedWritable t faults (option.key fan) := by
      rw [writable, speedWritable, hfd, any_some, any_some, hln]
    rw [hwr, ← hwrit]
    exact writeKey_cases t faults (option.key fan) bytes values
  · refine .inr ⟨?_, e, ?_⟩
    · grind [speedWritable]
    · exact bind_of_error herror

theorem writeFan_of_none (henc : encodeSpeed entry speed = none) :
    writeFan t faults fan option speed values = (.error .undefined, values) ∨
      ∃ e, writeFan t faults fan option speed values = (.error (.errno e), values) := by
  rcases getEntry_cases t faults (option.key fan) values with ⟨entry', hlk, hfd', hok⟩ | ⟨hno, e, herror⟩
  · cases hfd.symm.trans hfd'
    rw [writeFan, bind_of_ok hok]
    rw [encodeSpeed] at henc
    split at henc
    · next hty =>
        rw [if_pos hty, map_eq_none_iff.1 henc]
        exact .inl rfl
    · cases henc
  · exact .inr ⟨e, bind_of_error herror⟩

end

theorem readFan_eq (hlk : faults .lookup (option.key fan) = false)
    (hrd : faults .read (option.key fan) = false) (hfd : t.find (option.key fan) = some entry)
    (hlen : entry.len.toNat = speedLength entry) (hln : (values (option.key fan)).length = speedLength entry) :
    readFan t faults fan option values = defined (decodeSpeed entry (values (option.key fan))) values := by
  have hbs := readKey_of_find hlk hrd hfd (hln.trans hlen.symm)
  rw [readFan, bind_of_ok (getEntry_of_find hlk hfd), decodeSpeed]
  rw [hlen, speedLength] at hbs
  split
  · next hty =>
      rw [if_pos hty] at hbs
      exact bind_of_ok hbs
  · next hty =>
      rw [if_neg hty] at hbs
      exact bind_of_ok hbs

theorem defined_eq_ok {α : Type} {x : Option α} {a : α} : (defined x values).1 = .ok a ↔ x = some a := by
  cases x with
  | none => exact iff_of_false (by intro h; cases h) (by intro h; cases h)
  | some b =>
    constructor
    · intro h
      cases h
      rfl
    · intro h
      cases h
      rfl

/-! ## Modes -/

def hasMode (t : KeyTable) (fan : Nat) : Bool := (t.find (modeKey fan)).isSome

/-- What the SMC stores after the mode of a fan is set. -/
def setMode (t : KeyTable) (values : Values) (fan : Nat) (manual : Bool) : Values :=
  if hasMode t fan then update values (modeKey fan) [if manual then 1 else 0]
  else update values FANS_MANUAL (maskWith (values FANS_MANUAL) fan manual)

/-- The mode of a fan can be set. -/
def modeWritable (t : KeyTable) (faults : Faults) (fan : Nat) : Bool :=
  !faults .lookup (modeKey fan) && if hasMode t fan then writable t faults (modeKey fan) 1
    else readable t faults FANS_MANUAL 2 && writable t faults FANS_MANUAL 2

theorem writeFanManual_cases (t : KeyTable) (faults : Faults) (fan : Nat) (manual : Bool)
    (hma : (values FANS_MANUAL).length = 2) :
    (modeWritable t faults fan ∧ writeFanManual t faults fan manual values = (.ok (), setMode t values fan manual)) ∨
    (modeWritable t faults fan = false ∧ ∃ e, writeFanManual t faults fan manual values = (.error (.errno e), values)) := by
  rw [modeWritable, writeFanManual, setMode]
  rcases hasKey_cases t faults (modeKey fan) values with ⟨hlk, hok⟩ | ⟨hlk, e, herror⟩
  · rw [hlk, bind_of_ok hok, Bool.not_false, Bool.true_and, ← hasMode]
    cases hasMode t fan with
    | true => exact writeKey_cases t faults (modeKey fan) [if manual then 1 else 0] values
    | false =>
      rw [if_neg Bool.false_ne_true, if_neg Bool.false_ne_true, if_neg Bool.false_ne_true]
      rcases readKey_cases t faults hma with ⟨hrd, hbs⟩ | ⟨hrd, e, herror⟩
      · rw [hrd, Bool.true_and, bind_of_ok hbs]
        exact writeKey_cases t faults FANS_MANUAL (maskWith (values FANS_MANUAL) fan manual) values
      · rw [hrd, bind_of_error herror]
        exact .inr ⟨rfl, e, rfl⟩
  · rw [hlk, bind_of_error herror]
    exact .inr ⟨rfl, e, rfl⟩

theorem writeFanManual_ok_or_errno (t : KeyTable) (faults : Faults) (fan : Nat) (manual : Bool) (values : Values) :
    (∃ values', writeFanManual t faults fan manual values = (.ok (), values')) ∨
      ∃ e, writeFanManual t faults fan manual values = (.error (.errno e), values) := by
  rw [writeFanManual]
  rcases hasKey_cases t faults (modeKey fan) values with ⟨-, hok⟩ | ⟨-, e, herror⟩
  · rw [bind_of_ok hok]
    split
    · rcases writeKey_cases t faults (modeKey fan) [if manual then 1 else 0] values with ⟨-, h⟩ | ⟨-, h⟩
      · exact .inl ⟨_, h⟩
      · exact .inr h
    rcases readKey_ok_or_errno t faults FANS_MANUAL 2 values with hrd | ⟨e, herror⟩
    · rw [bind_of_ok hrd]
      rcases writeKey_cases t faults FANS_MANUAL (maskWith (values FANS_MANUAL) fan manual) values with
        ⟨-, h⟩ | ⟨-, h⟩
      · exact .inl ⟨_, h⟩
      · exact .inr h
    · exact .inr ⟨e, bind_of_error herror⟩
  · exact .inr ⟨e, bind_of_error herror⟩

/-! ## Accepted speeds -/

theorem access_of_eq {α : Type} {x : Access α} {s : Fans} {r : Except Failure α}
    (h : x s.values = (r, values)) : Fans.access x s = (r, { s with values }) := by
  rw [Fans.access, Command.zoom, h]

/-- A write of a speed that does not return an error number has the result of `t2smc_write_fan`, and what that has stored
stays. -/
theorem hwmonWrite_speed {attr : FanAttr} {v : Int} {s : Fans} (hpos : 0 ≤ v)
    (hz : attr = .target → v ≠ 0) (herr : ∀ e, (hwmonWrite t faults attr fan v s).1 ≠ .error (.errno e)) :
    ∃ values, (hwmonWrite t faults attr fan v s).1 = (writeFan t faults fan attr.option (toU32 v) values).1 ∧
      (hwmonWrite t faults attr fan v s).2.values = (writeFan t faults fan attr.option (toU32 v) values).2 := by
  cases attr with
  | min =>
    refine ⟨s.values, ?_⟩
    rw [hwmonWrite, if_neg (Int.not_lt.2 hpos)]
    exact ⟨rfl, rfl⟩
  | target =>
    rw [hwmonWrite, if_neg (Int.not_lt.2 hpos), if_neg (hz rfl)] at herr ⊢
    rcases writeFanManual_ok_or_errno t faults fan true s.values with ⟨values, hmd⟩ | ⟨e, hmd⟩
    · refine ⟨values, ?_⟩
      rw [bind_of_ok (access_of_eq hmd)]
      rcases hwr : writeFan t faults fan .target (toU32 v) values with ⟨f | u, values'⟩
      · rw [bind_of_error (access_of_eq hwr)]
        exact ⟨congrArg Prod.fst hwr.symm, congrArg Prod.snd hwr.symm⟩
      · rw [bind_of_ok (access_of_eq hwr)]
        exact ⟨congrArg Prod.fst hwr.symm, congrArg Prod.snd hwr.symm⟩
    · rw [bind_of_error (access_of_eq hmd)] at herr
      exact absurd rfl (herr e)

/-- A speed whose write does not return an error number is written and read back exactly if it is below the limit. -/
theorem writeFan_read_iff {faults' : Faults} {v : Nat} (hfd : t.find (option.key fan) = some entry)
    (herr : ∀ e, (writeFan t faults fan option (v % 2 ^ 32) values).1 ≠ .error (.errno e))
    (hlk : faults' .lookup (option.key fan) = false) (hrd : faults' .read (option.key fan) = false) :
    (writeFan t faults fan option (v % 2 ^ 32) values).1 = .ok () ∧
        (readFan t faults' fan option (writeFan t faults fan option (v % 2 ^ 32) values).2).1 = .ok v ↔
      v < speedLimit entry := by
  have hmax : speedLimit entry ≤ 2 ^ 32 := by
    rw [speedLimit]
    split <;> decide
  cases henc : encodeSpeed entry (v % 2 ^ 32) with
  | none =>
    -- the shift is undefined, and the speed is not below the limit
    refine iff_of_false ?_ ?_
    · rintro ⟨hok, -⟩
      rcases writeFan_of_none hfd henc with h | ⟨e, h⟩
      · rw [h] at hok
        cases hok
      · exact herr e (congrArg Prod.fst h)
    · grind [encodeSpeed_of_lt]
  | some bytes =>
    rcases writeFan_of_encode hfd henc with ⟨hwrit, h⟩ | ⟨-, e, h⟩
    · have hlen : entry.len.toNat = speedLength entry := by simp_all [speedWritable]
      have hstor : update values (option.key fan) bytes (option.key fan) = bytes := update_self ..
      have hbk := readFan_eq hlk hrd hfd hlen ((congrArg List.length hstor).trans (encodeSpeed_length henc))
      rw [h]
      rw [hbk, hstor, defined_eq_ok]
      constructor
      · grind [decodeSpeed_ne]
      · grind [encodeSpeed_of_lt]
    · exact absurd (congrArg Prod.fst h) (herr e)

/-- A speed that is not refused is set and read back exactly if it is below the limit of its key, and `float_to_u32`
returns the integer part exactly of negative numbers and those below 2 ^ 24. -/
theorem fan_speed_exact {faults' : Faults} {attr : FanAttr} {fan : Nat} {v : Int} {s : Fans} (hpos : 0 ≤ v)
    (hzero : attr = .target → v ≠ 0) (hfind : t.find (attr.option.key fan) = some entry)
    (herrno : ∀ e, (hwmonWrite t faults attr fan v s).1 ≠ .error (.errno e))
    (hlookup : faults' .lookup (attr.option.key fan) = false) (hread : faults' .read (attr.option.key fan) = false)
    (raw : Nat) :
    ((hwmonWrite t faults attr fan v s).1 = .ok () ∧
        (readFan t faults' fan attr.option (hwmonWrite t faults attr fan v s).2.values).1 = .ok v.toNat ↔
      v < speedLimit entry) ∧
    (floatToU32 raw = some (integerPart raw) ↔ isNegative raw = true ∨ exponentField raw ≤ 150) := by
  refine ⟨?_, floatToU32_iff raw⟩
  obtain ⟨values, hres, hvals⟩ := hwmonWrite_speed hpos hzero herrno
  have hspd : toU32 v = v.toNat % 2 ^ 32 := by
    rw [toU32]
    omega
  have hlim : v < speedLimit entry ↔ v.toNat < speedLimit entry := by omega
  rw [hres, hspd] at herrno
  rw [hres, hvals, hspd, hlim]
  exact writeFan_read_iff hfind herrno hlookup hread

/-- An SMC with one fan of single precision: the mode, the minimum and the target. -/
def fanTable : KeyTable where
  keys := [⟨[70, 48, 77, 100], 1, [117, 105, 56, 32], 0⟩, ⟨[70, 48, 77, 110], 4, FLOAT_TYPE, 0⟩,
    ⟨[70, 48, 84, 103], 4, FLOAT_TYPE, 0⟩]
  four := by decide
  noNul := by decide
  sorted := by decide

def automaticFan : Fans where
  values := fun key => if key = modeKey 0 then [0] else if key = FANS_MANUAL then [0, 0] else [0, 0, 0, 0]
  manual := fun _ => false
  target := fun _ => 0

/-- A target of 3000. -/
theorem fan_speed_exact_target : (hwmonWrite fanTable noFaults .target 0 3000 automaticFan).1 = .ok () ∧
      (readFan fanTable noFaults 0 .target (hwmonWrite fanTable noFaults .target 0 3000 automaticFan).2.values).1 =
        .ok 3000 := by
  have herr : ∀ e, (hwmonWrite fanTable noFaults .target 0 3000 automaticFan).1 ≠ .error (.errno e) := by
    intro e h
    cases h
  have hfd : fanTable.find (FanAttr.target.option.key 0) = some ⟨[70, 48, 84, 103], 4, FLOAT_TYPE, 0⟩ := rfl
  exact (fan_speed_exact (by decide) (by decide) hfd herr rfl rfl 0).1.2 (by decide)

/-- A target of 2 ^ 32 is accepted, and the target is zero; 2 ^ 24 and the number 2 ^ 24 are shifted by undefined counts. -/
theorem fan_speed_not_kept : (hwmonWrite fanTable noFaults .target 0 (2 ^ 32) automaticFan).1 = .ok () ∧
      (readFan fanTable noFaults 0 .target (hwmonWrite fanTable noFaults .target 0 (2 ^ 32) automaticFan).2.values).1 =
        .ok 0 ∧
      (hwmonWrite fanTable noFaults .target 0 (2 ^ 24) automaticFan).1 = .error .undefined ∧ floatToU32 (151 * 2 ^ 23) = none := by
  exact ⟨rfl, rfl, rfl, rfl⟩

end KaiT2en.Smc
