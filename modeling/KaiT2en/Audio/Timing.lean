import KaiT2en.Lib.Binary64

/-!
# The clock of an audio stream

bridgeaudiod sends a zero timestamp each time a stream passes the end of its ring: the sample time as a double, and
the time at which it was reached. `t2audio_decode_sample_time` and `t2audio_double_to_u64` read the double without
floating point; they agree up to `2 ^ 53`, where the second one shifts by a negative amount (`sample_time_decoders`).

`t2audio_handle_stream_timestamp` anchors the position of the stream at the last zero timestamp. The work queue does
not keep the order of the notifications; the anchor does not depend on it (`timestamps_commute`).
-/

namespace KaiT2en.Audio

open KaiT2en.Lib.Binary64 Nat

/-! ## Sample times -/

def decodeSampleTime (bits : BitVec 64) : Option (BitVec 64) :=
  let exponent := (bits >>> 52 &&& 0x7ff#64).toNat
  let fraction := bits &&& (1#64 <<< 52 - 1#64)
  if bits = 0#64 then some 0#64
  else if bits >>> 63 ≠ 0#64 ∨ exponent < 1023 ∨ exponent > 1076 ∨ exponent = 1076 ∧ fraction ≠ 0#64 then none
  else
    let fraction := fraction ||| 1#64 <<< 52
    if exponent = 1076 then some (fraction <<< 1)
    else
      let shift := 1075 - exponent
      if fraction &&& (1#64 <<< shift - 1#64) ≠ 0#64 then none else some (fraction >>> shift)

/-- A shift to the left, if C defines it. -/
def shl (x : BitVec 64) (n : Int) : Option (BitVec 64) := if 0 ≤ n ∧ n < 64 then some (x <<< n.toNat) else none

/-- A shift to the right, if C defines it. -/
def shr (x : BitVec 64) (n : Int) : Option (BitVec 64) := if 0 ≤ n ∧ n < 64 then some (x >>> n.toNat) else none

/-- `t2audio_double_to_u64`; there is no result after a shift by an amount that is negative or too large. -/
def doubleToU64 (d : BitVec 64) : Option (BitVec 64) :=
  let sign := d >>> 63 &&& 1#64
  let exp := ((d >>> 52 &&& 0x7ff#64).toNat : Int) - 1023
  let fr := d &&& (1#64 <<< 52 - 1#64)
  if sign ≠ 0#64 ∨ exp < 0 then some 0#64
  else do
    let hidden ← shl 1#64 exp
    let rest ← shr fr (52 - exp)
    pure (hidden + rest)

/-- The pattern of the number `2 ^ 53`. -/
def limitPattern : BitVec 64 := 0x4340000000000000#64

/-- The pattern is +0, or a positive number that is the integer `frames`, from 1 to `2 ^ 53`. -/
def Denotes (bits frames : BitVec 64) : Prop :=
  bits = 0#64 ∧ frames = 0#64 ∨ isNegative bits.toNat = false ∧ isFinite bits.toNat = true ∧
      magnitude bits.toNat = (frames.toNat : ℚ) ∧ 1 ≤ frames.toNat ∧ frames.toNat ≤ 2 ^ 53

section Fields

variable (bits : BitVec 64)

theorem toNat_mask {k : Nat} (hk : k < 64) : (1#64 <<< k - 1#64).toNat = 2 ^ k - 1 := by
  have hlt : 2 ^ k < 2 ^ 64 := Nat.pow_lt_pow_right (by decide) hk
  have hpos : 0 < 2 ^ k := Nat.two_pow_pos k
  rw [BitVec.toNat_sub, BitVec.toNat_shiftLeft, shiftLeft_eq]
  simp only [BitVec.toNat_ofNat]
  omega

theorem toNat_and_mask {k : Nat} (hk : k < 64) : (bits &&& (1#64 <<< k - 1#64)).toNat = bits.toNat % 2 ^ k := by
  rw [BitVec.toNat_and, toNat_mask hk, and_two_pow_sub_one_eq_mod]

theorem toNat_exponent : (bits >>> 52 &&& 0x7ff#64).toNat = exponentField bits.toNat := by
  rw [BitVec.toNat_and, BitVec.toNat_ushiftRight, shiftRight_eq_div_pow]
  exact and_two_pow_sub_one_eq_mod _ 11

theorem toNat_fraction : (bits &&& (1#64 <<< 52 - 1#64)).toNat = fraction bits.toNat := toNat_and_mask bits (by decide)

theorem toNat_hidden : ((bits &&& (1#64 <<< 52 - 1#64)) ||| 1#64 <<< 52).toNat = 2 ^ 52 + fraction bits.toNat := by
  have hlt : fraction bits.toNat < 2 ^ 52 := fraction_lt
  have hor := two_pow_add_eq_or_of_lt hlt 1
  rw [BitVec.toNat_or, toNat_fraction, Nat.or_comm]
  exact hor.symm

theorem negative_iff : bits >>> 63 ≠ 0#64 ↔ isNegative bits.toNat := by
  rw [Ne, ← BitVec.toNat_inj, BitVec.toNat_ushiftRight, shiftRight_eq_div_pow, isNegative, decide_eq_true_eq]
  simp only [BitVec.toNat_ofNat, zero_mod]
  omega

variable {bits} {frames : BitVec 64} {k : Nat}

theorem fraction_ne_zero : bits &&& (1#64 <<< 52 - 1#64) ≠ 0#64 ↔ fraction bits.toNat ≠ 0 := by
  rw [← toNat_fraction]
  exact not_congr BitVec.toNat_inj.symm

theorem decodeSampleTime_none (h : bits ≠ 0#64) (hout : isNegative bits.toNat ∨
      exponentField bits.toNat < 1023 ∨ exponentField bits.toNat > 1076 ∨
      exponentField bits.toNat = 1076 ∧ fraction bits.toNat ≠ 0) :
    decodeSampleTime bits = none := by
  simp only [decodeSampleTime, if_neg h, toNat_exponent, negative_iff, fraction_ne_zero]
  exact if_pos hout

theorem ne_zero_of_exponent (h : 0 < exponentField bits.toNat) : bits ≠ 0#64 := by
  rintro rfl
  exact absurd h (by decide)

theorem decodeSampleTime_middle (hneg : isNegative bits.toNat = false) (hk : k ≤ 52)
    (he : exponentField bits.toNat = 1023 + k) :
    decodeSampleTime bits = some frames ↔ 2 ^ 52 + fraction bits.toNat = frames.toNat * 2 ^ (52 - k) := by
  have hpos := Nat.two_pow_pos (52 - k)
  have hz : bits ≠ 0#64 := ne_zero_of_exponent (by omega)
  simp only [decodeSampleTime, if_neg hz, toNat_exponent, negative_iff, fraction_ne_zero, he, hneg,
    Bool.false_eq_true, false_or]
  rw [if_neg (by omega), if_neg (by omega), show 1075 - (1023 + k) = 52 - k by omega, Option.ite_none_left_eq_some,
    Option.some.injEq, ← BitVec.toNat_inj, ne_eq, ← BitVec.toNat_inj, toNat_and_mask _ (by omega),
    BitVec.toNat_ushiftRight, toNat_hidden, Nat.shiftRight_eq_div_pow, not_not]
  constructor
  · rintro ⟨hmod, hdiv⟩
    exact (Nat.div_eq_iff_eq_mul_left hpos (Nat.dvd_of_mod_eq_zero hmod)).1 hdiv
  · intro heq
    rw [heq]
    exact ⟨Nat.mul_mod_left _ _, Nat.mul_div_cancel _ hpos⟩

theorem doubleToU64_middle (hneg : isNegative bits.toNat = false) (hk : k ≤ 52)
    (he : exponentField bits.toNat = 1023 + k)
    (hfrs : 2 ^ 52 + fraction bits.toNat = frames.toNat * 2 ^ (52 - k)) : doubleToU64 bits = some frames := by
  have hsign : ¬(bits >>> 63 &&& 1#64 ≠ 0#64 ∨ ((1023 + k : ℕ) : Int) - 1023 < 0) := by
    rintro (hsign | hexp)
    · have hz : bits >>> 63 = 0#64 := by
        by_contra hne
        rw [(negative_iff bits).1 hne] at hneg
        cases hneg
      rw [hz] at hsign
      exact hsign rfl
    · omega
  have hhid : 2 ^ 52 = 2 ^ k * 2 ^ (52 - k) := by rw [← pow_add, Nat.add_sub_cancel' hk]
  have hquot : frames.toNat = 2 ^ k + fraction bits.toNat / 2 ^ (52 - k) := by
    rw [← Nat.mul_div_cancel frames.toNat (Nat.two_pow_pos (52 - k)), ← hfrs, hhid, Nat.mul_comm,
      Nat.mul_add_div (Nat.two_pow_pos _)]
  have hlt := frames.isLt
  simp only [doubleToU64, toNat_exponent, he]
  rw [if_neg hsign, show ((1023 + k : ℕ) : Int) - 1023 = k by omega, show (52 : Int) - k = (52 - k : ℕ) by omega, shl,
    shr, if_pos (by omega), if_pos (by omega)]
  show some (1#64 <<< k + (bits &&& (1#64 <<< 52 - 1#64)) >>> (52 - k)) = _
  congr 1
  apply BitVec.eq_of_toNat_eq
  rw [BitVec.toNat_add, BitVec.toNat_shiftLeft, BitVec.toNat_ushiftRight, toNat_fraction, shiftLeft_eq,
    shiftRight_eq_div_pow, hquot]
  simp only [BitVec.toNat_ofNat, one_mod, one_mul, mod_add_mod]
  exact mod_eq_of_lt (hquot ▸ hlt)

theorem magnitude_middle (hk : k ≤ 52) (he : exponentField bits.toNat = 1023 + k) (n : Nat) :
    magnitude bits.toNat = n ↔ 2 ^ 52 + fraction bits.toNat = n * 2 ^ (52 - k) := by
  rw [magnitude_eq_div (by omega) (by omega), he, show 1075 - (1023 + k) = 52 - k by omega,
    div_eq_iff (by positivity)]
  exact_mod_cast Iff.rfl

theorem eq_limitPattern (hneg : isNegative bits.toNat = false)
    (he : exponentField bits.toNat = 1076) (hf : fraction bits.toNat = 0) : bits = limitPattern := by
  apply BitVec.eq_of_toNat_eq
  simp only [exponentField, fraction, isNegative, decide_eq_false_iff_not] at he hf hneg
  show bits.toNat = 0x4340000000000000
  omega

theorem decodeSampleTime_iff (bits frames : BitVec 64) : decodeSampleTime bits = some frames ↔ Denotes bits frames := by
  by_cases hz : bits = 0#64
  · subst hz
    have hlt : magnitude (0#64).toNat < 1 := magnitude_lt_one (by decide)
    constructor
    · rintro ⟨⟩
      exact .inl ⟨rfl, rfl⟩
    · rintro (⟨-, rfl⟩ | ⟨-, -, hvalue, hone, -⟩)
      · rfl
      · rw [hvalue] at hlt
        have : frames.toNat < 1 := by exact_mod_cast hlt
        omega
  by_cases hneg : isNegative bits.toNat
  · rw [decodeSampleTime_none hz (.inl hneg)]
    simp [Denotes, hz, hneg]
  rw [Bool.not_eq_true] at hneg
  have hden : Denotes bits frames ↔ isFinite bits.toNat ∧
      magnitude bits.toNat = (frames.toNat : ℚ) ∧ 1 ≤ frames.toNat ∧ frames.toNat ≤ 2 ^ 53 := by
    simp [Denotes, hz, hneg]
  have hfrac : fraction bits.toNat < 2 ^ 52 := fraction_lt
  rw [hden]
  rcases lt_or_ge (exponentField bits.toNat) 1023 with he | he
  · rw [decodeSampleTime_none hz (.inr (.inl he))]
    refine iff_of_false nofun fun ⟨_, hvalue, hone, _⟩ => ?_
    have hlt := magnitude_lt_one he
    rw [hvalue] at hlt
    have : frames.toNat < 1 := by exact_mod_cast hlt
    omega
  rcases lt_or_ge (exponentField bits.toNat) 1076 with he' | he'
  · obtain ⟨k, hk⟩ := Nat.exists_eq_add_of_le he
    have hfin : isFinite bits.toNat := decide_eq_true (by omega)
    rw [decodeSampleTime_middle hneg (by omega) hk, magnitude_middle (by omega) hk]
    refine ⟨fun heq => ⟨hfin, heq, ?_, ?_⟩, fun h => h.2.1⟩
    · by_contra hlt
      rw [show frames.toNat = 0 by omega, zero_mul] at heq
      omega
    · have hle := Nat.le_mul_of_pos_right frames.toNat (Nat.two_pow_pos (52 - k))
      omega
  -- from the exponent of `2 ^ 53` on only `2 ^ 53` itself is decoded
  have hvalue : magnitude bits.toNat = (frames.toNat : ℚ) ↔
      (2 ^ 52 + fraction bits.toNat) * 2 ^ (exponentField bits.toNat - 1075) = frames.toNat := by
    rw [magnitude_of_le (by omega)]
    exact cast_inj
  rw [hvalue]
  by_cases hlim : exponentField bits.toNat = 1076 ∧ fraction bits.toNat = 0
  · cases eq_limitPattern hneg hlim.1 hlim.2
    rw [show decodeSampleTime limitPattern = some 0x20000000000000#64 by decide]
    rw [hlim.1, hlim.2, Option.some.injEq, ← BitVec.toNat_inj]
    simp only [BitVec.toNat_ofNat]
    refine ⟨fun h => ⟨by decide, by omega, by omega, by omega⟩, fun h => by omega⟩
  rw [decodeSampleTime_none hz (by omega)]
  refine iff_of_false nofun fun ⟨_, hfrs, _, hle⟩ => ?_
  obtain he | he : exponentField bits.toNat = 1076 ∨ 1077 ≤ exponentField bits.toNat := by omega
  · rw [he] at hfrs
    omega
  · have hpow := Nat.pow_le_pow_right (by decide : 0 < 2) (show 2 ≤ exponentField bits.toNat - 1075 by omega)
    have hmul := mul_le_mul_left (2 ^ 52 + fraction bits.toNat) hpow
    omega

/-- Both decoders are exact and agree, for every pattern but that of `2 ^ 53`. -/
theorem sample_time_decoders (bits : BitVec 64) :
    ((∀ frames, decodeSampleTime bits = some frames ↔ Denotes bits frames) ∧
      ∀ frames, decodeSampleTime bits = some frames → doubleToU64 bits = some frames) ↔ bits ≠ limitPattern := by
  constructor
  · rintro ⟨-, hagr⟩ rfl
    have hdoub := hagr 0x20000000000000#64 (by decide)
    exact absurd hdoub (by decide)
  · refine fun hlim => ⟨decodeSampleTime_iff bits, fun frames hdec => ?_⟩
    by_cases hz : bits = 0#64
    · subst hz
      exact hdec
    have hin := mt (decodeSampleTime_none hz) (by rw [hdec]; nofun)
    rw [not_or, Bool.not_eq_true] at hin
    have he : exponentField bits.toNat ≠ 1076 := fun he => hlim (eq_limitPattern hin.1 he (by omega))
    obtain ⟨k, hk⟩ := Nat.exists_eq_add_of_le (show 1023 ≤ exponentField bits.toNat by omega)
    exact doubleToU64_middle hin.1 (by omega) hk ((decodeSampleTime_middle hin.1 (by omega) hk).1 hdec)

/-- The second decoder shifts by -1 for `2 ^ 53`, which the first one accepts. -/
theorem limit_shift : decodeSampleTime limitPattern = some 0x20000000000000#64 ∧ doubleToU64 limitPattern = none := by
  decide

end Fields

/-! ## Zero timestamps -/

/-- The timing fields of `struct t2audio_stream`. -/
structure StreamTiming where
  started : Bool
  waitingForFirstTs : Bool
  acceptAfterNs : Nat
  lastReceivedNs : Nat
  anchorNs : Nat
  sampleFrames : Nat
  sampleBase : Nat
  reportedFrames : Nat
  samplePeriod : Nat
  timelineFault : Bool
  deriving DecidableEq

/-- The fields of `substream->runtime`; a stream does not start without a buffer. -/
structure PcmRuntime where
  bufferSize : Nat
  rate : Nat
  bufferSize_pos : 0 < bufferSize

structure ZeroTimestamp where
  receivedNs : Nat
  deviceTimestamp : Nat
  updateSeed : Nat
  sampleFrames : Nat
  deriving DecidableEq

/-- `t2audio_pcm_reset_timing` and the rest of the start of a stream, at the time `now`. -/
def StreamTiming.start (now : Nat) : StreamTiming where
  started := true
  waitingForFirstTs := true
  acceptAfterNs := now
  lastReceivedNs := 0
  anchorNs := now
  sampleFrames := 0
  sampleBase := 0
  reportedFrames := 0
  samplePeriod := 0
  timelineFault := false

variable (runtime : PcmRuntime)

/-- The anchor that a notification stands for: the time of the device if it is plausible. -/
def ZeroTimestamp.anchor (n : ZeroTimestamp) : Nat :=
  let windowNs := runtime.bufferSize * 1000000000 / runtime.rate
  if n.deviceTimestamp ≤ n.receivedNs ∧ n.receivedNs - n.deviceTimestamp ≤ windowNs then n.deviceTimestamp
  else n.receivedNs

def handleStreamTimestamp (s : StreamTiming) (n : ZeroTimestamp) : StreamTiming :=
  if s.started = false then s
  else if n.deviceTimestamp < s.acceptAfterNs then s
  else if s.waitingForFirstTs = false ∧ n.receivedNs ≤ s.lastReceivedNs then s
  else if s.waitingForFirstTs = false ∧
      (n.updateSeed ≠ 0 ∧ s.sampleFrames ≠ 0 ∨ n.sampleFrames < s.sampleFrames) then { s with timelineFault := true }
  else
    { s with
      samplePeriod := if s.waitingForFirstTs = false ∧ s.samplePeriod = 0 then n.sampleFrames - s.sampleFrames
        else s.samplePeriod
      anchorNs := n.anchor runtime
      sampleBase := if s.waitingForFirstTs then n.sampleFrames - n.sampleFrames % runtime.bufferSize else s.sampleBase
      sampleFrames := n.sampleFrames
      lastReceivedNs := n.receivedNs
      waitingForFirstTs := false }

/-- The notifications of one run: none is from before its start, and the sample time increases with the time of
receipt. -/
structure OneRun (now : Nat) (l : List ZeroTimestamp) : Prop where
  accepted : ∀ n ∈ l, now ≤ n.deviceTimestamp ∧ n.updateSeed = 0
  distinct : ∀ n ∈ l, ∀ m ∈ l, n.receivedNs = m.receivedNs → n = m
  increasing : ∀ n ∈ l, ∀ m ∈ l, n.receivedNs < m.receivedNs → n.sampleFrames < m.sampleFrames

/-- The stream is at the notification `last`, and its ring begins where a pass does. -/
structure AnchoredAt (now : Nat) (last : ZeroTimestamp) (s : StreamTiming) : Prop where
  started : s.started = true
  accept : s.acceptAfterNs = now
  waiting : s.waitingForFirstTs = false
  anchor : s.anchorNs = last.anchor runtime
  frames : s.sampleFrames = last.sampleFrames
  received : s.lastReceivedNs = last.receivedNs
  fault : s.timelineFault = false
  base : runtime.bufferSize ∣ s.sampleBase
  base_le : s.sampleBase ≤ s.sampleFrames

variable {runtime} {now : Nat} {l : List ZeroTimestamp} {n : ZeroTimestamp}

theorem anchoredAt_first (h : now ≤ n.deviceTimestamp) :
    AnchoredAt runtime now n (handleStreamTimestamp runtime (.start now) n) := by
  have hacc : ¬n.deviceTimestamp < now := by omega
  simp only [handleStreamTimestamp, StreamTiming.start, hacc, Bool.true_eq_false, if_false, if_true, false_and]
  exact ⟨rfl, rfl, rfl, rfl, rfl, rfl, rfl, dvd_sub_mod _, sub_le _ _⟩

theorem AnchoredAt.step {last : ZeroTimestamp} {s : StreamTiming} (h : AnchoredAt runtime now last s)
    (hl : OneRun now l) (hla : last ∈ l) (hn : n ∈ l) :
    AnchoredAt runtime now (if last.receivedNs < n.receivedNs then n else last) (handleStreamTimestamp runtime s n) := by
  have hin := hl.accepted n hn
  have hacc : ¬n.deviceTimestamp < s.acceptAfterNs := by
    rw [h.accept]
    omega
  rw [handleStreamTimestamp, h.started, if_neg Bool.true_eq_false.mp, if_neg hacc, h.waiting, h.received]
  split
  · next hlat =>
      have hfrs := hl.increasing last hla n hn hlat
      rw [if_neg (by omega), if_neg (by rw [h.frames]; omega)]
      exact { h with
        started := rfl
        waiting := rfl
        anchor := rfl
        frames := rfl
        received := rfl
        base_le := h.base_le.trans (h.frames.trans_le hfrs.le) }
  · rw [if_pos ⟨rfl, by omega⟩]
    exact h

theorem AnchoredAt.run {last : ZeroTimestamp} {s : StreamTiming} (h : AnchoredAt runtime now last s)
    (hl : OneRun now l) (hla : last ∈ l) {l' : List ZeroTimestamp} (hl' : ∀ n ∈ l', n ∈ l) :
    ∃ m ∈ l, AnchoredAt runtime now m (l'.foldl (handleStreamTimestamp runtime) s) ∧
      last.receivedNs ≤ m.receivedNs ∧ ∀ n ∈ l', n.receivedNs ≤ m.receivedNs := by
  induction l' generalizing last s with
  | nil => exact ⟨last, hla, h, le_refl _, nofun⟩
  | cons n l' ih =>
    have hn := hl' n List.mem_cons_self
    have hmem : (if last.receivedNs < n.receivedNs then n else last) ∈ l := by
      split
      · exact hn
      · exact hla
    obtain ⟨m, hm, hanc, hle, hall⟩ := ih (h.step hl hla hn) hmem fun k hk => hl' k (List.mem_cons_of_mem n hk)
    have hle' : last.receivedNs ≤ m.receivedNs ∧ n.receivedNs ≤ m.receivedNs := by split at hle <;> omega
    exact ⟨m, hm, hanc, hle'.1, List.forall_mem_cons.2 ⟨hle'.2, hall⟩⟩

variable (runtime) in
theorem anchoredAt_run (hl : OneRun now l) (hne : l ≠ []) {l' : List ZeroTimestamp} (hperm : l'.Perm l) :
    ∃ m ∈ l, (∀ n ∈ l, n.receivedNs ≤ m.receivedNs) ∧
      AnchoredAt runtime now m (l'.foldl (handleStreamTimestamp runtime) (.start now)) := by
  cases l' with
  | nil => exact absurd hperm.nil_eq.symm hne
  | cons first l' =>
    have hmem : ∀ n ∈ first :: l', n ∈ l := fun n hn => hperm.mem_iff.1 hn
    have hfst := hmem first List.mem_cons_self
    have hat : AnchoredAt runtime now first _ := anchoredAt_first (hl.accepted first hfst).1
    obtain ⟨m, hm, hanc, hle, hall⟩ := hat.run hl hfst fun n hn => hmem n (List.mem_cons_of_mem first hn)
    refine ⟨m, hm, fun n hn => ?_, hanc⟩
    rcases List.mem_cons.1 (hperm.mem_iff.2 hn) with rfl | hn
    · exact hle
    · exact hall n hn

/-- In every order of the notifications the stream ends at the one received last, without a fault and with the same
position in the ring. -/
theorem timestamps_commute (runtime : PcmRuntime) (now : Nat) (l : List ZeroTimestamp) (hl : OneRun now l)
    (hne : l ≠ []) :
    ∃ last ∈ l, (∀ n ∈ l, n.receivedNs ≤ last.receivedNs) ∧ ∀ l' : List ZeroTimestamp, l'.Perm l →
      let s := l'.foldl (handleStreamTimestamp runtime) (.start now)
      s.anchorNs = last.anchor runtime ∧ s.sampleFrames = last.sampleFrames ∧ s.timelineFault = false ∧
        s.sampleBase ≡ 0 [MOD runtime.bufferSize] ∧ s.sampleBase ≤ s.sampleFrames ∧
        (s.sampleFrames - s.sampleBase) % runtime.bufferSize = last.sampleFrames % runtime.bufferSize := by
  obtain ⟨last, hla, hmax, -⟩ := anchoredAt_run runtime hl hne (List.Perm.refl l)
  refine ⟨last, hla, hmax, fun l' hperm => ?_⟩
  obtain ⟨m, hm, hmax', h⟩ := anchoredAt_run runtime hl hne hperm
  cases hl.distinct m hm last hla (le_antisymm (hmax m hm) (hmax' last hla))
  refine ⟨h.anchor, h.frames, h.fault, modEq_zero_iff_dvd.2 h.base, h.base_le, ?_⟩
  obtain ⟨passes, hpas⟩ := h.base
  have hle := h.base_le
  rw [hpas] at hle
  rw [hpas, sub_mul_mod hle, h.frames]

/-- The ends of the first two passes. -/
def twoPasses : List ZeroTimestamp := [⟨10, 8, 0, 16640⟩, ⟨20, 18, 0, 33280⟩]

theorem timestamps_commute_two : ∃ last ∈ twoPasses, (∀ n ∈ twoPasses, n.receivedNs ≤ last.receivedNs) ∧
    ∀ l' : List ZeroTimestamp, l'.Perm twoPasses →
      (l'.foldl (handleStreamTimestamp ⟨16640, 48000, by decide⟩) (.start 5)).sampleFrames = last.sampleFrames := by
  obtain ⟨last, hla, hmax, hall⟩ := timestamps_commute ⟨16640, 48000, by decide⟩ 5 twoPasses
    ⟨by decide, by decide, by decide⟩ (by decide)
  exact ⟨last, hla, hmax, fun l' hperm => (hall l' hperm).2.1⟩

end KaiT2en.Audio
