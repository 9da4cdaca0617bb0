import KaiT2en.Smc.Access
import Mathlib.Tactic.Linarith

/-!
# The clock of the SMC

The time is a counter of 48 bits and an offset that the driver adds to it, in ticks. `CLKO` keeps the offset in 48 bits,
while the sum is one of 64 bits. A time that changes the offset by less than a quarter of a second is not written.

Here the counter is what `t2smc_read_rtc_counter` returned. A product that does not fit into 64 bits wraps, which the
reduction to 48 bits hides.
-/

namespace KaiT2en.Smc

open KaiT2en.Kernel KaiT2en.Lib.Bytes KaiT2en.Lib.Stateful Int

def RTC_OFFSET : List UInt8 := [67, 76, 75, 79]

def RTC_BYTES : Nat := 6

/-- `sign_extend64` of the lower 48 bits. -/
def signExtend (raw : Int) : Int := raw.bmod (2 ^ 48)

/-- `div_s64`: the divisor is an `s32`. -/
def divS64 (dividend : Int) (rate : Nat) : Int := dividend.tdiv ((rate : Int).bmod (2 ^ 32))

/-- The SMC and the fields of the driver for the clock. -/
structure Rtc where
  values : Values
  offset : Int
  rate : Nat

def Rtc.access {α : Type} (x : Access α) : Command Rtc Failure α :=
  Command.zoom (·.values) (fun values s => { s with values }) x

variable (t : KeyTable) (faults : Faults)

def writeRtcKey (key : List UInt8) (val : Nat) : Access Unit := writeKey t faults key (leBytes RTC_BYTES val)

/-- `t2smc_rtc_read_time`, as seconds. -/
def rtcReadTime (ctr : Nat) (offset : Int) (rate : Nat) : Int := divS64 (ctr + offset) rate

def rtcWriteOffset (off : Int) (tolerance : Nat) : Command Rtc Failure Unit := fun s =>
  let off := signExtend off
  if |off - s.offset| < tolerance then (.ok (), s)
  else
    match Rtc.access (writeRtcKey t faults RTC_OFFSET (off % 2 ^ 64).toNat) s with
    | (.ok _, s) => (.ok (), { s with offset := off })
    | (.error e, s) => (.error e, s)

def rtcSetTime (ctr : Nat) (time : Int) : Command Rtc Failure Unit := fun s =>
  rtcWriteOffset t faults (time * s.rate - ctr) (s.rate / 4) s

/-- The offset that `t2smc_register_rtc` takes from `CLKO`. -/
def loadedOffset (values : Values) : Int := signExtend (ofLe (values RTC_OFFSET))

def rangeMin (rate : Nat) : Int := divS64 (-2 ^ 47) rate

/-- `range_max`, a `u64`. -/
def rangeMax (rate : Nat) : Int := divS64 (2 ^ 47 - 1) rate % 2 ^ 64

/-- `now` differs from `time + d / rate` by at most one second; here times `rate`. -/
def WithinSecond (rate : Nat) (time : Int) (d : Nat) (now : Int) : Prop := |(now - time) * rate - d| ≤ rate

/-- The rate is an `s32`, the offset fits into 48 bits, and it is written or does no harm. One that is `e` ticks too
small does harm from the first tick before a full second on, one that is too large before 1970 only. -/
def Settable (rate : Nat) (time : Int) (ctr : Nat) (old : Int) : Prop :=
  let e := old - (time * rate - ctr)
  rate < 2 ^ 31 ∧ -2 ^ 47 ≤ time * rate - ctr ∧
    (rate / 4 ≤ |e| ∨ |e| ≤ 1 ∨ (e < 0 ∧ 2 ^ 48 ≤ ctr + max 0 (1 - time) * rate + 1) ∨
      (0 < e ∧ (-2 < time ∨ 2 ^ 48 ≤ ctr + rate - e + 1)))

section Arithmetic

variable {rate d : Nat} {time e : Int}

/-- A sum that is `e` ticks too large gives a time that is off by `e` and the remainder. -/
theorem withinSecond_iff : WithinSecond rate time d ((time * rate + d + e).tdiv rate) ↔
      -(rate : Int) ≤ e - (time * rate + d + e).tmod rate ∧ e - (time * rate + d + e).tmod rate ≤ rate := by
  have hdiv := mul_tdiv_add_tmod (time * rate + d + e) rate
  have hsum : ((time * rate + d + e).tdiv rate - time) * rate - d = e - (time * rate + d + e).tmod rate := by linarith
  rw [WithinSecond, hsum, abs_le]

theorem tmod_of_nonneg {n k r rate : Int} (hn : 0 ≤ n) (h : n = k * rate + r) (hr : 0 ≤ r) (hlt : r < rate) :
    n.tmod rate = r := by
  rw [tmod_eq_emod_of_nonneg hn, h, mul_add_emod_self_right, emod_eq_of_lt hr hlt]

theorem tmod_of_nonpos {n k r rate : Int} (hn : n ≤ 0) (h : n = k * rate + r) (hr : r ≤ 0) (hlt : -rate < r) :
    n.tmod rate = r := by
  have := tmod_of_nonneg (k := -k) (r := -r) (neg_nonneg_of_nonpos hn) (by rw [h]; ring) (by omega) (by omega : -r < rate)
  rw [neg_tmod] at this
  omega

theorem tmod_bounds (n : Int) (hrate : 0 < rate) :
    -rate < n.tmod rate ∧ n.tmod rate < rate ∧ (0 ≤ n → 0 ≤ n.tmod rate) ∧ (n ≤ 0 → n.tmod rate ≤ 0) := by
  have hpos : (0 : Int) < rate := by omega
  refine ⟨lt_tmod_of_pos _ hpos, tmod_lt_of_pos _ hpos, fun h => tmod_nonneg _ h, fun h => ?_⟩
  have := tmod_nonneg rate (neg_nonneg_of_nonpos h)
  rw [neg_tmod] at this
  omega

variable {ctr : Nat}

/-- An offset that is too small: the second after the next full second comes too late, unless the counter wraps before. -/
theorem withinSecond_late (he : e < -1) (hsm : -e < rate) :
    (∀ d : Nat, ctr + d < 2 ^ 48 → WithinSecond rate time d ((time * rate + d + e).tdiv rate)) ↔
      2 ^ 48 ≤ ctr + max 0 (1 - time) * rate + 1 := by
  simp only [withinSecond_iff]
  rcases le_or_gt 1 time with hti | hti
  · rw [max_eq_left (by omega)]
    constructor
    · intro h
      by_contra hrm
      have hbad := h 1 (by omega)
      rw [tmod_of_nonneg (k := time - 1) (r := rate + 1 + e) (by push_cast; nlinarith) (by push_cast; ring) (by omega)
        (by omega)] at hbad
      omega
    · intro hrm d hd
      obtain rfl : d = 0 := by omega
      rw [tmod_of_nonneg (k := time - 1) (r := rate + e) (by push_cast; nlinarith) (by push_cast; ring) (by omega)
        (by omega)]
      omega
  rw [max_eq_right (by omega)]
  obtain ⟨m, hm⟩ : ∃ m : Nat, ((1 - time) * rate : Int) = m := ⟨((1 - time) * rate).toNat, by
    rw [toNat_of_nonneg (mul_nonneg (by omega) (by omega))]⟩
  have hprod : time * rate = rate - m := by linarith
  simp only [hprod, hm]
  constructor
  · intro h
    by_contra hrm
    have hbad := h (m + 1) (by omega)
    rw [tmod_of_nonneg (k := 0) (r := rate + 1 + e) (by push_cast; omega) (by push_cast; ring) (by omega)
      (by omega)] at hbad
    omega
  · intro hrm d hd
    have := tmod_bounds (rate - m + d + e) (by omega : 0 < rate)
    rcases le_or_gt 0 (rate - m + d + e : Int) with hn | hn
    · rw [tmod_of_nonneg (k := 0) hn (by ring) hn (by omega)]
      omega
    · omega

/-- An offset that is too large: before 1970 a second starts too early. -/
theorem withinSecond_early (he : 1 < e) (hsm : e < rate) :
    (∀ d : Nat, ctr + d < 2 ^ 48 → WithinSecond rate time d ((time * rate + d + e).tdiv rate)) ↔
      -2 < time ∨ 2 ^ 48 ≤ ctr + rate - e + 1 := by
  simp only [withinSecond_iff]
  rcases lt_or_ge (-2) time with hti | hti
  · refine ⟨fun _ => .inl hti, fun _ d _ => ?_⟩
    have hprod : -(rate : Int) ≤ time * rate := by nlinarith
    have := tmod_bounds (time * rate + d + e) (by omega : 0 < rate)
    rcases le_or_gt 0 (time * rate + d + e) with hn | hn
    · omega
    · rw [tmod_of_nonpos (k := 0) (by omega) (by ring) (by omega) (by omega : -(rate : Int) < time * rate + d + e)]
      omega
  constructor
  · intro h
    by_contra hrm
    have hbad := h (rate - e + 1).toNat (by omega)
    have hd : ((rate - e + 1).toNat : Int) = rate - e + 1 := by omega
    rw [hd, tmod_of_nonpos (k := time + 2) (r := 1 - rate) (by nlinarith) (by ring) (by omega) (by omega)] at hbad
    omega
  · rintro (hnot | hrm) d hd
    · omega
    · rw [tmod_of_nonpos (k := time + 1) (r := d + e - rate) (by nlinarith) (by ring) (by omega) (by omega)]
      omega

theorem withinSecond_small (he : |e| ≤ 1) (hrate : 0 < rate) :
    WithinSecond rate time d ((time * rate + d + e).tdiv rate) := by
  rw [withinSecond_iff]
  rw [abs_le] at he
  have := tmod_bounds (time * rate + d + e) hrate
  omega

end Arithmetic

section Clock

variable {t faults} {rate ctr : Nat} {time old : Int} {s s' : Rtc}

theorem signExtend_bounds (raw : Int) : -2 ^ 47 ≤ signExtend raw ∧ signExtend raw < 2 ^ 47 :=
  ⟨le_bmod (by decide), bmod_lt (by decide)⟩

theorem signExtend_of_bounds {off : Int} (hlow : -2 ^ 47 ≤ off) (hhi : off < 2 ^ 47) : signExtend off = off := by
  rw [signExtend, bmod_def]
  split <;> omega

theorem rtcSetTime_offset (hload : s.offset = loadedOffset s.values) (hok : rtcSetTime t faults ctr time s = (.ok (), s')) :
    s'.offset = loadedOffset s'.values ∧
      ((|signExtend (time * s.rate - ctr) - s.offset| < (s.rate / 4 : Nat) ∧ s'.offset = s.offset) ∨
        (¬ |signExtend (time * s.rate - ctr) - s.offset| < (s.rate / 4 : Nat) ∧
          s'.offset = signExtend (time * s.rate - ctr))) := by
  rw [rtcSetTime, rtcWriteOffset] at hok
  split at hok
  · next hsm =>
    cases hok
    exact ⟨hload, .inl ⟨hsm, rfl⟩⟩
  next hlg =>
    rw [Rtc.access, Command.zoom, writeRtcKey] at hok
    rcases writeKey_cases t faults RTC_OFFSET (leBytes RTC_BYTES (signExtend (time * s.rate - ctr) % 2 ^ 64).toNat) s.values
      with ⟨-, hwr⟩ | ⟨-, e, hwr⟩
    · rw [hwr] at hok
      cases hok
      refine ⟨?_, .inr ⟨hlg, rfl⟩⟩
      have hboun := signExtend_bounds (time * s.rate - ctr)
      dsimp only
      rw [loadedOffset, Function.update_self, ofLe_leBytes_mod]
      generalize signExtend (time * s.rate - ctr) = off at hboun
      rw [signExtend, bmod_def, RTC_BYTES]
      split <;> omega
    · rw [hwr] at hok
      cases hok

/-- A rate that is no `s32`: the driver divides by a negative number, and no time after the first is reached. -/
theorem not_withinSecond_of_large (hlg : 2 ^ 31 ≤ rate) (hrate : rate < 2 ^ 32) (hctr : ctr < 2 ^ 48)
    (hmin : rangeMin rate ≤ time) {offset : Int} (hoffs : -2 ^ 47 ≤ offset) :
    ∃ d : Nat, ctr + d < 2 ^ 48 ∧ ¬ WithinSecond rate time d (rtcReadTime (ctr + d) offset rate) := by
  have hneg : (rate : Int).bmod (2 ^ 32) = -(2 ^ 32 - rate) := by
    rw [Int.bmod_def]
    split <;> omega
  have hdiv (x : Int) : divS64 x rate = -(x.tdiv (2 ^ 32 - rate)) := by rw [divS64, hneg, Int.tdiv_neg]
  have hq : (0 : Int) < 2 ^ 32 - rate := by omega
  rw [rangeMin, hdiv, Int.neg_tdiv, neg_neg] at hmin
  have hbig : 2 ^ 16 ≤ (2 ^ 47 : Int).tdiv (2 ^ 32 - rate) := by
    rw [Int.tdiv_eq_ediv_of_nonneg (by decide)]
    exact Int.le_ediv_of_mul_le hq (by omega)
  have hnow (x : Int) (hx : -2 ^ 47 ≤ x) : divS64 x rate ≤ (2 ^ 47 : Int).tdiv (2 ^ 32 - rate) := by
    have := Int.tdiv_le_tdiv hq hx
    rw [Int.neg_tdiv] at this
    rw [hdiv]
    omega
  generalize (2 ^ 47 : Int).tdiv (2 ^ 32 - rate) = first at hmin hbig hnow
  simp only [WithinSecond, abs_le, not_and_or, not_le, rtcReadTime]
  by_cases hrm : ctr + 2 * rate < 2 ^ 48
  · refine ⟨2 * rate, hrm, .inl ?_⟩
    have hlate := hnow ((ctr + 2 * rate : Nat) + offset) (by omega)
    generalize divS64 ((ctr + 2 * rate : Nat) + offset) rate = now at hlate
    push_cast
    nlinarith
  refine ⟨0, by omega, .inl ?_⟩
  have hlate : divS64 ((ctr + 0 : Nat) + offset) rate ≤ 0 := by
    rw [hdiv, Left.neg_nonpos_iff]
    exact Int.tdiv_nonneg (by omega) hq.le
  generalize divS64 ((ctr + 0 : Nat) + offset) rate = now at hlate
  nlinarith

theorem divS64_of_lt (hsm : rate < 2 ^ 31) (x : Int) : divS64 x rate = x.tdiv rate := by
  have hs32 : (rate : Int).bmod (2 ^ 32) = rate := by
    rw [bmod_def]
    split <;> omega
  rw [divS64, hs32]

theorem mul_rate_bounds (hrate : 0 < rate) (hsm : rate < 2 ^ 31) (hmin : rangeMin rate ≤ time)
    (hmax : time ≤ rangeMax rate) : -2 ^ 47 ≤ time * rate ∧ time * rate < 2 ^ 47 := by
  rw [rangeMin, divS64_of_lt hsm] at hmin
  rw [rangeMax, divS64_of_lt hsm] at hmax
  have hlow := mul_tdiv_add_tmod (-2 ^ 47) rate
  have hhi := mul_tdiv_add_tmod (2 ^ 47 - 1) rate
  have hlow' := (tmod_bounds (-2 ^ 47) hrate).2.2.2 (by decide)
  have hhi' := (tmod_bounds (2 ^ 47 - 1) hrate).2.2.1 (by decide)
  have hquot : 0 ≤ (2 ^ 47 - 1 : Int).tdiv rate := Int.tdiv_nonneg (by decide) (by omega)
  generalize (2 ^ 47 - 1 : Int).tdiv rate = last at hmax hhi hquot
  have hla : last % 2 ^ 64 ≤ last := by omega
  exact ⟨by nlinarith, by nlinarith⟩

theorem withinSecond_offset (hsm : rate < 2 ^ 31) (hrate : 0 < rate) (hctr : ctr < 2 ^ 48)
    (hlow : -2 ^ 47 ≤ time * rate) (hhi : time * rate < 2 ^ 47) {offset : Int}
    (hcas : (|signExtend (time * rate - ctr) - old| < (rate / 4 : Nat) ∧ offset = old) ∨
      (¬ |signExtend (time * rate - ctr) - old| < (rate / 4 : Nat) ∧ offset = signExtend (time * rate - ctr))) :
    (∀ d : Nat, ctr + d < 2 ^ 48 →
      WithinSecond rate time d ((time * rate + d + (offset - (time * rate - ctr))).tdiv rate)) ↔
    Settable rate time ctr old := by
  rw [Settable]
  rcases le_or_gt (-2 ^ 47) (time * rate - ctr) with hft | hwraps
  · rw [signExtend_of_bounds hft (by omega), abs_sub_comm] at hcas
    rcases hcas with ⟨hclose, rfl⟩ | ⟨hfar, rfl⟩
    · generalize hoff : offset - (time * rate - ctr) = e at hclose ⊢
      rw [abs_lt] at hclose
      have hfour : ¬ (rate / 4 ≤ |e|) := by
        rw [not_le, abs_lt]
        omega
      simp only [hsm, hft, hfour, true_and, false_or]
      by_cases hone : |e| ≤ 1
      · exact ⟨fun _ => .inl hone, fun _ d _ => withinSecond_small hone hrate⟩
      rw [abs_le] at hone
      rcases lt_or_gt_of_ne (show e ≠ 0 by omega) with hneg | hpos
      · rw [withinSecond_late (by omega) (by omega)]
        simp [abs_le, hone, hneg, hneg.not_gt]
      · rw [withinSecond_early (by omega) (by omega)]
        simp [abs_le, hone, hpos, hpos.not_gt]
    · refine ⟨fun _ => ⟨hsm, hft, .inl (by omega)⟩, fun _ d _ => ?_⟩
      exact withinSecond_small (by simp) hrate
  have hext : signExtend (time * rate - ctr) = time * rate - ctr + 2 ^ 48 := by
    rw [signExtend, bmod_def]
    split <;> omega
  refine ⟨fun h => ?_, fun h => absurd h.2.1 (by omega)⟩
  have hfst := h 0 (by omega)
  have htmod := tmod_bounds (time * rate + (0 : Nat) + (offset - (time * rate - ctr))) hrate
  rw [withinSecond_iff] at hfst
  rw [hext, abs_lt] at hcas
  omega

end Clock

/-- A time that was set with success is read back, by this driver and by one that is loaded anew, exactly if it is
settable. -/
theorem rtc_reads_back {t : KeyTable} {faults : Faults} {s s' : Rtc} {ctr : Nat} {time : Int} (hrate : 0 < s.rate)
    (hu32 : s.rate < 2 ^ 32) (hctr : ctr < 2 ^ 48) (hmin : rangeMin s.rate ≤ time) (hmax : time ≤ rangeMax s.rate)
    (hloaded : s.offset = loadedOffset s.values) (hok : rtcSetTime t faults ctr time s = (.ok (), s')) :
    (∀ d : Nat, ctr + d < 2 ^ 48 → WithinSecond s.rate time d (rtcReadTime (ctr + d) s'.offset s.rate) ∧
      WithinSecond s.rate time d (rtcReadTime (ctr + d) (loadedOffset s'.values) s.rate)) ↔
    Settable s.rate time ctr s.offset := by
  obtain ⟨hrel, hcas⟩ := rtcSetTime_offset hloaded hok
  simp only [← hrel, and_self]
  rcases Nat.lt_or_ge s.rate (2 ^ 31) with hsm | hlg
  · obtain ⟨hlow, hhi⟩ := mul_rate_bounds hrate hsm hmin hmax
    rw [← withinSecond_offset hsm hrate hctr hlow hhi hcas]
    have hsum (d : Nat) : ((ctr + d : Nat) : Int) + s'.offset = time * s.rate + d + (s'.offset - (time * s.rate - ctr)) := by
      push_cast
      ring
    simp only [rtcReadTime, divS64_of_lt hsm, hsum]
  have hboun : -2 ^ 47 ≤ s'.offset := by
    rw [hrel]
    exact (signExtend_bounds _).1
  obtain ⟨d, hd, hnot⟩ := not_withinSecond_of_large hlg hu32 hctr hmin hboun
  exact ⟨fun h => absurd (h d hd) hnot, fun h => absurd h.1 (by omega)⟩

def rtcTable : KeyTable where
  keys := [⟨RTC_OFFSET, 6, [104, 101, 120, 95], 0⟩]
  four := by decide
  noNul := by decide
  sorted := by decide

/-- A clock of the default rate, with an offset of zero. -/
def plainClock : Rtc where
  values _ := [0, 0, 0, 0, 0, 0]
  offset := 0
  rate := 2 ^ 15

/-- The first of January 2001, with the counter at one second. -/
theorem rtc_reads_back_2001 : ∃ s', rtcSetTime rtcTable noFaults (2 ^ 15) 978307200 plainClock = (.ok (), s') ∧
      WithinSecond (2 ^ 15) 978307200 (2 ^ 15) (rtcReadTime (2 ^ 15 + 2 ^ 15) s'.offset (2 ^ 15)) := by
  have hok : rtcSetTime rtcTable noFaults (2 ^ 15) 978307200 plainClock =
      (.ok (), (rtcSetTime rtcTable noFaults (2 ^ 15) 978307200 plainClock).2) := rfl
  have hset : Settable (2 ^ 15) 978307200 (2 ^ 15) 0 := ⟨by decide, by decide, .inl (by decide)⟩
  exact ⟨_, hok, ((rtc_reads_back (by decide) (by decide) (by decide) (by decide) (by decide) (by decide) hok).2
    hset (2 ^ 15) (by decide)).1⟩

/-- The first of January 1970, with the counter at a little more than half of its range: 272 years are read. -/
theorem rtc_offset_wraps :
    ∃ s', rangeMin (2 ^ 15) ≤ 0 ∧ 0 ≤ rangeMax (2 ^ 15) ∧ plainClock.offset = loadedOffset plainClock.values ∧
      rtcSetTime rtcTable noFaults (2 ^ 47 + 1) 0 plainClock = (.ok (), s') ∧
      ¬ WithinSecond (2 ^ 15) 0 0 (rtcReadTime (2 ^ 47 + 1 + 0) s'.offset (2 ^ 15)) := by
  refine ⟨_, by decide, by decide, by decide, rfl, ?_⟩
  rw [WithinSecond]
  decide

end KaiT2en.Smc
