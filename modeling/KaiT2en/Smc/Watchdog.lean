import KaiT2en.Lib.Calls
import KaiT2en.Smc.Access

/-!
# The watchdog of the SMC

The SMC restarts the machine when the timer of `OSWD` runs out, or on older firmware that of `NATi` if `NATJ` is 2.
The watchdog core starts, stops and pings, and the PM core suspends and resumes the driver. A timeout above the limit
of the hardware makes the core ping from a worker, which is not frozen for a sleep.

On older firmware to arm and to disarm are two commands. `Sound` says which of them must not fail alone, and that with
`OSWD` no ping comes during a sleep.
-/

namespace KaiT2en.Smc

open KaiT2en.Kernel KaiT2en.Lib.Bytes KaiT2en.Lib.Stateful KaiT2en.Lib.Calls Command Except

def WDT_TIMER : List UInt8 := [79, 83, 87, 68]

def WDT_LEGACY_TIMER : List UInt8 := [78, 65, 84, 105]

def WDT_LEGACY_MODE : List UInt8 := [78, 65, 84, 74]

def WDT_LEGACY_RESTART : Nat := 2

def WDT_HW_MAX_TIMEOUT : Nat := 255

variable (t : KeyTable) (faults : Faults)

def hasOswd : Bool := (t.find WDT_TIMER).isSome

def wdtTimer : List UInt8 := if hasOswd t then WDT_TIMER else WDT_LEGACY_TIMER

def wdtPing (timeout : Nat) : Access Unit := writeUint t faults (wdtTimer t) (min timeout WDT_HW_MAX_TIMEOUT)

def wdtArm (timeout : Nat) : Access Unit := do
  wdtPing t faults timeout
  if hasOswd t then pure () else writeUint t faults WDT_LEGACY_MODE WDT_LEGACY_RESTART

def wdtDisarm : Access Unit :=
  if hasOswd t then writeUint t faults WDT_TIMER 0
  else do
    writeUint t faults WDT_LEGACY_MODE 0
    writeUint t faults WDT_LEGACY_TIMER 0

/-- The SMC, the fields of the driver, whether the core has the watchdog active, and whether the driver is suspended. -/
structure Watchdog where
  values : Values
  timeout : Nat
  active : Bool
  wdtSuspended : Bool
  asleep : Bool

namespace Watchdog

def access (x : Access Unit) (s : Watchdog) : Except Failure Unit × Watchdog :=
  zoom (·.values) (fun values s => { s with values }) x s

variable (s : Watchdog)

def wdtStart : Except Failure Unit × Watchdog := s.access (wdtArm t faults s.timeout)

def wdtStop : Except Failure Unit × Watchdog := s.access (wdtDisarm t faults)

def wdtSetTimeout (timeout : Nat) (s : Watchdog) : Except Failure Unit × Watchdog :=
  if s.active then { s with timeout }.access (wdtPing t faults timeout) else (.ok (), { s with timeout })

/-- The watchdog's part of `t2smc_suspend`. -/
def suspend : Except Failure Unit × Watchdog :=
  if s.active then
    match s.wdtStop t faults with
    | (.ok _, s) => (.ok (), { s with wdtSuspended := true })
    | (.error e, s) => (.error e, s)
  else (.ok (), s)

/-- The watchdog's part of `t2smc_resume`. -/
def resume : Except Failure Unit × Watchdog :=
  if s.wdtSuspended then { s with wdtSuspended := false }.wdtStart t faults else (.ok (), s)

end Watchdog

/-- A call of the watchdog core or of the PM core, with the commands that fail in it. -/
inductive WdtCall
  | start (faults : Faults)
  | stop (faults : Faults)
  | ping (faults : Faults)
  | setTimeout (timeout : Nat) (faults : Faults)
  | suspend (faults : Faults)
  | resume (faults : Faults)

/-- The call and what its core does after it. -/
def wdtCall : WdtCall → Watchdog → Except Failure Unit × Watchdog
  | .start faults, s =>
    let r := s.wdtStart t faults
    (r.1, { r.2 with active := r.1.isOk })
  | .stop faults, s =>
    let r := s.wdtStop t faults
    (r.1, { r.2 with active := !r.1.isOk })
  | .ping faults, s => s.access (wdtPing t faults s.timeout)
  | .setTimeout timeout faults, s => s.wdtSetTimeout t faults timeout
  | .suspend faults, s =>
    let r := s.suspend t faults
    (r.1, { r.2 with asleep := r.1.isOk })
  | .resume faults, s =>
    let r := s.resume t faults
    (r.1, { r.2 with asleep := false })

/-- The number in the timer. -/
def timerOf (values : Values) : Nat := ofBe (values (wdtTimer t))

/-- The machine is restarted on expiry. -/
def Armed (values : Values) : Prop :=
  timerOf t values ≠ 0 ∧ (hasOswd t = true ∨ ofBe (values WDT_LEGACY_MODE) = WDT_LEGACY_RESTART)

/-- The driver is loaded with a watchdog that is not armed. The cores start what is not active and stop what is, and
during a sleep only the worker of the watchdog core is left. -/
def wdtComponent : Component Watchdog WdtCall (Except Failure Unit) where
  init s := 1 ≤ s.timeout ∧ ¬ Armed t s.values ∧ s.active = false ∧ s.wdtSuspended = false ∧ s.asleep = false
  can s
    | .start _ => !s.active && !s.asleep
    | .stop _ => s.active && !s.asleep
    | .ping _ => s.active && (!s.asleep || WDT_HW_MAX_TIMEOUT < s.timeout)
    | .setTimeout timeout _ => 1 ≤ timeout && !s.asleep
    | .suspend _ => !s.asleep
    | .resume _ => s.asleep
  perform := wdtCall t

def WdtCall.disarms : WdtCall → Bool
  | .stop _ | .suspend _ => true
  | _ => false

/-- What a call is to leave. -/
def ArmedRight (s : Watchdog) (call : WdtCall) (r : Except Failure Unit × Watchdog) : Prop :=
  (r.1.isOk = true → (Armed t r.2.values ↔ r.2.active = true ∧ r.2.wdtSuspended = false) ∧
    (Armed t r.2.values → timerOf t r.2.values = min r.2.timeout WDT_HW_MAX_TIMEOUT)) ∧
  (r.1.isOk = false → call.disarms = true → Armed t s.values → Armed t r.2.values)

/-- With `OSWD` no ping comes during a sleep. On older firmware the second command of a stop does not fail after the
first, and to arm again after a sleep does not fail. -/
def Sound (s : Watchdog) : WdtCall → Prop
  | .start faults => hasOswd t = true ∨ ofBe (s.values WDT_LEGACY_MODE) ≠ WDT_LEGACY_RESTART ∨
      uintWritable t faults WDT_LEGACY_MODE = true
  | .stop faults => hasOswd t = true ∨ uintWritable t faults WDT_LEGACY_MODE = false ∨
      uintWritable t faults WDT_LEGACY_TIMER = true
  | .ping _ => s.asleep = true → hasOswd t = false
  | .setTimeout _ _ => True
  | .suspend faults => s.active = true → hasOswd t = true ∨ uintWritable t faults WDT_LEGACY_MODE = false ∨
      uintWritable t faults WDT_LEGACY_TIMER = true
  | .resume faults => s.wdtSuspended = true → hasOswd t = true ∨
      uintWritable t faults WDT_LEGACY_TIMER = true ∧ uintWritable t faults WDT_LEGACY_MODE = true

/-! ## The commands -/

section Commands

variable {t faults} {values : Values} {timeout : Nat}

/-- A number of one byte is stored, and the other keys stay; or the write fails. -/
theorem writeUint_byte {key : List UInt8} {val : Nat} (hval : val < 256) (values : Values) :
    (uintWritable t faults key ∧ ∃ values', writeUint t faults key val values = (.ok (), values') ∧
      ofBe (values' key) = val ∧ ∀ k ≠ key, values' k = values k) ∨
    (uintWritable t faults key = false ∧ ∃ e, writeUint t faults key val values = (.error e, values)) := by
  rcases writeUint_cases t faults key val values with ⟨hwr, len, hpos, -, hok⟩ | ⟨hwr, e, herr⟩
  · refine .inl ⟨hwr, _, hok, ?_, fun k hk => Function.update_of_ne hk _ _⟩
    rw [Function.update_self]
    exact ofBe_beBytes (lt_of_lt_of_le hval (Nat.le_self_pow hpos.ne' 256))
  · exact .inr ⟨hwr, _, herr⟩

variable (t : KeyTable) (faults : Faults)

theorem mode_ne_timer : WDT_LEGACY_MODE ≠ wdtTimer t := by
  rw [wdtTimer]
  split <;> decide

theorem wdtPing_cases (timeout : Nat) (values : Values) :
    (uintWritable t faults (wdtTimer t) ∧ ∃ values', wdtPing t faults timeout values = (.ok (), values') ∧
      timerOf t values' = min timeout WDT_HW_MAX_TIMEOUT ∧ values' WDT_LEGACY_MODE = values WDT_LEGACY_MODE) ∨
    (uintWritable t faults (wdtTimer t) = false ∧ ∃ e, wdtPing t faults timeout values = (.error e, values)) := by
  have hbt : min timeout WDT_HW_MAX_TIMEOUT < 256 := Nat.lt_succ_of_le (Nat.min_le_right _ _)
  rcases writeUint_byte hbt values with ⟨hwr, values', hok, hnum, hfr⟩ | herr
  · exact .inl ⟨hwr, values', hok, hnum, hfr _ (mode_ne_timer t)⟩
  · exact .inr herr

theorem wdtArm_cases (timeout : Nat) (values : Values) :
    (∃ values', wdtArm t faults timeout values = (.ok (), values') ∧ timerOf t values' = min timeout WDT_HW_MAX_TIMEOUT ∧
      (hasOswd t ∨ ofBe (values' WDT_LEGACY_MODE) = WDT_LEGACY_RESTART)) ∨
    ∃ e values', wdtArm t faults timeout values = (.error e, values') ∧
      values' WDT_LEGACY_MODE = values WDT_LEGACY_MODE ∧
      ((values' = values ∧ uintWritable t faults (wdtTimer t) = false) ∨
        hasOswd t = false ∧ uintWritable t faults WDT_LEGACY_MODE = false) := by
  rw [wdtArm]
  rcases wdtPing_cases t faults timeout values with ⟨-, values', hok, htim, hmd⟩ | ⟨hwr, e, herr⟩
  · rw [bind_of_ok hok]
    cases hoswd : hasOswd t with
    | true => exact .inl ⟨values', rfl, htim, .inl rfl⟩
    | false =>
      rcases writeUint_byte (show WDT_LEGACY_RESTART < 256 by decide) values' with
        ⟨-, values'', hok, hnum, hfr⟩ | ⟨hwr, e, herr⟩
      · refine .inl ⟨values'', hok, ?_, .inr hnum⟩
        rw [timerOf, hfr _ (mode_ne_timer t).symm]
        exact htim
      · exact .inr ⟨e, values', herr, hmd, .inr ⟨rfl, hwr⟩⟩
  · rw [bind_of_error herr]
    exact .inr ⟨e, values, rfl, rfl, .inl ⟨rfl, hwr⟩⟩

theorem wdtDisarm_cases (values : Values) :
    (∃ values', wdtDisarm t faults values = (.ok (), values') ∧
      if hasOswd t then timerOf t values' = 0 else ofBe (values' WDT_LEGACY_MODE) = 0) ∨
    ∃ e values', wdtDisarm t faults values = (.error e, values') ∧
      (values' = values ∨ hasOswd t = false ∧ uintWritable t faults WDT_LEGACY_MODE ∧
        uintWritable t faults WDT_LEGACY_TIMER = false) := by
  rw [wdtDisarm]
  cases hoswd : hasOswd t with
  | true =>
    have htim : wdtTimer t = WDT_TIMER := if_pos hoswd
    simp only [if_pos, timerOf, htim]
    rcases writeUint_byte (show 0 < 256 by decide) values with ⟨-, values', hok, hnum, -⟩ | ⟨-, e, herr⟩
    · exact .inl ⟨values', hok, hnum⟩
    · exact .inr ⟨e, values, herr, .inl rfl⟩
  | false =>
    rw [if_neg Bool.false_ne_true]
    rcases writeUint_byte (show 0 < 256 by decide) values with ⟨hmd, values', hok, hnum, -⟩ | ⟨-, e, herr⟩
    · rw [bind_of_ok hok]
      rcases writeUint_byte (show 0 < 256 by decide) values' with ⟨-, values'', hok, -, hfr⟩ | ⟨hwr, e, herr⟩
      · refine .inl ⟨values'', hok, ?_⟩
        rw [if_neg Bool.false_ne_true, hfr _ (by decide), hnum]
      · exact .inr ⟨e, values', herr, .inr ⟨rfl, hmd, hwr⟩⟩
    · rw [bind_of_error herr]
      exact .inr ⟨e, values, rfl, .inl rfl⟩

end Commands

/-! ## Armed as it should be -/

/-- What every call leaves, failed or not. After a resume that fails the watchdog is active and may not be armed; with
`OSWD` the next ping arms it. -/
structure WdtAgrees (s : Watchdog) : Prop where
  positive : 1 ≤ s.timeout
  armed : Armed t s.values → s.active = true ∧ s.wdtSuspended = false
  legacy : hasOswd t = false → s.active = true → s.wdtSuspended = false → Armed t s.values
  mode : hasOswd t = false → s.wdtSuspended = true → ofBe (s.values WDT_LEGACY_MODE) ≠ WDT_LEGACY_RESTART
  asleep : s.asleep = true → s.active = true → s.wdtSuspended = true
  suspended : s.wdtSuspended = true → s.asleep = true ∧ s.active = true

section Agreement

variable {t faults} {s : Watchdog}

theorem armed_of_timer {values : Values} {timeout : Nat} (hpos : 1 ≤ timeout)
    (htim : timerOf t values = min timeout WDT_HW_MAX_TIMEOUT)
    (hmd : hasOswd t ∨ ofBe (values WDT_LEGACY_MODE) = WDT_LEGACY_RESTART) : Armed t values :=
  ⟨by rw [htim]; exact (lt_min hpos (by decide : 0 < WDT_HW_MAX_TIMEOUT)).ne', hmd⟩

/-- A call keeps the agreement and leaves the watchdog as it should be. -/
def WdtKeeps (t : KeyTable) (s : Watchdog) (call : WdtCall) : Prop :=
  (wdtComponent t).can s call = true → Sound t s call → WdtAgrees t s →
    WdtAgrees t (wdtCall t call s).2 ∧ ArmedRight t s call (wdtCall t call s)

variable (faults : Faults)

theorem keeps_start : WdtKeeps t s (.start faults) := by
  rintro hcan hsnd ⟨hpos, harmed, hleg, hmd, hasl, hsus⟩
  simp only [wdtComponent, Sound] at hcan hsnd
  rw [wdtCall, Watchdog.wdtStart, Watchdog.access, zoom]
  rcases wdtArm_cases t faults s.timeout s.values with ⟨values', hok, hset, hnum⟩ | ⟨e, values', herr, hsa, hwhy⟩
  · have hnew := armed_of_timer hpos hset hnum
    refine ⟨⟨hpos, ?_, ?_, ?_, ?_, ?_⟩, ?_⟩ <;> grind [Except.toBool, ArmedRight]
  · have hnot : ¬ Armed t values' := by grind [Armed]
    refine ⟨⟨hpos, ?_, ?_, ?_, ?_, ?_⟩, ?_⟩ <;> grind [Except.toBool, ArmedRight]

theorem keeps_stop : WdtKeeps t s (.stop faults) := by
  rintro hcan hsnd ⟨hpos, harmed, hleg, hmd, hasl, hsus⟩
  simp only [wdtComponent, Sound] at hcan hsnd
  rw [wdtCall, Watchdog.wdtStop, Watchdog.access, zoom]
  rcases wdtDisarm_cases t faults s.values with ⟨values', hok, hz⟩ | ⟨e, values', herr, hwhy⟩
  · have hnot : ¬ Armed t values' := by grind [Armed, WDT_LEGACY_RESTART]
    refine ⟨⟨hpos, ?_, ?_, ?_, ?_, ?_⟩, ?_⟩ <;> grind [Except.toBool, ArmedRight]
  · refine ⟨⟨hpos, ?_, ?_, ?_, ?_, ?_⟩, ?_⟩ <;> grind [Except.toBool, ArmedRight]

theorem keeps_ping : WdtKeeps t s (.ping faults) := by
  rintro hcan hsnd ⟨hpos, harmed, hleg, hmd, hasl, hsus⟩
  simp only [wdtComponent, Sound] at hcan hsnd
  rw [wdtCall, Watchdog.access, zoom]
  rcases wdtPing_cases t faults s.timeout s.values with ⟨-, values', hok, hset, hsa⟩ | ⟨-, e, herr⟩
  · have hnew : Armed t values' ↔ s.active ∧ s.wdtSuspended = false := by
      have := armed_of_timer hpos hset
      grind [Armed]
    rw [hok]
    refine ⟨⟨hpos, ?_, ?_, ?_, ?_, ?_⟩, ?_⟩ <;> grind [ArmedRight]
  · rw [herr]
    exact ⟨⟨hpos, harmed, hleg, hmd, hasl, hsus⟩, nofun, nofun⟩

theorem keeps_setTimeout (timeout : Nat) (faults : Faults) : WdtKeeps t s (.setTimeout timeout faults) := by
  rintro hcan hsnd ⟨hpos, harmed, hleg, hmd, hasl, hsus⟩
  simp only [wdtComponent, Sound] at hcan hsnd
  have hpos' : 1 ≤ timeout := by grind
  rw [wdtCall, Watchdog.wdtSetTimeout]
  split
  · rw [Watchdog.access, zoom]
    rcases wdtPing_cases t faults timeout s.values with ⟨-, values', hok, hset, hsa⟩ | ⟨-, e, herr⟩
    · have hnew : Armed t values' := armed_of_timer hpos' hset (by grind [Armed])
      refine ⟨⟨hpos', ?_, ?_, ?_, ?_, ?_⟩, ?_⟩ <;> grind [ArmedRight]
    · rw [herr]
      exact ⟨⟨hpos', harmed, hleg, hmd, hasl, hsus⟩, nofun, nofun⟩
  · refine ⟨⟨hpos', harmed, hleg, hmd, hasl, hsus⟩, ?_⟩
    grind [ArmedRight]

theorem keeps_suspend : WdtKeeps t s (.suspend faults) := by
  rintro hcan hsnd ⟨hpos, harmed, hleg, hmd, hasl, hsus⟩
  simp only [wdtComponent, Sound] at hcan hsnd
  rw [wdtCall, Watchdog.suspend, Watchdog.wdtStop, Watchdog.access, zoom]
  split
  · rcases wdtDisarm_cases t faults s.values with ⟨values', hok, hz⟩ | ⟨e, values', herr, hwhy⟩
    · have hnot : ¬ Armed t values' := by grind [Armed, WDT_LEGACY_RESTART]
      rw [hok]
      refine ⟨⟨hpos, ?_, ?_, ?_, ?_, ?_⟩, ?_⟩ <;> grind [Except.toBool, ArmedRight, WDT_LEGACY_RESTART]
    · have hsa : values' = s.values := by grind
      rw [herr, hsa]
      refine ⟨⟨hpos, ?_, ?_, ?_, ?_, ?_⟩, ?_⟩ <;> grind [Except.toBool, ArmedRight]
  · refine ⟨⟨hpos, ?_, ?_, ?_, ?_, ?_⟩, ?_⟩ <;> grind [ArmedRight]

theorem keeps_resume : WdtKeeps t s (.resume faults) := by
  rintro hcan hsnd ⟨hpos, harmed, hleg, hmd, hasl, hsus⟩
  have htim : hasOswd t = false → wdtTimer t = WDT_LEGACY_TIMER := fun h => if_neg (by simp [h])
  simp only [wdtComponent, Sound] at hcan hsnd
  rw [wdtCall, Watchdog.resume, Watchdog.wdtStart, Watchdog.access, zoom]
  split
  · rcases wdtArm_cases t faults s.timeout s.values with ⟨values', hok, hset, hnum⟩ | ⟨e, values', herr, hsa, hwhy⟩
    · have hnew := armed_of_timer hpos hset hnum
      refine ⟨⟨hpos, ?_, ?_, ?_, ?_, ?_⟩, ?_⟩ <;> grind [ArmedRight]
    · refine ⟨⟨hpos, ?_, ?_, ?_, ?_, ?_⟩, ?_⟩ <;> grind [Except.toBool, ArmedRight]
  · refine ⟨⟨hpos, ?_, ?_, ?_, ?_, ?_⟩, ?_⟩ <;> grind [ArmedRight]

theorem wdtCall_agrees (call : WdtCall) : WdtKeeps t s call := by
  cases call with
  | start faults => exact keeps_start faults
  | stop faults => exact keeps_stop faults
  | ping faults => exact keeps_ping faults
  | setTimeout timeout faults => exact keeps_setTimeout timeout faults
  | suspend faults => exact keeps_suspend faults
  | resume faults => exact keeps_resume faults

end Agreement

/-- In every sound run every call leaves the watchdog armed exactly if it should be. -/
theorem watchdog_armed_right {t : KeyTable} {s : Watchdog} {call : WdtCall}
    (h : (wdtComponent t).machine.Reach (Sound t) s) (hcan : (wdtComponent t).can s call = true)
    (hsound : Sound t s call) : ArmedRight t s call (wdtCall t call s) := by
  refine Component.after_call (C := wdtComponent t) (I := WdtAgrees t) (P := ArmedRight t) ?_ ?_ h hcan hsound
  · rintro s ⟨hpos, hnot, hact, hsus, hasl⟩
    constructor <;> simp_all
  · exact fun s call => wdtCall_agrees call

def legacyTable : KeyTable where
  keys := [⟨WDT_LEGACY_MODE, 1, [117, 105, 56, 32], 0⟩, ⟨WDT_LEGACY_TIMER, 1, [117, 105, 56, 32], 0⟩]
  four := by decide
  noNul := by decide
  sorted := by decide

/-- A watchdog of 60 seconds that is not active. -/
def idleWatchdog : Watchdog where
  values _ := [0]
  timeout := 60
  active := false
  wdtSuspended := false
  asleep := false

theorem idleWatchdog_init : (wdtComponent legacyTable).init idleWatchdog := ⟨by decide, fun h => h.1 rfl, rfl, rfl, rfl⟩

/-- A watchdog of older firmware is started, and its timeout is changed. -/
theorem watchdog_armed_right_started :
    ∃ s, (wdtComponent legacyTable).machine.Reach (Sound legacyTable) s ∧ s.active = true ∧
      ArmedRight legacyTable s (.setTimeout 600 noFaults) (wdtCall legacyTable (.setTimeout 600 noFaults) s) := by
  have hre : (wdtComponent legacyTable).machine.Reach (Sound legacyTable)
      (wdtCall legacyTable (.start noFaults) idleWatchdog).2 :=
    Component.reach_call (.init idleWatchdog_init) rfl (.inr (.inl (by decide)))
  exact ⟨_, hre, rfl, watchdog_armed_right hre rfl trivial⟩

/-- A watchdog of older firmware is to be stopped, and the second command fails: the stop returns an error, and the
watchdog is not armed any more. -/
theorem watchdog_disarmed_by_failure : ∃ s faults, (wdtComponent legacyTable).machine.Reachable s ∧
      (wdtComponent legacyTable).can s (.stop faults) = true ∧
      ¬ ArmedRight legacyTable s (.stop faults) (wdtCall legacyTable (.stop faults) s) := by
  have hre : (wdtComponent legacyTable).machine.Reachable (wdtCall legacyTable (.start noFaults) idleWatchdog).2 :=
    Component.reach_call (.init idleWatchdog_init) rfl trivial
  refine ⟨_, fun op key => op = .write ∧ key = WDT_LEGACY_TIMER, hre, rfl, ?_⟩
  rintro ⟨-, herr⟩
  have hlf : Armed legacyTable (wdtCall legacyTable (.stop fun op key => op = .write ∧ key = WDT_LEGACY_TIMER)
      (wdtCall legacyTable (.start noFaults) idleWatchdog).2).2.values := herr rfl rfl ⟨by decide, .inr (by decide)⟩
  exact absurd hlf.2 (by decide)

end KaiT2en.Smc
