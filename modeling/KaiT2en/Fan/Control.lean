import KaiT2en.Fan.Curve
import KaiT2en.Fan.Sysfs
import KaiT2en.Lib.Transition
import Mathlib.Data.Rat.Floor

/-!
# The fan controller

`control.rs` and the daemon of `main.rs` of `t2-fan-control`. A control tick reads the sensors and decides how fast
the fans are to be. If one of three protections asks for it, the fans are set to 100 percent at once; otherwise a ramp
moves them by one percent. The controller remembers the percentage that it last set on all fans and does not write it
again.

A write that fails stops `apply`, with the earlier fans changed and the old percentage still remembered. If that is
100, a later tick that has to force full speed writes nothing (`half_applied_ramp_believed`). `forced_tick_runs_full`
needs that memory and fans agree at 100 percent (`Remembers`), which only a call that fails after its first fan can
end.
-/

namespace KaiT2en.Fan

open KaiT2en.Lib.Transition Option FanEndpoint

/-! ## All fans -/

/-- A loop over the fans that ends with the first error. There is no result where a round panics. -/
def forFans (round : FanEndpoint → (File → Bool) → Option (Except IoError FanEndpoint)) :
    (Nat → File → Bool) → List FanEndpoint → Option (List FanEndpoint × Except IoError Unit)
  | _, [] => some ([], .ok ())
  | accepts, fan :: fans =>
    match round fan (accepts 0) with
    | none => none
    | some (.error e) => some (fan :: fans, .error e)
    | some (.ok changed) => (forFans round (fun i => accepts (i + 1)) fans).map fun r => (changed :: r.1, r.2)

section ForFans

variable {round : FanEndpoint → (File → Bool) → Option (Except IoError FanEndpoint)}

/-- What every round makes true holds for all fans at the end. -/
theorem forFans_ok {P : FanEndpoint → Prop}
    (hround : ∀ fan accepts changed, round fan accepts = some (.ok changed) → P changed) {fans : List FanEndpoint} :
    ∀ {accepts : Nat → File → Bool} {fans' : List FanEndpoint},
      forFans round accepts fans = some (fans', .ok ()) → ∀ fan ∈ fans', P fan := by
  induction fans with
  | nil => simp [forFans]
  | cons fan fans ih =>
    intro accepts fans' h
    rw [forFans] at h
    split at h
    · cases h
    · cases h
    · next changed hchg =>
        obtain ⟨⟨rest, result⟩, hrs, h⟩ := map_eq_some_iff.1 h
        obtain ⟨rfl, rfl⟩ := Prod.mk.inj h
        exact List.forall_mem_cons.2 ⟨hround _ _ _ hchg, ih hrs⟩

variable {files : FanEndpoint → List File}

section

variable (hround : ∀ fan accepts r, round fan accepts = some r → r.isOk = (files fan).all accepts)
include hround

theorem forFans_allAccept {fans : List FanEndpoint} :
    ∀ {accepts : Nat → File → Bool} {fans' : List FanEndpoint} {result : Except IoError Unit},
      forFans round accepts fans = some (fans', result) → allAccept files accepts fans → result = .ok () := by
  induction fans with
  | nil => grind [forFans]
  | cons fan fans ih =>
    intro accepts fans' result h hall
    rw [allAccept, Bool.and_eq_true] at hall
    rw [forFans] at h
    split at h
    · cases h
    · next e he =>
        have hok := hround _ _ _ he
        rw [hall.1] at hok
        cases hok
    · obtain ⟨⟨rest, result'⟩, hrs, h⟩ := map_eq_some_iff.1 h
      obtain ⟨-, rfl⟩ := Prod.mk.inj h
      exact ih hrs hall.2

theorem forFans_firstRefuses
    {fans fans' : List FanEndpoint} {accepts : Nat → File → Bool} {result : Except IoError Unit}
    (h : forFans round accepts fans = some (fans', result)) (hfst : firstRefuses files accepts fans) :
    fans' = fans := by
  cases fans with
  | nil => cases hfst
  | cons fan fans =>
    rw [firstRefuses, Bool.not_eq_true'] at hfst
    rw [forFans] at h
    split at h
    · cases h
    · exact (congrArg Prod.fst (Option.some.inj h)).symm
    · next changed hchg =>
        have hok := hround _ _ _ hchg
        rw [hfst] at hok
        cases hok

/-- The writes of a loop over the fans do not fail after the first fan. -/
def Undivided (files : FanEndpoint → List File) (accepts : Nat → File → Bool) (fans : List FanEndpoint) : Prop :=
  allAccept files accepts fans = true ∨ firstRefuses files accepts fans = true

/-- A loop that fails and is not divided has changed nothing. -/
theorem forFans_error {fans fans' : List FanEndpoint} {accepts : Nat → File → Bool} {e : IoError}
    (h : forFans round accepts fans = some (fans', .error e)) (hwh : Undivided files accepts fans) :
    fans' = fans := by
  rcases hwh with hall | hfst
  · cases forFans_allAccept hround h hall
  · exact forFans_firstRefuses hround h hfst

end

end ForFans

/-! ## The controller -/

structure AppConfig where
  automaticControlEnabled : Bool
  autostartEnabled : Bool
  soakTempC : UInt8
  systemCoolingTimeS : UInt16
  anySensorEnabled : Bool
  anySensorTempC : UInt8
  curveSensorKey : Option String
  customCurve : List CurvePoint
  deriving DecidableEq

def AppConfig.default : AppConfig where
  automaticControlEnabled := true
  autostartEnabled := false
  soakTempC := 45
  systemCoolingTimeS := 5
  anySensorEnabled := false
  anySensorTempC := 100
  curveSensorKey := none
  customCurve := defaultCurve

def AppConfig.curve (config : AppConfig) : List CurvePoint := config.customCurve

-- Times are in milliseconds.
def CONTROL_INTERVAL : Nat := 2000
def SYSTEM_LIMIT_HYSTERESIS_C : UInt8 := 2
def SYSTEM_STABLE_RELEASE_TIME : Nat := 20000
def RAMP_UP_STEP_INTERVAL : Nat := 100
def RAMP_DOWN_STEP_INTERVAL : Nat := 500
def RAMP_START_THRESHOLD_PERCENT : UInt8 := 3

def saturatingAdd (x y : UInt8) : UInt8 := if x ≤ 255 - y then x + y else 255

def saturatingSub (x y : UInt8) : UInt8 := if y ≤ x then x - y else 0

def absDiff (x y : UInt8) : UInt8 := if x ≤ y then y - x else x - y

def nextThresholdCooling (active : Bool) (tempC : Option UInt8) (engageTempC releaseTempC : UInt8) : Bool :=
  match tempC with
  | none => active
  | some temp => if engageTempC ≤ temp then true else if temp ≤ releaseTempC then false else active

def rampStep (applied goal : UInt8) : UInt8 :=
  if applied < goal then applied + 1 else max (saturatingSub applied 1) goal

/-- `interpolate_percent` with exact arithmetic. -/
def interpolatePercent (curve : List CurvePoint) (tempC : UInt8) : UInt8 :=
  (min ⌊curvePercent curve (tempC.toNat : ℚ) + 1 / 2⌋.toNat 100).toUInt8

structure Controller where
  lastAppliedPercent : Option UInt8
  goalPercent : Option UInt8
  ramping : Bool
  nextRampStep : Nat
  lastTick : Nat
  heatSoakCooling : Bool
  anySensorCooling : Bool
  systemCoolingStartedAt : Option Nat
  systemBelowTargetSince : Option Nat
  deriving DecidableEq

structure ControlSnapshot where
  temperatures : TemperatureSnapshot := {}
  effectiveTempC : Option UInt8 := none
  systemTempC : Option UInt8 := none
  systemSensorCount : Nat := 0
  heatSoakCooling : Bool := false
  anySensorCooling : Bool := false
  targetPercent : Option UInt8 := none
  targetRpmPerFan : List UInt32 := []
  deriving DecidableEq

/-- What the system does during one call: the time, what the sensors read as and which writes succeed, by fan. -/
structure Env where
  now : Nat
  read : Nat → Option UInt8
  accepts : Nat → File → Bool

/-- The controller and the fans after a call, and its result. -/
structure Call (α : Type) where
  controller : Controller
  fans : List FanEndpoint
  result : Except IoError α

/-- `temp > end.temp_c` for the end of the curve, where there are both. -/
def aboveCurve (curve : List CurvePoint) (tempC : Option UInt8) : Bool :=
  tempC.any fun temp => curve.getLast?.any fun last => last.tempC < temp

/-- A protection asks for full speed. -/
def ControlSnapshot.forced (snapshot : ControlSnapshot) (config : AppConfig) : Bool :=
  snapshot.heatSoakCooling || snapshot.anySensorCooling || aboveCurve config.curve snapshot.effectiveTempC

namespace Controller

def new (now : Nat) : Controller where
  lastAppliedPercent := none
  goalPercent := none
  ramping := false
  nextRampStep := now
  lastTick := now - CONTROL_INTERVAL
  heatSoakCooling := false
  anySensorCooling := false
  systemCoolingStartedAt := none
  systemBelowTargetSince := none

variable (c : Controller)

def targetRpmPerFan (fans : List FanEndpoint) : List UInt32 := fans.map (·.rpm c.lastAppliedPercent)

/-- One round of the loop in `apply`. -/
def applyTo (percent : Option UInt8) (fan : FanEndpoint) (accepts : File → Bool) :
    Option (Except IoError FanEndpoint) :=
  (fan.setTargetSpeed accepts (fan.rpm percent)).map fun r =>
    r.map fun set => { set with currentSpeed := some (fan.rpm percent), appControlled := some true }

def apply (accepts : Nat → File → Bool) (fans : List FanEndpoint) (percent : Option UInt8) :
    Option (Call Unit) :=
  (forFans (applyTo percent) accepts fans).map fun r =>
    match r.2 with
    | .error e => ⟨c, r.1, .error e⟩
    | .ok () => ⟨{ c with lastAppliedPercent := percent }, r.1, .ok ()⟩

/-- One round of the loop in `release_to_system`. -/
def release (fan : FanEndpoint) (accepts : File → Bool) : Option (Except IoError FanEndpoint) :=
  some ((fan.releaseToAuto accepts).map fun released => { released with appControlled := some false })

def releaseToSystem (accepts : Nat → File → Bool) (fans : List FanEndpoint) : Option (Call Unit) :=
  (forFans release accepts fans).map fun r =>
    match r.2 with
    | .error e => ⟨c, r.1, .error e⟩
    | .ok () =>
      ⟨{ c with
          lastAppliedPercent := none
          goalPercent := none
          ramping := false
          heatSoakCooling := false
          anySensorCooling := false
          systemCoolingStartedAt := none
          systemBelowTargetSince := none }, r.1, .ok ()⟩

def updateSystemCooling (config : AppConfig) (systemTempC : Option UInt8) (now : Nat) :
    Controller :=
  let engage := saturatingAdd config.soakTempC SYSTEM_LIMIT_HYSTERESIS_C
  let release := saturatingSub config.soakTempC SYSTEM_LIMIT_HYSTERESIS_C
  if !c.heatSoakCooling then
    if systemTempC.any (engage ≤ ·) then
      { c with heatSoakCooling := true, systemCoolingStartedAt := some now, systemBelowTargetSince := none }
    else c
  else
    let c :=
      if systemTempC.any (· ≤ release) then
        { c with systemBelowTargetSince := some (c.systemBelowTargetSince.getD now) }
      else { c with systemBelowTargetSince := none }
    let minimumElapsed :=
      c.systemCoolingStartedAt.any fun started => config.systemCoolingTimeS.toNat * 1000 ≤ now - started
    let stableElapsed := c.systemBelowTargetSince.any fun started => SYSTEM_STABLE_RELEASE_TIME ≤ now - started
    if minimumElapsed && stableElapsed then
      { c with heatSoakCooling := false, systemCoolingStartedAt := none, systemBelowTargetSince := none }
    else c

/-- The part of `tick` that updates the protections. -/
def protect (config : AppConfig) (snapshot : TemperatureSnapshot) (now : Nat) : Controller :=
  let c := c.updateSystemCooling config snapshot.systemTempC now
  { c with
    anySensorCooling :=
      config.anySensorEnabled &&
        nextThresholdCooling c.anySensorCooling snapshot.overallHottestTempC config.anySensorTempC
          (saturatingSub config.anySensorTempC SYSTEM_LIMIT_HYSTERESIS_C) }

/-- The part of `tick` under `automatic_control_enabled`. -/
def steer (env : Env) (fans : List FanEndpoint) (forced : Bool) (targetPercent : Option UInt8) :
    Option (Call Unit) :=
  let c := { c with goalPercent := targetPercent }
  let smallChange :=
    c.lastAppliedPercent.any fun applied =>
      targetPercent.any fun goal => absDiff applied goal < RAMP_START_THRESHOLD_PERCENT
  if forced || c.lastAppliedPercent.isNone || targetPercent.isNone then
    let c := { c with ramping := false }
    if targetPercent ≠ c.lastAppliedPercent then c.apply env.accepts fans targetPercent else some ⟨c, fans, .ok ()⟩
  else if !c.ramping && !smallChange then some ⟨{ c with ramping := true, nextRampStep := env.now }, fans, .ok ()⟩
  else some ⟨c, fans, .ok ()⟩

/-- The end of `tick`. -/
def report (snapshot : TemperatureSnapshot) (targetPercent : Option UInt8)
    (targetRpmPerFan : List UInt32) : ControlSnapshot where
  temperatures := snapshot
  effectiveTempC := snapshot.effectiveTempC
  systemTempC := snapshot.systemTempC
  systemSensorCount := snapshot.systemSensorCount
  heatSoakCooling := c.heatSoakCooling
  anySensorCooling := c.anySensorCooling
  targetPercent := targetPercent
  targetRpmPerFan := targetRpmPerFan

/-- `tick` from the snapshot on. `percentAt` is `interpolate_percent`. -/
def act (percentAt : List CurvePoint → UInt8 → UInt8) (c : Controller) (config : AppConfig) (env : Env)
    (fans : List FanEndpoint) (snapshot : TemperatureSnapshot) : Option (Call ControlSnapshot) :=
  let curveTarget := snapshot.effectiveTempC.map (percentAt config.curve)
  let c := c.protect config snapshot env.now
  let forced := c.heatSoakCooling || c.anySensorCooling || aboveCurve config.curve snapshot.effectiveTempC
  let targetPercent := if forced then some 100 else curveTarget
  if config.automaticControlEnabled then
    (c.steer env fans forced targetPercent).map fun call =>
      match call.result with
      | .error e => ⟨call.controller, call.fans, .error e⟩
      | .ok () =>
        ⟨{ call.controller with lastTick := env.now }, call.fans,
          .ok (call.controller.report snapshot call.controller.lastAppliedPercent
            (call.controller.targetRpmPerFan call.fans))⟩
  else some ⟨{ c with lastTick := env.now }, fans, .ok (c.report snapshot targetPercent [])⟩

def ramp (env : Env) (fans : List FanEndpoint) : Option (Call Bool) :=
  if !c.ramping || env.now < c.nextRampStep then some ⟨c, fans, .ok false⟩
  else
    match c.lastAppliedPercent, c.goalPercent with
    | some applied, some goal =>
      let next := rampStep applied goal
      (c.apply env.accepts fans (some next)).map fun call =>
        match call.result with
        | .error e => ⟨call.controller, call.fans, .error e⟩
        | .ok () =>
          ⟨{ call.controller with
              ramping := next ≠ goal
              nextRampStep := env.now + if applied < goal then RAMP_UP_STEP_INTERVAL else RAMP_DOWN_STEP_INTERVAL },
            call.fans, .ok true⟩
    | _, _ => some ⟨{ c with ramping := false }, fans, .ok false⟩

/-! ### Memory and fans -/

/-- If the controller believes that it has set 100 percent, then every fan was last given that speed. -/
def Remembers (fans : List FanEndpoint) : Prop :=
  c.lastAppliedPercent = some 100 → ∀ fan ∈ fans, fan.RunsAt (some 100)

/-- While 100 percent is remembered, a loop over the fans does not fail after the first fan. -/
def Whole (files : FanEndpoint → List File) (accepts : Nat → File → Bool) (fans : List FanEndpoint) : Prop :=
  c.lastAppliedPercent = some 100 → Undivided files accepts fans

instance (files : FanEndpoint → List File) (accepts : Nat → File → Bool) (fans : List FanEndpoint) :
    Decidable (c.Whole files accepts fans) :=
  inferInstanceAs (Decidable (_ → (_ ∨ _)))

variable {percent : Option UInt8}

variable (fan : FanEndpoint) (accepts : File → Bool)

theorem applyTo_runsAt (changed : FanEndpoint)
    (h : applyTo percent fan accepts = some (.ok changed)) : changed.RunsAt percent := by
  obtain ⟨r, hr, h⟩ := map_eq_some_iff.1 h
  cases r with
  | error e => cases h
  | ok set =>
    obtain ⟨clamped, hclam, rfl⟩ := setTargetSpeed_ok hr
    cases h
    exact ⟨clamped, hclam, rfl⟩

theorem applyTo_isOk (r : Except IoError FanEndpoint) (h : applyTo percent fan accepts = some r) :
    r.isOk = fan.speedFiles.all accepts := by
  obtain ⟨r', hr', rfl⟩ := map_eq_some_iff.1 h
  rw [← setTargetSpeed_isOk hr']
  cases r' <;> rfl

theorem release_isOk (r : Except IoError FanEndpoint)
    (h : release fan accepts = some r) : r.isOk = fan.releaseFiles.all accepts := by
  rw [← releaseToAuto_isOk, ← Option.some.inj h]
  cases fan.releaseToAuto accepts <;> rfl

variable {c : Controller} {fans : List FanEndpoint} {accepts : Nat → File → Bool}

variable {call : Call Unit}

section

variable (h : c.apply accepts fans percent = some call)
include h

theorem apply_cases : (call.result = .ok () ∧ call.controller = { c with lastAppliedPercent := percent } ∧
        ∀ fan ∈ call.fans, fan.RunsAt percent) ∨
      (∃ e, call.result = .error e) ∧ call.controller = c ∧
        (Undivided speedFiles accepts fans → call.fans = fans) := by
  obtain ⟨⟨fans', result⟩, hlp, rfl⟩ := map_eq_some_iff.1 h
  cases result with
  | ok u => exact .inl ⟨rfl, rfl, forFans_ok applyTo_runsAt hlp⟩
  | error e => exact .inr ⟨⟨e, rfl⟩, rfl, forFans_error applyTo_isOk hlp⟩

theorem apply_remembers (hwh : c.Whole speedFiles accepts fans) (hc : c.Remembers fans) :
    call.controller.Remembers call.fans := by
  rcases apply_cases h with ⟨-, hcon, hruns⟩ | ⟨-, hcon, hfans⟩
  · intro hfl fan hfan
    rw [hcon] at hfl
    exact hfl ▸ hruns fan hfan
  intro hfl
  rw [hcon] at hfl
  rw [hfans (hwh hfl)]
  exact hc hfl

end

theorem releaseToSystem_remembers (h : c.releaseToSystem accepts fans = some call)
    (hwh : c.Whole releaseFiles accepts fans) (hc : c.Remembers fans) :
    call.controller.Remembers call.fans := by
  obtain ⟨⟨fans', result⟩, hlp, rfl⟩ := map_eq_some_iff.1 h
  cases result with
  | ok u =>
    intro hfl
    cases hfl
  | error e =>
    intro hfl
    rw [forFans_error release_isOk hlp (hwh hfl)]
    exact hc hfl

theorem protect_lastAppliedPercent (config : AppConfig) (snapshot : TemperatureSnapshot) (now : Nat) :
    (c.protect config snapshot now).lastAppliedPercent = c.lastAppliedPercent := by
  show (c.updateSystemCooling config snapshot.systemTempC now).lastAppliedPercent = _
  unfold updateSystemCooling
  grind

theorem Remembers.congr {c' : Controller} (hc : c.Remembers fans)
    (h : c'.lastAppliedPercent = c.lastAppliedPercent) : c'.Remembers fans := by
  intro hfl
  exact hc (h ▸ hfl)

theorem Whole.congr {c' : Controller} {files : FanEndpoint → List File} (hc : c.Whole files accepts fans)
    (h : c'.lastAppliedPercent = c.lastAppliedPercent) : c'.Whole files accepts fans := by
  intro hfl
  exact hc (h ▸ hfl)

variable {target : Option UInt8} {forced : Bool}

/-- The automatic part of a tick applies the target, or leaves the fans and what it remembers as they are, and then a
forced target is the one remembered. -/
theorem steer_cases {env : Env} (h : c.steer env fans forced target = some call) :
    ({ c with goalPercent := target, ramping := false } : Controller).apply env.accepts fans target = some call ∨
      (∃ ramping next, call.controller =
          { c with goalPercent := target, ramping := ramping, nextRampStep := next }) ∧
        call.fans = fans ∧ (forced → target = c.lastAppliedPercent) := by
  simp only [steer] at h
  split at h
  · grind
  next hfor =>
    -- a forced target is in the first branch
    have hfr : forced → target = c.lastAppliedPercent := by
      rintro rfl
      exact absurd rfl hfor
    split at h <;> cases h <;> exact .inr ⟨⟨_, _, rfl⟩, rfl, hfr⟩

theorem steer_remembers {env : Env} (h : c.steer env fans forced target = some call)
    (hwh : c.Whole speedFiles env.accepts fans) (hc : c.Remembers fans) : call.controller.Remembers call.fans := by
  rcases steer_cases h with happ | ⟨⟨ramping, next, hcon⟩, hfans, -⟩
  · exact apply_remembers happ hwh hc
  · rw [hcon, hfans]
    exact hc

theorem steer_protections {env : Env} (h : c.steer env fans forced target = some call) :
    call.controller.heatSoakCooling = c.heatSoakCooling ∧ call.controller.anySensorCooling = c.anySensorCooling := by
  rcases steer_cases h with happ | ⟨⟨ramping, next, hcon⟩, -, -⟩
  · rcases apply_cases happ with ⟨-, hcon, -⟩ | ⟨-, hcon, -⟩ <;>
      rw [hcon] <;> exact ⟨rfl, rfl⟩
  · rw [hcon]
    exact ⟨rfl, rfl⟩

/-- A forced decision that succeeds leaves every fan at full speed. -/
theorem steer_full {env : Env} (h : c.steer env fans true (some 100) = some call)
    (hok : call.result = .ok ()) (hc : c.Remembers fans) : ∀ fan ∈ call.fans, fan.RunsAt (some 100) := by
  rcases steer_cases h with happ | ⟨-, hfans, hsa⟩
  · rcases apply_cases happ with ⟨-, -, hruns⟩ | ⟨⟨e, herr⟩, -, -⟩
    · exact hruns
    · rw [herr] at hok
      cases hok
  · rw [hfans]
    exact hc (hsa rfl).symm

variable {percentAt : List CurvePoint → UInt8 → UInt8} {config : AppConfig} {env : Env}
  {snapshot : TemperatureSnapshot}

theorem act_remembers {call : Call ControlSnapshot} (h : c.act percentAt config env fans snapshot = some call)
    (hwh : c.Whole speedFiles env.accepts fans) (hc : c.Remembers fans) :
    call.controller.Remembers call.fans := by
  have hla := protect_lastAppliedPercent (c := c) config snapshot env.now
  rw [act] at h
  split at h
  · obtain ⟨steered, hsteer, rfl⟩ := map_eq_some_iff.1 h
    have hkp := steer_remembers hsteer (hwh.congr hla) (hc.congr hla)
    split
    · exact hkp
    · exact hkp
  · cases h
    exact hc.congr hla

theorem act_full {call : Call ControlSnapshot} {report : ControlSnapshot}
    (h : c.act percentAt config env fans snapshot = some call) (hok : call.result = .ok report)
    (hau : config.automaticControlEnabled) (hfor : report.forced config)
    (hc : c.Remembers fans) : ∀ fan ∈ call.fans, fan.RunsAt (some 100) := by
  have hla := protect_lastAppliedPercent (c := c) config snapshot env.now
  rw [act, if_pos hau] at h
  obtain ⟨steered, hsteer, rfl⟩ := map_eq_some_iff.1 h
  obtain ⟨hsoak, hany⟩ := steer_protections hsteer
  split at hok
  · cases hok
  next hdn =>
    -- what is reported as a reason is what the decision was based on
    cases hok
    rw [ControlSnapshot.forced, report, hsoak, hany] at hfor
    rw [hfor] at hsteer
    exact steer_full hsteer hdn (hc.congr hla)

theorem ramp_remembers {call : Call Bool} (h : c.ramp env fans = some call)
    (hwh : c.Whole speedFiles env.accepts fans) (hc : c.Remembers fans) :
    call.controller.Remembers call.fans := by
  rw [ramp] at h
  split at h
  · cases h
    exact hc
  split at h
  · obtain ⟨applied, happl, rfl⟩ := map_eq_some_iff.1 h
    have hkp := apply_remembers happl hwh hc
    split
    · exact hkp
    · exact hkp
  · cases h
    exact hc

end Controller

/-! ## The daemon -/

/-- `Request` of `ipc.rs`. -/
inductive Request
  | getState
  | setActive (enabled : Bool)
  | setAutostart (enabled : Bool)
  | setCurve (soakTempC : UInt8) (curve : List CurvePoint)
  | setAnySensor (enabled : Bool) (tempC : UInt8)
  | setSystemCoolingTime (seconds : UInt16)
  | setCurveSensor (key : Option String)

structure DaemonRuntime where
  config : AppConfig
  controller : Controller
  fans : List FanEndpoint
  temperatures : List TemperatureSource
  snapshot : ControlSnapshot

namespace DaemonRuntime

/-- The call of `Controller::tick` in `DaemonRuntime::tick`. -/
def controlTick (percentAt : List CurvePoint → UInt8 → UInt8) (d : DaemonRuntime) (refreshAll : Bool) (env : Env) :
    Option (DaemonRuntime × Except IoError ControlSnapshot) :=
  let temperatures := TemperatureSnapshot.readForControl d.temperatures d.config.curveSensorKey refreshAll env.read
  let snapshot := (TemperatureSnapshot.fromCached temperatures).includeCurveSensor temperatures d.config.curveSensorKey
  (d.controller.act percentAt d.config env d.fans snapshot).map fun call =>
    ({ d with
        controller := call.controller
        fans := call.fans
        temperatures := temperatures
        snapshot := call.result.toOption.getD d.snapshot }, call.result)

variable (d : DaemonRuntime) (env : Env)

/-- The call of `Controller::ramp` in `DaemonRuntime::tick`. -/
def rampTick : Option DaemonRuntime :=
  (d.controller.ramp env d.fans).map fun call =>
    { d with
      controller := call.controller
      fans := call.fans
      snapshot :=
        if call.result.toOption = some true then
          { d.snapshot with
            targetPercent := call.controller.lastAppliedPercent
            targetRpmPerFan := call.controller.targetRpmPerFan call.fans }
        else d.snapshot }

/-- `release_to_system`, and the target of the snapshot is cleared if it succeeds. -/
def releaseFans : Option (DaemonRuntime × Bool) :=
  (d.controller.releaseToSystem env.accepts d.fans).map fun call =>
    let d := { d with controller := call.controller, fans := call.fans }
    if call.result.isOk then
      ({ d with snapshot := { d.snapshot with targetPercent := none, targetRpmPerFan := [] } }, true)
    else (d, false)

/-- `handle_request` up to its `self.tick()`. A change of the configuration stays where saving it fails. `autostart`
says whether the system took the new setting. -/
def handleRequest (autostart : Bool) : Request → Option DaemonRuntime
  | .getState => some d
  | .setActive false =>
    (d.releaseFans env).map fun r =>
      if r.2 then { r.1 with config := { r.1.config with automaticControlEnabled := false } } else r.1
  | .setActive true =>
    some { d with
      config := { d.config with automaticControlEnabled := true }
      controller := Controller.new env.now }
  | .setAutostart enabled =>
    some (if autostart then { d with config := { d.config with autostartEnabled := enabled } } else d)
  | .setCurve soakTempC curve =>
    some { d with config := { d.config with soakTempC := soakTempC, customCurve := curve } }
  | .setAnySensor enabled tempC =>
    some { d with config := { d.config with anySensorEnabled := enabled, anySensorTempC := min tempC 100 } }
  | .setSystemCoolingTime seconds => some { d with config := { d.config with systemCoolingTimeS := min seconds 600 } }
  | .setCurveSensor key =>
    let known := key.filter fun key => d.temperatures.any fun source => source.role = .system && source.key == key
    some { d with config := { d.config with curveSensorKey := known } }

/-- `reload_config`. There is no daemon any more after an error. -/
def reloadConfig (next : AppConfig) (env : Env) : Option DaemonRuntime :=
  let wasActive := d.config.automaticControlEnabled
  let d := { d with config := next }
  if wasActive && !next.automaticControlEnabled then (d.releaseFans env).bind fun r => if r.2 then some r.1 else none
  else if !wasActive && next.automaticControlEnabled then some { d with controller := Controller.new env.now }
  else some d

end DaemonRuntime

/-- What the daemon does: it reads the state of the fans, controls, takes a step of a ramp, answers a request or loads
the configuration again. -/
inductive Action
  | refresh (input manual : Nat → Option UInt32)
  | tick (refreshAll : Bool) (env : Env)
  | ramp (env : Env)
  | request (request : Request) (env : Env) (autostart : Bool)
  | reload (config : AppConfig) (env : Env)

section Daemon

variable (percentAt : List CurvePoint → UInt8 → UInt8)

/-- The daemon, from its start on. -/
def daemon : Machine DaemonRuntime Action where
  init d := (∃ now, d.controller = Controller.new now) ∧ ∀ fan ∈ d.fans, fan.written = none
  next d
    | .refresh input manual => some { d with fans := d.fans.mapIdx fun i fan => fan.refreshState (input i) (manual i) }
    | .tick refreshAll env => (d.controlTick percentAt refreshAll env).map Prod.fst
    | .ramp env => d.rampTick env
    | .request request env autostart => d.handleRequest env autostart request
    | .reload config env => d.reloadConfig config env

variable (d : DaemonRuntime)

/-- While 100 percent is remembered, no call fails after its first fan. -/
def Steady : Action → Prop
  | .refresh _ _ => True
  | .tick _ env | .ramp env => d.controller.Whole speedFiles env.accepts d.fans
  | .request _ env _ | .reload _ env => d.controller.Whole releaseFiles env.accepts d.fans

instance : (a : Action) → Decidable (Steady d a)
  | .refresh _ _ => .isTrue trivial
  | .tick _ env | .ramp env => inferInstanceAs (Decidable (d.controller.Whole speedFiles env.accepts d.fans))
  | .request _ env _ | .reload _ env =>
    inferInstanceAs (Decidable (d.controller.Whole releaseFiles env.accepts d.fans))

/-- The fans are as the controller remembers them. -/
def Agrees : Prop := d.controller.Remembers d.fans

variable {percentAt} {d d' : DaemonRuntime}

theorem Controller.new_remembers (now : Nat) (fans : List FanEndpoint) : (Controller.new now).Remembers fans := by
  intro hfl
  cases hfl

theorem refreshState_runsAt {fan : FanEndpoint} {percent : Option UInt8} (input manual : Option UInt32)
    (h : fan.RunsAt percent) : (fan.refreshState input manual).RunsAt percent := by
  cases input with
  | none | some _ => exact h

variable {env : Env}

theorem releaseFans_agrees {r : DaemonRuntime × Bool} (h : d.releaseFans env = some r)
    (hwh : d.controller.Whole releaseFiles env.accepts d.fans) (hd : Agrees d) : Agrees r.1 := by
  obtain ⟨call, hca, rfl⟩ := map_eq_some_iff.1 h
  have hkp := Controller.releaseToSystem_remembers hca hwh hd
  split
  · exact hkp
  · exact hkp

theorem handleRequest_agrees {autostart : Bool} {request : Request}
    (h : d.handleRequest env autostart request = some d')
    (hwh : d.controller.Whole releaseFiles env.accepts d.fans) (hd : Agrees d) : Agrees d' := by
  cases request with
  | setActive enabled =>
    cases enabled with
    | false =>
      obtain ⟨r, hr, rfl⟩ := map_eq_some_iff.1 h
      have hkp := releaseFans_agrees hr hwh hd
      split
      · exact hkp
      · exact hkp
    | true =>
      cases h
      exact Controller.new_remembers _ _
  | setAutostart enabled =>
    cases h
    split
    · exact hd
    · exact hd
  | getState | setCurve _ _ | setAnySensor _ _ | setSystemCoolingTime _ | setCurveSensor _ => cases h; exact hd

theorem reloadConfig_agrees {config : AppConfig} (h : d.reloadConfig config env = some d')
    (hwh : d.controller.Whole releaseFiles env.accepts d.fans) (hd : Agrees d) : Agrees d' := by
  simp only [DaemonRuntime.reloadConfig] at h
  split at h
  · obtain ⟨r, hr, h⟩ := bind_eq_some_iff.1 h
    obtain ⟨-, h⟩ := ite_none_right_eq_some.1 h
    cases h
    exact releaseFans_agrees hr hwh hd
  split at h
  · cases h
    exact Controller.new_remembers _ _
  · cases h
    exact hd

theorem controlTick_agrees {refreshAll : Bool} {r : DaemonRuntime × Except IoError ControlSnapshot}
    (h : d.controlTick percentAt refreshAll env = some r)
    (hwh : d.controller.Whole speedFiles env.accepts d.fans) (hd : Agrees d) : Agrees r.1 := by
  obtain ⟨call, hca, rfl⟩ := map_eq_some_iff.1 h
  exact Controller.act_remembers hca hwh hd

theorem rampTick_agrees (h : d.rampTick env = some d')
    (hwh : d.controller.Whole speedFiles env.accepts d.fans) (hd : Agrees d) : Agrees d' := by
  obtain ⟨call, hca, rfl⟩ := map_eq_some_iff.1 h
  exact Controller.ramp_remembers hca hwh hd

theorem agrees_next {a : Action} (hstd : Steady d a) (hd : Agrees d)
    (h : (daemon percentAt).next d a = some d') : Agrees d' := by
  cases a with
  | refresh input manual =>
    cases h
    intro hfl fan hfan
    obtain ⟨i, hi, rfl⟩ := List.mem_mapIdx.1 hfan
    exact refreshState_runsAt _ _ (hd hfl _ (List.getElem_mem hi))
  | tick refreshAll env =>
    obtain ⟨r, hr, rfl⟩ := map_eq_some_iff.1 h
    exact controlTick_agrees hr hstd hd
  | ramp env => exact rampTick_agrees h hstd hd
  | request request env autostart => exact handleRequest_agrees h hstd hd
  | reload config env => exact reloadConfig_agrees h hstd hd

theorem agrees_of_reach (h : (daemon percentAt).Reach Steady d) : Agrees d := by
  refine h.invariant (I := Agrees) ?_ fun s a t _ hstd hs hnx => agrees_next hstd hs hnx
  rintro s ⟨⟨now, hnew⟩, -⟩
  intro hfl
  rw [hnew] at hfl
  cases hfl

/-- In every run in which no call fails after its first fan while 100 percent is remembered: if a tick succeeds under
automatic control and a protection is active, the last speed written to every fan is the one for 100 percent. -/
theorem forced_tick_runs_full {refreshAll : Bool} {env : Env} {snapshot : ControlSnapshot}
    (hd : (daemon percentAt).Reach Steady d)
    (htick : d.controlTick percentAt refreshAll env = some (d', .ok snapshot))
    (hauto : d.config.automaticControlEnabled = true) (hforced : snapshot.forced d.config = true) :
    ∀ fan ∈ d'.fans, fan.RunsAt (some 100) := by
  obtain ⟨call, hca, hd'⟩ := map_eq_some_iff.1 htick
  obtain ⟨rfl, hok⟩ := Prod.mk.inj hd'
  exact Controller.act_full hca hok hauto hforced (agrees_of_reach hd)

end Daemon

/-! ## A fan that stays slow -/

namespace Sample

/-- A fan on the interface with a target. -/
def fan (basePath : String) : FanEndpoint where
  basePath := basePath
  minSpeed := 1200
  maxSpeed := 6200
  currentSpeed := none
  appControlled := none
  usesTargetApi := true
  written := none

def runtime : DaemonRuntime where
  config := AppConfig.default
  controller := Controller.new 2000
  fans := [fan "fan1", fan "fan2"]
  temperatures := [⟨"TC0P", "CPU", none, .cpuDie⟩]
  snapshot := {}

theorem runtime_init : (daemon interpolatePercent).init runtime := ⟨⟨2000, rfl⟩, by decide⟩

/-- The processor has `tempC` degrees and the fans from `refused` on take no write. -/
def env (now : Nat) (tempC : UInt8) (refused : Nat) : Env where
  now := now
  read _ := some tempC
  accepts i _ := i < refused

/-- The temperature is above the curve, then in the middle of it. The ramp down takes its first step, on the fans
before `refused`. -/
def firstStep (refused : Nat) : List Action :=
  [.tick false (env 2000 100 2), .tick false (env 4000 70 2), .ramp (env 4000 70 refused)]

/-- A tick would succeed and report a protection, and the fans would be as `q` says. -/
def forcedTick (env : Env) (q : List FanEndpoint → Bool) (d : DaemonRuntime) : Bool :=
  (d.controlTick interpolatePercent false env).any fun r =>
    r.2.toOption.any fun snapshot => d.config.automaticControlEnabled && snapshot.forced d.config && q r.1.fans

theorem exists_of_forcedTick {env : Env} {q : List FanEndpoint → Bool} {d : DaemonRuntime} (h : forcedTick env q d) :
    ∃ d' snapshot, d.controlTick interpolatePercent false env = some (d', .ok snapshot) ∧
      d.config.automaticControlEnabled ∧ snapshot.forced d.config ∧ q d'.fans := by
  obtain ⟨⟨d', result⟩, htc, h⟩ := (any_eq_true _ _).1 h
  cases result with
  | error e => cases h
  | ok snapshot => simp_all [Except.toOption]

end Sample

/-- Both fans take the first step of the ramp, and the next tick sets them back to full speed. -/
theorem forced_tick_runs_full_both : ∃ d, (daemon interpolatePercent).Reach Steady d ∧ ∃ env d' snapshot,
      d.controlTick interpolatePercent false env = some (d', .ok snapshot) ∧
      d.config.automaticControlEnabled = true ∧ snapshot.forced d.config = true ∧ d'.fans.length = 2 ∧
      ∀ fan ∈ d'.fans, fan.RunsAt (some 100) := by
  obtain ⟨d, hre, hfl⟩ := Machine.exists_of_guarded_run (M := daemon interpolatePercent)
    (P := fun d => Sample.forcedTick (Sample.env 6000 100 2) (·.length == 2) d) Steady (Sample.firstStep 2)
    Sample.runtime_init (by decide +kernel)
  obtain ⟨d', snapshot, htc, hau, hfor, htwo⟩ := Sample.exists_of_forcedTick hfl
  exact ⟨d, hre, _, d', snapshot, htc, hau, hfor, beq_iff_eq.1 htwo,
    forced_tick_runs_full hre htc hau hfor⟩

/-- The second fan does not take the first step of the ramp. The controller still remembers 100 percent, and the next
tick leaves the first fan as it is. -/
theorem half_applied_ramp_believed : ∃ d, (daemon interpolatePercent).Reachable d ∧ ∃ env d' snapshot,
      d.controlTick interpolatePercent false env = some (d', .ok snapshot) ∧
      d.config.automaticControlEnabled = true ∧ snapshot.forced d.config = true ∧
      ∃ fan ∈ d'.fans, ¬ fan.RunsAt (some 100) := by
  obtain ⟨d, hd, hslow⟩ := Machine.exists_of_run (M := daemon interpolatePercent)
    (P := fun d => Sample.forcedTick (Sample.env 6000 100 2) (·.any fun fan => ¬ fan.RunsAt (some 100)) d)
    (Sample.firstStep 1) Sample.runtime_init (by decide +kernel)
  obtain ⟨d', snapshot, htc, hau, hfor, hany⟩ := Sample.exists_of_forcedTick hslow
  obtain ⟨fan, hfan, hmiss⟩ := List.any_eq_true.1 hany
  exact ⟨d, hd, _, d', snapshot, htc, hau, hfor, fan, hfan, of_decide_eq_true hmiss⟩

end KaiT2en.Fan
