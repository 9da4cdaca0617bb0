import Mathlib.Data.List.Basic

/-!
# Sensors and fans in sysfs

`sysfs.rs` of `t2-fan-control`. A sensor keeps the last temperature that was read, a snapshot sums up all of them.
A fan has its target in one file, or in two on the older interface. What a write to a file does is up to the
system: `accepts` says which writes succeed.

`FanEndpoint.written` is not in the program. It is the speed that the fan was last given since it was last
released.
-/

namespace KaiT2en.Fan

/-! ## Temperatures -/

inductive TemperatureRole
  | cpuDie
  | cpuTelemetry
  | gpu
  | system
  deriving DecidableEq

structure TemperatureSource where
  key : String
  name : String
  lastTempC : Option UInt8
  role : TemperatureRole
  deriving DecidableEq

structure TemperatureSnapshot where
  cpuTempC : Option UInt8 := none
  gpuTempC : Option UInt8 := none
  hottestTempC : Option UInt8 := none
  hottestSensorName : Option String := none
  optionalCurveTempC : Option UInt8 := none
  overallHottestTempC : Option UInt8 := none
  overallHottestSensorName : Option String := none
  systemTempC : Option UInt8 := none
  systemSensorCount : Nat := 0
  monitoredSensorCount : Nat := 0
  deriving DecidableEq

/-- `last_temp_c.filter(|temp| *temp > 0)`. -/
def TemperatureSource.reading (source : TemperatureSource) : Option UInt8 := source.lastTempC.filter (0 < ·)

/-- `best.map_or(true, |old| temp > old)`. -/
def hotter (temp : UInt8) : Option UInt8 → Bool
  | none => true
  | some old => old < temp

/-- The snapshot and the sums of the loop in `from_cached`. -/
structure Tally where
  snapshot : TemperatureSnapshot := {}
  cpuSum : Nat := 0
  cpuCount : Nat := 0
  systemSum : Nat := 0
  systemCount : Nat := 0

/-- One round of the loop in `from_cached`. -/
def Tally.add (tally : Tally) (source : TemperatureSource) : Tally :=
  match source.reading with
  | none => tally
  | some temp =>
    let snapshot := { tally.snapshot with monitoredSensorCount := tally.snapshot.monitoredSensorCount + 1 }
    let snapshot :=
      if hotter temp snapshot.overallHottestTempC then
        { snapshot with overallHottestTempC := some temp, overallHottestSensorName := some source.name }
      else snapshot
    match source.role with
    | .cpuDie =>
      { tally with snapshot := snapshot, cpuSum := tally.cpuSum + temp.toNat, cpuCount := tally.cpuCount + 1 }
    | .cpuTelemetry => { tally with snapshot := snapshot }
    | .gpu =>
      { tally with
        snapshot := { snapshot with gpuTempC := some ((snapshot.gpuTempC.map (max · temp)).getD temp) }
        systemSum := tally.systemSum + temp.toNat
        systemCount := tally.systemCount + 1 }
    | .system =>
      { tally with
        snapshot := snapshot
        systemSum := tally.systemSum + temp.toNat
        systemCount := tally.systemCount + 1 }

/-- The mean of `count` temperatures, rounded. -/
def average (sum count : Nat) : Option UInt8 := if 0 < count then some ((sum + count / 2) / count).toUInt8 else none

namespace TemperatureSnapshot

variable (snapshot : TemperatureSnapshot) (sources : List TemperatureSource)

/-- One round of the loop over the processor and the graphics temperature. -/
def heed (temp : Option UInt8) (name : String) : TemperatureSnapshot :=
  if temp.any (hotter · snapshot.hottestTempC) then
    { snapshot with hottestTempC := temp, hottestSensorName := some name }
  else snapshot

def fromCached : TemperatureSnapshot :=
  let tally := sources.foldl Tally.add {}
  let snapshot := { tally.snapshot with cpuTempC := average tally.cpuSum tally.cpuCount }
  let snapshot := (snapshot.heed snapshot.cpuTempC "CPU").heed snapshot.gpuTempC "GPU"
  { snapshot with
    systemSensorCount := tally.systemCount
    systemTempC := average tally.systemSum tally.systemCount }

/-- `read_for_control`: the sources with what was read from them. `read` has a result for each source, none
where reading its file fails. -/
def readForControl (optionalKey : Option String) (refreshAll : Bool)
    (read : Nat → Option UInt8) : List TemperatureSource :=
  sources.mapIdx fun i source =>
    let neededForFastControl := source.role = .cpuDie || source.role = .gpu || optionalKey.any (source.key == ·)
    if refreshAll || neededForFastControl then { source with lastTempC := read i } else source

def effectiveTempC : Option UInt8 := snapshot.hottestTempC

def includeCurveSensor (key : Option String) :
    TemperatureSnapshot :=
  match key.bind fun key => sources.find? (·.key == key) with
  | none => snapshot
  | some source =>
    match source.reading with
    | none => snapshot
    | some temp =>
      let snapshot := { snapshot with optionalCurveTempC := some temp }
      if hotter temp snapshot.hottestTempC then
        { snapshot with hottestTempC := some temp, hottestSensorName := some source.name }
      else snapshot

end TemperatureSnapshot

/-! ## Fans -/

structure FanEndpoint where
  basePath : String
  minSpeed : UInt32
  maxSpeed : UInt32
  currentSpeed : Option UInt32
  appControlled : Option Bool
  /-- Whether the fan has a `_target`, not an `_output` with a `_manual`. -/
  usesTargetApi : Bool
  /-- The last speed written since the last release. -/
  written : Option UInt32
  deriving DecidableEq

/-- The files of a fan that are written. -/
inductive File
  | target
  | manual
  | output
  deriving DecidableEq

/-- `join_suffix` of the fan's path. -/
def FanEndpoint.path (fan : FanEndpoint) : File → String
  | .target => fan.basePath ++ "_target"
  | .manual => fan.basePath ++ "_manual"
  | .output => fan.basePath ++ "_output"

/-- `FanControlError::Io`. -/
structure IoError where
  path : String
  deriving DecidableEq

/-- `u32::clamp`, which panics if the bounds are the wrong way round. -/
def clampSpeed (x low high : UInt32) : Option UInt32 := if low ≤ high then some (max low (min x high)) else none

namespace FanEndpoint

/-- `write_string`: `done` is the fan after the write. -/
def write (fan done : FanEndpoint) (accepts : File → Bool) (file : File) : Except IoError FanEndpoint :=
  if accepts file then .ok done else .error ⟨fan.path file⟩

variable (fan : FanEndpoint) (percent : Option UInt8)

/-- `set_target_speed`. There is no result where it panics. -/
def setTargetSpeed (accepts : File → Bool) (requestedSpeed : UInt32) :
    Option (Except IoError FanEndpoint) :=
  (clampSpeed requestedSpeed fan.minSpeed fan.maxSpeed).map fun clamped =>
    if fan.usesTargetApi then fan.write { fan with written := some clamped } accepts .target
    else
      match fan.write fan accepts .manual with
      | .error e => .error e
      | .ok fan => fan.write { fan with written := some clamped } accepts .output

def releaseToAuto (accepts : File → Bool) : Except IoError FanEndpoint :=
  if fan.usesTargetApi then fan.write { fan with written := none } accepts .target
  else fan.write { fan with written := none } accepts .manual

/-- `percent_to_rpm`, whose arithmetic wraps. -/
def percentToRpm (percent : UInt8) : UInt32 :=
  let span := if fan.minSpeed ≤ fan.maxSpeed then fan.maxSpeed - fan.minSpeed else 0
  fan.minSpeed + span * percent.toUInt32 / 100

/-- The speed for a percentage, and the lowest one where there is none. -/
def rpm : UInt32 := (percent.map fan.percentToRpm).getD fan.minSpeed

/-- `refresh_state`. `input` and `manual` are what the two files read as; where `_input` fails, nothing
changes. -/
def refreshState (input manual : Option UInt32) : FanEndpoint :=
  match input with
  | none => fan
  | some speed =>
    { fan with
      currentSpeed := some speed
      appControlled := if fan.usesTargetApi then fan.appControlled else manual.map (· ≠ 0) }

/-- The files that `set_target_speed` writes. -/
def speedFiles : List File := if fan.usesTargetApi then [.target] else [.manual, .output]

/-- The file that `release_to_auto` writes. -/
def releaseFiles : List File := if fan.usesTargetApi then [.target] else [.manual]

/-- The last speed the fan was given is the one for `percent`. -/
def RunsAt : Prop :=
  ∃ speed, clampSpeed (fan.rpm percent) fan.minSpeed fan.maxSpeed = some speed ∧ fan.written = some speed

instance : Decidable (fan.RunsAt percent) :=
  decidable_of_iff
    ((clampSpeed (fan.rpm percent) fan.minSpeed fan.maxSpeed).any fun speed => fan.written = some speed) <| by
      simp only [Option.any_eq_true, decide_eq_true_eq, RunsAt]

variable {accepts : File → Bool}

theorem write_ok {fan done r : FanEndpoint} {file : File} (h : fan.write done accepts file = .ok r) : r = done := by
  rw [write] at h
  split at h
  · exact (Except.ok.inj h).symm
  · cases h

theorem setTargetSpeed_ok {fan r : FanEndpoint} {speed : UInt32} (h : fan.setTargetSpeed accepts speed = some (.ok r)) :
    ∃ clamped, clampSpeed speed fan.minSpeed fan.maxSpeed = some clamped ∧
      r = { fan with written := some clamped } := by
  obtain ⟨clamped, hclam, h⟩ := Option.map_eq_some_iff.1 h
  refine ⟨clamped, hclam, ?_⟩
  split at h
  · exact write_ok h
  split at h
  · cases h
  · next hman =>
      rw [write_ok hman] at h
      exact write_ok h

theorem isOk_write (fan done : FanEndpoint) (accepts : File → Bool) (file : File) :
    (fan.write done accepts file).isOk = accepts file := by
  rw [write]
  cases accepts file <;> rfl

theorem setTargetSpeed_isOk {fan : FanEndpoint} {speed : UInt32}
    {r : Except IoError FanEndpoint} (h : fan.setTargetSpeed accepts speed = some r) :
    r.isOk = fan.speedFiles.all accepts := by
  obtain ⟨clamped, -, rfl⟩ := Option.map_eq_some_iff.1 h
  rw [speedFiles]
  split
  · rw [isOk_write, List.all_cons, List.all_nil, Bool.and_true]
  rw [List.all_cons, List.all_cons, List.all_nil, Bool.and_true, write]
  cases accepts .manual with
  | false => rfl
  | true => exact isOk_write _ _ _ _

theorem releaseToAuto_isOk (fan : FanEndpoint) (accepts : File → Bool) :
    (fan.releaseToAuto accepts).isOk = fan.releaseFiles.all accepts := by
  rw [releaseToAuto, releaseFiles]
  split <;> rw [isOk_write, List.all_cons, List.all_nil, Bool.and_true]

end FanEndpoint

/-! ## All fans -/

/-- Whether the files that are to be written take it, for every fan. -/
def allAccept (files : FanEndpoint → List File) (accepts : Nat → File → Bool) : List FanEndpoint → Bool
  | [] => true
  | fan :: fans => (files fan).all (accepts 0) && allAccept files (fun i => accepts (i + 1)) fans

def firstRefuses (files : FanEndpoint → List File) (accepts : Nat → File → Bool) : List FanEndpoint → Bool
  | [] => false
  | fan :: _ => !(files fan).all (accepts 0)

end KaiT2en.Fan
