import KaiT2en.Kernel.Primitives
import KaiT2en.Lib.Transition

/-!
# Starting and stopping a PCM stream

`t2audio_pcm_trigger` only notes what is wanted; the commands START_IO and STOP_IO are sent by the work item
`t2audio_pcm_io_work`, which compares the request with the state it last brought the device to. `pcmMachine` has one
action for each section under `io_lock`, each store to `started` outside of it and each reply of the device, so that
requests and the work item interleave anywhere. ALSA makes one call of the trigger at a time.

A request for a stop clears `started` before the work item knows of it, and the work item may set it again.
`PcmStream.Inv` says what each step of the work item can rely on. `pcm_requests_converge` is about the states between
two calls of the trigger: inside of one the request is only half made (`request_half_made`).
-/

namespace KaiT2en.Audio

open KaiT2en.Kernel KaiT2en.Lib.Transition Option

/-- `enum t2audio_remote_io_state`. -/
inductive RemoteIoState where
  | unknown
  | stopped
  | started
  deriving DecidableEq

/-- `target_state` of a request. -/
def targetState (requested : Bool) : RemoteIoState := if requested then .started else .stopped

theorem targetState_injective {r r' : Bool} (h : targetState r = targetState r') : r = r' := by
  cases r <;> cases r' <;> first | rfl | cases h

/-- The commands of `t2audio_pcm_trigger`. -/
inductive TriggerCmd where
  | start
  | stop
  | other
  deriving DecidableEq

/-- How far the call of `t2audio_pcm_request_io` is. -/
inductive RequestStage where
  | idle
  /-- `t2audio_pcm_quiesce_stream`, for a stop only. -/
  | quiesce
  /-- The section under `io_lock`. -/
  | lock (start : Bool)
  /-- `queue_work`. -/
  | queue (start : Bool)
  deriving DecidableEq

/-- How far `t2audio_pcm_io_work` is. A stage inside of the loop carries the generation of its pass. -/
inductive WorkStage where
  | idle
  /-- The first section of the loop. -/
  | check
  /-- `t2audio_pcm_start_sync`: clear `started` and look for a buffer. -/
  | clear (generation : Nat)
  /-- Set `started` and send START_IO. -/
  | publish (generation : Nat)
  /-- START_IO is sent. -/
  | startIo (generation : Nat)
  /-- START_IO has failed: clear `started`. -/
  | abandon (generation : Nat) (status : Int)
  /-- `t2audio_pcm_stop_sync`: clear `started` and send STOP_IO. -/
  | quiesce (generation : Nat)
  /-- STOP_IO is sent. -/
  | stopIo (generation : Nat)
  /-- The last section of the loop. -/
  | finish (generation : Nat) (requested : Bool) (status : Int)
  deriving DecidableEq

/-- `requested` of the pass. -/
def WorkStage.requested : WorkStage → Option Bool
  | .idle | .check => none
  | .clear _ | .publish _ | .startIo _ | .abandon _ _ => some true
  | .quiesce _ | .stopIo _ => some false
  | .finish _ requested _ => some requested

/-- The part of `struct t2audio_stream` that requests and the work item use, with the running calls. `deviceRuns` is
the device, `lastRequest` the last accepted request, and `needsPrepare` says that no `prepare` has returned since the
last stop. -/
structure PcmStream where
  /-- The runtime has a buffer size and the stream a buffer. -/
  hasBuffer : Bool
  ioRequested : Bool
  ioGeneration : Nat
  remoteIoState : RemoteIoState
  started : Bool
  /-- The work item is pending. -/
  queued : Bool
  work : WorkStage
  request : RequestStage
  deviceRuns : Bool
  lastRequest : Option Bool
  needsPrepare : Bool
  deriving DecidableEq

/-- The stream after `t2audio_pcm_init_stream_work`. -/
def PcmStream.create (hasBuffer : Bool) : PcmStream where
  hasBuffer := hasBuffer
  ioRequested := false
  ioGeneration := 0
  remoteIoState := .stopped
  started := false
  queued := false
  work := .idle
  request := .idle
  deviceRuns := false
  lastRequest := none
  needsPrepare := false

namespace PcmStream

/-! ## Requests -/

variable (s : PcmStream)

/-- `t2audio_pcm_trigger` up to the call of `t2audio_pcm_request_io`, with the status of a call that
ends here. -/
def trigger (number : Nat) (cmd : TriggerCmd) : PcmStream × Option Int :=
  if number ≠ 0 then (s, some 0)
  else
    match cmd with
    | .start =>
      if s.hasBuffer = false then (s, some (-EINVAL))
      else ({ s with request := .lock true, lastRequest := some true }, none)
    | .stop => ({ s with request := .quiesce, lastRequest := some false }, none)
    | .other => (s, some (-EINVAL))

/-- The section of `t2audio_pcm_request_io` under the lock; the generation is an `unsigned int`. -/
def noteRequest (start : Bool) : PcmStream :=
  { s with
    ioRequested := start
    ioGeneration := (s.ioGeneration + 1) % 2 ^ 32
    request := .queue start }

/-- The next step of `t2audio_pcm_request_io`. -/
def requestIo : Option PcmStream :=
  match s.request with
  | .idle => none
  | .quiesce => some { s with started := false, request := .lock false }
  | .lock start => some (s.noteRequest start)
  | .queue start => some { s with queued := true, request := .idle, needsPrepare := s.needsPrepare || !start }

/-! ## The work item -/

/-- The first section of the loop. -/
def ioWorkCheck : PcmStream :=
  if s.remoteIoState = targetState s.ioRequested then { s with work := .idle }
  else if s.ioRequested then { s with work := .clear s.ioGeneration }
  else { s with work := .quiesce s.ioGeneration }

/-- The last section of the loop. -/
def ioWorkFinish (generation : Nat) (requested : Bool) (status : Int) : PcmStream :=
  { s with
    remoteIoState := if status ≠ 0 then .unknown else targetState requested
    work := if status ≠ 0 ∨ generation = s.ioGeneration then .idle else .check }

/-- The next step of `t2audio_pcm_io_work`, or of the workqueue. The replies of the device are steps of their own. -/
def ioWork : Option PcmStream :=
  match s.work with
  | .idle => if s.queued then some { s with queued := false, work := .check } else none
  | .check => some s.ioWorkCheck
  | .clear g =>
    some { s with
      started := false
      work := if s.hasBuffer then .publish g else .finish g true (-EINVAL) }
  | .publish g => some { s with started := true, work := .startIo g }
  | .startIo _ => none
  | .abandon g status => some { s with started := false, work := .finish g true status }
  | .quiesce g => some { s with started := false, work := .stopIo g }
  | .stopIo _ => none
  | .finish g requested status => some (s.ioWorkFinish g requested status)

/-- The device after a command: a command that fails may or may not have taken effect. -/
def deviceAfter (run : Bool) (status : Int) (acted : Bool) : Bool := if status = 0 ∨ acted then run else s.deviceRuns

/-- A command of the work item returns. -/
def commandDone (status : Int) (acted : Bool) : Option PcmStream :=
  match s.work with
  | .startIo g =>
    some { s with
      deviceRuns := s.deviceAfter true status acted
      work := if status ≠ 0 then .abandon g status else .finish g true 0 }
  | .stopIo g =>
    some { s with
      deviceRuns := s.deviceAfter false status acted
      work := .finish g false status }
  | _ => none

/-- `t2audio_pcm_prepare` returns from `flush_work`. -/
def prepare : Option PcmStream :=
  if s.work = .idle ∧ s.queued = false then some { s with needsPrepare := false } else none

end PcmStream

/-! ## The machine -/

inductive PcmAction where
  | trigger (number : Nat) (cmd : TriggerCmd)
  | requestIo
  | ioWork
  | commandDone (status : Int) (acted : Bool)
  | prepare
  deriving DecidableEq

def PcmStream.next (s : PcmStream) : PcmAction → Option PcmStream
  | .trigger number cmd => if s.request = .idle then some (s.trigger number cmd).1 else none
  | .requestIo => s.requestIo
  | .ioWork => s.ioWork
  | .commandDone status acted => s.commandDone status acted
  | .prepare => s.prepare

def pcmMachine : Machine PcmStream PcmAction where
  init s := ∃ hasBuffer, s = PcmStream.create hasBuffer
  next := PcmStream.next

/-- A start that follows a stop comes after a call of `prepare`, and no command fails. -/
def PcmStream.Orderly (s : PcmStream) : PcmAction → Prop
  | .trigger _ .start => s.needsPrepare = false
  | .commandDone status _ => status = 0
  | _ => True

instance (s : PcmStream) : ∀ a, Decidable (s.Orderly a)
  | .trigger _ .start => inferInstanceAs (Decidable (s.needsPrepare = false))
  | .trigger _ .stop => inferInstanceAs (Decidable True)
  | .trigger _ .other => inferInstanceAs (Decidable True)
  | .requestIo => inferInstanceAs (Decidable True)
  | .ioWork => inferInstanceAs (Decidable True)
  | .commandDone status _ => inferInstanceAs (Decidable (status = 0))
  | .prepare => inferInstanceAs (Decidable True)

/-! ## The invariant -/

namespace PcmStream

variable (s : PcmStream)

/-- While a start is wanted and no stop has cleared it, `started` is set. -/
def Running : Prop := s.ioRequested = true → s.request ≠ .lock false → s.started = true

/-- What holds at each stage of the work item. -/
def AtStage : Prop :=
  match s.work with
  | .idle | .check =>
    s.remoteIoState = targetState s.deviceRuns ∧ (s.deviceRuns = false → s.started = false) ∧
      (s.deviceRuns = true → s.Running)
  | .clear _ | .publish _ => s.hasBuffer = true
  | .startIo _ => s.Running
  | .abandon _ _ => False
  | .quiesce _ => True
  | .stopIo _ => s.started = false
  | .finish _ requested status =>
    status = 0 ∧ s.deviceRuns = requested ∧ (requested = true → s.Running) ∧ (requested = false → s.started = false)

/-- The request that is being made. -/
def AtRequest : Prop :=
  match s.request with
  | .idle => ∀ r, s.lastRequest = some r → s.ioRequested = r
  | .quiesce => s.lastRequest = some false
  | .lock start => s.lastRequest = some start ∧ (start = true → s.hasBuffer = true ∧ s.needsPrepare = false)
  | .queue start => s.lastRequest = some start ∧ s.ioRequested = start

structure Inv : Prop where
  stage : s.AtStage
  request : s.AtRequest
  buffer : s.ioRequested = true → s.hasBuffer = true
  /-- A pass of the work item for another request than the current one is followed by a new run. -/
  followed : ∀ r, s.work.requested = some r → s.ioRequested ≠ r → s.queued = true ∨ ∃ start, s.request = .queue start
  /-- With nothing pending the device is where the request wants it. -/
  settled : s.work = .idle → s.queued = false → (∀ start, s.request ≠ .queue start) →
    s.remoteIoState = targetState s.ioRequested
  /-- After a stop and a call of `prepare` the work item rests. -/
  rests : s.ioRequested = false → s.needsPrepare = false → s.request ≠ .queue false → s.work = .idle ∧ s.queued = false

theorem inv_create (hasBuffer : Bool) : (create hasBuffer).Inv :=
  ⟨⟨rfl, fun _ => rfl, nofun⟩, nofun, nofun, nofun, fun _ _ _ => rfl, fun _ _ _ => ⟨rfl, rfl⟩⟩

/-- A stage stands when the work item and the device do, `started` is at most cleared and the stream
runs as before. -/
theorem AtStage.mono {s t : PcmStream} (h : s.AtStage) (hwk : t.work = s.work)
    (hrem : t.remoteIoState = s.remoteIoState) (hdev : t.deviceRuns = s.deviceRuns) (hbuf : t.hasBuffer = s.hasBuffer)
    (hclear : s.started = false → t.started = false) (hrunn : s.Running → t.Running) : t.AtStage := by
  unfold AtStage at h ⊢
  rw [hwk]
  cases hst : s.work with
  | idle | check => grind
  | clear g | publish g =>
    simp only [hst] at h ⊢
    exact hbuf.trans h
  | startIo g =>
    simp only [hst] at h ⊢
    exact hrunn h
  | abandon g status => simp only [hst] at h
  | quiesce g => trivial
  | stopIo g =>
    simp only [hst] at h ⊢
    exact hclear h
  | finish g requested status => grind

namespace Inv

variable {s t : PcmStream}

/-! ### Steps of a request -/

section

variable (h : s.Inv)
include h

theorem request_step (hnot : ∀ r, s.request ≠ .queue r) {stage : RequestStage}
    {started : Bool} {last : Option Bool} (hclear : s.started = false → started = false)
    (hrunn : s.Running → Running { s with started := started, request := stage, lastRequest := last })
    (hreq : AtRequest { s with started := started, request := stage, lastRequest := last }) :
    Inv { s with started := started, request := stage, lastRequest := last } := by
  refine { h with stage := h.stage.mono rfl rfl rfl rfl hclear hrunn, request := hreq,
                  followed := fun r hr hne => ?_, settled := fun hwk hqd _ => h.settled hwk hqd hnot,
                  rests := fun hoff hpr _ => h.rests hoff hpr (hnot false) }
  rcases h.followed r hr hne with hqd | ⟨start', hstr'⟩
  · exact .inl hqd
  · exact absurd hstr' (hnot start')

theorem trigger (hdl : s.request = .idle) (number : Nat) {cmd : TriggerCmd}
    (hprepa : cmd = .start → s.needsPrepare = false) : (s.trigger number cmd).1.Inv := by
  have hnot : ∀ r, s.request ≠ .queue r := by simp [hdl]
  have hrunn (hr : s.Running) : s.ioRequested → s.started := fun hwant => hr hwant (by simp [hdl])
  unfold PcmStream.trigger
  by_cases hnum : number ≠ 0
  · rw [if_pos hnum]
    exact h
  rw [if_neg hnum]
  cases cmd with
  | start =>
    by_cases hbuf : s.hasBuffer = false
    · rw [if_pos hbuf]
      exact h
    · rw [if_neg hbuf]
      refine h.request_step hnot id (fun hr hwant _ => hrunn hr hwant) ?_
      exact ⟨rfl, fun _ => ⟨Bool.eq_true_of_not_eq_false hbuf, hprepa rfl⟩⟩
  | stop => exact h.request_step hnot id (fun hr hwant _ => hrunn hr hwant) rfl
  | other => exact h

theorem quiesce (hreq : s.request = .quiesce) : Inv { s with started := false, request := .lock false } := by
  have hla : s.lastRequest = some false := by
    have := h.request
    simpa only [AtRequest, hreq] using this
  refine h.request_step (by simp [hreq]) (fun _ => rfl) ?_ ⟨hla, nofun⟩
  intro _ _ hlo
  exact absurd rfl hlo

theorem noteRequest {start : Bool} (hreq : s.request = .lock start) : (s.noteRequest start).Inv := by
  have hla : s.lastRequest = some start ∧ (start → s.hasBuffer ∧ s.needsPrepare = false) := by
    have := h.request
    simpa only [AtRequest, hreq] using this
  refine ⟨?_, ⟨hla.1, rfl⟩, fun hwant => (hla.2 hwant).1, fun _ _ _ => .inr ⟨start, rfl⟩,
    fun _ _ hque => absurd rfl (hque start), fun hoff hpr hque => ?_⟩
  · cases start with
    | false => exact h.stage.mono rfl rfl rfl rfl id fun _ => nofun
    | true =>
      cases hbef : s.ioRequested with
      | true => exact h.stage.mono rfl rfl rfl rfl id fun hrunn _ _ => hrunn hbef (by simp [hreq])
      | false =>
        -- a start after a stop finds the work item at rest and the device stopped
        have hque : ∀ r, s.request ≠ .queue r := by simp [hreq]
        obtain ⟨hwk, hqd⟩ := h.rests hbef (hla.2 rfl).2 (hque false)
        have hrem := h.settled hwk hqd hque
        have hst := h.stage
        simp only [AtStage, hwk] at hst
        have hoff : s.deviceRuns = false := by
          apply targetState_injective
          rw [← hst.1, hrem, hbef]
        simp only [AtStage, PcmStream.noteRequest, hwk]
        exact ⟨hst.1, hst.2.1, by simp [hoff]⟩
  · have hfal : start = false := hoff
    subst hfal
    exact absurd rfl hque

theorem queueWork {start : Bool} (hreq : s.request = .queue start) :
    Inv { s with queued := true, request := .idle, needsPrepare := s.needsPrepare || !start } := by
  have hla : s.lastRequest = some start ∧ s.ioRequested = start := by
    have := h.request
    simpa only [AtRequest, hreq] using this
  refine { h with stage := ?_, request := fun r hr => ?_, followed := fun _ _ _ => .inl rfl,
                  settled := fun _ => nofun, rests := by grind }
  · exact h.stage.mono rfl rfl rfl rfl id fun hrunn hwant _ => hrunn hwant (by simp [hreq])
  · cases hla.1.symm.trans hr
    exact hla.2

theorem requestIo (hnx : s.requestIo = some t) : t.Inv := by
  unfold PcmStream.requestIo at hnx
  cases hreq : s.request <;> simp only [hreq, some.injEq, reduceCtorEq] at hnx <;> subst hnx
  case quiesce => exact h.quiesce hreq
  case lock start => exact h.noteRequest hreq
  case queue start => exact h.queueWork hreq

/-! ### Steps of the work item -/

/-- The work item is at rest where a stop has been followed by `prepare`. -/
theorem not_rests (hby : s.work ≠ .idle ∨ s.queued) :
    ¬(s.ioRequested = false ∧ s.needsPrepare = false ∧ s.request ≠ .queue false) := by
  rintro ⟨hoff, hpr, hque⟩
  obtain ⟨hwk, hqd⟩ := h.rests hoff hpr hque
  rcases hby with hby | hby
  · exact hby hwk
  · rw [hqd] at hby
    cases hby

theorem work_step (hby : s.work ≠ .idle) {started runs : Bool} {w : WorkStage} {remote : RemoteIoState}
    (hw : w ≠ .idle) (hsa : w.requested = none ∨ w.requested = s.work.requested ∨ w.requested = some s.ioRequested)
    (hst : AtStage { s with
      started := started, deviceRuns := runs, work := w, remoteIoState := remote }) :
    Inv { s with started := started, deviceRuns := runs, work := w, remoteIoState := remote } := by
  refine { h with stage := hst, followed := fun r (hr : w.requested = some r) hne => ?_,
                  settled := fun hdl => absurd hdl hw,
                  rests := fun hoff hpr hque => absurd ⟨hoff, hpr, hque⟩ (h.not_rests (.inl hby)) }
  rcases hsa with hno | hsa | hnow
  · cases hno.symm.trans hr
  · exact h.followed r (hsa ▸ hr) hne
  · exact absurd (some.inj (hnow.symm.trans hr)) hne

theorem work_end (hby : s.work ≠ .idle) {remote : RemoteIoState}
    (hrem : s.queued = false → (∀ start, s.request ≠ .queue start) → remote = targetState s.ioRequested)
    (hst : AtStage { s with work := .idle, remoteIoState := remote }) :
    Inv { s with work := .idle, remoteIoState := remote } :=
  { h with
    stage := hst
    followed := nofun
    settled := fun _ => hrem
    rests := fun hoff hpr hque => absurd ⟨hoff, hpr, hque⟩ (h.not_rests (.inl hby)) }

theorem ioWorkBegin (hwk : s.work = .idle) (hqd : s.queued) : Inv { s with queued := false, work := .check } := by
  have hst := h.stage
  simp only [AtStage, hwk] at hst
  exact { h with
    stage := hst
    followed := nofun
    settled := nofun
    rests := fun hoff hpr hque => absurd ⟨hoff, hpr, hque⟩ (h.not_rests (.inr hqd)) }

theorem ioWorkCheck (hwk : s.work = .check) : s.ioWorkCheck.Inv := by
  have hby : s.work ≠ .idle := by simp [hwk]
  have hst := h.stage
  simp only [AtStage, hwk] at hst
  unfold PcmStream.ioWorkCheck
  by_cases hthere : s.remoteIoState = targetState s.ioRequested
  · rw [if_pos hthere]
    exact h.work_end hby (fun _ _ => hthere) hst
  rw [if_neg hthere]
  by_cases hwant : s.ioRequested
  · rw [if_pos hwant]
    exact h.work_step hby nofun (.inr (.inr (congrArg some hwant.symm))) (h.buffer hwant)
  · rw [if_neg hwant]
    have hoff := Bool.eq_false_of_not_eq_true hwant
    exact h.work_step hby nofun (.inr (.inr (congrArg some hoff.symm))) trivial

theorem ioWorkFinish {g : Nat} {requested : Bool} {status : Int}
    (hwk : s.work = .finish g requested status) : (s.ioWorkFinish g requested status).Inv := by
  have hby : s.work ≠ .idle := by simp [hwk]
  have hst := h.stage
  simp only [AtStage, hwk] at hst
  obtain ⟨rfl, hdev, hon, hoff⟩ := hst
  unfold PcmStream.ioWorkFinish
  simp only [ne_eq, not_true_eq_false, if_false, false_or]
  have hres : targetState requested = targetState s.deviceRuns ∧
      (s.deviceRuns = false → s.started = false) ∧ (s.deviceRuns → s.Running) := by
    rw [hdev]
    exact ⟨rfl, hoff, hon⟩
  by_cases hgen : g = s.ioGeneration
  · rw [if_pos hgen]
    refine h.work_end hby ?_ hres
    -- no new run is coming, so the request is still that of the pass
    intro hqd hque
    by_contra hne
    have hchg : s.ioRequested ≠ requested := by
      rintro rfl
      exact hne rfl
    rcases h.followed requested (by rw [hwk]; rfl) hchg with hrun | ⟨start, hstr⟩
    · rw [hqd] at hrun
      cases hrun
    · exact hque start hstr
  · rw [if_neg hgen]
    exact h.work_step hby nofun (.inl rfl) hres

theorem ioWork (hnx : s.ioWork = some t) : t.Inv := by
  have hst := h.stage
  unfold PcmStream.ioWork at hnx
  cases hwk : s.work with
  | idle =>
    simp only [hwk, ite_none_right_eq_some, some.injEq] at hnx
    obtain ⟨hqd, rfl⟩ := hnx
    exact h.ioWorkBegin hwk hqd
  | check =>
    simp only [hwk, some.injEq] at hnx
    subst hnx
    exact h.ioWorkCheck hwk
  | clear g =>
    simp only [AtStage, hwk] at hst
    simp only [hwk, some.injEq] at hnx
    rw [if_pos hst] at hnx
    subst hnx
    exact h.work_step (by simp [hwk]) nofun (.inr (.inl (by rw [hwk]; rfl))) hst
  | publish g =>
    simp only [hwk, some.injEq] at hnx
    subst hnx
    exact h.work_step (by simp [hwk]) nofun (.inr (.inl (by rw [hwk]; rfl))) fun _ _ => rfl
  | startIo _ | stopIo _ => simp [hwk] at hnx
  | abandon g status => simp only [AtStage, hwk] at hst
  | quiesce g =>
    simp only [hwk, some.injEq] at hnx
    subst hnx
    exact h.work_step (by simp [hwk]) nofun (.inr (.inl (by rw [hwk]; rfl))) rfl
  | finish g requested status =>
    simp only [hwk, some.injEq] at hnx
    subst hnx
    exact h.ioWorkFinish hwk

theorem commandDone {acted : Bool} (hnx : s.commandDone 0 acted = some t) :
    t.Inv := by
  have hst := h.stage
  unfold PcmStream.commandDone at hnx
  cases hwk : s.work with
  | startIo g =>
    simp only [AtStage, hwk] at hst
    simp only [hwk, ne_eq, not_true_eq_false, if_false, deviceAfter, true_or, if_true, some.injEq] at hnx
    subst hnx
    exact h.work_step (by simp [hwk]) nofun (.inr (.inl (by rw [hwk]; rfl))) ⟨rfl, rfl, fun _ => hst, by simp⟩
  | stopIo g =>
    simp only [AtStage, hwk] at hst
    simp only [hwk, deviceAfter, true_or, if_true, some.injEq] at hnx
    subst hnx
    exact h.work_step (by simp [hwk]) nofun (.inr (.inl (by rw [hwk]; rfl))) ⟨rfl, rfl, by simp, fun _ => hst⟩
  | idle | check | clear g | publish g | abandon g status | quiesce g | finish g requested status => simp [hwk] at hnx

theorem prepare (hnx : s.prepare = some t) : t.Inv := by
  simp only [PcmStream.prepare, ite_none_right_eq_some, some.injEq] at hnx
  obtain ⟨⟨hwk, hqd⟩, rfl⟩ := hnx
  refine { h with stage := h.stage.mono rfl rfl rfl rfl id id, request := ?_, rests := fun _ _ _ => ⟨hwk, hqd⟩ }
  have hreq := h.request
  unfold AtRequest at hreq ⊢
  cases hst : s.request with
  | lock start => grind
  | idle | quiesce | queue start =>
    simp only [hst] at hreq ⊢
    exact hreq

theorem next {a : PcmAction} (ha : s.Orderly a) (hnx : s.next a = some t) :
    t.Inv := by
  cases a with
  | trigger number cmd =>
    simp only [PcmStream.next, ite_none_right_eq_some, some.injEq] at hnx
    obtain ⟨hdl, rfl⟩ := hnx
    apply h.trigger hdl number
    rintro rfl
    exact ha
  | requestIo => exact h.requestIo hnx
  | ioWork => exact h.ioWork hnx
  | commandDone status acted =>
    have hstat : status = 0 := ha
    subst hstat
    exact h.commandDone hnx
  | prepare => exact h.prepare hnx

end

end Inv

theorem inv_of_reach {s : PcmStream} (h : pcmMachine.Reach PcmStream.Orderly s) : s.Inv := by
  apply h.invariant (I := Inv)
  · rintro s ⟨hasBuffer, rfl⟩
    exact inv_create hasBuffer
  · intro s a t _ ha hinv hnx
    exact hinv.next ha hnx

end PcmStream

/-- The state of the stream, the state of the device and `started` all agree with the request. -/
structure PcmStream.Agrees (s : PcmStream) : Prop where
  remote : s.remoteIoState = targetState s.ioRequested
  device : s.deviceRuns = s.ioRequested
  started : s.started = s.ioRequested
  last : ∀ r, s.lastRequest = some r → s.ioRequested = r

/-- When no run of the work item is pending or running and no call of the trigger is in progress, the stream has
reached what was asked for last. -/
theorem pcm_requests_converge {s : PcmStream} (h : pcmMachine.Reach PcmStream.Orderly s)
    (hwork : s.work = .idle) (hqueued : s.queued = false) (hrequest : s.request = .idle) :
    s.Agrees := by
  have hinv := PcmStream.inv_of_reach h
  have hrem : s.remoteIoState = targetState s.ioRequested := by
    apply hinv.settled hwork hqueued
    simp [hrequest]
  have hst := hinv.stage
  simp only [PcmStream.AtStage, hwork] at hst
  obtain ⟨hknown, hoff, hon⟩ := hst
  have hdev : s.deviceRuns = s.ioRequested := targetState_injective (hknown.symm.trans hrem)
  refine ⟨hrem, hdev, ?_, ?_⟩
  · cases hwant : s.ioRequested with
    | true => exact hon (hdev.trans hwant) hwant (by simp [hrequest])
    | false => exact hoff (hdev.trans hwant)
  · have hla := hinv.request
    simpa only [PcmStream.AtRequest, hrequest] using hla

/-- A stream that is started, stopped while START_IO is on its way and started again. -/
def restart : List PcmAction :=
  [.trigger 0 .start, .requestIo, .requestIo, .ioWork, .ioWork, .ioWork,
   .trigger 0 .stop, .requestIo, .ioWork, .requestIo, .requestIo, .commandDone 0 true, .ioWork,
   .ioWork, .ioWork, .commandDone 0 true, .ioWork, .ioWork, .ioWork, .prepare,
   .trigger 0 .start, .requestIo, .requestIo, .ioWork, .ioWork, .ioWork, .ioWork, .commandDone 0 true,
   .ioWork]

/-- The stop clears `started` before START_IO is sent and the work item sets it again; the stream comes to rest
stopped. -/
theorem pcm_requests_converge_restart :
    ∃ s, pcmMachine.Reach PcmStream.Orderly s ∧ s.lastRequest = some true ∧ s.ioGeneration = 3 ∧
      s.started = true ∧ s.Agrees := by
  obtain ⟨s, hre, hwk, hqd, hreq, hla, hgen, hstar⟩ :=
    Machine.exists_of_guarded_run (M := pcmMachine)
      (P := fun s => s.work = .idle ∧ s.queued = false ∧ s.request = .idle ∧
        s.lastRequest = some true ∧ s.ioGeneration = 3 ∧ s.started = true)
      PcmStream.Orderly restart ⟨true, rfl⟩ (by decide)
  exact ⟨s, hre, hla, hgen, hstar, pcm_requests_converge hre hwk hqd hreq⟩

/-- Inside of a request for a stop `started` is cleared, the device still runs and no work is pending yet. -/
theorem request_half_made : ∃ s, pcmMachine.Reach PcmStream.Orderly s ∧ s.work = .idle ∧ s.queued = false ∧
      s.lastRequest = some false ∧ s.started = false ∧ s.ioRequested = true ∧
      s.remoteIoState = .started ∧ s.deviceRuns = true :=
  Machine.exists_of_guarded_run _ [.trigger 0 .start, .requestIo, .requestIo, .ioWork, .ioWork, .ioWork,
    .ioWork, .commandDone 0 true, .ioWork, .trigger 0 .stop, .requestIo] ⟨true, rfl⟩ (by decide)

end KaiT2en.Audio
