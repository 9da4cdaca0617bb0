import KaiT2en.Lib.Transition
import Mathlib.Data.Bool.Basic
import Mathlib.Logic.Function.Basic
import Mathlib.Tactic.Push

/-!
# Encoded frames and the end of a stream

The CAPTURE side of `t2bce_sidecar/video.c`. Encoded frames wait in `out_list` for CAPTURE buffers;
`t2sc_flush_output` pairs them up under `out_lock` and is called by three threads: when a frame has arrived, when a
buffer is queued, and when the stream is drained. Buffers are queued without `out_lock`, so an action of
`captureMachine` is a section under the lock, one round of the loop of `t2sc_flush_output` or a step outside of the
lock.

The end of the stream is flagged on the buffer of the last frame or on an empty buffer. `end_of_stream_once` is about
every run in which the device sends no frame after its answer to CompleteFrames.
-/

namespace KaiT2en.Sidecar

open KaiT2en.Lib.Transition List Function Option

def T2SC_MAX_PENDING : Nat := 16

def T2SC_META_SLOTS : Nat := 64

/-- `struct t2sc_frame`. -/
structure Frame where
  frameId : Nat
  status : Int
  keyframe : Bool
  data : List Nat
  deriving DecidableEq

def Frame.len (f : Frame) : Nat := f.data.length

/-- The bits `V4L2_BUF_FLAG_*` that the driver sets or clears. -/
structure BufFlags where
  keyframe : Bool
  pframe : Bool
  bframe : Bool
  timecode : Bool
  last : Bool
  deriving DecidableEq

/-- `struct t2sc_meta`. -/
structure FrameMeta where
  timestamp : Nat
  timecode : Nat
  flags : BufFlags
  sequence : Nat
  deriving DecidableEq

/-- A CAPTURE buffer, with the size and the contents of its plane. -/
structure CaptureBuf where
  size : Nat
  data : List Nat
  payload : Nat
  timestamp : Nat
  timecode : Nat
  sequence : Nat
  flags : BufFlags
  deriving DecidableEq

/-- What userspace gets: a buffer with a frame, with an error for a frame that is too large, an empty one, or
`V4L2_EVENT_EOS`. -/
inductive Output where
  | frame (f : Frame) (b : CaptureBuf)
  | error (f : Frame) (b : CaptureBuf)
  | empty (b : CaptureBuf)
  | eos
  deriving DecidableEq

namespace Output

/-- A buffer with `V4L2_BUF_FLAG_LAST`. -/
def isLast : Output → Bool
  | frame _ b | error _ b | empty b => b.flags.last
  | eos => false

def isEos : Output → Bool
  | eos => true
  | _ => false

def isFrame : Output → Bool
  | frame _ _ => true
  | _ => false

def isBuffer : Output → Bool
  | eos => false
  | _ => true

/-- A buffer that has used up a frame. -/
def usesFrame : Output → Bool
  | frame _ _ | error _ _ => true
  | _ => false

end Output

/-- The callers of `t2sc_flush_output`. -/
inductive Caller where
  | receive
  | user
  | drain
  deriving DecidableEq

/-- How far a call of `t2sc_flush_output` is: none, waiting for the lock, in the loop. -/
inductive FlushStage where
  | idle
  | waiting
  | looping
  deriving DecidableEq

/-- How far `t2sc_finish_drain` is. -/
inductive DrainStage where
  | idle
  /-- CompleteFrames is sent. -/
  | complete
  /-- Set `drain_done`. -/
  | mark
  | marked
  deriving DecidableEq

/-- The part of `struct t2sc_ctx` behind the CAPTURE queue, with the running calls. `arriving` is the frame with which
the receive thread waits for the lock. `log`, `frames`, `dropped` and `queued` are the history: what userspace got,
and how many frames were taken and thrown away and buffers queued. -/
structure CaptureCtx where
  /-- There is an open session, and the context is the active one. -/
  session : Bool
  metas : Nat → FrameMeta
  outList : List Frame
  outCount : Nat
  drainDone : Bool
  /-- The ready CAPTURE buffers of the m2m context. -/
  dst : List CaptureBuf
  arriving : Option Frame
  flushStage : Caller → FlushStage
  drainStage : DrainStage
  log : List Output
  frames : Nat
  dropped : Nat
  queued : Nat

/-- The context when streaming has started. -/
def CaptureCtx.create (metas : Nat → FrameMeta) : CaptureCtx where
  session := true
  metas := metas
  outList := []
  outCount := 0
  drainDone := false
  dst := []
  arriving := none
  flushStage := fun _ => .idle
  drainStage := .idle
  log := []
  frames := 0
  dropped := 0
  queued := 0

def BufFlags.setLast (flags : BufFlags) (last : Bool) : BufFlags := { flags with last := last }

/-- The buffer with a frame in it, as `t2sc_flush_output` fills it. -/
def CaptureBuf.fill (b : CaptureBuf) (m : FrameMeta) (f : Frame) : CaptureBuf :=
  { b with
    data := f.data ++ b.data.drop f.len
    payload := f.len
    timestamp := m.timestamp
    timecode := m.timecode
    sequence := m.sequence
    flags :=
      { keyframe := f.keyframe
        pframe := !f.keyframe
        bframe := false
        timecode := m.flags.timecode
        last := b.flags.last } }

namespace CaptureCtx

/-! ## The code -/

variable (s : CaptureCtx) (f : Frame)

def signalEos : CaptureCtx :=
  match s.dst with
  | [] => s
  | b :: bufs =>
    { s with
      dst := bufs
      drainDone := false
      log := s.log ++ [.empty { b with payload := 0, flags := b.flags.setLast true }, .eos] }

/-- The loop body of `t2sc_flush_output` for the frame `f` and the buffer `b`, with the frames and the
buffers behind them. -/
def flushFrame (rest : List Frame) (b : CaptureBuf) (bufs : List CaptureBuf) : CaptureCtx :=
  let taken := { s with outList := rest, outCount := s.outCount - 1, dst := bufs }
  let filled := b.fill (s.metas (f.frameId % T2SC_META_SLOTS)) f
  if f.len > b.size then { taken with log := s.log ++ [.error f { b with payload := 0 }] }
  else if s.drainDone = true ∧ rest = [] then
    { taken with
      drainDone := false
      log := s.log ++ [.eos, .frame f { filled with flags := filled.flags.setLast true }] }
  else { taken with log := s.log ++ [.frame f filled] }

/-- One round of `t2sc_flush_output`, and whether it is the last one. -/
def flushRound : CaptureCtx × Bool :=
  match s.outList, s.dst with
  | [], _ => (if s.drainDone then s.signalEos else s, true)
  | _ :: _, [] => (s, true)
  | f :: rest, b :: bufs => (s.flushFrame f rest b bufs, false)

def setStage (c : Caller) (stage : FlushStage) : CaptureCtx := { s with flushStage := update s.flushStage c stage }

/-- A round of the loop by the caller `c`. -/
def flushOutput (c : Caller) : CaptureCtx :=
  if s.flushRound.2 then s.flushRound.1.setStage c .idle else s.flushRound.1

/-- `t2sc_on_frame` up to its section under the lock. -/
def onFrame : CaptureCtx := if s.session = false ∨ f.status ≠ 0 ∨ f.len = 0 then s else { s with arriving := some f }

/-- Make room for a frame. -/
def dropOldest : CaptureCtx :=
  if T2SC_MAX_PENDING ≤ s.outCount then
    { s with outList := s.outList.tail, outCount := s.outCount - 1, dropped := s.dropped + 1 }
  else s

/-- The section of `t2sc_on_frame` under the lock. -/
def addFrame : CaptureCtx :=
  { s.dropOldest with
    outList := s.dropOldest.outList ++ [f]
    outCount := s.dropOldest.outCount + 1
    arriving := none
    frames := s.frames + 1 }

/-- `t2sc_buf_queue` for a CAPTURE buffer; vb2 has cleared the flag LAST. -/
def bufQueue (b : CaptureBuf) : CaptureCtx :=
  { s with
    dst := s.dst ++ [{ b with flags := b.flags.setLast false }]
    queued := s.queued + 1 }

/-- The start of `t2sc_finish_drain`. -/
def finishDrain : CaptureCtx := { s with drainStage := if s.session then .complete else .mark }

/-- The section of `t2sc_finish_drain`. -/
def markDrained : CaptureCtx := { s with drainDone := true, drainStage := .marked }

/-- `t2sc_stop_streaming` of the OUTPUT queue, which ends in `t2sc_drop_output`. -/
def dropOutput : CaptureCtx :=
  { s with
    session := false
    outList := []
    outCount := 0
    drainDone := false
    dropped := s.dropped + s.outList.length }

/-! ## The machine -/

/-- Nobody holds `out_lock` between two actions but a caller in the loop. -/
def LockFree : Prop :=
  s.flushStage .receive ≠ .looping ∧ s.flushStage .user ≠ .looping ∧ s.flushStage .drain ≠ .looping
  deriving Decidable

/-- The receive thread is not in `t2sc_on_frame`. -/
def ReceiveIdle : Prop := s.arriving = none ∧ s.flushStage .receive = .idle
  deriving Decidable

end CaptureCtx

inductive CaptureAction where
  /-- The receive thread gets a frame. -/
  | frame (f : Frame)
  | addFrame
  | bufQueue (b : CaptureBuf)
  | finishDrain
  /-- The receive thread hands over the answer to CompleteFrames. -/
  | completed
  | markDrained
  /-- A caller of `t2sc_flush_output` takes the lock. -/
  | lock (c : Caller)
  | flush (c : Caller)
  | dropOutput
  deriving DecidableEq

/-- The steps of the driver itself, as opposed to what the device and userspace do. -/
def CaptureAction.internal : CaptureAction → Bool
  | .addFrame | .markDrained | .lock _ | .flush _ => true
  | _ => false

variable (s : CaptureCtx) (log : List Output)

def CaptureCtx.next : CaptureAction → Option CaptureCtx
  | .frame f => if s.ReceiveIdle then some (s.onFrame f) else none
  | .addFrame =>
    match s.arriving with
    | some f => if s.LockFree then some ((s.addFrame f).setStage .receive .waiting) else none
    | none => none
  | .bufQueue b => if s.flushStage .user = .idle then some ((s.bufQueue b).setStage .user .waiting) else none
  | .finishDrain => if s.drainStage = .idle then some s.finishDrain else none
  | .completed => if s.drainStage = .complete ∧ s.ReceiveIdle then some { s with drainStage := .mark } else none
  | .markDrained =>
    if s.drainStage = .mark ∧ s.LockFree then some (s.markDrained.setStage .drain .waiting)
    else none
  | .lock c => if s.flushStage c = .waiting ∧ s.LockFree then some (s.setStage c .looping) else none
  | .flush c => if s.flushStage c = .looping then some (s.flushOutput c) else none
  | .dropOutput => if s.LockFree then some s.dropOutput else none

def captureMachine : Machine CaptureCtx CaptureAction where
  init s := ∃ metas, s = CaptureCtx.create metas
  next := CaptureCtx.next

/-- The device sends no frame after its answer, and the drain is that of a streaming context. -/
def CaptureCtx.Assumed : CaptureAction → Prop
  | .frame _ => s.drainStage = .idle ∨ s.drainStage = .complete
  | .finishDrain => s.session = true
  | _ => True

instance : ∀ a, Decidable (s.Assumed a)
  | .frame _ => inferInstanceAs (Decidable (_ ∨ _))
  | .finishDrain => inferInstanceAs (Decidable (_ = _))
  | .addFrame | .bufQueue _ | .completed | .markDrained | .lock _ | .flush _ | .dropOutput =>
    inferInstanceAs (Decidable True)

/-! ## The end of a log -/

/-- Nothing in the log speaks of the end of the stream. -/
def Unsignalled : Prop := ∀ o ∈ log, o.isLast = false ∧ o.isEos = false

/-- The log ends with the end of the stream, on the buffer of a frame or on an empty one. -/
def Signalled : Prop :=
  ∃ before, Unsignalled before ∧ ((∃ f b, b.flags.last = true ∧ log = before ++ [.eos, .frame f b]) ∨
      ∃ b, b.flags.last = true ∧ log = before ++ [.empty b, .eos])

/-- The end of the stream is signalled once: one buffer with the flag LAST, one event, and no frame
behind that buffer. -/
structure EndsOnce : Prop where
  last : log.countP Output.isLast = 1
  eos : log.countP Output.isEos = 1
  final : log.Pairwise fun o o' => o.isLast = true → o'.isFrame = false

theorem Unsignalled.append {log log' : List Output} (h : Unsignalled log) (h' : Unsignalled log') :
    Unsignalled (log ++ log') := by
  intro o ho
  rcases mem_append.1 ho with ho | ho
  · exact h o ho
  · exact h' o ho

theorem Unsignalled.countP_eq_zero {log : List Output} (h : Unsignalled log) :
    log.countP Output.isLast = 0 ∧ log.countP Output.isEos = 0 := by
  constructor <;>
    · apply List.countP_eq_zero.2
      intro o ho
      simp [h o ho]

theorem Signalled.endsOnce {log : List Output} (h : Signalled log) : EndsOnce log := by
  obtain ⟨before, hbef, hend⟩ := h
  obtain ⟨hla, heos⟩ := hbef.countP_eq_zero
  have hfr : ∀ {o} (p : Prop), o ∈ before → o.isLast → p := by
    intro o p ho hflag
    rw [(hbef o ho).1] at hflag
    cases hflag
  have hpairs : before.Pairwise fun o o' => o.isLast → o'.isFrame = false :=
    List.Pairwise.imp_of_mem (fun ho _ _ => hfr _ ho) (pairwise_of_forall (R := fun _ _ => True)
      fun _ _ => trivial)
  rcases hend with ⟨f, b, hb, rfl⟩ | ⟨b, hb, rfl⟩
  · refine ⟨?_, ?_, pairwise_append.2 ⟨hpairs, ?_, fun o ho _ _ => hfr _ ho⟩⟩
    · simp [countP_append, hla, Output.isLast, hb]
    · simp [countP_append, countP_cons, heos, Output.isEos]
    · simp [Output.isLast]
  · refine ⟨?_, ?_, pairwise_append.2 ⟨hpairs, ?_, fun o ho _ _ => hfr _ ho⟩⟩
    · simp [countP_append, hla, Output.isLast, hb]
    · simp [countP_append, countP_cons, heos, Output.isEos]
    · simp [Output.isFrame]

namespace CaptureCtx

/-- What making room for a frame leaves alone. -/
structure MakesRoom (s t : CaptureCtx) : Prop where
  drainStage : t.drainStage = s.drainStage
  drainDone : t.drainDone = s.drainDone
  flushStage : t.flushStage = s.flushStage
  frames : t.frames = s.frames
  less : t.outList.length ≤ s.outList.length

theorem dropOldest_eq (s : CaptureCtx) : MakesRoom s s.dropOldest := by
  unfold dropOldest
  split
  · exact ⟨rfl, rfl, rfl, rfl, (tail_sublist _).length_le⟩
  · exact ⟨rfl, rfl, rfl, rfl, Nat.le_refl _⟩

/-! ## The books -/

/-- What the frames, the buffers and the log say about each other, whoever is running. -/
structure Books (s : CaptureCtx) : Prop where
  count : s.outCount = s.outList.length
  bound : s.outCount ≤ T2SC_MAX_PENDING
  unflagged : ∀ b ∈ s.dst, b.flags.last = false
  buffers : s.queued = s.dst.length + s.log.countP Output.isBuffer
  frames : s.frames = s.outList.length + s.dropped + s.log.countP Output.usesFrame
  early : s.drainStage ≠ .marked → s.drainDone = false
  /-- Before the end each buffer handed over has used up a frame. -/
  unsignalled : s.drainStage ≠ .marked ∨ s.drainDone = true →
    Unsignalled s.log ∧ s.log.countP Output.isBuffer = s.log.countP Output.usesFrame
  signalled : s.drainStage = .marked → s.drainDone = false →
    s.outList = [] ∧ (Signalled s.log ∨ s.session = false ∧ Unsignalled s.log)

namespace Books

variable {s : CaptureCtx}

theorem create (metas : Nat → FrameMeta) : (CaptureCtx.create metas).Books :=
  ⟨rfl, Nat.zero_le _, nofun, rfl, rfl, fun _ => rfl, fun _ => ⟨nofun, rfl⟩, nofun⟩

section

variable (h : s.Books)
include h

theorem setStage (c : Caller) (stage : FlushStage) : (s.setStage c stage).Books := { h with }

theorem marked (hdn : s.drainDone) : s.drainStage = .marked := by
  by_contra hne
  rw [h.early hne] at hdn
  cases hdn

theorem take {f : Frame} {rest : List Frame} {b : CaptureBuf}
    {bufs : List CaptureBuf} {o : Output} (hls : s.outList = f :: rest) (hdst : s.dst = b :: bufs)
    (ho : o.isLast = false ∧ o.isEos = false) (huses : o.usesFrame) :
    Books { s with
      outList := rest, outCount := s.outCount - 1, dst := bufs, log := s.log ++ [o] } := by
  have hbuff : o.isBuffer := by cases o <;> first | rfl | cases huses
  have hcnt := h.count
  have hbuf := h.buffers
  have hfrs := h.frames
  rw [hls, length_cons] at hcnt hfrs
  refine { count := ?_, bound := Nat.le_trans (Nat.sub_le _ _) h.bound, unflagged := ?_, buffers := by grind,
           frames := by grind, early := h.early, unsignalled := ?_, signalled := ?_ }
  · show s.outCount - 1 = rest.length
    omega
  · intro b' hb'
    exact h.unflagged b' (hdst ▸ mem_cons_of_mem b hb')
  · intro hcase
    obtain ⟨hlog, hequal⟩ := h.unsignalled hcase
    refine ⟨hlog.append ?_, by grind⟩
    intro o' ho'
    rw [mem_singleton.1 ho']
    exact ho
  · intro hmk hdn
    have hemp := (h.signalled hmk hdn).1
    rw [hls] at hemp
    cases hemp

theorem flushFrame {f : Frame} {rest : List Frame} {b : CaptureBuf}
    {bufs : List CaptureBuf} (hls : s.outList = f :: rest) (hdst : s.dst = b :: bufs) :
    (s.flushFrame f rest b bufs).Books := by
  have hflag : b.flags.last = false := h.unflagged b (hdst ▸ mem_cons_self)
  unfold CaptureCtx.flushFrame
  by_cases hsz : f.len > b.size
  · rw [if_pos hsz]
    exact h.take hls hdst ⟨hflag, rfl⟩ rfl
  rw [if_neg hsz]
  by_cases hend : s.drainDone ∧ rest = []
  · rw [if_pos hend]
    obtain ⟨hdn, rfl⟩ := hend
    have hlog := (h.unsignalled (.inr hdn)).1
    -- the buffer counts as any other, but it carries the flag
    have hbooks := h.take (o := .frame f (b.fill (s.metas (f.frameId % T2SC_META_SLOTS)) f)) hls hdst ⟨hflag, rfl⟩ rfl
    have hbuf := hbooks.buffers
    have hfrs := hbooks.frames
    simp only [countP_append] at hbuf hfrs
    exact { hbooks with
      buffers := by rw [countP_append]; exact hbuf
      frames := by rw [countP_append]; exact hfrs
      early := fun _ => rfl
      unsignalled := by rintro (hne | ⟨⟨⟩⟩); exact absurd (h.marked hdn) hne
      signalled := fun _ _ => ⟨rfl, .inl ⟨s.log, hlog, .inl ⟨f, _, rfl, rfl⟩⟩⟩ }
  · rw [if_neg hend]
    exact h.take hls hdst ⟨hflag, rfl⟩ rfl

theorem signalEos (hls : s.outList = []) (hdn : s.drainDone) :
    s.signalEos.Books := by
  have hlog := (h.unsignalled (.inr hdn)).1
  unfold CaptureCtx.signalEos
  cases hdst : s.dst with
  | nil => exact h
  | cons b bufs =>
    have hbuf := h.buffers
    have hfrs := h.frames
    exact { h with
      unflagged := fun b' hb' => h.unflagged b' (hdst ▸ mem_cons_of_mem b hb')
      buffers := by grind [Output.isBuffer]
      frames := by grind [Output.usesFrame]
      early := fun _ => rfl
      unsignalled := by rintro (hne | ⟨⟨⟩⟩); exact absurd (h.marked hdn) hne
      signalled := fun _ _ => ⟨hls, .inl ⟨s.log, hlog, .inr ⟨_, rfl, rfl⟩⟩⟩ }

theorem flushRound : s.flushRound.1.Books := by
  unfold CaptureCtx.flushRound
  cases hls : s.outList with
  | nil =>
    by_cases hdn : s.drainDone
    · simp only [hdn, if_true]
      exact h.signalEos hls hdn
    · simp only [hdn]
      exact h
  | cons f rest =>
    cases hdst : s.dst with
    | nil => exact h
    | cons b bufs => exact h.flushFrame hls hdst

theorem flushOutput (c : Caller) : (s.flushOutput c).Books := by
  unfold CaptureCtx.flushOutput
  by_cases hla : s.flushRound.2
  · rw [if_pos hla]
    exact h.flushRound.setStage c .idle
  · rw [if_neg hla]
    exact h.flushRound

theorem dropOldest : s.dropOldest.Books ∧ s.dropOldest.outCount < T2SC_MAX_PENDING := by
  unfold CaptureCtx.dropOldest
  have hcnt := h.count
  have hbound := h.bound
  by_cases hfl : T2SC_MAX_PENDING ≤ s.outCount
  · rw [if_pos hfl]
    have hposi : 0 < T2SC_MAX_PENDING := by decide
    have hta : s.outList.tail.length = s.outList.length - 1 := length_tail
    have hfrs := h.frames
    refine ⟨{ h with count := ?_, bound := ?_, frames := ?_, signalled := ?_ },
      show s.outCount - 1 < T2SC_MAX_PENDING by omega⟩
    · show s.outCount - 1 = s.outList.tail.length
      omega
    · show s.outCount - 1 ≤ T2SC_MAX_PENDING
      omega
    · show s.frames = s.outList.tail.length + (s.dropped + 1) + s.log.countP Output.usesFrame
      omega
    · intro hmk hdn
      obtain ⟨hemp, hlog⟩ := h.signalled hmk hdn
      exact ⟨by show s.outList.tail = []; rw [hemp]; rfl, hlog⟩
  · rw [if_neg hfl]
    exact ⟨h, Nat.lt_of_not_le hfl⟩

theorem addFrame (f : Frame) (hst : s.drainStage ≠ .marked) : (s.addFrame f).Books := by
  obtain ⟨hdr, hrm⟩ := h.dropOldest
  have hcnt := hdr.count
  have hfrs := hdr.frames
  rw [s.dropOldest_eq.frames] at hfrs
  refine { hdr with count := ?_, bound := hrm, frames := ?_, signalled := ?_ }
  · show s.dropOldest.outCount + 1 = (s.dropOldest.outList ++ [f]).length
    rw [length_append, length_singleton, hcnt]
  · show s.frames + 1 = (s.dropOldest.outList ++ [f]).length + s.dropOldest.dropped +
      s.dropOldest.log.countP Output.usesFrame
    rw [length_append, length_singleton]
    omega
  · intro hmk
    exact absurd (s.dropOldest_eq.drainStage.symm.trans hmk) hst

theorem bufQueue (b : CaptureBuf) : (s.bufQueue b).Books := by
  refine { h with unflagged := ?_, buffers := ?_ }
  · intro b' hb'
    rcases mem_append.1 hb' with hold | hnew
    · exact h.unflagged b' hold
    · rw [mem_singleton.1 hnew]
      rfl
  · show s.queued + 1 = (s.dst ++ [_]).length + s.log.countP Output.isBuffer
    rw [length_append, length_singleton, h.buffers]
    omega

theorem markDrained (hst : s.drainStage ≠ .marked) : s.markDrained.Books :=
  { h with
    early := fun hne => absurd rfl hne
    unsignalled := fun _ => h.unsignalled (.inl hst)
    signalled := nofun }

theorem dropOutput : s.dropOutput.Books := by
  refine { h with count := rfl, bound := Nat.zero_le _, frames := ?_, early := fun _ => rfl,
                  unsignalled := ?_, signalled := ?_ }
  · show s.frames = 0 + (s.dropped + s.outList.length) + s.log.countP Output.usesFrame
    rw [h.frames]
    omega
  · rintro (hne | htrue)
    · exact h.unsignalled (.inl hne)
    · cases htrue
  · intro hmk _
    refine ⟨rfl, ?_⟩
    by_cases hdn : s.drainDone
    · exact .inr ⟨rfl, (h.unsignalled (.inr hdn)).1⟩
    rcases (h.signalled hmk (Bool.eq_false_iff.2 hdn)).2 with hlog | ⟨-, hlog⟩
    · exact .inl hlog
    · exact .inr ⟨rfl, hlog⟩

theorem setDrain {stage : DrainStage} (hst : s.drainStage ≠ .marked)
    (hnew : stage ≠ .marked) : Books { s with drainStage := stage } :=
  { h with
    early := fun _ => h.early hst
    unsignalled := fun _ => h.unsignalled (.inl hst)
    signalled := fun hmk => absurd hmk hnew }

end

end Books

/-! ## The invariant -/

variable (s : CaptureCtx)

/-- The device has answered, or there was nothing to ask. -/
def Answered : Prop := s.drainStage = .mark ∨ s.drainStage = .marked

structure Inv : Prop where
  books : s.Books
  /-- After the answer of the device no frame is on its way. -/
  quiet : s.Answered → s.ReceiveIdle
  /-- While the end of the stream waits for a buffer, a buffer that is queued will be seen. -/
  seen : s.drainDone = true → s.dst = [] ∨ s.flushStage .user ≠ .idle ∨ s.flushStage .drain ≠ .idle

theorem inv_create (metas : Nat → FrameMeta) : (create metas).Inv := ⟨Books.create metas, nofun, nofun⟩

theorem signalEos_spec : s.signalEos = s ∧ s.dst = [] ∨
      s.signalEos.drainDone = false ∧ s.signalEos.outList = s.outList ∧
        s.signalEos.flushStage = s.flushStage ∧ s.signalEos.drainStage = s.drainStage ∧
        s.signalEos.arriving = s.arriving := by
  unfold signalEos
  cases s.dst with
  | nil => exact .inl ⟨rfl, rfl⟩
  | cons b bufs => exact .inr ⟨rfl, rfl, rfl, rfl, rfl⟩

/-- What a round of the loop does to the rest of the context. -/
structure RoundSpec (s t : CaptureCtx) (done : Bool) : Prop where
  flushStage : t.flushStage = s.flushStage
  drainStage : t.drainStage = s.drainStage
  arriving : t.arriving = s.arriving
  drainDone : t.drainDone = true → s.drainDone = true
  /-- The last round leaves no buffer while the drain is not over. -/
  last : done = true → t.drainDone = true → t.dst = []
  /-- The other rounds use up a frame. -/
  more : done = false → t.outList.length < s.outList.length
  less : t.outList.length ≤ s.outList.length

theorem flushFrame_spec {f : Frame} {rest : List Frame} {b : CaptureBuf}
    {bufs : List CaptureBuf} (hls : s.outList = f :: rest) :
    RoundSpec s (s.flushFrame f rest b bufs) false := by
  have hless : rest.length < s.outList.length := by
    rw [hls]
    exact Nat.lt_succ_self _
  unfold flushFrame
  by_cases hsz : f.len > b.size
  · rw [if_pos hsz]
    exact ⟨rfl, rfl, rfl, id, nofun, fun _ => hless, Nat.le_of_lt hless⟩
  rw [if_neg hsz]
  by_cases hend : s.drainDone ∧ rest = []
  · rw [if_pos hend]
    exact ⟨rfl, rfl, rfl, fun _ => hend.1, nofun, fun _ => hless, Nat.le_of_lt hless⟩
  · rw [if_neg hend]
    exact ⟨rfl, rfl, rfl, id, nofun, fun _ => hless, Nat.le_of_lt hless⟩

theorem flushRound_spec : RoundSpec s s.flushRound.1 s.flushRound.2 := by
  unfold flushRound
  cases hls : s.outList with
  | nil =>
    by_cases hdn : s.drainDone
    · simp only [hdn, if_true]
      rcases signalEos_spec s with ⟨hsa, hdst⟩ | ⟨hover, hfrs, hflush, hdi, harr⟩
      · rw [hsa]
        exact ⟨rfl, rfl, rfl, id, fun _ _ => hdst, nofun, Nat.le_refl _⟩
      refine ⟨hflush, hdi, harr, fun _ => hdn, ?_, nofun, ?_⟩
      · intro _ htrue
        rw [hover] at htrue
        cases htrue
      · exact Nat.le_of_eq (congrArg List.length hfrs)
    · simp only [hdn]
      exact ⟨rfl, rfl, rfl, id, fun _ htrue => absurd htrue hdn, nofun, Nat.le_refl _⟩
  | cons f rest =>
    cases hdst : s.dst with
    | nil => exact ⟨rfl, rfl, rfl, id, fun _ _ => hdst, nofun, Nat.le_refl _⟩
    | cons b bufs => exact s.flushFrame_spec hls

theorem next_addFrame {s t : CaptureCtx} (hnx : s.next .addFrame = some t) :
    ∃ f, s.arriving = some f ∧ (s.addFrame f).setStage .receive .waiting = t := by
  rw [next] at hnx
  cases harr : s.arriving <;> simp_all

namespace Inv

variable {s t : CaptureCtx}

section

variable (h : s.Inv)
include h

theorem not_marked_of_arriving (hby : ¬s.ReceiveIdle) : s.drainStage ≠ .marked := fun hmk => hby (h.quiet (.inr hmk))

theorem setStage {c : Caller} {stage : FlushStage} (hby : stage ≠ .idle)
    (hrec : c = .receive → ¬s.Answered) : (s.setStage c stage).Inv := by
  refine ⟨h.books.setStage c stage, ?_, ?_⟩
  · intro hans
    obtain ⟨harr, hdl⟩ := h.quiet hans
    refine ⟨harr, ?_⟩
    rw [← hdl]
    apply update_of_ne
    rintro rfl
    exact hrec rfl hans
  · intro hdn
    have hkp : ∀ c', s.flushStage c' ≠ .idle → (s.setStage c stage).flushStage c' ≠ .idle := by
      intro c' hc'
      show update s.flushStage c stage c' ≠ .idle
      by_cases heq : c' = c
      · rw [heq, update_self]
        exact hby
      · rwa [update_of_ne heq]
    rcases h.seen hdn with hdst | huser | hdi
    · exact .inl hdst
    · exact .inr (.inl (hkp _ huser))
    · exact .inr (.inr (hkp _ hdi))

theorem frame (f : Frame) (ha : ¬s.Answered) : (s.onFrame f).Inv := by
  unfold onFrame
  by_cases hbad : s.session = false ∨ f.status ≠ 0 ∨ f.len = 0
  · rw [if_pos hbad]
    exact h
  · rw [if_neg hbad]
    exact ⟨{ h.books with }, fun hans => absurd hans ha, h.seen⟩

theorem addFrame {f : Frame} (harr : s.arriving = some f) : ((s.addFrame f).setStage .receive .waiting).Inv := by
  have hby : ¬s.ReceiveIdle := by
    rintro ⟨hno, -⟩
    rw [harr] at hno
    cases hno
  have hkp := s.dropOldest_eq
  have hmk := h.not_marked_of_arriving hby
  refine ⟨(h.books.addFrame f hmk).setStage _ _, fun hans => absurd (h.quiet ?_) hby, fun hdn => ?_⟩
  · rw [Answered, ← hkp.drainStage]
    exact hans
  · exact absurd (h.books.marked (hkp.drainDone.symm.trans hdn)) hmk

theorem bufQueue (b : CaptureBuf) : ((s.bufQueue b).setStage .user .waiting).Inv := by
  exact ⟨(h.books.bufQueue b).setStage _ _, h.quiet, fun _ => .inr (.inl nofun)⟩

theorem finishDrain (hst : s.drainStage = .idle) (hses : s.session) :
    s.finishDrain.Inv := by
  unfold CaptureCtx.finishDrain
  rw [if_pos hses]
  have hmk : s.drainStage ≠ .marked := by
    rw [hst]
    nofun
  exact ⟨h.books.setDrain hmk nofun, nofun, h.seen⟩

theorem completed (hst : s.drainStage = .complete) (hdl : s.ReceiveIdle) : Inv { s with drainStage := .mark } := by
  have hmk : s.drainStage ≠ .marked := by
    rw [hst]
    nofun
  exact ⟨h.books.setDrain hmk nofun, fun _ => hdl, h.seen⟩

theorem markDrained (hst : s.drainStage = .mark) : (s.markDrained.setStage .drain .waiting).Inv := by
  have hmk : s.drainStage ≠ .marked := by
    rw [hst]
    nofun
  refine ⟨(h.books.markDrained hmk).setStage _ _, fun _ => h.quiet (.inl hst), ?_⟩
  intro _
  exact .inr (.inr nofun)

theorem flush {c : Caller} (hst : s.flushStage c = .looping) : (s.flushOutput c).Inv := by
  have hsc := s.flushRound_spec
  have hans : s.flushRound.1.Answered → s.Answered := by
    intro hans
    unfold Answered at hans ⊢
    rwa [hsc.drainStage] at hans
  unfold CaptureCtx.flushOutput
  by_cases hla : s.flushRound.2
  · rw [if_pos hla]
    refine ⟨h.books.flushRound.setStage _ _, ?_, ?_⟩
    · intro hyes
      obtain ⟨harr, hdl⟩ := h.quiet (hans hyes)
      refine ⟨hsc.arriving.trans harr, ?_⟩
      show update s.flushRound.1.flushStage c .idle .receive = .idle
      by_cases heq : Caller.receive = c
      · rw [heq, update_self]
      · rw [update_of_ne heq, hsc.flushStage]
        exact hdl
    · intro hdn
      exact .inl (hsc.last hla hdn)
  rw [if_neg hla]
  refine ⟨h.books.flushRound, ?_, ?_⟩
  · intro hyes
    obtain ⟨harr, hdl⟩ := h.quiet (hans hyes)
    exact ⟨hsc.arriving.trans harr, (congrFun hsc.flushStage _).trans hdl⟩
  · -- the caller goes on, and the receive thread is not one while the drain waits
    intro hdn
    rw [hsc.flushStage]
    have hby : s.flushStage c ≠ .idle := by
      rw [hst]
      nofun
    cases c with
    | user => exact .inr (.inl hby)
    | drain => exact .inr (.inr hby)
    | receive =>
      have hmk := h.not_marked_of_arriving fun hdl => hby hdl.2
      exact absurd (h.books.marked (hsc.drainDone hdn)) hmk

theorem dropOutput : s.dropOutput.Inv := ⟨h.books.dropOutput, h.quiet, nofun⟩

theorem next {a : CaptureAction} (ha : s.Assumed a) (hnx : s.next a = some t) :
    t.Inv := by
  cases a
  case addFrame =>
    obtain ⟨f, harr, rfl⟩ := next_addFrame hnx
    exact h.addFrame harr
  all_goals simp only [CaptureCtx.next, ite_none_right_eq_some, some.injEq] at hnx
  case frame f =>
    obtain ⟨-, rfl⟩ := hnx
    apply h.frame f
    rintro (hmark | hmark) <;> rcases ha with hear | hear <;> rw [hear] at hmark <;>
      cases hmark
  case bufQueue b =>
    obtain ⟨-, rfl⟩ := hnx
    exact h.bufQueue b
  case finishDrain =>
    obtain ⟨hst, rfl⟩ := hnx
    exact h.finishDrain hst ha
  case completed =>
    obtain ⟨⟨hst, hdl⟩, rfl⟩ := hnx
    exact h.completed hst hdl
  case markDrained =>
    obtain ⟨⟨hst, -⟩, rfl⟩ := hnx
    exact h.markDrained hst
  case lock c =>
    obtain ⟨⟨hst, -⟩, rfl⟩ := hnx
    refine h.setStage nofun ?_
    rintro rfl hans
    rw [(h.quiet hans).2] at hst
    cases hst
  case flush c =>
    obtain ⟨hst, rfl⟩ := hnx
    exact h.flush hst
  case dropOutput =>
    obtain ⟨-, rfl⟩ := hnx
    exact h.dropOutput

end

end Inv

variable {s : CaptureCtx}

theorem inv_of_reach (h : captureMachine.Reach CaptureCtx.Assumed s) : s.Inv := by
  apply h.invariant (I := Inv)
  · rintro s ⟨metas, rfl⟩
    exact inv_create metas
  · intro s a t _ ha hinv hnx
    exact hinv.next ha hnx

/-! ## The driver comes to rest -/

/-- No call is in progress, but that the drain may be waiting for the device. -/
structure Quiet (s : CaptureCtx) : Prop where
  arriving : s.arriving = none
  flushes : ∀ c, s.flushStage c = .idle
  drain : s.drainStage ≠ .mark

/-- The steps that the calls of `t2sc_flush_output` have before them, the rounds of the loop apart. -/
def flushesLeft (stages : Caller → FlushStage) : Nat :=
  let left : FlushStage → Nat
    | .idle => 0
    | .waiting => 2
    | .looping => 1
  left (stages .receive) + left (stages .user) + left (stages .drain)

/-- An upper bound of the steps of the driver that are left to do. -/
def pending (s : CaptureCtx) : Nat :=
  s.outList.length + (if s.arriving = none then 0 else 4) +
    (if s.drainStage = .mark then 3 else 0) + flushesLeft s.flushStage

theorem flushesLeft_waiting (stages : Caller → FlushStage) (c : Caller) :
    flushesLeft (update stages c .waiting) ≤ flushesLeft stages + 2 := by
  cases c <;> simp [flushesLeft, update] <;> omega

theorem flushesLeft_done {stages : Caller → FlushStage} {c : Caller} (h : stages c = .looping) :
    flushesLeft (update stages c .idle) < flushesLeft stages := by
  cases c <;> simp [flushesLeft, update, h]

/-- Each step of the driver leaves less to do. -/
theorem pending_lt {s t : CaptureCtx} {a : CaptureAction} (ha : a.internal)
    (hnx : s.next a = some t) : t.pending < s.pending := by
  cases a <;> try cases ha
  case addFrame =>
    obtain ⟨f, harr, rfl⟩ := next_addFrame hnx
    have hstag := flushesLeft_waiting s.flushStage .receive
    have hkp := s.dropOldest_eq
    have hless := hkp.less
    simp only [pending, setStage, addFrame, hkp.drainStage, hkp.flushStage, harr, length_append,
      length_singleton, if_true, reduceCtorEq, if_false]
    omega
  all_goals simp only [next, ite_none_right_eq_some, some.injEq] at hnx
  case markDrained =>
    obtain ⟨⟨hst, -⟩, rfl⟩ := hnx
    have hstag := flushesLeft_waiting s.flushStage .drain
    have hpn : (s.markDrained.setStage .drain .waiting).pending =
        s.outList.length + (if s.arriving = none then 0 else 4) + 0 +
          flushesLeft (update s.flushStage .drain .waiting) := rfl
    rw [hpn, pending, if_pos hst]
    omega
  case lock c =>
    obtain ⟨⟨hst, -⟩, rfl⟩ := hnx
    exact Nat.add_lt_add_left (by cases c <;> simp [flushesLeft, setStage, update, hst]) _
  case flush c =>
    obtain ⟨hst, rfl⟩ := hnx
    have hsc := s.flushRound_spec
    have hless := hsc.less
    unfold flushOutput
    by_cases hla : s.flushRound.2
    · rw [if_pos hla]
      have hstag := flushesLeft_done hst
      simp only [pending, setStage, hsc.flushStage, hsc.drainStage, hsc.arriving]
      omega
    · rw [if_neg hla]
      have hmo := hsc.more (Bool.eq_false_iff.2 hla)
      simp only [pending, hsc.flushStage, hsc.drainStage, hsc.arriving]
      omega

/-- While a call is in progress the driver has a step to make. -/
theorem exists_internal (h : ¬s.Quiet) : ∃ a t, a.internal ∧ s.next a = some t := by
  by_cases hlo : s.LockFree
  · by_cases harr : s.arriving = none
    · by_cases hmark : s.drainStage = .mark
      · exact ⟨.markDrained, _, rfl, if_pos ⟨hmark, hlo⟩⟩
      -- some call waits for the lock
      have hby : ∃ c, s.flushStage c ≠ .idle := by
        by_contra hall
        push Not at hall
        exact h ⟨harr, hall, hmark⟩
      obtain ⟨c, hc⟩ := hby
      have hwt : s.flushStage c = .waiting := by
        obtain ⟨hrec, huser, hdi⟩ := hlo
        cases hst : s.flushStage c with
        | idle => exact absurd hst hc
        | waiting => rfl
        | looping =>
          cases c with
          | receive => exact absurd hst hrec
          | user => exact absurd hst huser
          | drain => exact absurd hst hdi
      exact ⟨.lock c, _, rfl, if_pos ⟨hwt, hlo⟩⟩
    · obtain ⟨f, hf⟩ := ne_none_iff_exists'.1 harr
      refine ⟨.addFrame, (s.addFrame f).setStage .receive .waiting, rfl, ?_⟩
      simp only [next, hf]
      exact if_pos hlo
  · -- the caller in the loop goes on
    have hlp : ∃ c, s.flushStage c = .looping := by
      by_contra hall
      push Not at hall
      exact hlo ⟨hall _, hall _, hall _⟩
    obtain ⟨c, hc⟩ := hlp
    exact ⟨.flush c, _, rfl, if_pos hc⟩

/-- The driver's own steps come to an end, and they end with no call in progress. -/
structure Finishes (s : CaptureCtx) : Prop where
  bounded : ∀ l t, (∀ a ∈ l, CaptureAction.internal a = true) → captureMachine.run s l = some t → l.length ≤ s.pending
  progress : ¬s.Quiet → ∃ a t, a.internal = true ∧ s.next a = some t

theorem finishes (s : CaptureCtx) : s.Finishes := by
  refine ⟨?_, exists_internal⟩
  intro l t hl hrun
  have hlen := Machine.length_add_le_of_run (M := captureMachine) (fun s a t ha hnx => pending_lt ha hnx) hl hrun
  exact Nat.le_trans (Nat.le_add_right _ _) hlen

theorem Inv.signalled (h : s.Inv) (hdrained : s.drainStage = .marked) (hses : s.session) (hqu : s.Quiet)
    (henough : s.frames < s.queued + s.dropped) : Signalled s.log := by
  have hover : s.drainDone = false := by
    by_contra hdn
    have hdn' : s.drainDone := Bool.eq_true_of_not_eq_false hdn
    have hdst : s.dst = [] := by
      rcases h.seen hdn' with hdst | huser | hdi
      · exact hdst
      · exact absurd (hqu.flushes _) huser
      · exact absurd (hqu.flushes _) hdi
    -- every buffer has used up a frame
    have hequal := (h.books.unsignalled (.inr hdn')).2
    have hbuf := h.books.buffers
    have hfrs := h.books.frames
    rw [hdst, length_nil] at hbuf
    omega
  rcases (h.books.signalled hdrained hover).2 with hlog | ⟨hcl, -⟩
  · exact hlog
  · rw [hses] at hcl
    cases hcl

theorem Books.endsOnce (h : s.Books) : Unsignalled s.log ∨ EndsOnce s.log := by
  by_cases hear : s.drainStage ≠ .marked ∨ s.drainDone
  · exact .inl (h.unsignalled hear).1
  push Not at hear
  rcases (h.signalled hear.1 (Bool.eq_false_iff.2 hear.2)).2 with hlog | ⟨-, hlog⟩
  · exact .inr hlog.endsOnce
  · exact .inl hlog

end CaptureCtx

/-- In every run the list and its counter agree and stay bounded, and the end of the stream is signalled at most once,
with no frame behind it. It is signalled when the context has been drained, the calls are over and more CAPTURE
buffers were queued than frames kept; and the calls do get over. -/
theorem end_of_stream_once {s : CaptureCtx} (h : captureMachine.Reach CaptureCtx.Assumed s) :
    (s.outCount = s.outList.length ∧ s.outCount ≤ T2SC_MAX_PENDING) ∧ (Unsignalled s.log ∨ EndsOnce s.log) ∧
      (s.drainStage = .marked → s.session = true → s.Quiet → s.frames < s.queued + s.dropped → EndsOnce s.log) ∧
      s.Finishes := by
  have hinv := CaptureCtx.inv_of_reach h
  refine ⟨⟨hinv.books.count, hinv.books.bound⟩, hinv.books.endsOnce, ?_, s.finishes⟩
  intro hdrained hses hqu henough
  exact (hinv.signalled hdrained hses hqu henough).endsOnce

/-- A frame with `n` bytes. -/
def frameOf (frameId n : Nat) : Frame :=
  { frameId := frameId, status := 0, keyframe := false, data := List.replicate n 0 }

/-- An unused CAPTURE buffer with `n` bytes. -/
def bufferOf (n : Nat) : CaptureBuf :=
  { size := n
    data := List.replicate n 0
    payload := 0
    timestamp := 0
    timecode := 0
    sequence := 0
    flags := ⟨false, false, false, false, true⟩ }

/-- Two frames, the second of which is too large for its buffer, and a drain that waits for buffers. -/
def oversizedTail : List CaptureAction :=
  [.frame (frameOf 0 2), .addFrame, .lock .receive, .flush .receive, .finishDrain,
   .frame (frameOf 1 9), .bufQueue (bufferOf 4), .addFrame, .lock .user, .flush .user, .flush .user,
   .lock .receive, .flush .receive, .completed, .markDrained, .bufQueue (bufferOf 4), .lock .drain,
   .flush .drain, .flush .drain, .lock .user, .flush .user, .bufQueue (bufferOf 4), .lock .user,
   .flush .user]

/-- The second frame uses up a buffer with an error, and the end is flagged on an empty one. -/
theorem end_of_stream_once_oversized : ∃ s, captureMachine.Reach CaptureCtx.Assumed s ∧ s.frames = 2 ∧ s.queued = 3 ∧
      EndsOnce s.log ∧ s.Finishes := by
  obtain ⟨s, hre, hdrained, hses, harr, hrec, huser, hdi, hfrs, hqd, hdr⟩ :=
    Machine.exists_of_guarded_run (M := captureMachine)
      (s := .create fun _ => ⟨0, 0, ⟨false, false, false, false, false⟩, 0⟩)
      (P := fun s => s.drainStage = .marked ∧ s.session = true ∧ s.arriving = none ∧
        s.flushStage .receive = .idle ∧ s.flushStage .user = .idle ∧ s.flushStage .drain = .idle ∧
        s.frames = 2 ∧ s.queued = 3 ∧ s.dropped = 0) CaptureCtx.Assumed oversizedTail ⟨_, rfl⟩ (by decide)
  have hqu : s.Quiet := by
    refine ⟨harr, ?_, ?_⟩
    · intro c
      cases c
      · exact hrec
      · exact huser
      · exact hdi
    · rw [hdrained]
      nofun
  obtain ⟨-, -, hends, hfin⟩ := end_of_stream_once hre
  exact ⟨s, hre, hfrs, hqd, hends hdrained hses hqu (by omega), hfin⟩

end KaiT2en.Sidecar
