import KaiT2en.Vhci.Machine

/-!
# What can happen to the requests of a queue

`CoreStep` lists everything that one action can do to the part of the queue that requests share. `UrbStep` is what one
request can do by itself: change its state (`Quiet`), submit data (`Prepared`), or end (`Final`). The functions of
`transfer.c` are sequences of these steps (`System.next_steps`), so a property of all runs needs one argument for each
step here.

A request that waits in `INIT_PENDING` takes a credit with the step that starts it (`Core.charge`).
-/

namespace KaiT2en.Vhci

open KaiT2en.Kernel KaiT2en.Dma

/-! ## Changes of one request -/

namespace VUrb

variable (v : VUrb)

/-- A completion of `n` bytes is counted. -/
def advance (n : Nat) : VUrb :=
  { v with
    receiveOffset := add32 v.receiveOffset n
    acked := v.acked ++ [(v.receiveOffset, n)] }

/-- The checks of `bce_vhci_urb_data_transfer_completion` on a completion of `n` bytes. -/
structure Accepts (n : Nat) : Prop where
  state : v.state = .waitingForCompletion
  offset_le : v.receiveOffset ≤ v.length
  le_submitted : n ≤ v.submittedLength
  le_rest : n ≤ sub32 v.length v.receiveOffset

/-- The request with the window that `bce_vhci_urb_data_transfer_in` opens. -/
def openAll : VUrb := { v with requestEnd := add32 v.receiveOffset (sub32 v.length v.receiveOffset) }

/-- The request with the window that a message for `size` bytes opens. -/
def openWindow (size : Nat) : VUrb :=
  { v with requestEnd := add32 v.receiveOffset (min (sub32 v.length v.receiveOffset) size) }

/-- Two versions of a request that differ in its offsets and sizes at most. -/
structure SameRequest (v' v : VUrb) : Prop where
  urb : v'.urb = v.urb
  isControl : v'.isControl = v.isControl
  state : v'.state = v.state
  cancelWasActive : v'.cancelWasActive = v.cancelWasActive

-- The definitions are unfolded before `rfl`: the offsets are sums modulo `2 ^ 32`, which the
-- comparison of two whole requests would try to evaluate.
theorem sameRequest_advance (n : Nat) : SameRequest (v.advance n) v := by
  exact ⟨rfl, rfl, rfl, rfl⟩

theorem sameRequest_openAll : SameRequest v.openAll v := by
  unfold openAll
  exact ⟨rfl, rfl, rfl, rfl⟩

theorem sameRequest_openWindow (size : Nat) : SameRequest (v.openWindow size) v := by
  unfold openWindow
  exact ⟨rfl, rfl, rfl, rfl⟩

/-- The request is in a state from which `bce_vhci_urb_data_start` is called. -/
def CanStart : Prop := v.state = .initPending ∧ v.isControl = false ∨ v.state = .controlWaitingForSetupCompletion

/-- The state in which `bce_vhci_urb_data_start` leaves a request to the device. -/
def startState : UrbState :=
  if 0 < v.length ∨ v.isZlp = true then .waitingForTransferRequest else .dataTransferComplete

end VUrb

/-- The changes of a request that neither submit nor end it. -/
inductive Quiet : VUrb → VUrb → Prop
  | waitForSetup (v : VUrb) : v.state = .initPending → v.isControl = true →
      Quiet v { v with state := .controlWaitingForSetupRequest }
  | startOut (v : VUrb) : v.CanStart → v.dir = .toDevice → Quiet v { v with state := v.startState }
  /-- A start failed after it had opened the window. -/
  | failedStart (v : VUrb) (stop : Nat) : v.state = .initPending → v.isControl = false →
      Quiet v { v with requestEnd := stop }
  | waitForWindow (v : VUrb) : v.Accepts v.submittedLength → v.dir = .toDevice →
      (v.advance v.submittedLength).receiveOffset < v.length →
      Quiet v { v.advance v.submittedLength with state := .waitingForTransferRequest }
  /-- The data stage of a control request is over. -/
  | dataDone (v : VUrb) (n : Nat) : v.Accepts n → v.isControl = true →
      (v.dir = .toDevice → v.length ≤ (v.advance n).receiveOffset) →
      Quiet v { v.advance n with
        actualLength := (v.advance n).receiveOffset, state := .dataTransferComplete }
  /-- The submission of a paused request to the device was flushed. -/
  | resumeOut (v : VUrb) : v.state = .waitingForCompletion → v.dir = .toDevice → Quiet v { v with
        requestEnd := v.receiveOffset, submittedLength := 0, state := .waitingForTransferRequest }

/-- `Prepared v v' d limit`: the request `v` is about to submit on the queue for `d`, as `v'` and for
at most `limit` bytes. -/
inductive Prepared : VUrb → VUrb → Direction → Nat → Prop
  | start (v : VUrb) {limit : Nat} : v.CanStart ∨ v.state = .waitingForCompletion →
      v.dir = .fromDevice → limit = sub32 v.length v.receiveOffset →
      Prepared v v.openAll .fromDevice limit
  | window (v : VUrb) (size : Nat) {limit : Nat} : v.state = .waitingForTransferRequest →
      (sub32 v.length v.receiveOffset = 0 → v.isZlp = true) →
      limit = sub32 (v.openWindow size).requestEnd v.receiveOffset →
      Prepared v (v.openWindow size) .toDevice limit
  | continue (v : VUrb) {d : Direction} {limit : Nat} : v.Accepts v.submittedLength →
      (v.advance v.submittedLength).receiveOffset < v.requestEnd → d = v.dir →
      limit = sub32 v.requestEnd (v.advance v.submittedLength).receiveOffset →
      Prepared v (v.advance v.submittedLength) d limit

theorem Prepared.sameRequest {v v' : VUrb} {d : Direction} {limit : Nat}
    (h : Prepared v v' d limit) : VUrb.SameRequest v' v := by
  cases h with
  | start => exact v.sameRequest_openAll
  | window size => exact v.sameRequest_openWindow size
  | «continue» => exact v.sameRequest_advance v.submittedLength

/-- `Final log u v v' status`: the request `u` ends as `v'` with `status`, after the history
`log`. -/
inductive Final (log : List Event) (u : UrbId) : VUrb → VUrb → Int → Prop
  /-- A stage failed. -/
  | failed (v v' : VUrb) (status : Int) : v'.state = v.state →
      v.state ≠ .initPending → v.state ≠ .cancelled → status ≠ 0 → Final log u v v' status
  /-- The data of a request without a status stage is complete. -/
  | done (v : VUrb) (n : Nat) : v.Accepts n → v.isControl = false →
      (v.dir = .toDevice → n = v.submittedLength ∧ v.length ≤ (v.advance n).receiveOffset) →
      Final log u v
        { v.advance n with
          actualLength := (v.advance n).receiveOffset, state := .dataTransferComplete } 0
  /-- Both the data stage and the status stage succeeded. -/
  | succeeded (v : VUrb) : v.state = .dataTransferComplete → Final log u v { v with state := .controlComplete } 0
  /-- The status stage of a request failed. -/
  | statusFailed (v : VUrb) : v.state ≠ .initPending → v.state ≠ .cancelled →
      Final log u v { v with state := .controlComplete } (-EPIPE)
  /-- A failed status stage was reported for a request that is being cancelled. -/
  | cancelled (v : VUrb) (s : Nat) : v.state = .cancelled →
      .status u .cancelled s ∈ log → s ≠ 0 → s ≠ BCE_VHCI_SUCCESS →
      Final log u v { v with state := .controlComplete } (-EPIPE)

/-! ## Steps of one request -/

namespace Core

variable (c : Core)

/-- Take a credit when a request leaves `INIT_PENDING`. -/
def charge (old new : UrbState) : Core :=
  if old = .initPending ∧ new ≠ .initPending then
    { c with remainingActiveRequests := sub32 c.remainingActiveRequests 1 }
  else c

/-- A queue after a reservation and the submission of `element` for `u`. -/
def pushed (d : Direction) (u : UrbId) (element : QeSubmission) : Pipe where
  sq := { (c.pipe d).sq with
    availableCommands := (c.pipe d).sq.availableCommands - 1 }.nextSubmission ⟨u, element⟩
  owners := (c.pipe d).owners ++ [u]
  live := (c.pipe d).live ++ [(c.pipe d).sq.submitted]

/-- The request `u` submits `n` bytes as `v`. -/
def send (d : Direction) (u : UrbId) (v : VUrb) (element : QeSubmission) (n : Nat) : Core :=
  ((c.setPipe d (c.pushed d u element)).record
    (.submit d u v.receiveOffset n v (c.pipe d).liveOwners c.urbList)).setVurb u
      { v with submittedLength := n, state := .waitingForCompletion }

/-- The control request `u` submits its setup packet. -/
def sendSetup (u : UrbId) (element : QeSubmission) : Core :=
  ((c.setPipe .toDevice (c.pushed .toDevice u element)).record (.setup u)).setVurb u
    { c.vurbs u with state := .controlWaitingForSetupCompletion }

/-- A status message is stored in the control request `u`. -/
def latch (u : UrbId) (s : Nat) : Core :=
  (c.record (.status u (c.vurbs u).state s)).setVurb u { c.vurbs u with receivedStatus := s }

section ReadBack

variable (d : Direction) (u : UrbId)

/-- A submission overwrites what was prepared for it. -/
@[simp] theorem send_setVurb (v v' : VUrb) (element : QeSubmission) (n : Nat) :
    (c.setVurb u v').send d u v element n = c.send d u v element n := by
  have hpush : (c.setVurb u v').pushed d u element = c.pushed d u element := by simp only [pushed, pipe_setVurb]
  simp only [send, hpush, setPipe_setVurb, pipe_setVurb, urbList_setVurb]
  exact setVurb_setVurb ((c.setPipe d (c.pushed d u element)).record _) u v' _

theorem charge_of_ne {old : UrbState} (new : UrbState) (h : old ≠ .initPending) :
    c.charge old new = c := if_neg fun h' => h h'.1

theorem charge_of_start {old new : UrbState} (hold : old = .initPending)
    (hnew : new ≠ .initPending) : c.charge old new =
      { c with remainingActiveRequests := sub32 c.remainingActiveRequests 1 } :=
  if_pos ⟨hold, hnew⟩

theorem charge_self (old : UrbState) : c.charge old old = c := if_neg fun h => h.2 h.1

variable (v : VUrb) (element : QeSubmission) (old new : UrbState)

@[simp] theorem vurbs_charge : (c.charge old new).vurbs = c.vurbs := by
  unfold charge
  split <;> rfl

@[simp] theorem log_charge : (c.charge old new).log = c.log := by
  unfold charge
  split <;> rfl

@[simp] theorem urbList_charge : (c.charge old new).urbList = c.urbList := by
  unfold charge
  split <;> rfl

@[simp] theorem endp_charge : (c.charge old new).endp = c.endp := by
  unfold charge
  split <;> rfl

@[simp] theorem pipe_charge : (c.charge old new).pipe d = c.pipe d := by
  cases d with
  | toDevice =>
    show (c.charge old new).sqOut = c.sqOut
    unfold charge
    split <;> rfl
  | fromDevice =>
    show (c.charge old new).sqIn = c.sqIn
    unfold charge
    split <;> rfl

theorem pipe_send (n : Nat) (e : Direction) :
    (c.send d u v element n).pipe e = if e = d then c.pushed d u element else c.pipe e := by
  rw [send, pipe_setVurb, pipe_record]
  by_cases he : e = d
  · rw [if_pos he, he, pipe_setPipe]
  · rw [if_neg he, c.pipe_setPipe_of_ne _ _ he]

theorem pipe_sendSetup (e : Direction) : (c.sendSetup u element).pipe e =
      if e = .toDevice then c.pushed .toDevice u element else c.pipe e := by
  rw [sendSetup, pipe_setVurb, pipe_record]
  by_cases he : e = .toDevice
  · rw [if_pos he, he, pipe_setPipe]
  · rw [if_neg he, c.pipe_setPipe_of_ne _ _ he]

theorem vurbs_send_of_ne (n : Nat) {w : UrbId} (hw : w ≠ u) :
    (c.send d u v element n).vurbs w = c.vurbs w := by
  refine (Function.update_of_ne hw ..).trans ?_
  rw [record, vurbs_setPipe]

theorem vurbs_send_self (n : Nat) : (c.send d u v element n).vurbs u =
      { v with submittedLength := n, state := .waitingForCompletion } := by
  simp only [send, vurbs_setVurb_self]

theorem urbList_send (n : Nat) : (c.send d u v element n).urbList = c.urbList := by
  simp only [send, record, urbList_setVurb, urbList_setPipe]

theorem endp_send (n : Nat) : (c.send d u v element n).endp = c.endp := by
  simp only [send, record, endp_setVurb, endp_setPipe]

theorem log_send (n : Nat) : (c.send d u v element n).log =
      .submit d u v.receiveOffset n v (c.pipe d).liveOwners c.urbList :: c.log := by
  simp only [send, record, log_setVurb, log_setPipe]

end ReadBack

end Core

/-- What the request `u` can do by itself. -/
inductive UrbStep (u : UrbId) (c : Core) : Core → Prop
  | latch (s : Nat) : u ∈ c.urbList → (c.vurbs u).isControl = true → UrbStep u c (c.latch u s)
  | setup (element : QeSubmission) : u ∈ c.urbList →
      (c.vurbs u).state = .controlWaitingForSetupRequest → (c.vurbs u).isControl = true →
      0 < c.sqOut.sq.availableCommands → UrbStep u c (c.sendSetup u element)
  | quiet (v : VUrb) : u ∈ c.urbList →
      ((c.vurbs u).state = .initPending → 0 < c.remainingActiveRequests) → Quiet (c.vurbs u) v →
      UrbStep u c ((c.setVurb u v).charge (c.vurbs u).state v.state)
  | send (d : Direction) (v : VUrb) (element : QeSubmission) (limit n : Nat) : u ∈ c.urbList →
      ((c.vurbs u).state = .initPending → 0 < c.remainingActiveRequests) →
      Prepared (c.vurbs u) v d limit → n ≤ limit → 0 < (c.pipe d).sq.availableCommands →
      UrbStep u c ((c.send d u v element n).charge (c.vurbs u).state .waitingForCompletion)
  /-- The firmware is asked for data. -/
  | request (length : Nat) : UrbStep u c (c.record (.request u length))
  | complete (v : VUrb) (status : Int) : u ∈ c.urbList → Final c.log u (c.vurbs u) v status →
      UrbStep u c ((c.setVurb u v).urbComplete u status)

/-- A finite sequence of steps of the request `u`. -/
abbrev UrbSteps (u : UrbId) : Core → Core → Prop := Relation.ReflTransGen (UrbStep u)

/-- How a completion moves on a request from the device without a status stage: the request ends or
submits again. -/
inductive Served (u : UrbId) (c : Core) : Core → Prop
  | complete (v : VUrb) (status : Int) : Served u c ((c.setVurb u v).urbComplete u status)
  | send (v : VUrb) (element : QeSubmission) (n : Nat) : v.urb = (c.vurbs u).urb → v.isControl = (c.vurbs u).isControl →
      Served u c (c.send .fromDevice u v element n)

/-! ## Steps of the queue -/

/-- Everything that can happen to the shared part of a queue between two points at which `urb_lock`
is free. -/
inductive CoreStep (c : Core) : Core → Prop
  | urb {c' : Core} (u : UrbId) : UrbStep u c c' → CoreStep c c'
  | post (d : Direction) (e : QeCompletion) : (c.pipe d).sq.posted < (c.pipe d).sq.submitted → CoreStep c (c.post d e)
  | flush (d : Direction) : CoreStep c (c.flush d)
  | takeAborted {cd : CompletionData} {sq : Sq Entry} (d : Direction) :
      (c.pipe d).sq.nextCompletion = some (cd, sq) → cd.status = BCE_COMPLETION_ABORTED →
      CoreStep c ((c.take d cd sq).notifySubmissionComplete d)
  | takeEmpty {cd : CompletionData} {sq : Sq Entry} (d : Direction) :
      (c.pipe d).sq.nextCompletion = some (cd, sq) → cd.status ≠ BCE_COMPLETION_ABORTED →
      c.urbList = [] → CoreStep c (c.take d cd sq)
  | consume {cd : CompletionData} {sq : Sq Entry} {c' : Core} {rest : List UrbId} (d : Direction)
      (u : UrbId) : (c.pipe d).sq.nextCompletion = some (cd, sq) →
      cd.status ≠ BCE_COMPLETION_ABORTED → c.urbList = u :: rest →
      UrbSteps u (c.take d cd sq) c' →
      ((c.vurbs u).isControl = false → (c.vurbs u).dir = .fromDevice →
        (c.vurbs u).state = .waitingForCompletion → Served u (c.take d cd sq) c') →
      CoreStep c (c'.notifySubmissionComplete d)
  | link (urb : Urb) (sgList : Option SegmentList) : c.endp.hasSq urb.dir = true → urb.xferBulk = c.endp.xferBulk →
      CoreStep c (c.usbHcdLinkUrbToEp (VUrb.fresh urb c.endp.isControl sgList))
  | reject (u : UrbId) : u ∈ c.urbList → (c.vurbs u).state = .initPending → CoreStep c (c.urbReject u)
  /-- `usb_hcd_check_unlink_urb` accepts a cancel request. -/
  | checkUnlink (u : UrbId) (status : Int) : CoreStep c (c.setCell u { c.cells u with unlinked := status })
  | mark (u : UrbId) (status : Int) : u ∈ c.urbList → (c.vurbs u).state ≠ .cancelled →
      CoreStep c (c.urbMarkCancelled u status)
  | pick {rest : List UrbId} (u : UrbId) : c.held = none → c.cancelUrbList = u :: rest →
      CoreStep c (c.cancelPick u rest)
  | goOn : CoreStep c c.cancelGoOn
  | unlink (h : Held) : c.held = some h → h.stage = .paused → CoreStep c (c.cancelUnlink h)
  | give (h : Held) : c.held = some h → h.stage = .resumed → CoreStep c (c.cancelGiveback h)
  | free (h : Held) : c.held = some h → h.stage = .returned → CoreStep c (c.cancelFree h)
  | pop {rest : List UrbId} (u : UrbId) : c.givebackUrbList = u :: rest → CoreStep c (c.givebackPop u rest)

/-- A finite sequence of steps of the queue. -/
abbrev CoreSteps : Core → Core → Prop := Relation.ReflTransGen CoreStep

end KaiT2en.Vhci
