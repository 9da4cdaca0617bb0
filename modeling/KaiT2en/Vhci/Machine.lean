import KaiT2en.Lib.Transition
import KaiT2en.Vhci.Transfer

/-!
# The transfer queue as a machine

All code that touches a transfer queue runs under `urb_lock` or under the mutex `pause_lock`. An action of `tqMachine`
is one section under `urb_lock`, or one step of the thread that holds `pause_lock`: a wait, a command to the firmware
or a flush, with its outcome as argument. Two threads can be between their sections at the same time, so a status
message can arrive while the cancel worker waits for the endpoint to pause.

The actions are enabled more often than in the driver in one respect: the two work items of a queue run on one ordered
workqueue, which the machine does not require.
-/

namespace KaiT2en.Vhci

open KaiT2en.Kernel KaiT2en.Dma KaiT2en.Lib.Transition

/-! ## Enqueue, cancel, resume under `urb_lock` -/

/-- What the environment grants to one `bce_vhci_urb_create`: two allocations, the segment list pages and
`usb_hcd_link_urb_to_ep`. -/
structure CreateOutcome where
  kzalloc : Bool
  listKzalloc : Bool
  pool : Option (Nat → Option Nat)
  link : Int

/-- What a call of pause or resume by the cancel worker leads to. -/
def Held.goOn (h : Held) : Held :=
  match h.stage with
  | .picked => { h with stage := .paused }
  | .unlinked => { h with stage := .resumed }
  | _ => h

namespace Core

variable (c : Core)

/-- `usb_hcd_link_urb_to_ep` for a request under a new number. -/
def usbHcdLinkUrbToEp (v : VUrb) : Core :=
  { c with
    urbList := c.urbList ++ [c.nextUrb]
    vurbs := Function.update c.vurbs c.nextUrb v
    cells := Function.update c.cells c.nextUrb ⟨true, 0, 0⟩
    nextUrb := c.nextUrb + 1 }

variable (u : UrbId) (status : Int)

/-- The end of a `bce_vhci_urb_create` that fails after the request was linked. -/
def urbReject : Core :=
  let c := c.usbHcdUnlinkUrbFromEp u
  (c.setCell u { c.cells u with hcpriv := false }).urbFree u

/-- The section of `bce_vhci_urb_request_cancel` after `usb_hcd_check_unlink_urb` succeeded. -/
def urbMarkCancelled : Core :=
  let v := c.vurbs u
  let c := c.setVurb u
    { v with
      state := .cancelled
      cancelStatus := status
      cancelWasActive := decide (v.state ≠ .initPending) }
  if u ∈ c.cancelUrbList then c else { c with cancelUrbList := c.cancelUrbList ++ [u] }

/-- The first section of an iteration of `bce_vhci_transfer_queue_cancel_w` that finds `u`. -/
def cancelPick (rest : List UrbId) : Core :=
  let v := c.vurbs u
  { c with
    cancelUrbList := rest
    held := some ⟨u, v.cancelStatus, v.cancelWasActive, .picked⟩ }

/-- The second section of `bce_vhci_transfer_queue_cancel_w`. -/
def cancelUnlink (h : Held) : Core :=
  let c :=
    if h.wasActive then { c with remainingActiveRequests := add32 c.remainingActiveRequests 1 }
    else c
  let c := c.usbHcdUnlinkUrbFromEp h.urb
  let c := c.setCell h.urb { c.cells h.urb with hcpriv := false }
  { c with held := some { h with stage := .unlinked } }

/-- The call of `usb_hcd_giveback_urb` in `bce_vhci_transfer_queue_cancel_w`. -/
def cancelGiveback (h : Held) : Core :=
  { c.usbHcdGivebackUrb h.urb h.status with held := some { h with stage := .returned } }

/-- The call of `bce_vhci_urb_free` in `bce_vhci_transfer_queue_cancel_w`. -/
def cancelFree (h : Held) : Core := { c.urbFree h.urb with held := none }

/-- The cancel worker goes on after a call of pause or resume. -/
def cancelGoOn : Core := { c with held := c.held.map Held.goOn }

/-- One iteration of `bce_vhci_transfer_queue_giveback`, for the first request `u`. -/
def givebackPop (rest : List UrbId) : Core :=
  { c with givebackUrbList := rest }.usbHcdGivebackUrb u (c.cells u).status

/-- The device completes the next submission of a queue. -/
def post (d : Direction) (e : QeCompletion) : Core :=
  c.setPipe d { c.pipe d with sq := (c.pipe d).sq.handleCqCompletion e }

/-- The device has flushed a queue: what it had not completed yet will not be carried out. -/
def flush (d : Direction) : Core :=
  c.setPipe d
    { c.pipe d with live := (c.pipe d).live.filter fun k => decide (k < (c.pipe d).sq.posted) }

theorem vurbs_urbMarkCancelled :
    (c.urbMarkCancelled u status).vurbs = Function.update c.vurbs u
      { c.vurbs u with
        state := .cancelled
        cancelStatus := status
        cancelWasActive := decide ((c.vurbs u).state ≠ .initPending) } := by
  unfold urbMarkCancelled
  simp only
  split <;> rfl

@[simp] theorem urbList_urbMarkCancelled :
    (c.urbMarkCancelled u status).urbList = c.urbList := by
  unfold urbMarkCancelled
  simp only
  split <;> rfl

@[simp] theorem endp_urbMarkCancelled : (c.urbMarkCancelled u status).endp = c.endp := by
  unfold urbMarkCancelled
  simp only
  split <;> rfl

@[simp] theorem pipe_urbMarkCancelled (d : Direction) :
    (c.urbMarkCancelled u status).pipe d = c.pipe d := by
  unfold urbMarkCancelled
  simp only
  split <;> cases d <;> rfl

@[simp] theorem log_urbMarkCancelled : (c.urbMarkCancelled u status).log = c.log := by
  unfold urbMarkCancelled
  simp only
  split <;> rfl

section Unlink

variable (h : Held)

@[simp] theorem urbList_cancelUnlink : (c.cancelUnlink h).urbList = c.urbList.erase h.urb := by
  unfold cancelUnlink
  split <;> rfl

@[simp] theorem givebackUrbList_cancelUnlink : (c.cancelUnlink h).givebackUrbList = c.givebackUrbList.erase h.urb := by
  unfold cancelUnlink
  split <;> rfl

@[simp] theorem cancelUrbList_cancelUnlink : (c.cancelUnlink h).cancelUrbList = c.cancelUrbList := by
  unfold cancelUnlink
  split <;> rfl

@[simp] theorem held_cancelUnlink : (c.cancelUnlink h).held = some { h with stage := .unlinked } := rfl

@[simp] theorem vurbs_cancelUnlink : (c.cancelUnlink h).vurbs = c.vurbs := by
  unfold cancelUnlink
  split <;> rfl

@[simp] theorem nextUrb_cancelUnlink : (c.cancelUnlink h).nextUrb = c.nextUrb := by
  unfold cancelUnlink
  split <;> rfl

@[simp] theorem maxActiveRequests_cancelUnlink : (c.cancelUnlink h).maxActiveRequests = c.maxActiveRequests := by
  unfold cancelUnlink
  split <;> rfl

@[simp] theorem endp_cancelUnlink : (c.cancelUnlink h).endp = c.endp := by
  unfold cancelUnlink
  split <;> rfl

@[simp] theorem sqIn_cancelUnlink : (c.cancelUnlink h).sqIn = c.sqIn := by
  unfold cancelUnlink
  split <;> rfl

@[simp] theorem sqOut_cancelUnlink : (c.cancelUnlink h).sqOut = c.sqOut := by
  unfold cancelUnlink
  split <;> rfl

@[simp] theorem pipe_cancelUnlink (d : Direction) : (c.cancelUnlink h).pipe d = c.pipe d := by
  cases d
  · exact c.sqOut_cancelUnlink h
  · exact c.sqIn_cancelUnlink h

@[simp] theorem log_cancelUnlink : (c.cancelUnlink h).log =
    .unlink h.urb (decide (h.urb ∈ c.sqIn.liveOwners)) :: c.log := by
  unfold cancelUnlink
  split <;> rfl

theorem remaining_cancelUnlink : (c.cancelUnlink h).remainingActiveRequests =
    if h.wasActive then add32 c.remainingActiveRequests 1 else c.remainingActiveRequests := by
  unfold cancelUnlink
  split <;> rfl

end Unlink

end Core

namespace Tq

variable (q : Tq)

/-- The request that `bce_vhci_urb_create` builds before it takes `urb_lock`. -/
def urbNew (urb : Urb) (o : CreateOutcome) : Except Int VUrb :=
  if !o.kzalloc then .error (-ENOMEM)
  else if urb.sg = [] then .ok (VUrb.fresh urb q.endp.isControl none)
  else
    match createSegmentList o.listKzalloc o.pool urb.sg with
    | .error status => .error status
    | .ok list => .ok (VUrb.fresh urb q.endp.isControl (some list))

/-- The section of `bce_vhci_urb_create` under `urb_lock`. A request that is not linked leaves no
trace. -/
def urbCreate (v : VUrb) (link : Int) : Tq :=
  if link ≠ 0 then q
  else
    let u := q.nextUrb
    let q := q.onCore fun c => c.usbHcdLinkUrbToEp v
    let (status, q) :=
      if q.active then if q.canInitUrb then q.urbInit u else (0, q)
      else (0, if q.stalled then q.requestReset else q)
    if status ≠ 0 then q.onCore fun c => c.urbReject u else q.deliverPending

/-- `bce_vhci_urb_request_cancel`; `usb_hcd_check_unlink_urb` refuses a request that is not linked
or that is being unlinked already. -/
def urbRequestCancel (u : UrbId) (status : Int) : Tq :=
  if u ∉ q.urbList then q
  else if (q.cells u).unlinked ≠ 0 then q
  else
    let q := q.onCore fun c => c.setCell u { c.cells u with unlinked := status }
    if (q.vurbs u).state = .cancelled then q
    else { q.onCore fun c => c.urbMarkCancelled u status with wCancel := true }

/-- The loop of `bce_vhci_transfer_queue_do_resume`. A request can only remove itself from the list,
so the list can be read beforehand. -/
def resumeLoop : List UrbId → Tq → Tq
  | [], q => q
  | u :: rest, q =>
    if (q.vurbs u).state = .initPending then if !q.canInitUrb then q else resumeLoop rest (q.urbInit u).2
    else resumeLoop rest (q.urbResume u)

/-- The section of `bce_vhci_transfer_queue_do_resume` under `urb_lock`. -/
def restart : Tq :=
  let q := { q with active := true }
  (resumeLoop q.urbList q).deliverPending

/-- The section at the label `restore_active` of `bce_vhci_transfer_queue_do_pause`. -/
def restoreActive : Tq := { q with active := true }.deliverPending

def removePending : Tq := { q with evq := [] }

end Tq

/-! ## The holder of `pause_lock` -/

/-- The three functions that take `pause_lock`. -/
inductive PauseCall where
  | pause (src : BitVec 32)
  | resume (src : BitVec 32)
  | reset
  deriving DecidableEq

/-- What the holder of `pause_lock` does next. -/
inductive PauseStage where
  /-- Set the bit of the reset worker in `paused_by`. -/
  | mark
  /-- Wait for `sq_out_pending` to reach 0. -/
  | drain
  | removePending
  /-- Ask the firmware for the state PAUSED. -/
  | setPaused
  | flush (d : Direction)
  | restoreActive
  /-- Ask the firmware for the state ACTIVE. -/
  | setActive
  | restart
  /-- Send the reset command and clear `stalled`. -/
  | resetCommand
  deriving DecidableEq

/-- The call that holds `pause_lock`; `worker` tells whether the cancel worker made it. -/
structure PauseOp where
  call : PauseCall
  stage : PauseStage
  worker : Bool
  deriving DecidableEq

/-- The result of a command to the firmware: its status, the endpoint state it wrote, and whether a failed flush took
effect. For the wait, a nonzero status is a timeout. -/
structure Outcome where
  status : Int
  state : Option EndpointState
  flushed : Bool

/-- A transfer queue with the threads that pause, resume and reset it. -/
structure System extends Tq where
  pauseLock : Option PauseOp
  /-- The reset worker has released `pause_lock` and is about to resume the queue. -/
  resetResume : Bool

namespace System

variable (s : System)

def onTq (f : Tq → Tq) : System := { s with toTq := f s.toTq }

/-- Release `pause_lock` at the end of a call. -/
def unlock (worker : Bool) : System :=
  { s with
    toTq := if worker then s.toTq.onCore Core.cancelGoOn else s.toTq
    pauseLock := none }

/-- Go on to the next stage of a call. -/
def goTo (op : PauseOp) (stage : PauseStage) : System := { s with pauseLock := some { op with stage := stage } }

/-- `bce_vhci_transfer_queue_pause` up to the first wait. -/
def pause (src : BitVec 32) (worker : Bool) : System :=
  if s.pausedBy &&& src = src then s.unlock worker
  else if s.pausedBy = 0#32 then { s with active := false, pauseLock := some ⟨.pause src, .drain, worker⟩ }
  else { s with pausedBy := s.pausedBy ||| src }.unlock worker

/-- `bce_vhci_transfer_queue_resume` up to the first command. -/
def resume (src : BitVec 32) (worker : Bool) : System :=
  if s.pausedBy &&& src = 0#32 then s.unlock worker
  else if s.pausedBy &&& ~~~src = 0#32 then { s with pauseLock := some ⟨.resume src, .setActive, worker⟩ }
  else { s with pausedBy := s.pausedBy &&& ~~~src }.unlock worker

/-- The first section of `bce_vhci_transfer_queue_reset_w`. -/
def reset : System :=
  if !s.stalled then { s with wReset := false }
  else { s with wReset := false, active := false, pauseLock := some ⟨.reset, .mark, false⟩ }

def flushQueue (d : Direction) (o : Outcome) : System :=
  if o.status = 0 ∨ o.flushed = true then s.onTq fun q => q.onCore fun c => c.flush d else s

/-- Where a call goes after the queue for `d` is flushed. -/
def afterFlush (op : PauseOp) : Direction → System
  | .fromDevice => s.goTo op (.flush .toDevice)
  | .toDevice =>
    match op.call with
    | .pause src => { s with pausedBy := s.pausedBy ||| src }.unlock op.worker
    | .resume _ => s.unlock op.worker
    | .reset => s.goTo op .resetCommand

/-- One step of the call that holds `pause_lock`. -/
def pauseStep (op : PauseOp) (o : Outcome) : Option System :=
  match op.stage with
  | .mark => some ({ s with pausedBy := s.pausedBy ||| BCE_VHCI_PAUSE_INTERNAL_WQ }.goTo op .removePending)
  | .drain =>
    if s.endp.hasSq .toDevice = true ∧ 0 < s.sqOutPending then
      -- the wait goes on until it times out
      if o.status = 0 then none else some (s.goTo op .restoreActive)
    else some (s.goTo op .removePending)
  | .removePending =>
    let s := s.onTq Tq.removePending
    some (s.goTo op (if op.call = .reset then .flush .fromDevice else .setPaused))
  | .setPaused =>
    let s := { s with state := o.state.getD s.state }
    if o.status ≠ 0 ∨ s.state ≠ .paused then some (s.goTo op .restoreActive)
    else some (s.goTo op (.flush .fromDevice))
  | .flush d =>
    if s.endp.hasSq d then
      let s := s.flushQueue d o
      -- the reset worker ignores the status of a flush
      if o.status ≠ 0 ∧ op.call ≠ .reset then some (s.goTo op .setActive)
      else some (s.afterFlush op d)
    else some (s.afterFlush op d)
  | .restoreActive => some ((s.onTq Tq.restoreActive).unlock op.worker)
  | .setActive =>
    let s := { s with state := o.state.getD s.state }
    if o.status ≠ 0 ∨ s.state ≠ .active then some (s.unlock op.worker)
    else some (s.goTo op .restart)
  | .restart =>
    let s := s.onTq Tq.restart
    match op.call with
    | .resume src => some ({ s with pausedBy := s.pausedBy &&& ~~~src }.unlock op.worker)
    -- a pause that failed keeps `paused_by`
    | _ => some (s.unlock op.worker)
  | .resetCommand => some { s with stalled := false, pauseLock := none, resetResume := true }

end System

/-! ## Actions -/

/-- The pause sources outside the queue itself. -/
def externalSources : List (BitVec 32) := [BCE_VHCI_PAUSE_FIRMWARE, BCE_VHCI_PAUSE_SUSPEND, BCE_VHCI_PAUSE_SHUTDOWN]

inductive Action where
  /-- usbcore calls `bce_vhci_urb_enqueue`. -/
  | enqueue (urb : Urb) (o : CreateOutcome)
  /-- usbcore calls `bce_vhci_urb_dequeue`. -/
  | dequeue (u : UrbId) (status : Int)
  /-- A message arrives; `kmalloc` tells whether it can be stored. -/
  | event (kmalloc : Bool) (msg : Message)
  /-- The device completes the next submission of a queue. -/
  | post (d : Direction) (e : QeCompletion)
  /-- The completion handler of a queue runs. -/
  | completion (d : Direction)
  /-- An iteration of `bce_vhci_transfer_queue_giveback`. -/
  | giveback
  | cancelPick
  | cancelPause
  | cancelUnlink
  | cancelResume
  | cancelGiveback
  | cancelFree
  | pause (src : BitVec 32)
  | resume (src : BitVec 32)
  | reset
  | resetResume
  | pauseStep (o : Outcome)
  /-- The firmware reports the endpoint as stalled. -/
  | firmwareStalled
  /-- usbcore calls `bce_vhci_endpoint_reset`. -/
  | endpointReset
  | setDmaAvailable (available : Bool)
  /-- What the reservations on the asynchronous message queue will return. -/
  | setAsyncReservations (granted : List Bool)

namespace System

variable (s : System)

/-- Act on the request that the cancel worker holds at the given stage. -/
def onHeld (stage : HeldStage) (f : Held → Option System) : Option System :=
  match s.held with
  | some h => if h.stage = stage then f h else none
  | none => none

/-- A call of pause or resume by the cancel worker, which is made for an active request only. -/
def workerCall (h : Held) (call : System) : Option System :=
  if h.wasActive then if s.pauseLock.isSome then none else some call
  else some (s.onTq fun q => q.onCore Core.cancelGoOn)

def cancelStep : Action → Option System
  | .cancelPick =>
    if s.wCancel = true ∧ s.held = none then
      match s.cancelUrbList with
      | [] => some { s with wCancel := false }
      | u :: rest => some (s.onTq fun q => q.onCore fun c => c.cancelPick u rest)
    else none
  | .cancelPause => s.onHeld .picked fun h => s.workerCall h (s.pause BCE_VHCI_PAUSE_INTERNAL_WQ true)
  | .cancelUnlink => s.onHeld .paused fun h => some (s.onTq fun q => q.onCore fun c => c.cancelUnlink h)
  | .cancelResume => s.onHeld .unlinked fun h => s.workerCall h (s.resume BCE_VHCI_PAUSE_INTERNAL_WQ true)
  | .cancelGiveback => s.onHeld .resumed fun h => some (s.onTq fun q => q.onCore fun c => c.cancelGiveback h)
  | .cancelFree => s.onHeld .returned fun h => some (s.onTq fun q => q.onCore fun c => c.cancelFree h)
  | _ => none

def next : Action → Option System
  | .enqueue urb o =>
    -- usbcore checks the request against its endpoint
    if s.endp.hasSq urb.dir = true ∧ urb.xferBulk = s.endp.xferBulk then
      match s.urbNew urb o with
      | .error _ => some s
      | .ok v => some (s.onTq fun q => q.urbCreate v o.link)
    else none
  | .dequeue u status => some (s.onTq fun q => q.urbRequestCancel u status)
  | .event kmalloc msg => some (s.onTq fun q => q.transferQueueEvent kmalloc msg)
  | .post d e =>
    if (s.pipe d).sq.posted < (s.pipe d).sq.submitted then some (s.onTq fun q => q.onCore fun c => c.post d e)
    else none
  | .completion d => some (s.onTq fun q => q.transferQueueCompletion d)
  | .giveback =>
    match s.givebackUrbList with
    | [] => none
    | u :: rest => some (s.onTq fun q => q.onCore fun c => c.givebackPop u rest)
  | .pause src => if s.pauseLock.isSome ∨ src ∉ externalSources then none else some (s.pause src false)
  | .resume src => if s.pauseLock.isSome ∨ src ∉ externalSources then none else some (s.resume src false)
  | .reset => if s.pauseLock.isSome ∨ s.wReset = false ∨ s.resetResume = true then none else some s.reset
  | .resetResume =>
    if s.pauseLock.isSome ∨ s.resetResume = false then none
    else some ({ s with resetResume := false }.resume BCE_VHCI_PAUSE_INTERNAL_WQ false)
  | .pauseStep o =>
    match s.pauseLock with
    | none => none
    | some op => s.pauseStep op o
  | .firmwareStalled =>
    let q := { s.toTq.stall with state := .stalled }
    some { s with toTq := if q.isEp0 then q.requestReset else q }
  | .endpointReset => some (s.onTq Tq.requestReset)
  | .setDmaAvailable available => some { s with dmaAvailable := available }
  | .setAsyncReservations granted => some { s with asyncReservations := granted }
  | a => s.cancelStep a

end System

/-! ## Creation -/

/-- A request that was never enqueued. -/
def VUrb.absent : VUrb := VUrb.fresh ⟨.toDevice, 0, 0, 0, false, false, [], by decide⟩ false none

/-- A submission queue as `bce_vhci_create_transfer_queue` creates it. -/
def Pipe.create : Pipe := ⟨Sq.fresh 0x100, [], []⟩

/-- How many requests of a queue may be active at once. -/
def Endpoint.maxActiveRequests (endp : Endpoint) : Nat := if endp.xferBulk then BCE_VHCI_BULK_MAX_ACTIVE_URBS else 1

/-- The requests of a new queue. -/
def Core.create (endp : Endpoint) : Core where
  endp := endp
  maxActiveRequests := endp.maxActiveRequests
  remainingActiveRequests := endp.maxActiveRequests
  urbList := []
  givebackUrbList := []
  cancelUrbList := []
  held := none
  vurbs := fun _ => VUrb.absent
  cells := fun _ => ⟨false, 0, 0⟩
  sqIn := Pipe.create
  sqOut := Pipe.create
  nextUrb := 0
  log := []

def createTransferQueue (endp : Endpoint) : Tq where
  toCore := Core.create endp
  state := .active
  active := true
  stalled := false
  stalledAt := 0
  pausedBy := 0#32
  evq := []
  sqOutPending := 0
  wReset := false
  wCancel := false
  dmaAvailable := true
  asyncReservations := []

/-- A new queue that no thread has touched. -/
def System.create (endp : Endpoint) : System where
  toTq := createTransferQueue endp
  pauseLock := none
  resetResume := false

/-- The transfer queues of all endpoints with everything that can happen to them. -/
def tqMachine : Machine System Action where
  init s := ∃ endp, s = System.create endp
  next := System.next

end KaiT2en.Vhci
