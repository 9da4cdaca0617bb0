import KaiT2en.Vhci.Queue

/-!
# Requests on a transfer queue

The functions of `t2bce_vhci/transfer.c` that run under `urb_lock`: starting a request, sending and
continuing its data stage, the two handlers for messages and completions, and the loops that hand
held-back messages out and start waiting requests. They return the `int` of the source, where 0 is
success, together with the queue, and have its names, without `bce_vhci_`.
-/

namespace KaiT2en.Vhci

open KaiT2en.Kernel KaiT2en.Dma

namespace Tq

variable (q : Tq)

/-! ## Reservations -/

/-- `t2bce_core_reserve_submission` on the asynchronous message queue. -/
def reserveMessage : Int × Tq :=
  match q.asyncReservations with
  | [] => (0, q)
  | granted :: rest => (if granted then 0 else -EAGAIN, { q with asyncReservations := rest })

/-- `t2bce_core_reserve_submission` on one of the two queues. Nobody can notify a submission while
`urb_lock` is held, so a timeout does not help. -/
def reserveSubmission (d : Direction) : Except Int Tq :=
  match (q.pipe d).sq.reserveSubmission q.dmaAvailable with
  | .error status => .error status
  | .ok sq => .ok (q.onCore fun c => c.setPipe d { c.pipe d with sq := sq })

def cancelSubmissionReservation (d : Direction) : Tq :=
  q.onCore fun c => c.setPipe d
    { c.pipe d with sq := (c.pipe d).sq.cancelSubmissionReservation }

variable (u : UrbId) (c : CompletionData)

/-- Change the request `u`. -/
def modifyVurb (f : VUrb → VUrb) : Tq := q.onCore fun c => c.setVurb u (f (c.vurbs u))

@[simp] theorem vurbs_modifyVurb_self (f : VUrb → VUrb) :
    (q.modifyVurb u f).vurbs u = f (q.vurbs u) := Function.update_self ..

@[simp] theorem modifyVurb_modifyVurb (f g : VUrb → VUrb) :
    (q.modifyVurb u f).modifyVurb u g = q.modifyVurb u fun v => g (f v) := by
  simp only [Tq.modifyVurb, Tq.onCore, Core.vurbs_setVurb_self, Core.setVurb_setVurb]

/-! ## Data from the device -/

def urbPrepareInSubmission (requestedSize : Nat) : Except Int Tq :=
  let v := q.vurbs u
  let offset := v.receiveOffset
  let single : Tq :=
    (q.onCore fun c => c.queued .fromDevice u
      (c.sqIn.sq.setNextSubmissionSingle (Entry.mk u) (v.urb.transferDma + offset) requestedSize)
      offset requestedSize).modifyVurb u fun v => { v with submittedLength := requestedSize }
  match v.sgList with
  | none => .ok single
  | some list =>
    if requestedSize = 0 then .ok single
    else
      match q.sqIn.sq.setNextSubmissionSegmentList (Entry.mk u) list offset requestedSize with
      | .error status => .error status
      | .ok (sq, submittedSize) =>
        .ok ((q.onCore fun c => c.queued .fromDevice u sq offset submittedSize).modifyVurb u
          fun v => { v with submittedLength := submittedSize })

def urbContinueIn : Int × Tq :=
  match q.reserveSubmission .fromDevice with
  | .error _ => (-EPIPE, q)
  | .ok q1 =>
    let v := q1.vurbs u
    match q1.urbPrepareInSubmission u (sub32 v.requestEnd v.receiveOffset) with
    | .error status => (status, q1.cancelSubmissionReservation .fromDevice)
    | .ok q2 => (0, q2.modifyVurb u fun v => { v with state := .waitingForCompletion })

def urbDataTransferIn : Int × Tq :=
  let (reservation1, q) := q.reserveMessage
  if reservation1 ≠ 0 then (-ENOMEM, q)
  else
    match q.reserveSubmission .fromDevice with
    | .error _ => (-ENOMEM, q)
    | .ok q1 =>
      let v := q1.vurbs u
      let requestLength := sub32 v.length v.receiveOffset
      let q2 := q1.modifyVurb u fun v => { v with requestEnd := add32 v.receiveOffset requestLength }
      match q2.urbPrepareInSubmission u requestLength with
      | .error status => (status, q2.cancelSubmissionReservation .fromDevice)
      | .ok q3 =>
        let q4 := q3.onCore fun c => c.record (.request u requestLength)
        (0, q4.modifyVurb u fun v => { v with state := .waitingForCompletion })

def urbDataStart : Int × Tq :=
  let v := q.vurbs u
  match v.dir with
  | .toDevice =>
    let state : UrbState :=
      if 0 < v.length ∨ v.isZlp = true then .waitingForTransferRequest
      else .dataTransferComplete
    (0, q.modifyVurb u fun v => { v with state := state })
  | .fromDevice => q.urbDataTransferIn u

/-! ## Data to the device -/

/-- `bce_vhci_urb_send_out_data`, which sends the setup packet. -/
def urbSendOutData (addr size : Nat) : Int × Tq :=
  match q.reserveSubmission .toDevice with
  | .error _ => (-EPIPE, q)
  | .ok q1 =>
    let q2 := q1.onCore fun c =>
      (c.setPipe .toDevice
        { sq := c.sqOut.sq.setNextSubmissionSingle (Entry.mk u) addr size
          owners := c.sqOut.owners ++ [u]
          live := c.sqOut.live ++ [c.sqOut.sq.submitted] }).record (.setup u)
    (0, { q2 with sqOutPending := q2.sqOutPending + 1 })

/-- `bce_vhci_urb_send_out_transfer_data`; the result has the new `*size`. -/
def urbSendOutTransferData (offset size : Nat) : Except Int (Tq × Nat) :=
  match q.reserveSubmission .toDevice with
  | .error _ => .error (-EPIPE)
  | .ok q1 =>
    let v := q1.vurbs u
    let sent (sq : Sq Entry) (size : Nat) : Tq × Nat :=
      let q2 := q1.onCore fun c => c.queued .toDevice u sq offset size
      ({ q2 with sqOutPending := q2.sqOutPending + 1 }, size)
    if size = 0 then .ok (sent (q1.sqOut.sq.setNextSubmissionSingle (Entry.mk u) 0 0) size)
    else
      match v.sgList with
      | none => .ok (sent (q1.sqOut.sq.setNextSubmissionSingle (Entry.mk u) (v.urb.transferDma + offset) size) size)
      | some list =>
        match q1.sqOut.sq.setNextSubmissionSegmentList (Entry.mk u) list offset size with
        -- the reservation is cancelled, which restores the queue
        | .error status => .error status
        | .ok (sq, submittedSize) => .ok (sent sq submittedSize)

def urbContinueOut : Int × Tq :=
  let v := q.vurbs u
  let send (trLen : Nat) : Int × Tq :=
    match q.urbSendOutTransferData u v.receiveOffset trLen with
    | .error status => (status, q)
    | .ok (q1, trLen) =>
      (0, q1.modifyVurb u fun v => { v with submittedLength := trLen, state := .waitingForCompletion })
  if v.receiveOffset < v.requestEnd then send (sub32 v.requestEnd v.receiveOffset)
  else if v.isZlp then send 0
  else (-EINVAL, q)

/-- The submission of `urbContinueOut`. -/
def urbSendOut (offset trLen : Nat) : Int × Tq :=
  match q.urbSendOutTransferData u offset trLen with
  | .error status => (status, q)
  | .ok (q1, trLen) =>
    (0, q1.modifyVurb u fun v => { v with submittedLength := trLen, state := .waitingForCompletion })

theorem urbContinueOut_eq : q.urbContinueOut u = if (q.vurbs u).receiveOffset < (q.vurbs u).requestEnd then
        q.urbSendOut u (q.vurbs u).receiveOffset (sub32 (q.vurbs u).requestEnd (q.vurbs u).receiveOffset)
      else if (q.vurbs u).isZlp then q.urbSendOut u (q.vurbs u).receiveOffset 0
      else (-EINVAL, q) := rfl

/-! ## Ends of a request -/

def urbComplete (u : UrbId) (status : Int) : Tq := q.onCore fun c => c.urbComplete u status

def urbFailDataTransfer (status : Int) : Int × Tq :=
  let q := q.stall.modifyVurb u fun v => { v with actualLength := v.receiveOffset }
  (-ENOENT, (q.urbComplete u status).requestReset)

def urbInit : Int × Tq :=
  if q.remainingActiveRequests = 0 then (-EINVAL, q)
  else
    let (status, q) :=
      if (q.vurbs u).isControl then (0, q.modifyVurb u fun v => { v with state := .controlWaitingForSetupRequest })
      else q.urbDataStart u
    if status = 0 then
      (status, q.onCore fun c => { c with remainingActiveRequests := sub32 c.remainingActiveRequests 1 })
    else (status, q)

/-! ## Messages -/

def urbDataUpdate (msg : Message) : Int × Tq :=
  let v := q.vurbs u
  if v.state = .waitingForTransferRequest ∧ msg.cmd = .transferRequest then
    let remaining := sub32 v.length v.receiveOffset
    let requestLength := min remaining msg.param2
    if remaining = 0 ∧ v.isZlp = false then (-EAGAIN, q)
    else if remaining ≠ 0 ∧ requestLength = 0 then q.urbFailDataTransfer u (-EPROTO)
    else
      let q := q.modifyVurb u fun v => { v with requestEnd := add32 v.receiveOffset requestLength }
      let (status, q) := q.urbContinueOut u
      if status ≠ 0 then q.urbFailDataTransfer u status else (0, q)
  -- extra transfer requests and unexpected messages
  else (-EAGAIN, q)

def urbControlCheckStatus : Int × Tq :=
  let v := q.vurbs u
  if v.receivedStatus = 0 then (0, q)
  else if v.state = .dataTransferComplete ∨
      (v.receivedStatus ≠ BCE_VHCI_SUCCESS ∧ v.state ≠ .controlWaitingForSetupRequest ∧
        v.state ≠ .controlWaitingForSetupCompletion) then
    let q := q.modifyVurb u fun v => { v with state := .controlComplete }
    if v.receivedStatus ≠ BCE_VHCI_SUCCESS then
      if v.receivedStatus = BCE_VHCI_USB_PIPE_STALL ∧ q.isEp0 = true then
        let q := { q.stall with state := .stalled }
        (-ENOENT, (q.urbComplete u (-EPIPE)).requestReset)
      else
        let q := q.stall.urbComplete u (-EPIPE)
        (-ENOENT, if q.urbList ≠ [] then q.requestReset else q)
    else (-ENOENT, q.urbComplete u 0)
  else (0, q)

def urbControlUpdate (msg : Message) : Int × Tq :=
  let v := q.vurbs u
  if msg.cmd = .controlTransferStatus then
    let q := q.onCore fun c => c.record (.status u v.state msg.status)
    (q.modifyVurb u fun v => { v with receivedStatus := msg.status }).urbControlCheckStatus u
  else if v.state = .controlWaitingForSetupRequest then
    if msg.cmd = .transferRequest then
      let (status, q) := q.urbSendOutData u v.urb.setupDma sizeofUsbCtrlrequest
      if status ≠ 0 then (0, q)
      else (0, q.modifyVurb u fun v => { v with state := .controlWaitingForSetupCompletion })
    else (-EAGAIN, q)
  else if v.state = .waitingForTransferRequest ∨ v.state = .waitingForCompletion then
    let (status, q) := q.urbDataUpdate u msg
    if status ≠ 0 then (status, q) else q.urbControlCheckStatus u
  else (-EAGAIN, q)

def urbUpdate (msg : Message) : Int × Tq :=
  let v := q.vurbs u
  if v.state = .initPending then (-EAGAIN, q)
  else if v.isControl then q.urbControlUpdate u msg
  else q.urbDataUpdate u msg

/-! ## Completions -/

def urbDataTransferCompletion : Int × Tq :=
  let v := q.vurbs u
  if v.state = .waitingForCompletion then
    if v.length < v.receiveOffset ∨ v.submittedLength < c.dataSize ∨ sub32 v.length v.receiveOffset < c.dataSize then
      q.urbFailDataTransfer u (-EOVERFLOW)
    else
      let offset := add32 v.receiveOffset c.dataSize
      if c.status ≠ BCE_COMPLETION_SUCCESS then
        (q.modifyVurb u fun v => { v with receiveOffset := offset }).urbFailDataTransfer u (-EIo)
      else
        let q := q.modifyVurb u fun v =>
          { v with receiveOffset := offset, acked := v.acked ++ [(v.receiveOffset, c.dataSize)] }
        if v.dir = .toDevice ∧ c.dataSize ≠ v.submittedLength then q.urbFailDataTransfer u (-ERemoteIo)
        else if v.dir = .fromDevice ∧ c.dataSize < v.submittedLength then
          let q := q.modifyVurb u fun v => { v with actualLength := offset }
          if v.urb.shortNotOk then (-ENOENT, q.urbComplete u (-ERemoteIo))
          else
            let q := q.modifyVurb u fun v => { v with state := .dataTransferComplete }
            if !v.isControl then (-ENOENT, q.urbComplete u 0) else (0, q)
        else if v.dir = .fromDevice ∧ offset < v.requestEnd then
          let (status, q) := q.urbContinueIn u
          if status ≠ 0 then q.urbFailDataTransfer u status else (0, q)
        else if v.dir = .toDevice ∧ offset < v.requestEnd then
          let (status, q) := q.urbContinueOut u
          if status ≠ 0 then q.urbFailDataTransfer u status else (0, q)
        else if v.dir = .toDevice ∧ offset < v.length then
          (0, q.modifyVurb u fun v => { v with state := .waitingForTransferRequest })
        else
          let q := q.modifyVurb u fun v => { v with actualLength := offset, state := .dataTransferComplete }
          if !v.isControl then (-ENOENT, q.urbComplete u 0) else (0, q)
  else (0, q)

def urbControlTransferCompletion : Int × Tq :=
  let v := q.vurbs u
  if v.state = .controlWaitingForSetupCompletion then
    let (status, q) := q.urbDataStart u
    if status ≠ 0 then (-ENOENT, q.urbComplete u status) else (0, q)
  else if v.state = .waitingForTransferRequest ∨ v.state = .waitingForCompletion then
    let (status, q) := q.urbDataTransferCompletion u c
    if status ≠ 0 then (status, q) else q.urbControlCheckStatus u
  else (0, q)

def urbTransferCompletion : Int × Tq :=
  if (q.vurbs u).isControl then q.urbControlTransferCompletion u c
  else q.urbDataTransferCompletion u c

def urbResume : Tq :=
  let v := q.vurbs u
  if v.state ≠ .waitingForCompletion then q
  else
    match v.dir with
    | .fromDevice =>
      let (status, q) := q.urbDataTransferIn u
      if status ≠ 0 then q.urbComplete u status else q
    | .toDevice =>
      q.modifyVurb u fun v =>
        { v with
          requestEnd := v.receiveOffset
          submittedLength := 0
          state := .waitingForTransferRequest }

/-! ## Loops over the queue -/

/-- The loop of `bce_vhci_transfer_queue_init_pending_urbs` over the rest of the list. Starting a
request changes no list, so the list can be read beforehand. -/
def initPendingUrbsLoop : List UrbId → Tq → Tq
  | [], q => q
  | u :: rest, q =>
    if !q.canInitUrb then q
    else if (q.vurbs u).state = .initPending then initPendingUrbsLoop rest (q.urbInit u).2
    else initPendingUrbsLoop rest q

def initPendingUrbs : Tq := initPendingUrbsLoop q.urbList q

/-- The loop of `bce_vhci_transfer_queue_deliver_pending` over the messages held back. -/
def deliverPendingLoop : List Message → Tq → Tq
  | [], q => { q with evq := [] }
  | msg :: evq, q =>
    match q.urbList with
    | [] => { q with evq := msg :: evq }
    | u :: _ =>
      let (status, q) := q.urbUpdate u msg
      if status = -EAGAIN then { q with evq := msg :: evq } else deliverPendingLoop evq q

def deliverPending : Tq := (deliverPendingLoop q.evq q).initPendingUrbs

/-- `bce_vhci_transfer_queue_defer_event`; `kmalloc` tells whether the message can be stored. -/
def deferEvent (kmalloc : Bool) (msg : Message) : Tq := if kmalloc then { q with evq := q.evq ++ [msg] } else q

/-- The body of `bce_vhci_transfer_queue_event`, before the giveback. -/
def transferQueueEvent (kmalloc : Bool) (msg : Message) : Tq :=
  if !q.active then
    if msg.cmd = .transferRequest ∧ (q.pausedBy &&& BCE_VHCI_PAUSE_SUSPEND ≠ 0#32 ∨
          q.isEp0 = true ∧ q.pausedBy &&& BCE_VHCI_PAUSE_INTERNAL_WQ ≠ 0#32) then
      q.deferEvent kmalloc msg
    else q
  else
    let q := q.deliverPending
    if msg.cmd = .transferRequest ∧ (q.evq ≠ [] ∨ q.urbList = []) then q.deferEvent kmalloc msg
    else
      match q.urbList with
      | [] => q
      | u :: _ =>
        let (status, q) := q.urbUpdate u msg
        if status = -EAGAIN then q.deferEvent kmalloc msg else q.initPendingUrbs

/-! ## The completion handler -/

/-- `t2bce_core_next_completion`, with the record of what was read. -/
def nextCompletion (d : Direction) : Option (CompletionData × Tq) :=
  (q.pipe d).sq.nextCompletion.map fun r => (r.1, q.onCore fun c => c.take d r.1 r.2)

def notifySubmissionComplete (d : Direction) : Tq := q.onCore fun c => c.notifySubmissionComplete d

/-- `atomic_dec_if_positive(&q->sq_out_pending)` for a completion of `sq_out`. -/
def outPendingDone (d : Direction) : Tq :=
  match d with
  | .toDevice => { q with sqOutPending := (atomicDecIfPositive q.sqOutPending).2 }
  | .fromDevice => q

/-- The body of the loop of `bce_vhci_transfer_queue_completion` for the completion `c`. -/
def handleCompletion (d : Direction) (c : CompletionData) : Tq :=
  if c.status = BCE_COMPLETION_ABORTED then (q.outPendingDone d).notifySubmissionComplete d
  else
    match q.urbList with
    -- the branch goes on with the next completion without a notification
    | [] => q.outPendingDone d
    | u :: _ => ((q.urbTransferCompletion u c).2.outPendingDone d).notifySubmissionComplete d

/-- The loop of `bce_vhci_transfer_queue_completion`. -/
def completionLoop (d : Direction) : Nat → Tq → Tq
  | 0, q => q
  | fuel + 1, q =>
    match q.nextCompletion d with
    | none => q
    | some (c, q) => completionLoop d fuel (q.handleCompletion d c)

/-- `bce_vhci_transfer_queue_completion`, before the giveback. Fewer than `el_count` completions can
be pending. -/
def transferQueueCompletion (d : Direction) : Tq := (completionLoop d (q.pipe d).sq.elCount q).deliverPending

end Tq

end KaiT2en.Vhci
