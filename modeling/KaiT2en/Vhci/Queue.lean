import KaiT2en.Dma.SegmentList

/-!
# The state of a VHCI transfer queue

`struct bce_vhci_transfer_queue` with the requests (`struct urb` and `struct bce_vhci_urb`) that refer to it. A
request is addressed by the number of its enqueue. The heap `vurbs` is total: the fields of a freed request stay as
they were, and `free` is an event of the history.

`Core` is the part that requests own or compete for: the lists, the credit, the heap and the two submission queues.
`Tq` adds the flags and the messages held back. The history `log`, the owners of submissions and the list `live` of a
`Pipe`, the list `acked` of a request and the count `stalledAt` are read by no function of the driver.
-/

namespace KaiT2en.Vhci

open KaiT2en.Kernel KaiT2en.Dma Function

/-- The number of an enqueue. -/
abbrev UrbId := Nat

/-- `enum bce_vhci_urb_state`. -/
inductive UrbState where
  | initPending
  | waitingForTransferRequest
  | waitingForCompletion
  | dataTransferComplete
  | controlWaitingForSetupRequest
  | controlWaitingForSetupCompletion
  | controlComplete
  | cancelled
  deriving DecidableEq, Repr

/-- The two directions of `enum dma_data_direction` that a request can have. -/
inductive Direction where
  | toDevice
  | fromDevice
  deriving DecidableEq, Repr

/-- `enum bce_vhci_endpoint_state`. -/
inductive EndpointState where
  | active
  | paused
  | stalled
  deriving DecidableEq, Repr

/-- The endpoint of a transfer queue. Endpoint 0 is the only one with both directions. -/
inductive Endpoint where
  | control
  | data (number : Fin 15) (dir : Direction) (xferBulk : Bool)
  deriving DecidableEq

/-- `bEndpointAddress & 0x8F`. -/
def Endpoint.address : Endpoint → Nat
  | .control => 0
  | .data number .toDevice _ => number + 1
  | .data number .fromDevice _ => number + 1 + 0x80

def Endpoint.xferBulk : Endpoint → Bool
  | .control => false
  | .data _ _ xferBulk => xferBulk

/-- Whether the queue for a direction is created. -/
def Endpoint.hasSq : Endpoint → Direction → Bool
  | .control, _ => true
  | .data _ dir _, d => dir == d

/-- `usb_endpoint_num(&endp->desc) == 0`. -/
def Endpoint.isControl (endp : Endpoint) : Bool := endp.address % 16 == 0

/-- The commands of `enum bce_vhci_command` that a transfer queue tells apart. -/
inductive Command where
  | transferRequest
  | controlTransferStatus
  | other (cmd : Nat)
  deriving DecidableEq, Repr

/-- `struct bce_vhci_message`. -/
structure Message where
  cmd : Command
  status : Nat
  param1 : Nat
  param2 : Nat
  deriving DecidableEq, Repr

def BCE_VHCI_SUCCESS : Nat := 1

/-- `BCE_VHCI_USB_PIPE_STALL`, the status that stalls endpoint 0. -/
def BCE_VHCI_USB_PIPE_STALL : Nat := 3

def BCE_VHCI_BULK_MAX_ACTIVE_URBS : Nat := 4

/-- `sizeof(struct usb_ctrlrequest)`. -/
def sizeofUsbCtrlrequest : Nat := 8

/-- The fields of `struct urb` and of its endpoint that do not change. `sg` lists the mapped scatter entries and is
empty for a plain buffer. -/
structure Urb where
  dir : Direction
  transferBufferLength : Nat
  transferDma : Nat
  setupDma : Nat
  shortNotOk : Bool
  xferBulk : Bool
  sg : List Scatterlist
  length_lt : transferBufferLength < 2 ^ 32

/-- `struct bce_vhci_urb`, with `actual_length` of its `struct urb`. `acked` lists offset and size of
the data submissions that completed successfully. -/
structure VUrb where
  urb : Urb
  isControl : Bool
  state : UrbState
  receivedStatus : Nat
  receiveOffset : Nat
  requestEnd : Nat
  submittedLength : Nat
  sgList : Option SegmentList
  cancelStatus : Int
  cancelWasActive : Bool
  actualLength : Nat
  acked : List (Nat × Nat)

/-- The direction of a request. -/
def VUrb.dir (v : VUrb) : Direction := v.urb.dir

/-- `urb->urb->transfer_buffer_length`. -/
def VUrb.length (v : VUrb) : Nat := v.urb.transferBufferLength

/-- The request that `kzalloc` and the assignments of `bce_vhci_urb_create` leave. -/
def VUrb.fresh (urb : Urb) (isControl : Bool) (sgList : Option SegmentList) : VUrb where
  urb := urb
  isControl := isControl
  state := .initPending
  receivedStatus := 0
  receiveOffset := 0
  requestEnd := 0
  submittedLength := 0
  sgList := sgList
  cancelStatus := 0
  cancelWasActive := false
  actualLength := 0
  acked := []

/-- `bce_vhci_urb_is_zlp`. -/
def VUrb.isZlp (v : VUrb) : Bool := v.dir == .toDevice && v.urb.xferBulk && v.length == 0

/-- The fields of `struct urb` that usbcore and the driver both write. -/
structure UrbCell where
  hcpriv : Bool
  status : Int
  unlinked : Int
  deriving DecidableEq

/-- A ring element and the request that queued it. -/
structure Entry where
  owner : UrbId
  element : QeSubmission
  deriving DecidableEq

/-- One of the two submission queues. `owners` lists the requests in the order of submission, and `live` the
submissions that are neither consumed nor flushed. -/
structure Pipe where
  sq : Sq Entry
  owners : List UrbId
  live : List Nat

/-- The owners of the live submissions, oldest first. -/
def Pipe.liveOwners (p : Pipe) : List UrbId := p.live.filterMap fun k => p.owners[k]?

/-- What happened to the requests of a queue. -/
inductive Event where
  /-- A status message was handed to `u`, which was in `state`. -/
  | status (u : UrbId) (state : UrbState) (status : Nat)
  /-- The firmware was asked for `length` bytes on behalf of `u`. -/
  | request (u : UrbId) (length : Nat)
  /-- The setup packet of `u` was submitted. -/
  | setup (u : UrbId)
  /-- `size` bytes at `offset` of the request `v` were submitted, behind the live submissions of
  `ahead`, while `linked` was the list of the endpoint. -/
  | submit (d : Direction) (u : UrbId) (offset size : Nat) (v : VUrb) (ahead linked : List UrbId)
  /-- Completion number `index` was read while `first` was the first request in the list, in the
  given state; `flushed` tells whether its submission had been flushed. -/
  | take (d : Direction) (index : Nat) (status : Nat) (flushed : Bool) (first : Option (UrbId × UrbState))
  /-- The request `v` was completed with `status`. -/
  | complete (u : UrbId) (status : Int) (v : VUrb)
  /-- The request left the list of the endpoint; `live` tells whether a submission of it was. -/
  | unlink (u : UrbId) (live : Bool)
  | giveback (u : UrbId) (status : Int)
  | free (u : UrbId)

/-- How far the cancel worker is with the request it holds. -/
inductive HeldStage where
  /-- Taken off `cancel_urb_list`. -/
  | picked
  /-- The endpoint is paused, as far as it had to be and could be. -/
  | paused
  /-- Unlinked from the endpoint. -/
  | unlinked
  /-- The endpoint is resumed. -/
  | resumed
  /-- Given back to usbcore. -/
  | returned
  deriving DecidableEq, Repr

/-- The local variables of `bce_vhci_transfer_queue_cancel_w`. -/
structure Held where
  urb : UrbId
  status : Int
  wasActive : Bool
  stage : HeldStage
  deriving DecidableEq

/-- What the requests of a queue share. -/
structure Core where
  endp : Endpoint
  maxActiveRequests : Nat
  remainingActiveRequests : Nat
  /-- `endp->urb_list`. -/
  urbList : List UrbId
  givebackUrbList : List UrbId
  cancelUrbList : List UrbId
  /-- The request in the hands of the cancel worker. -/
  held : Option Held
  vurbs : UrbId → VUrb
  cells : UrbId → UrbCell
  sqIn : Pipe
  sqOut : Pipe
  /-- The number of the next enqueue. -/
  nextUrb : UrbId
  /-- The history, newest event first. -/
  log : List Event

namespace Core

variable (c : Core)

def pipe : Direction → Pipe
  | .fromDevice => c.sqIn
  | .toDevice => c.sqOut

def setPipe (d : Direction) (p : Pipe) : Core :=
  match d with
  | .fromDevice => { c with sqIn := p }
  | .toDevice => { c with sqOut := p }

variable (u : UrbId)

def setVurb (v : VUrb) : Core := { c with vurbs := update c.vurbs u v }

def setCell (x : UrbCell) : Core := { c with cells := update c.cells u x }

def record (e : Event) : Core := { c with log := e :: c.log }

/-- Record a submission of `u` that has turned the queue into `sq`. -/
def queued (d : Direction) (u : UrbId) (sq : Sq Entry) (offset size : Nat) : Core :=
  (c.setPipe d
    { sq := sq
      owners := (c.pipe d).owners ++ [u]
      live := (c.pipe d).live ++ [(c.pipe d).sq.submitted] }).record
    (.submit d u offset size (c.vurbs u) (c.pipe d).liveOwners c.urbList)

/-- Record that the completion `cd` was read, which has turned the queue into `sq`. -/
def take (d : Direction) (cd : CompletionData) (sq : Sq Entry) : Core :=
  let index := (c.pipe d).sq.taken
  (c.setPipe d { c.pipe d with sq := sq, live := (c.pipe d).live.erase index }).record
    (.take d index cd.status (decide (index ∉ (c.pipe d).live)) (c.urbList.head?.map fun u => (u, (c.vurbs u).state)))

def notifySubmissionComplete (d : Direction) : Core :=
  c.setPipe d { c.pipe d with sq := (c.pipe d).sq.notifySubmissionComplete }

/-- `usb_hcd_unlink_urb_from_ep`. The list node is also used for the giveback list, so the call removes the request
from either. -/
def usbHcdUnlinkUrbFromEp : Core :=
  { c with
    urbList := c.urbList.erase u
    givebackUrbList := c.givebackUrbList.erase u }.record (.unlink u (decide (u ∈ c.sqIn.liveOwners)))

def urbFree : Core := c.record (.free u)

def usbHcdGivebackUrb (status : Int) : Core := c.record (.giveback u status)

def urbComplete (status : Int) : Core :=
  let v := c.vurbs u
  let c := (c.record (.complete u status v)).usbHcdUnlinkUrbFromEp u
  let c := c.setCell u { c.cells u with hcpriv := false, status := status }
  let c :=
    if v.state ≠ .initPending then { c with remainingActiveRequests := add32 c.remainingActiveRequests 1 }
    else c
  let c := c.urbFree u
  { c with givebackUrbList := c.givebackUrbList ++ [u] }

/-! ### Reading back what was written -/

section ReadBack

variable (d : Direction) (u : UrbId)

variable (p : Pipe) (v : VUrb)

@[simp] theorem pipe_setPipe : (c.setPipe d p).pipe d = p := by cases d <;> rfl

theorem pipe_setPipe_of_ne {e : Direction} (h : e ≠ d) : (c.setPipe d p).pipe e = c.pipe e := by
  cases d <;> cases e <;> first | rfl | exact absurd rfl h

@[simp] theorem pipe_record (e : Event) : (c.record e).pipe d = c.pipe d := by cases d <;> rfl

@[simp] theorem setPipe_setPipe (p p' : Pipe) : (c.setPipe d p).setPipe d p' = c.setPipe d p' := by cases d <;> rfl

@[simp] theorem urbList_setPipe : (c.setPipe d p).urbList = c.urbList := by cases d <;> rfl

@[simp] theorem vurbs_setPipe : (c.setPipe d p).vurbs = c.vurbs := by cases d <;> rfl

@[simp] theorem log_setPipe : (c.setPipe d p).log = c.log := by cases d <;> rfl

@[simp] theorem endp_setPipe : (c.setPipe d p).endp = c.endp := by cases d <;> rfl

@[simp] theorem endp_setVurb : (c.setVurb u v).endp = c.endp := rfl

@[simp] theorem vurbs_setVurb_self : (c.setVurb u v).vurbs u = v := update_self ..

theorem vurbs_setVurb_of_ne {w : UrbId} (hw : w ≠ u) : (c.setVurb u v).vurbs w = c.vurbs w := update_of_ne hw ..

@[simp] theorem setVurb_setVurb (v v' : VUrb) : (c.setVurb u v).setVurb u v' = c.setVurb u v' := by simp [setVurb]

@[simp] theorem setVurb_self : c.setVurb u (c.vurbs u) = c := by simp only [setVurb, update_eq_self]

@[simp] theorem pipe_setVurb : (c.setVurb u v).pipe d = c.pipe d := by cases d <;> rfl

@[simp] theorem urbList_setVurb : (c.setVurb u v).urbList = c.urbList := rfl

@[simp] theorem log_setVurb : (c.setVurb u v).log = c.log := rfl

theorem setPipe_setVurb : (c.setVurb u v).setPipe d p = (c.setPipe d p).setVurb u v := by cases d <;> rfl

end ReadBack

section Complete

variable (u : UrbId) (status : Int)

@[simp] theorem urbList_urbComplete : (c.urbComplete u status).urbList = c.urbList.erase u := by
  unfold urbComplete
  simp only
  split <;> rfl

@[simp] theorem givebackUrbList_urbComplete :
    (c.urbComplete u status).givebackUrbList = c.givebackUrbList.erase u ++ [u] := by
  unfold urbComplete
  simp only
  split <;> rfl

@[simp] theorem cancelUrbList_urbComplete : (c.urbComplete u status).cancelUrbList = c.cancelUrbList := by
  unfold urbComplete
  simp only
  split <;> rfl

@[simp] theorem held_urbComplete : (c.urbComplete u status).held = c.held := by
  unfold urbComplete
  simp only
  split <;> rfl

@[simp] theorem vurbs_urbComplete : (c.urbComplete u status).vurbs = c.vurbs := by
  unfold urbComplete
  simp only
  split <;> rfl

@[simp] theorem nextUrb_urbComplete : (c.urbComplete u status).nextUrb = c.nextUrb := by
  unfold urbComplete
  simp only
  split <;> rfl

@[simp] theorem maxActiveRequests_urbComplete : (c.urbComplete u status).maxActiveRequests = c.maxActiveRequests := by
  unfold urbComplete
  simp only
  split <;> rfl

@[simp] theorem endp_urbComplete : (c.urbComplete u status).endp = c.endp := by
  unfold urbComplete
  simp only
  split <;> rfl

@[simp] theorem sqIn_urbComplete : (c.urbComplete u status).sqIn = c.sqIn := by
  unfold urbComplete
  simp only
  split <;> rfl

@[simp] theorem sqOut_urbComplete : (c.urbComplete u status).sqOut = c.sqOut := by
  unfold urbComplete
  simp only
  split <;> rfl

@[simp] theorem pipe_urbComplete (d : Direction) : (c.urbComplete u status).pipe d = c.pipe d := by
  cases d
  · exact c.sqOut_urbComplete u status
  · exact c.sqIn_urbComplete u status

@[simp] theorem log_urbComplete : (c.urbComplete u status).log =
    .free u :: .unlink u (decide (u ∈ c.sqIn.liveOwners)) :: .complete u status (c.vurbs u) :: c.log := by
  unfold urbComplete
  simp only
  split <;> rfl

theorem remaining_urbComplete (h : (c.vurbs u).state ≠ .initPending) :
    (c.urbComplete u status).remainingActiveRequests = add32 c.remainingActiveRequests 1 := by
  unfold urbComplete
  simp only
  rw [if_pos h]
  rfl

end Complete

end Core

/-- The fields of `enum bce_vhci_pause_source`. -/
def BCE_VHCI_PAUSE_INTERNAL_WQ : BitVec 32 := 1#32
def BCE_VHCI_PAUSE_FIRMWARE : BitVec 32 := 2#32
def BCE_VHCI_PAUSE_SUSPEND : BitVec 32 := 4#32
def BCE_VHCI_PAUSE_SHUTDOWN : BitVec 32 := 8#32

/-- `struct bce_vhci_transfer_queue`. -/
structure Tq extends Core where
  state : EndpointState
  active : Bool
  stalled : Bool
  /-- How many submissions both queues had seen when the queue stalled. -/
  stalledAt : Nat
  pausedBy : BitVec 32
  evq : List Message
  sqOutPending : Int
  /-- Whether `w_reset` is queued. -/
  wReset : Bool
  /-- Whether `w_cancel` is queued. -/
  wCancel : Bool
  /-- The flag `available` of the DMA engine. -/
  dmaAvailable : Bool
  /-- What the next reservations on the asynchronous message queue return; other endpoints use that
  queue as well. -/
  asyncReservations : List Bool

namespace Tq

variable (q : Tq)

/-- Apply a change to the part that the requests share. -/
def onCore (f : Core → Core) : Tq := { q with toCore := f q.toCore }

/-- `bce_vhci_transfer_queue_is_ep0`. -/
def isEp0 : Bool := q.endp.address == 0

def canInitUrb : Bool := decide (0 < q.remainingActiveRequests)

/-- The submissions on both queues so far. -/
def submissions : Nat := q.sqIn.sq.submitted + q.sqOut.sq.submitted

/-- The queue stalls; `stalledAt` keeps the count of the first stall since the last reset. -/
def stall : Tq :=
  { q with
    active := false
    stalled := true
    stalledAt := if q.stalled then q.stalledAt else q.submissions }

def requestReset : Tq := { q with wReset := true }

end Tq

end KaiT2en.Vhci
