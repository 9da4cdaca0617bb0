import KaiT2en.Lib.Ring
import KaiT2en.Dma.SegmentList
import KaiT2en.Vhci.Commands

/-!
# Pausing the event queues

The event queues of `t2bce_vhci/queue.c` keep 32 buffers posted to the device, which writes a message into one and
completes it. Before a sleep `bce_vhci_pause_event_queues` flushes the five queues one after the other; when one
fails, it and the ones before are resumed.

`bce_vhci_event_queue_resume` posts the 32 buffers if none is posted and refuses a queue with any other number. A
pause that times out with only some buffers aborted leaves such a queue (`partly_drained_queue`).
`pause_event_queues_iff` says that this, and a DMA engine that takes no submissions, is all that can go wrong. The
handlers of the model only take completions, notify the queue and post the buffers again.
-/

namespace KaiT2en.Vhci

open KaiT2en.Kernel KaiT2en.Dma Option Function List

/-! ## One queue -/

def VHCI_EVENT_QUEUE_EL_COUNT : Nat := 256

def VHCI_EVENT_PENDING_COUNT : Nat := 32

/-- `sizeof(struct bce_vhci_message)`. -/
def sizeofMessage : Nat := 16

/-- `struct bce_vhci_event_queue`. The counter of `queue_empty_completion` only ends a wait early,
after which its condition is checked again. -/
structure EventQueue where
  sq : Sq QeSubmission
  dmaAddr : Nat
  data : Nat → WireMessage

namespace EventQueue

variable (dmaAvailable : Bool) (q : EventQueue)

/-- The buffers that the device has and has not completed. -/
def posted : Nat := q.sq.submitted - q.sq.posted

def notifySubmissionComplete : EventQueue := { q with sq := q.sq.notifySubmissionComplete }

def nextCompletion : Option (CompletionData × EventQueue) :=
  q.sq.nextCompletion.map fun r => (r.1, { q with sq := r.2 })

/-- All elements but one are free. -/
def drained : Bool := q.sq.commandQueueIdle

/-- The loop of `bce_vhci_event_queue_submit_pending`. -/
def submitPending : Nat → EventQueue → EventQueue
  | 0, q => q
  | count + 1, q =>
    match q.sq.reserveSubmission dmaAvailable with
    | .error _ => q
    | .ok sq =>
      submitPending count
        { q with
          sq := sq.setNextSubmissionSingle id (q.dmaAddr + sq.tail * sizeofMessage)
            sizeofMessage }

/-- The loop of `bce_vhci_event_queue_completion`; `cnt` counts the events. -/
def completionLoop : Nat → Nat → EventQueue → Nat × EventQueue
  | 0, cnt, q => (cnt, q)
  | fuel + 1, cnt, q =>
    match q.nextCompletion with
    | none => (cnt, q)
    | some (cd, q) =>
      if cd.status = BCE_COMPLETION_ABORTED then completionLoop fuel cnt q.notifySubmissionComplete
      else completionLoop fuel (cnt + 1) q.notifySubmissionComplete

/-- The loop of `bce_vhci_handle_firmware_events_w`; `msg2` is the slot of a second message that was
taken together with the first. -/
def firmwareEventsLoop : Nat → Option Nat → Nat → EventQueue → Nat × EventQueue
  | 0, _, cnt, q => (cnt, q)
  | fuel + 1, msg2, cnt, q =>
    let handle (msg : Nat) (q : EventQueue) : Nat × EventQueue :=
      match q.nextCompletion with
      | none => firmwareEventsLoop fuel none (cnt + 1) q.notifySubmissionComplete
      | some (cd, q) =>
        let second := (q.sq.head + 1) % q.sq.elCount
        if cd.status ≠ BCE_COMPLETION_ABORTED ∧ (q.data second).cmd = (q.data msg).cmd ||| cancelBit ∧
            (q.data second).param1 = (q.data msg).param1 then
          firmwareEventsLoop fuel none (cnt + 2) q.notifySubmissionComplete.notifySubmissionComplete
        -- an aborted second completion is handled like an event in the next round
        else firmwareEventsLoop fuel (some second) (cnt + 1) q.notifySubmissionComplete
    match msg2 with
    | some msg => handle msg q
    | none =>
      match q.nextCompletion with
      | none => (cnt, q)
      | some (cd, q) =>
        if cd.status = BCE_COMPLETION_ABORTED then firmwareEventsLoop fuel none cnt q.notifySubmissionComplete
        else handle q.sq.head q

/-- The two completion handlers. -/
inductive Handler where
  | eventQueueCompletion
  | handleFirmwareEvents
  deriving DecidableEq

/-- A handler takes what was completed and posts the buffers of the events again. At most `el_count`
completions are pending. -/
def handle (handler : Handler) : EventQueue :=
  let r := match handler with
    | .eventQueueCompletion => completionLoop q.sq.elCount 0 q
    | .handleFirmwareEvents => firmwareEventsLoop q.sq.elCount none 0 q
  submitPending dmaAvailable r.1 r.2

/-- The device writes `msg` into the oldest buffer and completes it. -/
def complete (msg : WireMessage) (e : QeCompletion) : EventQueue :=
  if q.sq.posted < q.sq.submitted then
    { q with
      data := update q.data q.sq.completionTail msg
      sq := q.sq.handleCqCompletion e }
  else q

end EventQueue

/-- The completions that one run of a handler finds. -/
abbrev Batch := List (WireMessage × QeCompletion)

/-- What happens during one `bce_vhci_event_queue_pause`: the completions until the flush returns, its status, and
those until the wait times out. -/
structure PauseOutcome where
  flushing : List Batch
  status : Int
  waiting : List Batch

namespace EventQueue

variable (dmaAvailable : Bool) (handler : Handler)

/-- The device completes some buffers, and the handler runs. -/
def interrupt (q : EventQueue) (batch : Batch) : EventQueue :=
  (batch.foldl (fun q c => q.complete c.1 c.2) q).handle dmaAvailable handler

/-- The loop of `bce_vhci_event_queue_pause` that waits for the queue to become empty. -/
def waitDrained : List Batch → EventQueue → Int × EventQueue
  | [], q => if q.drained then (0, q) else (-ETIMEDOUT, q)
  | batch :: rest, q => if q.drained then (0, q) else waitDrained rest (q.interrupt dmaAvailable handler batch)

/-- `bce_vhci_event_queue_pause`. -/
def pause (o : PauseOutcome) (q : EventQueue) : Int × EventQueue :=
  let q := o.flushing.foldl (interrupt dmaAvailable handler) q
  if o.status ≠ 0 then (o.status, q) else waitDrained dmaAvailable handler o.waiting q

def resume (q : EventQueue) : EventQueue :=
  if !q.drained then q else submitPending dmaAvailable VHCI_EVENT_PENDING_COUNT q

end EventQueue

/-! ## The five queues -/

inductive EventQueueId where
  | isochronous
  | interrupt
  | asynchronous
  | commands
  | system
  deriving DecidableEq

/-- The firmware commands have a handler of their own. -/
def EventQueueId.handler : EventQueueId → EventQueue.Handler
  | .commands => .handleFirmwareEvents
  | _ => .eventQueueCompletion

/-- The order in which `bce_vhci_pause_event_queues` goes through the queues. -/
def eventQueueOrder : List EventQueueId := [.isochronous, .interrupt, .asynchronous, .commands, .system]

/-- The event queues of `struct bce_vhci`. -/
abbrev EventQueues := EventQueueId → EventQueue

/-- A pause that failed: its status, the queue, the queues paused before it, last one first, and their state. -/
structure PauseFailure where
  status : Int
  queue : EventQueueId
  before : List EventQueueId
  queues : EventQueues

/-- The loop of `bce_vhci_pause_event_queues`. -/
def pauseLoop (dmaAvailable : Bool) (o : EventQueueId → PauseOutcome) :
    List EventQueueId → List EventQueueId → EventQueues → Except PauseFailure EventQueues
  | [], _, v => .ok v
  | k :: rest, before, v =>
    let r := (v k).pause dmaAvailable k.handler (o k)
    let v := update v k r.2
    if r.1 ≠ 0 then .error ⟨r.1, k, before, v⟩ else pauseLoop dmaAvailable o rest (k :: before) v

/-- The loop at the label `rollback`. -/
def rollbackLoop (dmaAvailable : Bool) : List EventQueueId → EventQueues → EventQueues
  | [], v => v
  | k :: rest, v => rollbackLoop dmaAvailable rest (update v k ((v k).resume dmaAvailable))

def pauseEventQueues (dmaAvailable : Bool) (o : EventQueueId → PauseOutcome) (v : EventQueues) : Int × EventQueues :=
  match pauseLoop dmaAvailable o eventQueueOrder [] v with
  | .ok v => (0, v)
  | .error f => (f.status, rollbackLoop dmaAvailable (f.queue :: f.before) f.queues)

def EventQueue.create (dmaAvailable : Bool) (dmaAddr : Nat) : EventQueue :=
  submitPending dmaAvailable VHCI_EVENT_PENDING_COUNT
    { sq := Sq.fresh VHCI_EVENT_QUEUE_EL_COUNT
      dmaAddr := dmaAddr
      data := fun _ => ⟨0, 0, 0, 0⟩ }

/-! ## What the handlers keep -/

/-- The counts of a queue: the ring is consistent, and all completions that were taken but the last
`pending` ones are notified. -/
structure EventQueue.Sound (q : EventQueue) (pending : Nat) : Prop where
  consistent : q.sq.Consistent 0
  size : q.sq.elCount = VHCI_EVENT_QUEUE_EL_COUNT
  notified_add : q.sq.notified + pending = q.sq.taken
  taken_le : q.sq.taken ≤ q.sq.posted
  posted_le : q.sq.posted ≤ q.sq.submitted

/-- A queue between two runs of its handler. -/
structure EventQueue.Idle (q : EventQueue) : Prop extends q.Sound 0 where
  taken_eq : q.sq.taken = q.sq.posted

namespace EventQueue

variable {q q' : EventQueue} {pending : Nat}

namespace Sound

theorem posted_lt (h : q.Sound pending) : q.sq.posted < q.sq.notified + q.sq.elCount := by
  have hbal := h.consistent.balance
  have hnn := h.consistent.nonneg
  have hle := h.posted_le
  omega

/-- No completion is left exactly if all that were posted are taken. -/
theorem taken_of_none (h : q.Sound pending) (hno : q.nextCompletion = none) : q.sq.taken = q.sq.posted := by
  unfold nextCompletion at hno
  unfold Sq.nextCompletion at hno
  split at hno
  · rename_i hidx
    rw [h.consistent.cidx_eq, h.consistent.ctail_eq] at hidx
    have hlt := h.posted_lt
    have hnot := h.notified_add
    exact Lib.Ring.slot_inj h.taken_le (by omega) hidx
  · cases hno

theorem next {cd : CompletionData} (h : q.Sound pending) (hnx : q.nextCompletion = some (cd, q')) :
    q'.Sound (pending + 1) ∧ q'.sq.taken = q.sq.taken + 1 ∧ q'.sq.posted = q.sq.posted := by
  obtain ⟨⟨cd', sq⟩, hsq, heq⟩ := map_eq_some_iff.1 hnx
  obtain ⟨-, rfl⟩ := heq
  have hcon := h.consistent.nextCompletion hsq
  obtain ⟨⟨hidx, -⟩, rfl⟩ := Sq.nextCompletion_spec hsq
  -- the two indices differ, so a completion is pending
  have hlt : q.sq.taken < q.sq.posted := by
    apply lt_of_le_of_ne h.taken_le
    intro heq
    rw [h.consistent.cidx_eq, h.consistent.ctail_eq, heq] at hidx
    exact hidx rfl
  have hnot := h.notified_add
  refine ⟨⟨hcon, h.size, ?_, hlt, h.posted_le⟩, rfl, rfl⟩
  show q.sq.notified + (pending + 1) = q.sq.taken + 1
  omega

theorem notify (h : q.Sound (pending + 1)) : q.notifySubmissionComplete.Sound pending :=
  { h with
    consistent := h.consistent.notifySubmissionComplete
    notified_add := by
      have hnot := h.notified_add
      show q.sq.notified + 1 + pending = q.sq.taken
      omega }

end Sound

theorem completionLoop_idle {fuel cnt : Nat} (h : q.Sound 0)
    (hfu : q.sq.posted ≤ q.sq.taken + fuel) : (completionLoop fuel cnt q).2.Idle := by
  induction fuel generalizing q cnt with
  | zero =>
    have htak : q.sq.taken = q.sq.posted := le_antisymm h.taken_le hfu
    exact ⟨h, htak⟩
  | succ fuel ih =>
    unfold completionLoop
    split
    · rename_i hno
      exact ⟨h, h.taken_of_none hno⟩
    rename_i cd q₁ hnx
    obtain ⟨hq₁, htak, hps⟩ := h.next hnx
    have hlf : q₁.notifySubmissionComplete.sq.posted ≤ q₁.notifySubmissionComplete.sq.taken + fuel := by
      show q₁.sq.posted ≤ q₁.sq.taken + fuel
      omega
    split
    · exact ih hq₁.notify hlf
    · exact ih hq₁.notify hlf

/-- `bce_vhci_handle_firmware_events_w` takes all completions. A second message that was taken with
the first is still to be notified. -/
theorem firmwareEventsLoop_idle {fuel cnt : Nat} {msg2 : Option Nat} (h : q.Sound msg2.toList.length)
    (hfu : q.sq.posted + msg2.toList.length ≤ q.sq.taken + fuel) :
    (firmwareEventsLoop fuel msg2 cnt q).2.Idle := by
  induction fuel generalizing q cnt msg2 with
  | zero =>
    have hle := h.taken_le
    cases msg2 with
    | none =>
      have htak : q.sq.taken = q.sq.posted := le_antisymm hle hfu
      exact ⟨h, htak⟩
    | some msg =>
      simp only [toList_some, length_singleton] at hfu
      omega
  | succ fuel ih =>
    -- one round for a message that was taken
    have hround : ∀ {q : EventQueue} (msg : Nat), q.Sound 1 → q.sq.posted ≤ q.sq.taken + fuel →
        (match q.nextCompletion with
          | none => firmwareEventsLoop fuel none (cnt + 1) q.notifySubmissionComplete
          | some (cd, q) =>
            if cd.status ≠ BCE_COMPLETION_ABORTED ∧ (q.data ((q.sq.head + 1) % q.sq.elCount)).cmd =
                  (q.data msg).cmd ||| cancelBit ∧
                (q.data ((q.sq.head + 1) % q.sq.elCount)).param1 = (q.data msg).param1 then
              firmwareEventsLoop fuel none (cnt + 2) q.notifySubmissionComplete.notifySubmissionComplete
            else firmwareEventsLoop fuel (some ((q.sq.head + 1) % q.sq.elCount)) (cnt + 1)
              q.notifySubmissionComplete).2.Idle := by
      intro q msg hq hlf
      split
      · exact ih hq.notify hlf
      rename_i cd q₁ hnx
      obtain ⟨hq₁, htak, hps⟩ := hq.next hnx
      split
      · refine ih hq₁.notify.notify ?_
        show q₁.sq.posted ≤ q₁.sq.taken + fuel
        omega
      · refine ih hq₁.notify ?_
        show q₁.sq.posted + 1 ≤ q₁.sq.taken + fuel
        omega
    unfold firmwareEventsLoop
    cases msg2 with
    | some msg =>
      refine hround msg h ?_
      simp only [toList_some, length_singleton] at hfu
      omega
    | none =>
      dsimp only
      split
      · rename_i hno
        exact ⟨h, h.taken_of_none hno⟩
      rename_i cd q₁ hnx
      obtain ⟨hq₁, htak, hps⟩ := h.next hnx
      split
      · refine ih hq₁.notify ?_
        show q₁.sq.posted ≤ q₁.sq.taken + fuel
        omega
      · refine hround q₁.sq.head hq₁ ?_
        omega

/-- Posting a buffer. -/
theorem Sound.submit (h : q.Sound 0) {dmaAvailable : Bool} {sq : Sq QeSubmission} {addr size : Nat}
    (hrsv : q.sq.reserveSubmission dmaAvailable = .ok sq) :
    EventQueue.Sound { q with sq := sq.setNextSubmissionSingle id addr size } 0 := by
  have hrese := h.consistent.reserveSubmission hrsv
  obtain ⟨-, rfl⟩ := Sq.reserveSubmission_ok hrsv
  exact ⟨hrese.nextSubmission _, h.size, h.notified_add, h.taken_le, Nat.le_succ_of_le h.posted_le⟩

theorem Idle.submit (h : q.Idle) {dmaAvailable : Bool} {sq : Sq QeSubmission} {addr size : Nat}
    (hrsv : q.sq.reserveSubmission dmaAvailable = .ok sq) :
    EventQueue.Idle { q with sq := sq.setNextSubmissionSingle id addr size } := by
  refine ⟨h.toSound.submit hrsv, ?_⟩
  obtain ⟨-, rfl⟩ := Sq.reserveSubmission_ok hrsv
  exact h.taken_eq

theorem Idle.submitPending (h : q.Idle) (dmaAvailable : Bool) (count : Nat) :
    (submitPending dmaAvailable count q).Idle := by
  induction count generalizing q with
  | zero => exact h
  | succ count ih =>
    unfold EventQueue.submitPending
    split
    · exact h
    · rename_i sq hrsv
      exact ih (h.submit hrsv)

theorem Sound.handle (h : q.Sound 0) (dmaAvailable : Bool) (handler : Handler) :
    (q.handle dmaAvailable handler).Idle := by
  have hlt := h.posted_lt
  have hnot := h.notified_add
  apply Idle.submitPending
  cases handler with
  | eventQueueCompletion =>
    apply completionLoop_idle h
    omega
  | handleFirmwareEvents =>
    refine firmwareEventsLoop_idle h ?_
    simp only [toList_none, length_nil]
    omega

theorem Sound.complete (h : q.Sound pending) (msg : WireMessage) (e : QeCompletion) :
    (q.complete msg e).Sound pending := by
  unfold EventQueue.complete
  split
  · rename_i hlt
    exact ⟨h.consistent.handleCqCompletion e, h.size, h.notified_add, Nat.le_succ_of_le h.taken_le, hlt⟩
  · exact h

section

variable (h : q.Idle)
include h

theorem Idle.interrupt (dmaAvailable : Bool) (handler : Handler) (batch : Batch) :
    (q.interrupt dmaAvailable handler batch).Idle := by
  have hbat : ∀ (l : Batch) {q : EventQueue}, q.Sound 0 → (l.foldl (fun q c => q.complete c.1 c.2) q).Sound 0 := by
    intro l
    induction l with
    | nil =>
      intro q hq
      exact hq
    | cons c l ih =>
      intro q hq
      exact ih (hq.complete c.1 c.2)
  exact (hbat batch h.toSound).handle dmaAvailable handler

theorem Idle.interrupts (dmaAvailable : Bool) (handler : Handler)
    (batches : List Batch) : (batches.foldl (EventQueue.interrupt dmaAvailable handler) q).Idle := by
  induction batches generalizing q with
  | nil => exact h
  | cons batch rest ih => exact ih (h.interrupt dmaAvailable handler batch)

/-! ## Pause and resume -/

theorem Idle.available_add : q.sq.availableCommands + q.posted = (q.sq.elCount : Int) - 1 := by
  have hbal := h.consistent.balance
  have hnot := h.notified_add
  have htak := h.taken_eq
  have hle := h.posted_le
  unfold EventQueue.posted
  omega

/-- A queue counts as drained exactly if no buffer is posted. -/
theorem Idle.drained_iff : q.drained ↔ q.posted = 0 := by
  have hadd := h.available_add
  constructor
  · intro hdi
    have hlt := h.consistent.elCount_lt
    have hnn := h.consistent.nonneg
    unfold EventQueue.drained Sq.commandQueueIdle at hdi
    rw [beq_iff_eq, sub32_of_le (by omega) (by omega), Int.emod_eq_of_lt hnn (by omega)]
      at hdi
    omega
  · intro hps
    apply h.consistent.commandQueueIdle
    omega

/-- `bce_vhci_event_queue_pause` succeeds only with no buffer posted. -/
theorem Idle.waitDrained (dmaAvailable : Bool) (handler : Handler) (batches : List Batch) :
    (waitDrained dmaAvailable handler batches q).2.Idle ∧ ((waitDrained dmaAvailable handler batches q).1 = 0 →
        (waitDrained dmaAvailable handler batches q).2.posted = 0) := by
  induction batches generalizing q with
  | nil =>
    unfold EventQueue.waitDrained
    split
    · rename_i hdi
      exact ⟨h, fun _ => h.drained_iff.1 hdi⟩
    · exact ⟨h, fun hz => by cases hz⟩
  | cons batch rest ih =>
    unfold EventQueue.waitDrained
    split
    · rename_i hdi
      exact ⟨h, fun _ => h.drained_iff.1 hdi⟩
    · exact ih (h.interrupt dmaAvailable handler batch)

theorem Idle.pause (dmaAvailable : Bool) (handler : Handler) (o : PauseOutcome) :
    (q.pause dmaAvailable handler o).2.Idle ∧
      ((q.pause dmaAvailable handler o).1 = 0 → (q.pause dmaAvailable handler o).2.posted = 0) := by
  have hflus := h.interrupts dmaAvailable handler o.flushing
  unfold EventQueue.pause
  split
  · rename_i hst
    exact ⟨hflus, fun hz => absurd hz hst⟩
  · exact hflus.waitDrained dmaAvailable handler o.waiting

/-- Buffers are posted as far as elements are free, if the engine takes them. -/
theorem posted_submitPending {count : Nat} (hfr : (count : Int) ≤ q.sq.availableCommands) :
    (submitPending true count q).posted = q.posted + count := by
  induction count generalizing q with
  | zero => rfl
  | succ count ih =>
    have hrsv : q.sq.reserveSubmission true = .ok { q.sq with availableCommands := q.sq.availableCommands - 1 } := by
      grind [atomicDecIfPositive_of_pos, Sq.reserveSubmission]
    unfold EventQueue.submitPending
    rw [hrsv]
    have hle := h.posted_le
    rw [ih (h.submit hrsv)]
    · show q.sq.submitted + 1 - q.sq.posted + count = q.sq.submitted - q.sq.posted + (count + 1)
      omega
    · show (count : Int) ≤ q.sq.availableCommands - 1
      omega

end

theorem submitPending_unavailable (q : EventQueue) (count : Nat) : submitPending false count q = q := by
  cases count <;> rfl

theorem posted_resume (h : q.Idle) (dmaAvailable : Bool) : (q.resume dmaAvailable).posted =
      if q.posted = 0 ∧ dmaAvailable then VHCI_EVENT_PENDING_COUNT else q.posted := by
  unfold resume
  cases hdi : q.drained with
  | false =>
    have hne : ¬(q.posted = 0 ∧ dmaAvailable) := by
      rintro ⟨hz, -⟩
      rw [h.drained_iff.2 hz] at hdi
      cases hdi
    rw [if_neg hne]
    rfl
  | true =>
    have hz := h.drained_iff.1 hdi
    have hadd := h.available_add
    rw [if_neg (by decide)]
    cases dmaAvailable with
    | false => rw [if_neg fun hand => Bool.false_ne_true hand.2, submitPending_unavailable]
    | true =>
      rw [if_pos ⟨hz, rfl⟩, posted_submitPending h, hz, Nat.zero_add]
      have hsz := h.size
      unfold VHCI_EVENT_QUEUE_EL_COUNT at hsz
      unfold VHCI_EVENT_PENDING_COUNT
      omega

end EventQueue

/-! ## The rollback -/

/-- What is known of the queues when a pause has failed. -/
structure PauseFailure.Spec (f : PauseFailure) : Prop where
  status_ne : f.status ≠ 0
  idle : ∀ k, (f.queues k).Idle
  nodup : (f.queue :: f.before).Nodup
  paused : ∀ k ∈ f.before, (f.queues k).posted = 0
  untouched : ∀ k, k ∉ f.queue :: f.before → (f.queues k).posted = VHCI_EVENT_PENDING_COUNT

theorem pauseLoop_spec (dmaAvailable : Bool) {o : EventQueueId → PauseOutcome} (rest before : List EventQueueId)
    {v : EventQueues} (hdl : ∀ k, (v k).Idle) (hnd : (rest ++ before).Nodup) (hpaus : ∀ k ∈ before, (v k).posted = 0)
    (hps : ∀ k, k ∉ before → (v k).posted = VHCI_EVENT_PENDING_COUNT) :
    match pauseLoop dmaAvailable o rest before v with
    | .ok v' => ∀ k ∈ rest ++ before, (v' k).posted = 0
    | .error f => f.Spec := by
  induction rest generalizing before v with
  | nil => exact hpaus
  | cons k rest ih =>
    have hpause := (hdl k).pause dmaAvailable k.handler (o k)
    have hk : k ∉ rest ++ before := (nodup_cons.1 hnd).1
    set r := (v k).pause dmaAvailable k.handler (o k) with hr
    have hdl' : ∀ j, (update v k r.2 j).Idle := by grind
    unfold pauseLoop
    by_cases hst : r.1 = 0
    · rw [if_neg (not_not_intro hst)]
      have hnd' : (rest ++ k :: before).Nodup := by grind
      have hrs := ih (k :: before) hdl' hnd' ?_ ?_
      · generalize pauseLoop dmaAvailable o rest (k :: before) (update v k r.2) = res
          at hrs ⊢
        cases res with
        | ok v' => grind
        | error f => exact hrs
      · grind
      · grind
    rw [if_pos hst]
    constructor
    · exact hst
    · exact hdl'
    · grind
    · grind
    · grind

theorem rollbackLoop_apply {dmaAvailable : Bool} {l : List EventQueueId} {v : EventQueues}
    (hnd : l.Nodup) (k : EventQueueId) : rollbackLoop dmaAvailable l v k =
      if k ∈ l then (v k).resume dmaAvailable else v k := by
  induction l generalizing v with
  | nil => rfl
  | cons j rest ih =>
    obtain ⟨hj, hrs⟩ := nodup_cons.1 hnd
    unfold rollbackLoop
    rw [ih hrs]
    by_cases hk : k = j
    · subst hk
      rw [if_neg hj, if_pos mem_cons_self, update_self]
    · grind

/-- On an error every queue has its buffers posted again, otherwise none has. -/
def AllOrNothing (r : Int × EventQueues) : Prop :=
  (r.1 = 0 → ∀ k, (r.2 k).posted = 0) ∧ (r.1 ≠ 0 → ∀ k, (r.2 k).posted = VHCI_EVENT_PENDING_COUNT)

/-- The failing queue has all its buffers posted, or none; and the engine takes submissions, unless
nothing has to be posted. -/
def PauseFailure.Clean (f : PauseFailure) (dmaAvailable : Bool) : Prop :=
  ((f.queues f.queue).posted = VHCI_EVENT_PENDING_COUNT ∨ (f.queues f.queue).posted = 0 ∧ dmaAvailable = true) ∧
    (f.before = [] ∨ dmaAvailable = true)

/-- After the rollback all buffers are posted exactly if the failure was clean. -/
theorem PauseFailure.Spec.rollback_iff {f : PauseFailure} (h : f.Spec) (dmaAvailable : Bool) :
    (∀ k, (rollbackLoop dmaAvailable (f.queue :: f.before) f.queues k).posted =
      VHCI_EVENT_PENDING_COUNT) ↔ f.Clean dmaAvailable := by
  have hres : ∀ k ∈ f.queue :: f.before, (rollbackLoop dmaAvailable (f.queue :: f.before) f.queues k).posted =
        if (f.queues k).posted = 0 ∧ dmaAvailable then VHCI_EVENT_PENDING_COUNT
        else (f.queues k).posted := by
    intro k hk
    rw [rollbackLoop_apply h.nodup, if_pos hk]
    exact EventQueue.posted_resume (h.idle k) dmaAvailable
  constructor
  · intro hall
    constructor
    · grind
    · cases hbef : f.before with
      | nil => exact .inl rfl
      | cons k rest =>
        have hk : k ∈ f.before := by
          rw [hbef]
          exact mem_cons_self
        have hque := hall k
        rw [hres _ (mem_cons_of_mem _ hk), h.paused k hk] at hque
        split at hque
        · rename_i hz
          exact .inr hz.2
        · cases hque
  · rintro ⟨hque, hbef⟩ k
    by_cases hk : k ∈ f.queue :: f.before
    · rw [hres k hk]
      rcases mem_cons.1 hk with rfl | hk
      · grind
      rcases hbef with hnil | hdma
      · rw [hnil] at hk
        cases hk
      · rw [if_pos ⟨h.paused k hk, hdma⟩]
    · rw [rollbackLoop_apply h.nodup, if_neg hk]
      exact h.untouched k hk

/-- Pausing the event queues is all-or-nothing exactly if every failure is clean. -/
theorem pause_event_queues_iff {v : EventQueues} (hv : ∀ k, (v k).Idle ∧ (v k).posted = VHCI_EVENT_PENDING_COUNT)
    (dmaAvailable : Bool) (o : EventQueueId → PauseOutcome) :
    AllOrNothing (pauseEventQueues dmaAvailable o v) ↔
      ∀ f, pauseLoop dmaAvailable o eventQueueOrder [] v = .error f → f.Clean dmaAvailable := by
  have hsc := pauseLoop_spec dmaAvailable (o := o) eventQueueOrder [] (fun k => (hv k).1)
    (by decide) (fun k hk => by cases hk)
    (fun k _ => (hv k).2)
  unfold pauseEventQueues
  cases hlp : pauseLoop dmaAvailable o eventQueueOrder [] v with
  | ok v' =>
    rw [hlp] at hsc
    constructor
    · intro _ f hf
      cases hf
    · intro _
      refine ⟨fun _ k => hsc k ?_, fun hne => absurd rfl hne⟩
      cases k <;> decide
  | error f =>
    rw [hlp] at hsc
    have hrol := hsc.rollback_iff dmaAvailable
    constructor
    · intro hall f' hf'
      cases hf'
      exact hrol.1 (hall.2 hsc.status_ne)
    · intro hclean
      exact ⟨fun hz => absurd hz hsc.status_ne, fun _ => hrol.2 (hclean f rfl)⟩

theorem EventQueue.create_idle (dmaAddr : Nat) : (EventQueue.create true dmaAddr).Idle ∧
      (EventQueue.create true dmaAddr).posted = VHCI_EVENT_PENDING_COUNT := by
  set q : EventQueue := ⟨Sq.fresh VHCI_EVENT_QUEUE_EL_COUNT, dmaAddr, fun _ => ⟨0, 0, 0, 0⟩⟩ with hq
  have hdl : q.Idle := ⟨⟨Sq.fresh_consistent (by decide) (by decide), rfl, rfl, le_rfl, le_rfl⟩, rfl⟩
  refine ⟨hdl.submitPending true _, ?_⟩
  refine (posted_submitPending hdl ?_).trans (Nat.zero_add _)
  show (VHCI_EVENT_PENDING_COUNT : Int) ≤ atomicOfU32 (sub32 VHCI_EVENT_QUEUE_EL_COUNT 1)
  decide

/-- The queues of a new host controller. -/
def EventQueues.create : EventQueues := fun _ => EventQueue.create true 0x10000

/-- The device aborts the buffer in slot `i`. -/
def abortedBuffer (i : Nat) : WireMessage × QeCompletion := (⟨0, 0, 0, 0⟩, ⟨0, 0, i, BCE_COMPLETION_ABORTED⟩)

/-- The flush succeeds, and the device aborts the first `n` buffers before the wait times out. -/
def PauseOutcome.aborts (n : Nat) : PauseOutcome := ⟨[], 0, [(range n).map abortedBuffer]⟩

/-- The isochronous events are drained, and any other flush times out without effect. -/
def flushTimesOut : EventQueueId → PauseOutcome
  | .isochronous => .aborts 32
  | _ => ⟨[], -ETIMEDOUT, []⟩

/-- The pause fails for the interrupt events with all buffers posted. -/
def failsWithAll : Except PauseFailure EventQueues → Bool
  | .ok _ => false
  | .error f => decide (f.queue = .interrupt ∧ (f.queues f.queue).posted = VHCI_EVENT_PENDING_COUNT)

/-- The flush of the interrupt events times out after the isochronous events were drained; all queues have their
buffers again. -/
theorem pause_event_queues_failedFlush :
    failsWithAll (pauseLoop true flushTimesOut eventQueueOrder [] EventQueues.create) = true ∧
      AllOrNothing (pauseEventQueues true flushTimesOut EventQueues.create) := by
  have hfa : failsWithAll (pauseLoop true flushTimesOut eventQueueOrder [] EventQueues.create) =
      true := by decide +kernel
  refine ⟨hfa, (pause_event_queues_iff (fun k => EventQueue.create_idle 0x10000) _ _).2 ?_⟩
  intro f hf
  change pauseLoop true flushTimesOut eventQueueOrder [] EventQueues.create = .error f at hf
  rw [hf] at hfa
  exact ⟨.inl (of_decide_eq_true hfa).2, .inr rfl⟩

/-- The wait for the isochronous events times out after one of 32 buffers was aborted. The rollback refuses the queue.
-/
theorem partly_drained_queue : (pauseEventQueues true (fun _ => .aborts 1) EventQueues.create).1 = -ETIMEDOUT ∧
      ((pauseEventQueues true (fun _ => .aborts 1) EventQueues.create).2 .isochronous).posted = 31 := by
  decide +kernel

end KaiT2en.Vhci
