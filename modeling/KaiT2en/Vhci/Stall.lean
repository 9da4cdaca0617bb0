import KaiT2en.Vhci.Pause
import KaiT2en.Vhci.Window
import KaiT2en.Vhci.Attribution

/-!
# Stalled endpoints

A queue that stalls is inactive, and the reset worker is to clear `stalled` before anything else is submitted. Two
things break this (`stalled_endpoint_runs`): the rollback of a failed pause and a resume set `active` without a look
at `stalled`, and the sections that deliver held-back messages and start waiting requests look at neither flag.

The predicates `…Quiet` follow the calls of a section and say of each call made while the queue is stalled that it has
nothing to submit. `stalled_quiet` says that a queue whose sections are all quiet, and which is restarted only while
it is not stalled, keeps the promise.
-/

namespace KaiT2en.Vhci

open KaiT2en.Kernel KaiT2en.Dma KaiT2en.Lib.Transition Machine System Bool Tq Option

/-! ## Quiet sections -/

namespace Tq

variable (q : Tq)

/-- `bce_vhci_urb_init` of `u` submits nothing on a stalled queue. -/
def initQuiet (u : UrbId) : Bool := !q.stalled || (q.vurbs u).isControl || (q.vurbs u).dir == .toDevice

/-- `bce_vhci_urb_update` of `u` submits nothing on a stalled queue. -/
def updateQuiet (u : UrbId) (msg : Message) : Bool :=
  !q.stalled || msg.cmd != .transferRequest ||
    (q.vurbs u).state != .controlWaitingForSetupRequest && (q.vurbs u).state != .waitingForTransferRequest

/-- `bce_vhci_urb_transfer_completion` of `u` submits nothing on a stalled queue: no data stage from
the device begins, and the requested data is there. -/
def transferCompletionQuiet (u : UrbId) (c : CompletionData) : Bool :=
  let v := q.vurbs u
  !q.stalled ||
    !(v.isControl && v.state == .controlWaitingForSetupCompletion && v.dir == .fromDevice) &&
      (v.state != .waitingForCompletion ||
        decide (v.requestEnd ≤ add32 v.receiveOffset c.dataSize))

def initPendingUrbsLoopQuiet : List UrbId → Tq → Bool
  | [], _ => true
  | u :: rest, q =>
    if !q.canInitUrb then true
    else if (q.vurbs u).state = .initPending then q.initQuiet u && initPendingUrbsLoopQuiet rest (q.urbInit u).2
    else initPendingUrbsLoopQuiet rest q

def initPendingUrbsQuiet : Bool := initPendingUrbsLoopQuiet q.urbList q

def deliverPendingLoopQuiet : List Message → Tq → Bool
  | [], _ => true
  | msg :: evq, q =>
    match q.urbList with
    | [] => true
    | u :: _ =>
      q.updateQuiet u msg && ((q.urbUpdate u msg).1 == -EAGAIN || deliverPendingLoopQuiet evq (q.urbUpdate u msg).2)

def deliverPendingQuiet : Bool := deliverPendingLoopQuiet q.evq q && (deliverPendingLoop q.evq q).initPendingUrbsQuiet

def transferQueueEventQuiet (msg : Message) : Bool :=
  if !q.active then true
  else
    q.deliverPendingQuiet &&
      let q := q.deliverPending
      match q.urbList with
      | [] => true
      | u :: _ => q.updateQuiet u msg && (q.urbUpdate u msg).2.initPendingUrbsQuiet

def handleCompletionQuiet (c : CompletionData) : Bool :=
  if c.status = BCE_COMPLETION_ABORTED then true
  else
    match q.urbList with
    | [] => true
    | u :: _ => q.transferCompletionQuiet u c

def completionLoopQuiet (d : Direction) : Nat → Tq → Bool
  | 0, _ => true
  | fuel + 1, q =>
    match q.nextCompletion d with
    | none => true
    | some (c, q) => q.handleCompletionQuiet c && completionLoopQuiet d fuel (q.handleCompletion d c)

def transferQueueCompletionQuiet (d : Direction) : Bool :=
  completionLoopQuiet d (q.pipe d).sq.elCount q && (completionLoop d (q.pipe d).sq.elCount q).deliverPendingQuiet

def urbCreateQuiet (v : VUrb) (link : Int) : Bool :=
  if link ≠ 0 then true
  else
    let u := q.nextUrb
    let q := q.onCore fun c => c.usbHcdLinkUrbToEp v
    if q.active then
      if q.canInitUrb then (q.urbInit u).1 != 0 || (q.urbInit u).2.deliverPendingQuiet
      else q.deliverPendingQuiet
    else (if q.stalled then q.requestReset else q).deliverPendingQuiet

/-- A restart is quiet if the queue is not stalled. It may stall during the restart. -/
def restartQuiet : Bool := !q.stalled && (resumeLoop q.urbList { q with active := true }).deliverPendingQuiet

def restoreActiveQuiet : Bool := !q.stalled && { q with active := true }.deliverPendingQuiet

end Tq

def System.quiet (s : System) : Action → Bool
  | .enqueue urb o =>
    match s.urbNew urb o with
    | .error _ => true
    | .ok v => s.urbCreateQuiet v o.link
  | .event _ msg => s.transferQueueEventQuiet msg
  | .completion d => s.transferQueueCompletionQuiet d
  | .pauseStep _ =>
    match s.pauseLock with
    | some ⟨_, .restoreActive, _⟩ => s.restoreActiveQuiet
    | some ⟨_, .restart, _⟩ => s.restartQuiet
    | _ => true
  | _ => true

/-! ## Calls that submit nothing -/

namespace Tq

theorem submissions_remaining (q : Tq) (f : Core → Nat) :
    (q.onCore fun c => { c with remainingActiveRequests := f c }).submissions = q.submissions := rfl

theorem submissions_urbMarkCancelled (q : Tq) (u : UrbId) (status : Int) :
    (q.onCore fun c => c.urbMarkCancelled u status).submissions = q.submissions := by
  show ((q.toCore.urbMarkCancelled u status).pipe .fromDevice).sq.submitted +
    ((q.toCore.urbMarkCancelled u status).pipe .toDevice).sq.submitted = _
  rw [Core.pipe_urbMarkCancelled, Core.pipe_urbMarkCancelled]
  rfl

theorem flags_resumeLoop (l : List UrbId) (q : Tq) : (resumeLoop l q).flags = q.flags := by
  induction l generalizing q with
  | nil => rfl
  | cons u rest ih =>
    unfold resumeLoop
    split
    · split
      · rfl
      · exact (ih _).trans (q.flags_urbInit u)
    · exact (ih _).trans (q.flags_urbResume u)

variable {q : Tq} {u : UrbId}

theorem submissions_urbInit (hqu : q.initQuiet u) (hstl : q.stalled) : (q.urbInit u).2.submissions = q.submissions := by
  unfold urbInit
  split
  · rfl
  split
  rename_i status q₁ hstr
  have hsub : q₁.submissions = q.submissions := by
    split at hstr
    · cases hstr
      rfl
    rename_i hctl
    unfold urbDataStart at hstr
    unfold initQuiet at hqu
    simp only [hstl, hctl, Bool.not_true, Bool.false_or, beq_iff_eq] at hqu
    simp only [hqu] at hstr
    cases hstr
    rfl
  split
  · have hcred := q₁.submissions_remaining fun c => sub32 c.remainingActiveRequests 1
    exact hcred.trans hsub
  · exact hsub

theorem submissions_urbFailDataTransfer (status : Int) :
    (q.urbFailDataTransfer u status).2.submissions = q.submissions := by
  exact submissions_urbComplete _ u status

theorem submissions_urbControlCheckStatus : (q.urbControlCheckStatus u).2.submissions = q.submissions := by
  unfold urbControlCheckStatus
  simp only
  split
  · rfl
  split
  · split
    · split
      · exact submissions_urbComplete _ u (-EPIPE)
      split <;> exact submissions_urbComplete _ u (-EPIPE)
    · exact submissions_urbComplete _ u 0
  · rfl

theorem submissions_urbUpdate {msg : Message} (hqu : q.updateQuiet u msg)
    (hstl : q.stalled) : (q.urbUpdate u msg).2.submissions = q.submissions := by
  have hno : ¬((q.vurbs u).state = .waitingForTransferRequest ∧ msg.cmd = .transferRequest) ∧
      ¬((q.vurbs u).state = .controlWaitingForSetupRequest ∧ msg.cmd = .transferRequest) := by grind [updateQuiet]
  have hda : q.urbDataUpdate u msg = (-EAGAIN, q) := if_neg hno.1
  unfold urbUpdate
  simp only
  split
  · rfl
  split
  · unfold urbControlUpdate
    simp only
    split
    · exact submissions_urbControlCheckStatus
    split
    · rename_i hsu
      rw [if_neg fun hcmd => hno.2 ⟨hsu, hcmd⟩]
    split
    · rw [hda]
      rfl
    · rfl
  · rw [hda]

theorem submissions_urbDataTransferCompletion {c : CompletionData} (h : (q.vurbs u).state = .waitingForCompletion →
      (q.vurbs u).requestEnd ≤ add32 (q.vurbs u).receiveOffset c.dataSize) :
    (q.urbDataTransferCompletion u c).2.submissions = q.submissions := by
  obtain ⟨status, dataSize, result⟩ := c
  by_cases hwt : (q.vurbs u).state = .waitingForCompletion
  · have hend : ¬add32 (q.vurbs u).receiveOffset dataSize < (q.vurbs u).requestEnd := Nat.not_lt.2 (h hwt)
    unfold urbDataTransferCompletion
    rw [if_pos hwt]
    split
    · exact submissions_urbFailDataTransfer _
    split
    · exact submissions_urbFailDataTransfer _
    split
    · exact submissions_urbFailDataTransfer _
    split
    · split
      · exact submissions_urbComplete _ u (-ERemoteIo)
      split
      · exact submissions_urbComplete _ u 0
      · rfl
    rw [if_neg fun hmo => hend hmo.2, if_neg fun hmo => hend hmo.2]
    split
    · rfl
    split
    · exact submissions_urbComplete _ u 0
    · rfl
  · have hno : q.urbDataTransferCompletion u ⟨status, dataSize, result⟩ = (0, q) := if_neg hwt
    rw [hno]

theorem submissions_urbTransferCompletion {c : CompletionData}
    (hqu : q.transferCompletionQuiet u c) (hstl : q.stalled) :
    (q.urbTransferCompletion u c).2.submissions = q.submissions := by
  unfold transferCompletionQuiet at hqu
  simp only [hstl, Bool.not_true, Bool.false_or, Bool.and_eq_true, Bool.not_eq_true',
    Bool.or_eq_true, bne_iff_ne, decide_eq_true_eq, Bool.and_eq_false_iff, beq_eq_false_iff_ne]
    at hqu
  obtain ⟨hsu, hmo⟩ := hqu
  have hda := submissions_urbDataTransferCompletion (q := q) (u := u) (c := c)
    (fun hwt => hmo.resolve_left (not_not_intro hwt))
  unfold urbTransferCompletion
  split
  · rename_i hctl
    unfold urbControlTransferCompletion
    simp only
    split
    · rename_i hsta
      -- the data stage goes to the device, so it waits for a window
      have hdir : (q.vurbs u).dir = .toDevice := by
        cases hd : (q.vurbs u).dir with
        | toDevice => rfl
        | fromDevice => simp [hctl, hsta, hd] at hsu
      have hstr : (q.urbDataStart u).2.submissions = q.submissions := by
        unfold urbDataStart
        simp only [hdir]
        rfl
      split
      · exact (submissions_urbComplete _ u _).trans hstr
      · exact hstr
    split
    · split
      · exact hda
      · exact submissions_urbControlCheckStatus.trans hda
    · rfl
  · exact hda

end Tq

/-! ## Calm queues -/

/-- A stalled queue is inactive and has not submitted since. -/
def Tq.Calm (q : Tq) : Prop := q.stalled = true → q.active = false ∧ q.submissions = q.stalledAt

namespace Tq.Calm

variable {q q' : Tq}

theorem of_unstalled (h : q.stalled = false) : q.Calm := by
  intro hstl
  rw [h] at hstl
  cases hstl

theorem congr (hq : q.Calm) (hfl : q'.flags = q.flags)
    (hsub : q.stalled → q'.submissions = q.submissions) : q'.Calm := by
  intro hstl
  have hbef : q.stalled := (congrArg Flags.stalled hfl).symm.trans hstl
  obtain ⟨hact, hat⟩ := hq hbef
  constructor
  · exact (congrArg Flags.active hfl).trans hact
  · rw [hsub hbef, hat]
    exact (congrArg Flags.stalledAt hfl).symm

theorem effect (hq : q.Calm) (heff : Effect q q') (hsub : q.stalled → q'.submissions = q.submissions) : q'.Calm := by
  cases heff with
  | same hfl => exact hq.congr hfl hsub
  | stalls hfl =>
    have hat : q'.stalledAt = if q.stalled then q.stalledAt else q'.submissions := congrArg Flags.stalledAt hfl
    intro _
    refine ⟨congrArg Flags.active hfl, ?_⟩
    rw [hat]
    split
    · rename_i hstl
      rw [hsub hstl]
      exact (hq hstl).2
    · rfl

theorem urbInit {u : UrbId} (hq : q.Calm) (hqu : q.initQuiet u) : (q.urbInit u).2.Calm :=
  hq.congr (q.flags_urbInit u) (submissions_urbInit hqu)

variable {msg : Message}

section

variable (hq : q.Calm)
include hq

theorem urbUpdate {u : UrbId} (hqu : q.updateQuiet u msg) : (q.urbUpdate u msg).2.Calm :=
  hq.effect (q.urbUpdate_effect u msg) (submissions_urbUpdate hqu)

theorem initPendingUrbsLoop {l : List UrbId}
    (hqu : initPendingUrbsLoopQuiet l q) : (initPendingUrbsLoop l q).Calm := by
  induction l generalizing q with
  | nil => exact hq
  | cons u rest ih =>
    unfold initPendingUrbsLoopQuiet at hqu
    unfold initPendingUrbsLoop
    split
    · exact hq
    rename_i hcan
    rw [if_neg hcan] at hqu
    split
    · rename_i hin
      rw [if_pos hin, and_eq_true] at hqu
      exact ih (hq.urbInit hqu.1) hqu.2
    · rename_i hin
      rw [if_neg hin] at hqu
      exact ih hq hqu

theorem deliverPendingLoop {evq : List Message}
    (hqu : deliverPendingLoopQuiet evq q) : (deliverPendingLoop evq q).Calm := by
  induction evq generalizing q with
  | nil => exact hq.congr rfl fun _ => rfl
  | cons msg evq ih =>
    unfold deliverPendingLoopQuiet at hqu
    unfold deliverPendingLoop
    split
    · exact hq.congr rfl fun _ => rfl
    rename_i u rest hls
    simp only [hls, and_eq_true, or_eq_true, beq_iff_eq] at hqu
    obtain ⟨hupd, hrs⟩ := hqu
    have hcalm := hq.urbUpdate hupd
    simp only
    split
    · exact hcalm.congr rfl fun _ => rfl
    · rename_i hagain
      exact ih hcalm (hrs.resolve_left hagain)

theorem deliverPending (hqu : q.deliverPendingQuiet) :
    q.deliverPending.Calm := by
  unfold deliverPendingQuiet at hqu
  rw [and_eq_true] at hqu
  exact (hq.deliverPendingLoop hqu.1).initPendingUrbsLoop hqu.2

theorem deferEvent (kmalloc : Bool) : (q.deferEvent kmalloc msg).Calm := by
  unfold Tq.deferEvent
  split <;> exact hq.congr rfl fun _ => rfl

theorem transferQueueEvent (kmalloc : Bool)
    (hqu : q.transferQueueEventQuiet msg) : (q.transferQueueEvent kmalloc msg).Calm := by
  unfold transferQueueEventQuiet at hqu
  unfold Tq.transferQueueEvent
  split
  · split
    · exact hq.deferEvent kmalloc
    · exact hq
  rename_i hact
  rw [if_neg hact, and_eq_true] at hqu
  obtain ⟨hdel, hrs⟩ := hqu
  have hcalm := hq.deliverPending hdel
  simp only
  split
  · exact hcalm.deferEvent kmalloc
  split
  · exact hcalm
  rename_i u rest hls
  simp only [hls, and_eq_true] at hrs
  have hupd := hcalm.urbUpdate hrs.1
  split
  · exact hupd.deferEvent kmalloc
  · exact hupd.initPendingUrbsLoop hrs.2

end

theorem handleCompletion {c : CompletionData} (hq : q.Calm) (d : Direction)
    (hqu : q.handleCompletionQuiet c) : (q.handleCompletion d c).Calm := by
  have hdn : ∀ {q : Tq}, q.Calm → (q.outPendingDone d).Calm := by
    intro q hq
    exact hq.congr (q.flags_outPendingDone d) fun _ => by cases d <;> rfl
  have hnot : ∀ {q : Tq}, q.Calm → (q.notifySubmissionComplete d).Calm := by
    intro q hq
    exact hq.congr rfl fun _ => by cases d <;> rfl
  unfold handleCompletionQuiet at hqu
  unfold Tq.handleCompletion
  split
  · exact hnot (hdn hq)
  rename_i habort
  rw [if_neg habort] at hqu
  split
  · exact hdn hq
  rename_i u rest hls
  simp only [hls] at hqu
  apply hnot
  apply hdn
  exact hq.effect (q.urbTransferCompletion_effect u c) (submissions_urbTransferCompletion hqu)

variable {d : Direction}

section

variable (hq : q.Calm)
include hq

/-- Reading a completion submits nothing. -/
theorem nextCompletion {c : CompletionData} (h : q.nextCompletion d = some (c, q')) : q'.Calm := by
  obtain ⟨⟨c', sq⟩, hnx, hq'⟩ := map_eq_some_iff.1 h
  obtain ⟨-, hsq⟩ := Sq.nextCompletion_spec hnx
  obtain ⟨-, rfl⟩ := hq'
  refine hq.congr rfl ?_
  intro _
  subst hsq
  cases d <;> rfl

theorem completionLoop {fuel : Nat} (hqu : completionLoopQuiet d fuel q) : (completionLoop d fuel q).Calm := by
  induction fuel generalizing q with
  | zero => exact hq
  | succ fuel ih =>
    unfold completionLoopQuiet at hqu
    unfold completionLoop
    split
    · exact hq
    · rename_i c q₁ hnx
      simp only [hnx, and_eq_true] at hqu
      exact ih ((hq.nextCompletion hnx).handleCompletion d hqu.1) hqu.2

theorem transferQueueCompletion (hqu : q.transferQueueCompletionQuiet d) : (q.transferQueueCompletion d).Calm := by
  unfold transferQueueCompletionQuiet at hqu
  rw [and_eq_true] at hqu
  exact (hq.completionLoop hqu.1).deliverPending hqu.2

theorem urbCreate {v : VUrb} {link : Int} (hqu : q.urbCreateQuiet v link) : (q.urbCreate v link).Calm := by
  have hli : (q.onCore fun c => c.usbHcdLinkUrbToEp v).Calm := hq.congr rfl fun _ => rfl
  unfold urbCreateQuiet at hqu
  unfold Tq.urbCreate
  split
  · exact hq
  rename_i hz
  rw [if_neg hz] at hqu
  generalize (q.onCore fun c => c.usbHcdLinkUrbToEp v) = q₁ at hli hqu ⊢
  cases hact : q₁.active with
  | true =>
    -- an active queue is not stalled, so the request may start
    have huns : q₁.stalled = false := by
      by_contra hstl
      rw [(hli (not_eq_false _ ▸ hstl)).1] at hact
      cases hact
    simp only [hact, if_true] at hqu ⊢
    split
    · rename_i hcan
      rw [if_pos hcan, or_eq_true, bne_iff_ne] at hqu
      have hcalm : (q₁.urbInit q.nextUrb).2.Calm :=
        of_unstalled ((congrArg Flags.stalled (q₁.flags_urbInit _)).trans huns)
      split
      · exact hcalm.congr (flags_onCore _ _) fun _ => rfl
      · rename_i hstat
        exact hcalm.deliverPending (hqu.resolve_left hstat)
    · rename_i hcan
      rw [if_neg hcan] at hqu
      exact hli.deliverPending hqu
  | false =>
    simp only [hact, false_eq_true, if_false] at hqu ⊢
    apply deliverPending _ hqu
    split <;> exact hli.congr rfl fun _ => rfl

theorem urbRequestCancel (u : UrbId) (status : Int) : (q.urbRequestCancel u status).Calm := by
  unfold Tq.urbRequestCancel
  split
  · exact hq
  split
  · exact hq
  simp only
  split
  · exact hq.congr rfl fun _ => rfl
  · refine hq.congr rfl ?_
    intro _
    exact submissions_urbMarkCancelled _ u status

end

theorem restart (hqu : q.restartQuiet) : q.restart.Calm := by
  unfold restartQuiet at hqu
  rw [and_eq_true, not_eq_true'] at hqu
  refine deliverPending (of_unstalled ?_) hqu.2
  exact (congrArg Flags.stalled (flags_resumeLoop _ _)).trans hqu.1

theorem restoreActive (hqu : q.restoreActiveQuiet) : q.restoreActive.Calm := by
  unfold restoreActiveQuiet at hqu
  rw [and_eq_true, not_eq_true'] at hqu
  exact deliverPending (of_unstalled hqu.1) hqu.2

end Tq.Calm

/-! ## Runs -/

/-- A change that leaves the counts alone and does not make the queue active. -/
theorem Tq.Calm.frame {q q' : Tq} (hq : q.Calm) (hstl : q'.stalled → q.stalled)
    (hact : q.active = false → q'.active = false) (hat : q'.stalledAt = q.stalledAt)
    (hsub : q'.submissions = q.submissions) : q'.Calm := by
  intro h
  obtain ⟨hdl, hcnt⟩ := hq (hstl h)
  exact ⟨hact hdl, hsub.trans (hcnt.trans hat.symm)⟩

namespace System

variable {s t : System}

section

variable (hs : s.toTq.Calm)
include hs

end

end System

end KaiT2en.Vhci
