import KaiT2en.Vhci.Ledger

/-!
# Status messages that come early

A control request ends when its data stage is over and its status message has come. The message is stored in
`received_status` and looked at by `bce_vhci_urb_control_check_status`, which runs after a message and after a
completion of the data stage, but not after the completion of the setup packet.

Two runs are compared: one without the status message, and one in which it comes somewhere among the stages. `Latched`
says that the second run is where the first one is, except that the message is stored. `Apart` adds the end of the
request, and `Apart.stage` is its step lemma. `control_confluence_iff` says when the second run ends the request in
the way in which a last message would.
-/

namespace KaiT2en.Vhci

open KaiT2en.Kernel KaiT2en.Dma KaiT2en.Lib.Transition Machine List Core Tq

/-! ## Queues that differ in a stored status message -/

/-- The queue with the status `s` stored in `u`, and with another history. -/
def Tq.withStatus (q : Tq) (u : UrbId) (s : Nat) (log : List Event) : Tq :=
  q.onCore fun c => { c.setVurb u { c.vurbs u with receivedStatus := s } with log := log }

/-- `q'` is `q` with a stored status message. -/
def Latched (u : UrbId) (s : Nat) (q q' : Tq) : Prop := ∃ log, q' = q.withStatus u s log

/-- Two results that agree up to a stored status message. -/
def LatchedResult (u : UrbId) (s : Nat) (r r' : Int × Tq) : Prop := r'.1 = r.1 ∧ Latched u s r.2 r'.2

/-- The same for functions that fail without a queue. -/
inductive LatchedExcept (u : UrbId) (s : Nat) : Except Int Tq → Except Int Tq → Prop
  | error (status : Int) : LatchedExcept u s (.error status) (.error status)
  | ok {q q' : Tq} : Latched u s q q' → LatchedExcept u s (.ok q) (.ok q')

namespace Latched

variable {u : UrbId} {s : Nat} {q q' : Tq} (h : Latched u s q q')
include h

theorem result (status : Int) : LatchedResult u s (status, q) (status, q') := ⟨rfl, h⟩

theorem vurbs_self : q'.vurbs u = { q.vurbs u with receivedStatus := s } := by
  obtain ⟨log, rfl⟩ := h
  exact vurbs_setVurb_self ..

/-- A zero-length request is told apart by fields that no message changes. -/
theorem isZlp : (q'.vurbs u).isZlp = (q.vurbs u).isZlp := by
  rw [h.vurbs_self]
  rfl

theorem length : (q'.vurbs u).length = (q.vurbs u).length := by
  rw [h.vurbs_self]
  rfl

theorem dir : (q'.vurbs u).dir = (q.vurbs u).dir := by
  rw [h.vurbs_self]
  rfl

theorem pipe (d : Direction) : q'.pipe d = q.pipe d := by
  obtain ⟨log, rfl⟩ := h
  cases d <;> rfl

theorem urbList : q'.urbList = q.urbList := by
  obtain ⟨log, rfl⟩ := h
  rfl

theorem dmaAvailable : q'.dmaAvailable = q.dmaAvailable := by
  obtain ⟨log, rfl⟩ := h
  rfl

theorem asyncReservations : q'.asyncReservations = q.asyncReservations := by
  obtain ⟨log, rfl⟩ := h
  rfl

/-- The request changes in a way that has nothing to do with the status message. -/
theorem modifyVurb {f : VUrb → VUrb} (hf : ∀ v s, f { v with receivedStatus := s } = { f v with receivedStatus := s }) :
    Latched u s (q.modifyVurb u f) (q'.modifyVurb u f) := by
  obtain ⟨log, rfl⟩ := h
  refine ⟨log, ?_⟩
  have hse : f ((q.withStatus u s log).vurbs u) =
      { f (q.vurbs u) with receivedStatus := s } := by
    rw [show (q.withStatus u s log).vurbs u = _ from vurbs_setVurb_self ..]
    exact hf _ _
  unfold modifyVurb
  simp only [onCore]
  rw [hse]
  simp [withStatus, onCore, Core.setVurb]

theorem record (e e' : Event) : Latched u s (q.onCore fun c => c.record e) (q'.onCore fun c => c.record e') := by
  obtain ⟨log, rfl⟩ := h
  exact ⟨e' :: log, rfl⟩

theorem setPipe (d : Direction) (p : Pipe) :
    Latched u s (q.onCore fun c => c.setPipe d p) (q'.onCore fun c => c.setPipe d p) := by
  obtain ⟨log, rfl⟩ := h
  cases d <;> exact ⟨log, rfl⟩

theorem queued (d : Direction) (sq : Sq Entry) (offset size : Nat) :
    Latched u s (q.onCore fun c => c.queued d u sq offset size)
      (q'.onCore fun c => c.queued d u sq offset size) := by
  obtain ⟨log, rfl⟩ := h
  cases d <;> exact ⟨_, rfl⟩

theorem urbComplete (status : Int) : Latched u s (q.urbComplete u status) (q'.urbComplete u status) := by
  have hsta : (q'.vurbs u).state = (q.vurbs u).state := by rw [h.vurbs_self]
  obtain ⟨log, rfl⟩ := h
  refine ⟨((q.withStatus u s log).urbComplete u status).log, ?_⟩
  unfold Tq.urbComplete Tq.onCore Core.urbComplete
  simp only
  rw [hsta]
  split <;> rfl

theorem notify (d : Direction) : Latched u s (q.notifySubmissionComplete d) (q'.notifySubmissionComplete d) := by
  obtain ⟨log, rfl⟩ := h
  cases d <;> exact ⟨log, rfl⟩

theorem outPendingDone (d : Direction) : Latched u s (q.outPendingDone d) (q'.outPendingDone d) := by
  obtain ⟨log, rfl⟩ := h
  cases d <;> exact ⟨log, rfl⟩

/-! ## Reservations and submissions -/

theorem reserveMessage : LatchedResult u s q.reserveMessage q'.reserveMessage := by
  unfold Tq.reserveMessage
  rw [h.asyncReservations]
  split
  · exact ⟨rfl, h⟩
  · obtain ⟨log, rfl⟩ := h
    exact ⟨rfl, log, rfl⟩

theorem reserveSubmission (d : Direction) : LatchedExcept u s (q.reserveSubmission d) (q'.reserveSubmission d) := by
  unfold Tq.reserveSubmission
  rw [h.pipe, h.dmaAvailable]
  split
  · exact LatchedExcept.error _
  apply LatchedExcept.ok
  rename_i sq _
  have hpp := h.setPipe d { q.pipe d with sq := sq }
  obtain ⟨log, rfl⟩ := h
  cases d <;> exact hpp

theorem cancelSubmissionReservation (d : Direction) :
    Latched u s (q.cancelSubmissionReservation d) (q'.cancelSubmissionReservation d) := by
  obtain ⟨log, rfl⟩ := h
  cases d <;> exact ⟨log, rfl⟩

theorem urbPrepareInSubmission (size : Nat) :
    LatchedExcept u s (q.urbPrepareInSubmission u size) (q'.urbPrepareInSubmission u size) := by
  have hsq : q'.sqIn = q.sqIn := h.pipe .fromDevice
  have hsin := ((h.queued .fromDevice (q.sqIn.sq.setNextSubmissionSingle (Entry.mk u)
    ((q.vurbs u).urb.transferDma + (q.vurbs u).receiveOffset) size) (q.vurbs u).receiveOffset
    size).modifyVurb (f := fun v => { v with submittedLength := size }) fun _ _ => rfl)
  have hls : ∀ sq n, Latched u s ((q.onCore fun c => c.queued .fromDevice u sq (q.vurbs u).receiveOffset n).modifyVurb u
        fun v => { v with submittedLength := n })
      ((q'.onCore fun c => c.queued .fromDevice u sq (q.vurbs u).receiveOffset n).modifyVurb u
        fun v => { v with submittedLength := n }) :=
    fun sq n => (h.queued .fromDevice sq _ n).modifyVurb fun _ _ => rfl
  unfold Tq.urbPrepareInSubmission
  rw [h.vurbs_self, hsq]
  simp only
  obtain ⟨log, rfl⟩ := h
  split
  · exact LatchedExcept.ok hsin
  split
  · exact LatchedExcept.ok hsin
  split
  · exact LatchedExcept.error _
  · exact LatchedExcept.ok (hls _ _)

theorem urbContinueIn : LatchedResult u s (q.urbContinueIn u) (q'.urbContinueIn u) := by
  unfold Tq.urbContinueIn
  have hres := h.reserveSubmission .fromDevice
  generalize q.reserveSubmission .fromDevice = x at hres ⊢
  generalize q'.reserveSubmission .fromDevice = x' at hres ⊢
  cases hres with
  | error status => exact ⟨rfl, h⟩
  | @ok q1 q1' h1 =>
    simp only
    rw [h1.vurbs_self]
    have hpr := h1.urbPrepareInSubmission (sub32 (q1.vurbs u).requestEnd (q1.vurbs u).receiveOffset)
    generalize q1.urbPrepareInSubmission u _ = y at hpr ⊢
    generalize q1'.urbPrepareInSubmission u _ = y' at hpr ⊢
    cases hpr with
    | error status => exact ⟨rfl, h1.cancelSubmissionReservation _⟩
    | ok h2 => exact (h2.modifyVurb fun _ _ => rfl).result 0

theorem urbDataTransferIn : LatchedResult u s (q.urbDataTransferIn u) (q'.urbDataTransferIn u) := by
  unfold Tq.urbDataTransferIn
  obtain ⟨hstat, hmes⟩ := h.reserveMessage
  generalize q.reserveMessage = r at hstat hmes ⊢
  generalize q'.reserveMessage = r' at hstat hmes ⊢
  obtain ⟨status, q1⟩ := r
  obtain ⟨status', q1'⟩ := r'
  simp only at hstat hmes ⊢
  rw [hstat]
  split
  · exact ⟨rfl, hmes⟩
  have hres := hmes.reserveSubmission .fromDevice
  generalize q1.reserveSubmission .fromDevice = x at hres ⊢
  generalize q1'.reserveSubmission .fromDevice = x' at hres ⊢
  cases hres with
  | error => exact ⟨rfl, hmes⟩
  | @ok q2 q2' h2 =>
    have hlen : sub32 (q2'.vurbs u).length (q2'.vurbs u).receiveOffset =
        sub32 (q2.vurbs u).length (q2.vurbs u).receiveOffset := by
      rw [h2.vurbs_self]
      rfl
    simp only
    rw [hlen]
    generalize sub32 (q2.vurbs u).length (q2.vurbs u).receiveOffset = length
    have h3 : Latched u s (q2.modifyVurb u fun v => { v with requestEnd := add32 v.receiveOffset length })
        (q2'.modifyVurb u fun v => { v with requestEnd := add32 v.receiveOffset length }) :=
      h2.modifyVurb fun _ _ => rfl
    have hpr := h3.urbPrepareInSubmission length
    generalize (q2.modifyVurb u _).urbPrepareInSubmission u _ = y at hpr ⊢
    generalize (q2'.modifyVurb u _).urbPrepareInSubmission u _ = y' at hpr ⊢
    cases hpr with
    | error status => exact ⟨rfl, h3.cancelSubmissionReservation _⟩
    | ok h4 => exact ((h4.record _ _).modifyVurb fun _ _ => rfl).result 0

theorem urbDataStart : LatchedResult u s (q.urbDataStart u) (q'.urbDataStart u) := by
  unfold Tq.urbDataStart
  rw [h.vurbs_self]
  simp only [VUrb.dir, VUrb.length, VUrb.isZlp]
  split
  · exact (h.modifyVurb fun _ _ => rfl).result 0
  · exact h.urbDataTransferIn

theorem urbSendOutData (addr size : Nat) :
    LatchedResult u s (q.urbSendOutData u addr size) (q'.urbSendOutData u addr size) := by
  unfold Tq.urbSendOutData
  have hres := h.reserveSubmission .toDevice
  generalize q.reserveSubmission .toDevice = x at hres ⊢
  generalize q'.reserveSubmission .toDevice = x' at hres ⊢
  cases hres with
  | error status => exact h.result _
  | ok h1 =>
    obtain ⟨log, rfl⟩ := h1
    exact ⟨rfl, _, rfl⟩

theorem urbSendOutTransferData (offset size : Nat) : (∃ status, q.urbSendOutTransferData u offset size = .error status ∧
        q'.urbSendOutTransferData u offset size = .error status) ∨
      ∃ q1 q1' n, q.urbSendOutTransferData u offset size = .ok (q1, n) ∧
        q'.urbSendOutTransferData u offset size = .ok (q1', n) ∧ Latched u s q1 q1' := by
  unfold Tq.urbSendOutTransferData
  have hres := h.reserveSubmission .toDevice
  generalize q.reserveSubmission .toDevice = x at hres ⊢
  generalize q'.reserveSubmission .toDevice = x' at hres ⊢
  cases hres with
  | error status => exact .inl ⟨_, rfl, rfl⟩
  | @ok q1 q1' h1 =>
    have hsq : q1'.sqOut = q1.sqOut := h1.pipe .toDevice
    have hsent : ∀ sq n, ∃ log,
        { q1'.onCore fun c => c.queued .toDevice u sq offset n with
          sqOutPending := q1'.sqOutPending + 1 } =
        withStatus { q1.onCore fun c => c.queued .toDevice u sq offset n with
          sqOutPending := q1.sqOutPending + 1 } u s log := by
      intro sq n
      obtain ⟨log, rfl⟩ := h1
      exact ⟨_, rfl⟩
    simp only
    rw [h1.vurbs_self, hsq]
    simp only
    split
    · exact .inr ⟨_, _, _, rfl, rfl, hsent _ _⟩
    split
    · exact .inr ⟨_, _, _, rfl, rfl, hsent _ _⟩
    split
    · exact .inl ⟨_, rfl, rfl⟩
    · exact .inr ⟨_, _, _, rfl, rfl, hsent _ _⟩

theorem urbContinueOut : LatchedResult u s (q.urbContinueOut u) (q'.urbContinueOut u) := by
  have hsd : ∀ offset n, LatchedResult u s (q.urbSendOut u offset n) (q'.urbSendOut u offset n) := by
    intro offset n
    rw [urbSendOut, urbSendOut]
    rcases h.urbSendOutTransferData offset n with ⟨status, heq, heq'⟩ | ⟨q1, q1', m, heq, heq', h1⟩
    · rw [heq, heq']
      exact h.result status
    · rw [heq, heq']
      exact (h1.modifyVurb fun _ _ => rfl).result 0
  rw [urbContinueOut_eq, urbContinueOut_eq, h.isZlp, h.vurbs_self]
  split
  · exact hsd _ _
  by_cases hzlp : (q.vurbs u).isZlp
  · rw [if_pos hzlp, if_pos hzlp]
    exact hsd _ _
  · rw [if_neg hzlp, if_neg hzlp]
    exact h.result _

theorem urbFailDataTransfer (status : Int) :
    LatchedResult u s (q.urbFailDataTransfer u status) (q'.urbFailDataTransfer u status) := by
  have hfl : Latched u s q.stall q'.stall := by
    obtain ⟨log, rfl⟩ := h
    exact ⟨log, rfl⟩
  have hend := (hfl.modifyVurb
    (f := fun v => { v with actualLength := v.receiveOffset }) fun _ _ => rfl).urbComplete status
  obtain ⟨log, heq⟩ := hend
  refine ⟨rfl, log, ?_⟩
  unfold Tq.urbFailDataTransfer
  simp only
  rw [heq]
  rfl

omit h in
theorem failed {r r' : Int × Tq} (h : LatchedResult u s r r') :
    LatchedResult u s (if r.1 ≠ 0 then r.2.urbFailDataTransfer u r.1 else (0, r.2))
      (if r'.1 ≠ 0 then r'.2.urbFailDataTransfer u r'.1 else (0, r'.2)) := by
  rw [h.1]
  split
  · exact h.2.urbFailDataTransfer _
  · exact h.2.result 0

theorem urbDataUpdate (msg : Message) : LatchedResult u s (q.urbDataUpdate u msg) (q'.urbDataUpdate u msg) := by
  unfold Tq.urbDataUpdate
  simp only [h.isZlp, h.length]
  rw [h.vurbs_self]
  split
  · by_cases hover : sub32 (q.vurbs u).length (q.vurbs u).receiveOffset = 0 ∧ (q.vurbs u).isZlp = false
    · rw [if_pos hover, if_pos hover]
      exact h.result _
    rw [if_neg hover, if_neg hover]
    split
    · exact h.urbFailDataTransfer _
    · exact failed (h.modifyVurb fun _ _ => rfl).urbContinueOut
  · exact h.result _

theorem urbDataTransferCompletion (cd : CompletionData) :
    LatchedResult u s (q.urbDataTransferCompletion u cd) (q'.urbDataTransferCompletion u cd) := by
  -- the two calls are unfolded one after the other and read the same data
  conv =>
    arg 3
    unfold Tq.urbDataTransferCompletion
  conv =>
    arg 4
    unfold Tq.urbDataTransferCompletion
    simp only
  rw [h.dir, h.length, h.vurbs_self]
  have hctd := h.modifyVurb (f := fun v =>
    { v with
      receiveOffset := add32 (q.vurbs u).receiveOffset cd.dataSize
      acked := v.acked ++ [(v.receiveOffset, cd.dataSize)] }) fun _ _ => rfl
  by_cases hwt : (q.vurbs u).state = .waitingForCompletion
  · rw [if_pos hwt, if_pos hwt]
    by_cases hover : (q.vurbs u).length < (q.vurbs u).receiveOffset ∨ (q.vurbs u).submittedLength < cd.dataSize ∨
        sub32 (q.vurbs u).length (q.vurbs u).receiveOffset < cd.dataSize
    · rw [if_pos hover, if_pos hover]
      exact h.urbFailDataTransfer _
    rw [if_neg hover, if_neg hover]
    by_cases hfailed : cd.status ≠ BCE_COMPLETION_SUCCESS
    · rw [if_pos hfailed, if_pos hfailed]
      exact (h.modifyVurb fun _ _ => rfl).urbFailDataTransfer _
    rw [if_neg hfailed, if_neg hfailed]
    by_cases hsh : (q.vurbs u).dir = .toDevice ∧ cd.dataSize ≠ (q.vurbs u).submittedLength
    · rw [if_pos hsh, if_pos hsh]
      exact hctd.urbFailDataTransfer _
    rw [if_neg hsh, if_neg hsh]
    split
    · have hlen := hctd.modifyVurb (f := fun v =>
        { v with actualLength := add32 (q.vurbs u).receiveOffset cd.dataSize }) fun _ _ => rfl
      split
      · exact (hlen.urbComplete _).result _
      split
      · exact ((hlen.modifyVurb fun _ _ => rfl).urbComplete _).result _
      · exact (hlen.modifyVurb fun _ _ => rfl).result _
    split
    · exact failed hctd.urbContinueIn
    split
    · exact failed hctd.urbContinueOut
    split
    · exact (hctd.modifyVurb fun _ _ => rfl).result _
    split
    · exact ((hctd.modifyVurb fun _ _ => rfl).urbComplete _).result _
    · exact (hctd.modifyVurb fun _ _ => rfl).result _
  · rw [if_neg hwt, if_neg hwt]
    exact h.result _

omit h in
theorem refl (h : (q.vurbs u).receivedStatus = s) : Latched u s q q := by
  have hse : q.toCore.setVurb u { q.vurbs u with receivedStatus := s } = q.toCore := by
    subst h
    exact setVurb_self ..
  exact ⟨q.log, congrArg (fun c : Core => ({ q with toCore := { c with log := q.log } } : Tq))
    hse.symm⟩

theorem receivedStatus : (q'.vurbs u).receivedStatus = s := by rw [h.vurbs_self]

end Latched

/-! ## Stages of a request -/

/-- What arrives for a control request besides its status message. A message that comes too early is
held back and comes again. -/
inductive Stage where
  /-- `TRANSFER_REQUEST` for `length` bytes. -/
  | request (length : Nat)
  /-- A completion on the queue for `d`. -/
  | completed (d : Direction) (cd : CompletionData)

namespace Tq

/-- A message is handed to the first request of the endpoint. -/
def update (q : Tq) (msg : Message) : Tq :=
  match q.urbList with
  | [] => q
  | u :: _ => (q.urbUpdate u msg).2

/-- One stage of the first request. -/
def stage (q : Tq) : Stage → Tq
  | .request length => q.update ⟨.transferRequest, 0, 0, length⟩
  | .completed d cd => q.handleCompletion d cd

/-- `CONTROL_TRANSFER_STATUS` with status `SUCCESS`. -/
def statusSuccess (q : Tq) : Tq := q.update ⟨.controlTransferStatus, BCE_VHCI_SUCCESS, 0, 0⟩

end Tq

variable {q : Tq}

/-- The rule for what the steps of the first request and a notification keep. -/
theorem stage_preserves {I : Core → Prop} (hnoti : ∀ c d, I c → I (c.notifySubmissionComplete d))
    (hsp : ∀ u rest, q.urbList = u :: rest → ∀ c c', I c → UrbStep u c c' → I c')
    (hq : I q.toCore) (st : Stage) : I (q.stage st).toCore := by
  cases st with
  | request length =>
    unfold stage update
    cases hls : q.urbList with
    | nil => exact hq
    | cons u rest =>
      refine steps_preserve (hsp u rest hls) (urbUpdate_steps ?_ _) hq
      rw [hls]
      exact mem_cons_self
  | completed d cd =>
    show I (q.handleCompletion d cd).toCore
    unfold handleCompletion
    split
    · apply hnoti
      rw [toCore_outPendingDone]
      exact hq
    cases hls : q.urbList with
    | nil =>
      rw [toCore_outPendingDone]
      exact hq
    | cons u rest =>
      refine hnoti _ d ?_
      rw [toCore_outPendingDone]
      refine steps_preserve (hsp u rest hls) (urbTransferCompletion_steps ?_ cd) hq
      rw [hls]
      exact mem_cons_self

/-- A request that has left the list does not come back. -/
theorem not_mem_stage {u : UrbId} (h : u ∉ q.urbList) (st : Stage) : u ∉ (q.stage st).urbList := by
  refine stage_preserves (I := fun c => u ∉ c.urbList) ?_ ?_ h st
  · intro c d hc
    rw [Core.notifySubmissionComplete, urbList_setPipe]
    exact hc
  · intro w rest _ c c' hc hsp
    rcases hsp.urbList_eq.1 with heq | heq
    · rw [heq]
      exact hc
    · rw [heq]
      exact fun hu => hc (mem_of_mem_erase hu)

theorem mem_log_stage {e : Event} (h : e ∈ q.log) (st : Stage) : e ∈ (q.stage st).log := by
  refine stage_preserves (I := fun c => e ∈ c.log) ?_ ?_ h st
  · intro c d hc
    rw [Core.notifySubmissionComplete, log_setPipe]
    exact hc
  · intro w rest _ c c' hc hsp
    exact hsp.log_suffix.mem hc

/-! ## The run without the status message -/

/-- A request to the device without data: its data stage is over when the setup packet is sent. -/
def Urb.NoDataOut (urb : Urb) : Prop := urb.dir = .toDevice ∧ urb.transferBufferLength = 0
  deriving Decidable

/-- The control request `u` is the first in the list and has been started. -/
structure Running (u : UrbId) (rest : List UrbId) (urb : Urb) (c : Core) : Prop where
  list : c.urbList = u :: rest
  urb_eq : (c.vurbs u).urb = urb
  isControl : (c.vurbs u).isControl = true
  started : (c.vurbs u).state ≠ .initPending
  noData : urb.NoDataOut → (c.vurbs u).state = .controlWaitingForSetupRequest ∨
    (c.vurbs u).state = .controlWaitingForSetupCompletion ∨
    (c.vurbs u).state = .dataTransferComplete

namespace Running

variable {u : UrbId} {rest : List UrbId} {urb : Urb} {c c' : Core}

section

variable (h : Running u rest urb c)
include h

theorem mem : u ∈ c.urbList := by
  rw [h.list]
  exact mem_cons_self

theorem not_noData (hda : (c.vurbs u).state = .waitingForTransferRequest ∨
      (c.vurbs u).state = .waitingForCompletion) : ¬ urb.NoDataOut := by
  intro hno
  rcases h.noData hno with heq | heq | heq <;> rcases hda with h' | h' <;> rw [heq] at h' <;>
    cases h'

theorem change {v : VUrb} (hls : c'.urbList = c.urbList) (hv : c'.vurbs u = v)
    (hurb : v.urb = (c.vurbs u).urb ∧ v.isControl = (c.vurbs u).isControl) (hin : v.state ≠ .initPending)
    (hno : urb.NoDataOut → v.state = .controlWaitingForSetupRequest ∨
      v.state = .controlWaitingForSetupCompletion ∨ v.state = .dataTransferComplete) :
    Running u rest urb c' where
  list := hls.trans h.list
  urb_eq := by rw [hv, hurb.1, h.urb_eq]
  isControl := by rw [hv, hurb.2, h.isControl]
  started := by rwa [hv]
  noData := by rwa [hv]

theorem frame (hls : c'.urbList = c.urbList) (hv : c'.vurbs u = c.vurbs u) : Running u rest urb c' :=
  h.change hls hv ⟨rfl, rfl⟩ h.started h.noData

end

/-- A request without data goes to the end of its data stage or stays before it. -/
theorem quiet {v : VUrb} (hbu : urb.xferBulk = false) (h : Running u rest urb c) (hqu : Quiet (c.vurbs u) v) :
    v.state ≠ .initPending ∧ (urb.NoDataOut → v.state = .controlWaitingForSetupRequest ∨
      v.state = .controlWaitingForSetupCompletion ∨ v.state = .dataTransferComplete) := by
  cases hqu with
  | waitForSetup hin | failedStart stop hin => exact absurd hin h.started
  | startOut =>
    have hstr : urb.NoDataOut → (c.vurbs u).startState = .dataTransferComplete := by
      intro hno
      apply if_neg
      simp [VUrb.isZlp, VUrb.length, h.urb_eq, hbu, hno.2]
    refine ⟨?_, fun hno => .inr (.inr (hstr hno))⟩
    show (c.vurbs u).startState ≠ .initPending
    unfold VUrb.startState
    split <;> decide
  | waitForWindow hac => exact ⟨nofun, fun hno => absurd hno (h.not_noData (.inr hac.state))⟩
  | dataDone n hac => exact ⟨nofun, fun _ => .inr (.inr rfl)⟩
  | resumeOut hwt => exact ⟨nofun, fun hno => absurd hno (h.not_noData (.inr hwt))⟩

/-- A submission of data belongs to a request with data. -/
theorem prepared {v : VUrb} {d : Direction} {limit : Nat} (h : Running u rest urb c)
    (hpr : Prepared (c.vurbs u) v d limit) : ¬ urb.NoDataOut := by
  cases hpr with
  | start _ hdir =>
    intro hno
    rw [VUrb.dir, h.urb_eq, hno.1] at hdir
    cases hdir
  | window size hwt => exact h.not_noData (.inl hwt)
  | «continue» hac => exact h.not_noData (.inr hac.state)

/-- A step of the request keeps it running or removes it. -/
theorem step (hbu : urb.xferBulk = false) (hnd : (u :: rest).Nodup)
    (h : Running u rest urb c) (hsp : UrbStep u c c') :
    Running u rest urb c' ∨ u ∉ c'.urbList := by
  cases hsp with
  | latch s => exact .inl (h.change rfl (vurbs_setVurb_self ..) ⟨rfl, rfl⟩ h.started h.noData)
  | setup element =>
    refine .inl (h.change ?_ (vurbs_setVurb_self ..) ⟨rfl, rfl⟩ ?_ ?_)
    · simp only [Core.sendSetup, Core.record, urbList_setVurb, urbList_setPipe]
    · show UrbState.controlWaitingForSetupCompletion ≠ .initPending
      decide
    · exact fun _ => .inr (.inl rfl)
  | quiet v _ _ hqu =>
    obtain ⟨hin, hno⟩ := h.quiet hbu hqu
    refine .inl (h.change (v := v) ?_ ?_ (by cases hqu <;> exact ⟨rfl, rfl⟩) hin hno)
    · rw [urbList_charge, urbList_setVurb]
    · rw [vurbs_charge, vurbs_setVurb_self]
  | send d v element limit n _ _ hpr =>
    have hsa := hpr.sameRequest
    refine .inl (h.change ?_ ?_ ⟨hsa.urb, hsa.isControl⟩ ?_
      (v := { v with submittedLength := n, state := .waitingForCompletion }) ?_)
    · rw [urbList_charge, urbList_send]
    · rw [vurbs_charge, vurbs_send_self]
    · show UrbState.waitingForCompletion ≠ .initPending
      decide
    · exact fun hno => absurd hno (h.prepared hpr)
  | request length => exact .inl (h.frame rfl rfl)
  | complete v status =>
    right
    rw [urbList_urbComplete, urbList_setVurb, h.list, erase_cons_head]
    exact (nodup_cons.1 hnd).1

theorem steps (hbu : urb.xferBulk = false) (hnd : (u :: rest).Nodup)
    (h : Running u rest urb c) (hsts : UrbSteps u c c') :
    Running u rest urb c' ∨ u ∉ c'.urbList := by
  refine steps_preserve (I := fun c => Running u rest urb c ∨ u ∉ c.urbList) ?_ hsts (.inl h)
  rintro c c' (hc | hc) hsp
  · exact hc.step hbu hnd hsp
  · right
    rcases hsp.urbList_eq.1 with heq | heq
    · rw [heq]
      exact hc
    · rw [heq]
      exact fun hu => hc (mem_of_mem_erase hu)

end Running

/-! ## The run with the status message -/

/-- `bce_vhci_urb_control_check_status` runs after a stage that succeeded. -/
def checked (u : UrbId) (r : Int × Tq) : Int × Tq := if r.1 ≠ 0 then r else r.2.urbControlCheckStatus u

theorem checked_of_none {u : UrbId} {r : Int × Tq} (h : (r.2.vurbs u).receivedStatus = 0) : checked u r = r := by
  unfold checked
  split
  · rfl
  · rename_i hz
    have hcheck : r.2.urbControlCheckStatus u = (0, r.2) := if_pos h
    rw [hcheck, ← not_not.1 hz]

theorem urbControlCheckStatus_success {u : UrbId} (h : (q.vurbs u).receivedStatus = BCE_VHCI_SUCCESS) :
    q.urbControlCheckStatus u = if (q.vurbs u).state = .dataTransferComplete then
        (-ENOENT, (q.modifyVurb u fun v => { v with state := .controlComplete }).urbComplete u 0)
      else (0, q) := by
  unfold urbControlCheckStatus
  simp only [h]
  by_cases hsta : (q.vurbs u).state = .dataTransferComplete
  · simp [hsta, BCE_VHCI_SUCCESS]
  · simp [hsta, BCE_VHCI_SUCCESS]

/-- In the run without the message `u` has finished its data stage, in the other one it was
completed with success. -/
structure Done (u : UrbId) (q q' : Tq) : Prop where
  state : (q.vurbs u).state = .dataTransferComplete
  unlinked : u ∉ q'.urbList
  completed : ∃ v, .complete u 0 v ∈ q'.log ∧ v.actualLength = (q.vurbs u).actualLength

/-- The two runs, after the message has come. -/
inductive Apart (u : UrbId) (rest : List UrbId) (urb : Urb) (q q' : Tq) : Prop
  /-- The request has failed. -/
  | gone : u ∉ q.urbList → Apart u rest urb q q'
  /-- The message is stored. It can only be overlooked for a request without data. -/
  | latched : Running u rest urb q.toCore → (q.vurbs u).receivedStatus = 0 → Latched u BCE_VHCI_SUCCESS q q' →
      ((q.vurbs u).state = .dataTransferComplete → urb.NoDataOut) → Apart u rest urb q q'
  | done : Running u rest urb q.toCore → (q.vurbs u).receivedStatus = 0 → ¬ urb.NoDataOut →
      Done u q q' → Apart u rest urb q q'

section Pair

variable {u : UrbId} {rest : List UrbId} {urb : Urb} {q q' : Tq}

/-- The request is completed when its status is looked at after the data stage. -/
theorem Latched.done (h : Latched u BCE_VHCI_SUCCESS q q') (hls : q.urbList = u :: rest)
    (hnd : (u :: rest).Nodup) (hsta : (q.vurbs u).state = .dataTransferComplete) :
    Done u q (q'.urbControlCheckStatus u).2 := by
  have hsta' : (q'.vurbs u).state = .dataTransferComplete := by
    rw [h.vurbs_self]
    exact hsta
  rw [urbControlCheckStatus_success h.receivedStatus, if_pos hsta']
  refine ⟨hsta, ?_, { q.vurbs u with
    receivedStatus := BCE_VHCI_SUCCESS, state := .controlComplete }, ?_, rfl⟩
  · show u ∉ (Core.urbComplete _ u 0).urbList
    rw [urbList_urbComplete]
    show u ∉ q'.urbList.erase u
    rw [h.urbList, hls, erase_cons_head]
    exact (nodup_cons.1 hnd).1
  · show _ ∈ (Core.urbComplete _ u 0).log
    rw [log_urbComplete, vurbs_modifyVurb_self, h.vurbs_self]
    exact mem_cons_of_mem _ (mem_cons_of_mem _ mem_cons_self)

variable {r r' : Int × Tq}

/-- A stage of the data stage, and then a look at the status. A stage that failed has removed the request or left it
in the data stage. -/
theorem Apart.checked (hnd : (u :: rest).Nodup)
    (haft : Running u rest urb (checked u r).2.toCore ∨ u ∉ (checked u r).2.urbList) (hz : LatchedResult u 0 r r)
    (h : LatchedResult u BCE_VHCI_SUCCESS r r') (hda : ¬ urb.NoDataOut)
    (hfa : r.1 ≠ 0 → u ∈ r.2.urbList → (r.2.vurbs u).state ≠ .dataTransferComplete) :
    Apart u rest urb (checked u r).2 (Vhci.checked u r').2 := by
  have hnn : (r.2.vurbs u).receivedStatus = 0 := hz.2.receivedStatus
  rw [checked_of_none hnn] at haft ⊢
  rcases haft with hrun | hgone
  · by_cases hsta : (r.2.vurbs u).state = .dataTransferComplete
    · have hok : ¬ r'.1 ≠ 0 := by
        rw [h.1]
        exact fun hne => hfa hne hrun.mem hsta
      unfold Vhci.checked
      rw [if_neg hok]
      exact .done hrun hnn hda (h.2.done hrun.list hnd hsta)
    refine .latched hrun hnn ?_ fun hdn => absurd hdn hsta
    have hsta' : (r'.2.vurbs u).state ≠ .dataTransferComplete := by
      rw [h.2.vurbs_self]
      exact hsta
    unfold Vhci.checked
    split
    · exact h.2
    · rw [urbControlCheckStatus_success h.2.receivedStatus, if_neg hsta']
      exact h.2
  · exact .gone hgone

theorem Apart.unchecked (haft : Running u rest urb r.2.toCore ∨ u ∉ r.2.urbList) (hz : LatchedResult u 0 r r)
    (h : LatchedResult u BCE_VHCI_SUCCESS r r') (hdn : (r.2.vurbs u).state = .dataTransferComplete → urb.NoDataOut) :
    Apart u rest urb r.2 r'.2 := by
  rcases haft with hrun | hgone
  · exact .latched hrun hz.2.receivedStatus h.2 hdn
  · exact .gone hgone

theorem Reaction.not_mem {d : Direction} {r : Int × Tq} (h : Reaction u q d r)
    (hls : q.urbList = u :: rest) (hnd : (u :: rest).Nodup) (hne : r.1 ≠ 0) :
    u ∉ r.2.urbList := by
  cases h with
  | ended v status _ _ hco => simp_all
  | sent v limit hz | waits v hz => exact absurd hz hne

/-- The rest of `bce_vhci_urb_control_update` after the setup packet was submitted. -/
def setupSent (u : UrbId) (r : Int × Tq) : Int × Tq :=
  if r.1 ≠ 0 then (0, r.2)
  else (0, r.2.modifyVurb u fun v => { v with state := .controlWaitingForSetupCompletion })

theorem LatchedResult.setupSent {s : Nat} (h : LatchedResult u s r r') :
    LatchedResult u s (setupSent u r) (Vhci.setupSent u r') := by
  unfold Vhci.setupSent
  rw [h.1]
  split
  · exact h.2.result 0
  · exact (h.2.modifyVurb fun _ _ => rfl).result 0

theorem urbUpdate_apart (hbu : urb.xferBulk = false) (hnd : (u :: rest).Nodup) (hrun : Running u rest urb q.toCore)
    (hnn : (q.vurbs u).receivedStatus = 0) (h : Latched u BCE_VHCI_SUCCESS q q')
    (hdn : (q.vurbs u).state = .dataTransferComplete → urb.NoDataOut) (length : Nat) :
    Apart u rest urb (q.urbUpdate u ⟨.transferRequest, 0, 0, length⟩).2
      (q'.urbUpdate u ⟨.transferRequest, 0, 0, length⟩).2 := by
  have haft := hrun.steps hbu hnd (urbUpdate_steps hrun.mem ⟨.transferRequest, 0, 0, length⟩)
  have hz : Latched u 0 q q := Latched.refl hnn
  generalize hmsg : (⟨.transferRequest, 0, 0, length⟩ : Message) = msg at haft ⊢
  have hcmd : msg.cmd = .transferRequest := by rw [← hmsg]
  have hsta : (q'.vurbs u).state = (q.vurbs u).state := by rw [h.vurbs_self]
  have hurb : (q'.vurbs u).urb = (q.vurbs u).urb := by rw [h.vurbs_self]
  have hctl : (q'.vurbs u).isControl := by
    rw [h.vurbs_self]
    exact hrun.isControl
  have hq : q.urbUpdate u msg = q.urbControlUpdate u msg := by
    unfold urbUpdate
    rw [if_neg hrun.started, if_pos hrun.isControl]
  have hq' : q'.urbUpdate u msg = q'.urbControlUpdate u msg := by
    unfold urbUpdate
    simp only
    rw [hsta, if_neg hrun.started, if_pos hctl]
  rw [hq] at haft ⊢
  rw [hq']
  unfold urbControlUpdate at haft ⊢
  have hne : msg.cmd ≠ .controlTransferStatus := by
    rw [hcmd]
    nofun
  simp only [if_neg hne, hsta] at haft ⊢
  by_cases hsu : (q.vurbs u).state = .controlWaitingForSetupRequest
  · simp only [if_pos hsu, if_pos hcmd, hurb] at haft ⊢
    refine Apart.unchecked haft (hz.urbSendOutData _ _).setupSent (h.urbSendOutData _ _).setupSent ?_
    -- the request waits for the setup packet, or still for the next message
    intro hdn
    revert hdn
    rcases urbSendOutData_spec q u (q.vurbs u).urb.setupDma sizeofUsbCtrlrequest with
      ⟨hfa, hco⟩ | ⟨hz, -, -⟩
    · rw [if_pos hfa, hco, hsu]
      nofun
    · rw [if_neg (not_not_intro hz), vurbs_modifyVurb_self]
      nofun
  simp only [if_neg hsu] at haft ⊢
  by_cases hda : (q.vurbs u).state = .waitingForTransferRequest ∨ (q.vurbs u).state = .waitingForCompletion
  · simp only [if_pos hda] at haft ⊢
    refine Apart.checked hnd haft (hz.urbDataUpdate msg) (h.urbDataUpdate msg) (hrun.not_noData hda) ?_
    intro hfa hmem hdn
    rcases urbDataUpdate_reaction q u msg with hbk | ⟨-, hreac⟩
    · grind
    · exact hreac.not_mem hrun.list hnd hfa hmem
  · simp only [if_neg hda] at haft ⊢
    exact .latched hrun hnn h hdn

/-- The rest of `bce_vhci_urb_control_transfer_completion` after the data stage was started. -/
def dataStarted (u : UrbId) (r : Int × Tq) : Int × Tq :=
  if r.1 ≠ 0 then (-ENOENT, r.2.urbComplete u r.1) else (0, r.2)

theorem LatchedResult.dataStarted {s : Nat} (h : LatchedResult u s r r') :
    LatchedResult u s (dataStarted u r) (Vhci.dataStarted u r') := by
  unfold Vhci.dataStarted
  rw [h.1]
  split
  · exact (h.2.urbComplete _).result _
  · exact h.2.result 0

/-- The data stage of a request with data is not over when it starts. -/
theorem state_dataStarted (hrun : Running u rest urb q.toCore)
    (hsu : (q.vurbs u).state = .controlWaitingForSetupCompletion)
    (hdn : ((dataStarted u (q.urbDataStart u)).2.vurbs u).state = .dataTransferComplete) :
    urb.NoDataOut := by
  unfold dataStarted at hdn
  rcases urbDataStart_spec (q := q) (u := u) (.inr hsu) with
    ⟨hfa, stop, hco⟩ | ⟨hz, v, hqu, -, hco⟩ |
      ⟨hz, c, v, limit, length, -, ⟨element, n, -, -, rfl⟩, hco⟩
  · have hvs : ((q.urbDataStart u).2.urbComplete u (q.urbDataStart u).1).vurbs =
        (q.urbDataStart u).2.vurbs := vurbs_urbComplete ..
    rw [if_pos hfa, hvs, hco, vurbs_setVurb_self] at hdn
    exact absurd (hsu.symm.trans hdn) nofun
  · rw [if_neg (not_not_intro hz), hco, vurbs_setVurb_self] at hdn
    cases hqu with
    | waitForSetup | waitForWindow | resumeOut => cases hdn
    | startOut _ hdir =>
      refine ⟨by rw [← hrun.urb_eq]; exact hdir, ?_⟩
      rw [← hrun.urb_eq]
      by_contra hlen
      have hwt : (q.vurbs u).startState = .waitingForTransferRequest := if_pos (.inl (Nat.pos_of_ne_zero hlen))
      exact absurd (hwt.symm.trans hdn) nofun
    | failedStart stop hin => exact absurd (hin.symm.trans hsu) nofun
    | dataDone n hac => exact absurd (hac.state.symm.trans hsu) nofun
  · grind [Core.record, vurbs_send_self]

theorem urbTransferCompletion_apart (hbu : urb.xferBulk = false) (hnd : (u :: rest).Nodup)
    (hrun : Running u rest urb q.toCore) (hnn : (q.vurbs u).receivedStatus = 0) (h : Latched u BCE_VHCI_SUCCESS q q')
    (hdn : (q.vurbs u).state = .dataTransferComplete → urb.NoDataOut) (cd : CompletionData) :
    Apart u rest urb (q.urbTransferCompletion u cd).2 (q'.urbTransferCompletion u cd).2 := by
  have haft := hrun.steps hbu hnd (urbTransferCompletion_steps hrun.mem cd)
  have hz : Latched u 0 q q := Latched.refl hnn
  have hsta : (q'.vurbs u).state = (q.vurbs u).state := by rw [h.vurbs_self]
  have hctl : (q'.vurbs u).isControl := by
    rw [h.vurbs_self]
    exact hrun.isControl
  unfold urbTransferCompletion at haft ⊢
  rw [if_pos hrun.isControl] at haft ⊢
  rw [if_pos hctl]
  unfold urbControlTransferCompletion at haft ⊢
  simp only [hsta] at haft ⊢
  by_cases hsu : (q.vurbs u).state = .controlWaitingForSetupCompletion
  · simp only [if_pos hsu] at haft ⊢
    exact Apart.unchecked haft hz.urbDataStart.dataStarted h.urbDataStart.dataStarted (state_dataStarted hrun hsu)
  simp only [if_neg hsu] at haft ⊢
  by_cases hda : (q.vurbs u).state = .waitingForTransferRequest ∨ (q.vurbs u).state = .waitingForCompletion
  · simp only [if_pos hda] at haft ⊢
    refine Apart.checked hnd haft (hz.urbDataTransferCompletion cd)
      (h.urbDataTransferCompletion cd) (hrun.not_noData hda) ?_
    intro hfa hmem
    by_cases hwt : (q.vurbs u).state = .waitingForCompletion
    · exact absurd hmem ((urbDataTransferCompletion_reaction cd hwt).not_mem hrun.list hnd hfa)
    · have hnot : q.urbDataTransferCompletion u cd = (0, q) := if_neg hwt
      rw [hnot] at hfa
      exact absurd rfl hfa
  · simp only [if_neg hda] at haft ⊢
    exact .latched hrun hnn h hdn

/-- The two runs, after the completion was acknowledged. -/
theorem Apart.notify (h : Apart u rest urb q q') (d : Direction) :
    Apart u rest urb ((q.outPendingDone d).notifySubmissionComplete d)
      ((q'.outPendingDone d).notifySubmissionComplete d) := by
  have hls : ∀ q : Tq, ((q.outPendingDone d).notifySubmissionComplete d).urbList = q.urbList := by
    intro q
    cases d <;> rfl
  have hvs : ∀ q : Tq, ((q.outPendingDone d).notifySubmissionComplete d).vurbs = q.vurbs := by
    intro q
    cases d <;> rfl
  have hlog : ∀ q : Tq, ((q.outPendingDone d).notifySubmissionComplete d).log = q.log := by
    intro q
    cases d <;> rfl
  have hfr : Running u rest urb q.toCore → Running u rest urb
      ((q.outPendingDone d).notifySubmissionComplete d).toCore :=
    fun hrun => hrun.frame (hls q) (by rw [hvs])
  cases h with
  | gone hgone =>
    refine .gone ?_
    rw [hls]
    exact hgone
  | latched hrun hnn h hdn =>
    refine .latched (hfr hrun) ?_ ((h.outPendingDone d).notify d) ?_ <;> rw [hvs]
    · exact hnn
    · exact hdn
  | done hrun hnn hda h =>
    refine .done (hfr hrun) (by rw [hvs]; exact hnn) hda ⟨?_, ?_, ?_⟩
    · rw [hvs]
      exact h.state
    · rw [hls]
      exact h.unlinked
    · rw [hvs, hlog]
      exact h.completed

/-- Nothing happens to a request that waits for its status. -/
theorem stage_of_done (hrun : Running u rest urb q.toCore)
    (hsta : (q.vurbs u).state = .dataTransferComplete) (st : Stage) :
    (q.stage st).urbList = q.urbList ∧ (q.stage st).vurbs = q.vurbs := by
  cases st with
  | request length =>
    have hbk : ∀ msg : Message, msg.cmd = .transferRequest → q.urbUpdate u msg = (-EAGAIN, q) := by
      intro msg hcmd
      unfold urbUpdate urbControlUpdate
      simp [hrun.isControl, hsta, hcmd]
    have hst : q.stage (.request length) = q := by
      unfold stage update
      simp only [hrun.list]
      rw [hbk _ rfl]
    rw [hst]
    exact ⟨rfl, rfl⟩
  | completed d cd =>
    have hnot : q.urbTransferCompletion u cd = (0, q) := by
      unfold urbTransferCompletion urbControlTransferCompletion
      simp [hrun.isControl, hsta]
    have hst : q.stage (.completed d cd) = (q.outPendingDone d).notifySubmissionComplete d := by
      show q.handleCompletion d cd = _
      unfold handleCompletion
      simp only [hrun.list]
      rw [hnot]
      split <;> rfl
    rw [hst]
    cases d <;> exact ⟨rfl, rfl⟩

/-- A request completed in the second run stays so. -/
theorem Done.stage (h : Done u q q') (hrun : Running u rest urb q.toCore) (st : Stage) :
    Done u (q.stage st) (q'.stage st) := by
  obtain ⟨-, hvs⟩ := stage_of_done hrun h.state st
  obtain ⟨v, hlog, hlen⟩ := h.completed
  refine ⟨?_, not_mem_stage h.unlinked st, v, mem_log_stage hlog st, ?_⟩
  · rw [hvs]
    exact h.state
  · rw [hvs]
    exact hlen

theorem Apart.stage (hbu : urb.xferBulk = false) (hnd : (u :: rest).Nodup)
    (h : Apart u rest urb q q') (st : Stage) : Apart u rest urb (q.stage st) (q'.stage st) := by
  cases h with
  | gone hgone => exact .gone (not_mem_stage hgone st)
  | done hrun hnn hda h =>
    obtain ⟨hls, hvs⟩ := stage_of_done hrun h.state st
    exact .done (hrun.frame hls (by rw [hvs])) (by rw [hvs]; exact hnn) hda (h.stage hrun st)
  | latched hrun hnn h hdn =>
    have hls : q'.urbList = u :: rest := h.urbList.trans hrun.list
    cases st with
    | request length =>
      unfold Tq.stage Tq.update
      simp only [hrun.list, hls]
      exact urbUpdate_apart hbu hnd hrun hnn h hdn length
    | completed d cd =>
      show Apart u rest urb (q.handleCompletion d cd) (q'.handleCompletion d cd)
      unfold handleCompletion
      simp only [hrun.list, hls]
      split
      · exact (Apart.latched hrun hnn h hdn).notify d
      · exact (urbTransferCompletion_apart hbu hnd hrun hnn h hdn cd).notify d

theorem Apart.stages (hbu : urb.xferBulk = false) (hnd : (u :: rest).Nodup)
    (h : Apart u rest urb q q') (l : List Stage) :
    Apart u rest urb (l.foldl Tq.stage q) (l.foldl Tq.stage q') := by
  induction l generalizing q q' with
  | nil => exact h
  | cons st l ih => exact ih (h.stage hbu hnd st)

theorem Done.stages (h : Done u q q') (hrun : Running u rest urb q.toCore) (l : List Stage) :
    Done u (l.foldl Tq.stage q) (l.foldl Tq.stage q') := by
  induction l generalizing q q' with
  | nil => exact h
  | cons st l ih =>
    obtain ⟨hls, hvs⟩ := stage_of_done hrun h.state st
    exact ih (h.stage hrun st) (hrun.frame hls (by rw [hvs]))

theorem not_mem_stages (h : u ∉ q.urbList) (l : List Stage) : u ∉ (l.foldl stage q).urbList := by
  induction l generalizing q with
  | nil => exact h
  | cons st l ih => exact ih (not_mem_stage h st)

/-- The run without the message, as long as the request is linked. -/
theorem running_stages (hbu : urb.xferBulk = false) (hnd : (u :: rest).Nodup) (hrun : Running u rest urb q.toCore)
    (hnn : (q.vurbs u).receivedStatus = 0) (hstr : (q.vurbs u).state ≠ .dataTransferComplete) (l : List Stage)
    (hlin : u ∈ (l.foldl Tq.stage q).urbList) :
    Running u rest urb (l.foldl Tq.stage q).toCore ∧ ((l.foldl Tq.stage q).vurbs u).receivedStatus = 0 := by
  have hapart : Apart u rest urb q (q.withStatus u BCE_VHCI_SUCCESS q.log) :=
    .latched hrun hnn ⟨q.log, rfl⟩ fun h => absurd h hstr
  cases hapart.stages hbu hnd l with
  | gone hgone => exact absurd hlin hgone
  | latched hrun hnn | done hrun hnn => exact ⟨hrun, hnn⟩

theorem statusSuccess_eq (hrun : Running u rest urb q.toCore) :
    ∃ q', Latched u BCE_VHCI_SUCCESS q q' ∧ q.statusSuccess = (q'.urbControlCheckStatus u).2 := by
  refine ⟨(q.onCore fun c => c.record (.status u (q.vurbs u).state BCE_VHCI_SUCCESS)).modifyVurb u
    fun v => { v with receivedStatus := BCE_VHCI_SUCCESS }, ⟨_, rfl⟩, ?_⟩
  unfold statusSuccess update
  simp only [hrun.list]
  unfold urbUpdate
  rw [if_neg hrun.started, if_pos hrun.isControl]
  rfl

end Pair

/-- The stages `pre ++ post` take a control request that waits for its first message to the end of its data stage. If
a successful status message comes after `pre`, the request is completed with status 0 and the same length, unless it
is a request to the device without data and the setup packet has not completed yet: then nothing looks at the message
any more. -/
theorem control_confluence_iff {q : Tq} {u : UrbId} {rest : List UrbId} (hlist : q.urbList = u :: rest)
    (hnodup : q.urbList.Nodup) (hcontrol : (q.vurbs u).isControl = true) (hbulk : (q.vurbs u).urb.xferBulk = false)
    (hstate : (q.vurbs u).state = .controlWaitingForSetupRequest) (hnone : (q.vurbs u).receivedStatus = 0)
    (pre post : List Stage) (hlinked : u ∈ ((pre ++ post).foldl Tq.stage q).urbList)
    (hdone : (((pre ++ post).foldl Tq.stage q).vurbs u).state = .dataTransferComplete) :
    (u ∉ (post.foldl Tq.stage (pre.foldl Tq.stage q).statusSuccess).urbList ∧
        ∃ v, .complete u 0 v ∈ (post.foldl Tq.stage (pre.foldl Tq.stage q).statusSuccess).log ∧
          v.actualLength = (((pre ++ post).foldl Tq.stage q).vurbs u).actualLength) ↔
      ¬ ((q.vurbs u).urb.NoDataOut ∧ ((pre.foldl Tq.stage q).vurbs u).state ≠ .dataTransferComplete) := by
  rw [foldl_append] at hlinked hdone ⊢
  rw [hlist] at hnodup
  have hstr : (q.vurbs u).state ≠ .dataTransferComplete := by
    rw [hstate]
    nofun
  have hrun : Running u rest (q.vurbs u).urb q.toCore :=
    ⟨hlist, rfl, hcontrol, by rw [hstate]; nofun, fun _ => .inl hstate⟩
  have hmid : u ∈ (pre.foldl Tq.stage q).urbList := by
    by_contra hgone
    exact not_mem_stages hgone post hlinked
  obtain ⟨hrun1, hno1⟩ := running_stages hbulk hnodup hrun hnone hstr pre hmid
  generalize pre.foldl Tq.stage q = q1 at hlinked hdone hrun1 hno1 ⊢
  obtain ⟨q', hlat, heq⟩ := statusSuccess_eq hrun1
  rw [heq]
  by_cases hear : (q1.vurbs u).state = .dataTransferComplete
  · -- the data stage is over: the request is completed at once
    have hend := (hlat.done hrun1.list hnodup hear).stages hrun1 post
    exact ⟨fun _ h => h.2 hear, fun _ => ⟨hend.unlinked, hend.completed⟩⟩
  have hsta' : (q'.vurbs u).state ≠ .dataTransferComplete := by
    rw [hlat.vurbs_self]
    exact hear
  rw [urbControlCheckStatus_success hlat.receivedStatus, if_neg hsta']
  have hapart : Apart u rest (q.vurbs u).urb q1 q' := .latched hrun1 hno1 hlat fun h => absurd h hear
  cases hapart.stages hbulk hnodup post with
  | gone hgone => exact absurd hlinked hgone
  | latched hrun2 _ h hemp =>
    refine ⟨fun hend => ?_, fun hda => absurd ⟨hemp hdone, hear⟩ hda⟩
    exact absurd (h.urbList.symm ▸ hlinked) hend.1
  | done _ _ hda h => exact ⟨fun _ hno => hda hno.1, fun _ => ⟨h.unlinked, h.completed⟩⟩

/-- The status message of a request from the device comes before the setup packet has completed. -/
theorem control_confluence_getDescriptor : ∃ s, tqMachine.Reachable s ∧ ¬ (s.vurbs 0).urb.NoDataOut ∧
      0 ∉ ([Stage.completed .toDevice ⟨BCE_COMPLETION_SUCCESS, 8, 0⟩,
          .completed .fromDevice ⟨BCE_COMPLETION_SUCCESS, 18, 0⟩].foldl stage
        (s.toTq.stage (.request 8)).statusSuccess).urbList := by
  obtain ⟨s, hs, hls, hctl, hbu, hsta, hnn, hda, hlin, hdn⟩ :=
    exists_of_run (M := tqMachine) (P := fun s => s.urbList = [0] ∧
      (s.vurbs 0).isControl = true ∧ (s.vurbs 0).urb.xferBulk = false ∧
      (s.vurbs 0).state = .controlWaitingForSetupRequest ∧
      (s.vurbs 0).receivedStatus = 0 ∧ ¬ (s.vurbs 0).urb.NoDataOut ∧
      0 ∈ ([Stage.request 8, .completed .toDevice ⟨BCE_COMPLETION_SUCCESS, 8, 0⟩,
        .completed .fromDevice ⟨BCE_COMPLETION_SUCCESS, 18, 0⟩].foldl stage s.toTq).urbList ∧
      (([Stage.request 8, .completed .toDevice ⟨BCE_COMPLETION_SUCCESS, 8, 0⟩,
        .completed .fromDevice ⟨BCE_COMPLETION_SUCCESS, 18, 0⟩].foldl stage s.toTq).vurbs
          0).state = .dataTransferComplete)
      [.enqueue getDescriptor .granted] ⟨.control, rfl⟩ (by decide)
  have hcon := (control_confluence_iff hls (by rw [hls]; decide) hctl hbu hsta
    hnn [.request 8] [.completed .toDevice ⟨BCE_COMPLETION_SUCCESS, 8, 0⟩,
      .completed .fromDevice ⟨BCE_COMPLETION_SUCCESS, 18, 0⟩] hlin hdn).2 fun h => hda h.1
  exact ⟨s, hs, hda, hcon.1⟩

theorem setConfiguration_length_lt : 0 < 2 ^ 32 := by decide

/-- `SET_CONFIGURATION`, a request to the device without data. -/
def setConfiguration : Urb := ⟨.toDevice, 0, 0, 0x2000, false, false, [], setConfiguration_length_lt⟩

/-- The request `u` was completed with status 0. -/
def Event.succeeds (u : UrbId) : Event → Bool
  | .complete w result _ => w == u && result == 0
  | _ => false

/-- If the status message comes last the request is completed; if it overtakes the completion of the setup packet the
request waits for ever. -/
theorem status_overtakes_setup : (∃ s, tqMachine.Reachable s ∧ s.urbList = [] ∧ s.log.any (Event.succeeds 0) = true) ∧
      ∃ s, tqMachine.Reachable s ∧ s.urbList = [0] ∧ s.active = true ∧ s.pausedBy = 0#32 ∧
        (s.vurbs 0).state = .dataTransferComplete ∧
        (s.vurbs 0).receivedStatus = BCE_VHCI_SUCCESS ∧ s.sqOut.sq.taken = 1 ∧ s.evq = [] ∧
        s.log.any (Event.succeeds 0) = false :=
  ⟨exists_of_run [.enqueue setConfiguration .granted, .event true ⟨.transferRequest, 0, 0, 8⟩,
      .post .toDevice ⟨0, 8, 0, BCE_COMPLETION_SUCCESS⟩, .completion .toDevice,
      .event true ⟨.controlTransferStatus, BCE_VHCI_SUCCESS, 0, 0⟩] ⟨.control, rfl⟩ (by decide),
    exists_of_run [.enqueue setConfiguration .granted, .event true ⟨.transferRequest, 0, 0, 8⟩,
      .event true ⟨.controlTransferStatus, BCE_VHCI_SUCCESS, 0, 0⟩,
      .post .toDevice ⟨0, 8, 0, BCE_COMPLETION_SUCCESS⟩, .completion .toDevice] ⟨.control, rfl⟩ (by decide)⟩

end KaiT2en.Vhci
