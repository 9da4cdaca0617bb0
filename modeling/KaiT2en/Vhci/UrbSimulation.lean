import KaiT2en.Vhci.Step

/-!
# The functions of one request as steps

The functions of `transfer.c` that concern one request are sequences of steps of that request. The
lemmas about the functions that reserve and submit say which single step they are. `Reaction` is
what the two handlers of the data stage can do, and `Handled` and the lemmas that end in `_steps`
chain these steps.
-/

namespace KaiT2en.Vhci

open KaiT2en.Kernel KaiT2en.Dma Relation Core ReflTransGen UrbStep Tq UrbState

/-! ## Reservations and submissions -/

/-- The queue `q` with one element of the queue for `d` reserved. -/
def Tq.reserved (q : Tq) (d : Direction) : Tq :=
  q.onCore fun c => c.setPipe d
    { c.pipe d with
      sq := { (c.pipe d).sq with
        availableCommands := (c.pipe d).sq.availableCommands - 1 } }

variable {d : Direction}

theorem reserveSubmission_ok {q q' : Tq} (h : q.reserveSubmission d = .ok q') :
    0 < (q.pipe d).sq.availableCommands ∧ q' = q.reserved d := by
  unfold reserveSubmission at h
  split at h
  · cases h
  rename_i sq hsq
  obtain ⟨hpos, rfl⟩ := Sq.reserveSubmission_ok hsq
  cases h
  exact ⟨hpos, rfl⟩

theorem cancel_reserved (q : Tq) (d : Direction) : (q.reserved d).cancelSubmissionReservation d = q := by
  have hsq : Sq.cancelSubmissionReservation { (q.pipe d).sq with
      availableCommands := (q.pipe d).sq.availableCommands - 1 } = (q.pipe d).sq := by
    simp only [Sq.cancelSubmissionReservation, Int.sub_add_cancel]
  simp only [reserved, cancelSubmissionReservation, onCore, pipe_setPipe, setPipe_setPipe, hsq]
  cases d <;> rfl

/-- The step of a submission of `u` as `v` on the queue for `d`. -/
def Submits (c : Core) (d : Direction) (u : UrbId) (v : VUrb) (limit : Nat) (c' : Core) : Prop :=
  ∃ element n, n ≤ limit ∧ 0 < (c.pipe d).sq.availableCommands ∧ c' = c.send d u v element n

theorem queued_reserved (q : Tq) (d : Direction) (u : UrbId) (element : QeSubmission) (n : Nat) :
    ((q.reserved d).toCore.queued d u (((q.reserved d).pipe d).sq.nextSubmission ⟨u, element⟩)
      (q.vurbs u).receiveOffset n).setVurb u
        { q.vurbs u with submittedLength := n, state := .waitingForCompletion } =
      q.toCore.send d u (q.vurbs u) element n := by
  cases d <;> rfl

theorem modifyVurb_reserved (q : Tq) (d : Direction) (u : UrbId) (f : VUrb → VUrb) :
    (q.reserved d).modifyVurb u f = (q.modifyVurb u f).reserved d := by
  cases d <;> rfl

variable {u : UrbId} {c c' : Core} {limit : Nat}

theorem Submits.of_setVurb {v v' : VUrb} (h : Submits (c.setVurb u v') d u v limit c') : Submits c d u v limit c' := by
  obtain ⟨element, n, hle, hpos, rfl⟩ := h
  exact ⟨element, n, hle, by simpa using hpos, by simp⟩

variable {size : Nat}

theorem urbPrepareInSubmission_ok {q q' : Tq} (h : q.urbPrepareInSubmission u size = .ok q') :
    ∃ element n, n ≤ size ∧ q' = (q.onCore fun c => c.queued .fromDevice u
      (c.sqIn.sq.nextSubmission ⟨u, element⟩) (q.vurbs u).receiveOffset n).modifyVurb u
        fun v => { v with submittedLength := n } := by
  unfold urbPrepareInSubmission at h
  simp only at h
  split at h
  · cases h
    exact ⟨_, size, le_rfl, rfl⟩
  split at h
  · cases h
    exact ⟨_, size, le_rfl, rfl⟩
  split at h
  · cases h
  rename_i sq n hsq
  cases h
  obtain ⟨⟨element, -, rfl⟩, -, hle, -⟩ := Sq.setNextSubmissionSegmentList_ok hsq
  exact ⟨element, n, hle, rfl⟩

variable {q : Tq} {status : Int}

theorem urbPrepareInSubmission_error (h : q.urbPrepareInSubmission u size = .error status) : status ≠ 0 := by
  unfold urbPrepareInSubmission at h
  simp only at h
  split at h
  · cases h
  split at h
  · cases h
  split at h
  · rename_i hsq
    cases h
    rw [Sq.setNextSubmissionSegmentList_error hsq]
    decide
  · cases h

theorem prepared_reserved {q q' : Tq} (hpos : 0 < q.sqIn.sq.availableCommands)
    (h : (q.reserved .fromDevice).urbPrepareInSubmission u size = .ok q') :
    Submits q.toCore .fromDevice u (q.vurbs u) size
      (q'.modifyVurb u fun v => { v with state := .waitingForCompletion }).toCore := by
  obtain ⟨element, n, hle, rfl⟩ := urbPrepareInSubmission_ok h
  refine ⟨element, n, hle, hpos, ?_⟩
  simp only [modifyVurb, onCore, setVurb_setVurb, vurbs_setVurb_self]
  rfl

/-- `bce_vhci_urb_continue_in` submits, or fails and changes nothing. -/
theorem urbContinueIn_spec (q : Tq) (u : UrbId) : (q.urbContinueIn u).1 ≠ 0 ∧ (q.urbContinueIn u).2.toCore = q.toCore ∨
      (q.urbContinueIn u).1 = 0 ∧ Submits q.toCore .fromDevice u (q.vurbs u)
          (sub32 (q.vurbs u).requestEnd (q.vurbs u).receiveOffset)
          (q.urbContinueIn u).2.toCore := by
  unfold urbContinueIn
  split
  · exact .inl ⟨show -EPIPE ≠ 0 by decide, rfl⟩
  rename_i q1 hres
  obtain ⟨hpos, rfl⟩ := reserveSubmission_ok hres
  simp only
  split
  · rename_i status hpr
    refine .inl ⟨urbPrepareInSubmission_error hpr, ?_⟩
    rw [cancel_reserved]
  · rename_i q2 hpr
    exact .inr ⟨rfl, prepared_reserved hpos hpr⟩

/-- `bce_vhci_urb_data_transfer_in` submits and asks the firmware for data, or fails; a failure can
leave the window open. -/
theorem urbDataTransferIn_spec (q : Tq) (u : UrbId) :
    ((q.urbDataTransferIn u).1 ≠ 0 ∧ ∃ stop, (q.urbDataTransferIn u).2.toCore =
        q.toCore.setVurb u { q.vurbs u with requestEnd := stop }) ∨
      (q.urbDataTransferIn u).1 = 0 ∧ ∃ c length, Submits q.toCore .fromDevice u (q.vurbs u).openAll
          (sub32 (q.vurbs u).length (q.vurbs u).receiveOffset) c ∧
        (q.urbDataTransferIn u).2.toCore = c.record (.request u length) := by
  have hsa : ∀ q' : Tq, q'.toCore = q.toCore →
      ∃ stop, q'.toCore = q.toCore.setVurb u { q.vurbs u with requestEnd := stop } :=
    fun q' h => ⟨(q.vurbs u).requestEnd, by rw [h, setVurb_self]⟩
  unfold urbDataTransferIn
  -- the asynchronous message queue is not part of the shared state
  have hco : q.reserveMessage.2.toCore = q.toCore := by
    unfold reserveMessage
    split <;> rfl
  generalize q.reserveMessage = r at hco ⊢
  obtain ⟨reservation1, q0⟩ := r
  simp only at hco ⊢
  split
  · exact .inl ⟨show -ENOMEM ≠ 0 by decide, hsa _ hco⟩
  split
  · exact .inl ⟨show -ENOMEM ≠ 0 by decide, hsa _ hco⟩
  rename_i q1 hres
  obtain ⟨hpos, rfl⟩ := reserveSubmission_ok hres
  have hv : (q0.reserved .fromDevice).vurbs u = q.vurbs u := by
    rw [← hco]
    rfl
  simp only [hv, modifyVurb_reserved]
  -- the window is openAll before the submission is prepared
  have hop : ∀ f : VUrb → VUrb, (q0.modifyVurb u f).toCore = q.toCore.setVurb u (f (q.vurbs u)) := by
    intro f
    rw [← hco]
    rfl
  split
  · rename_i status hpr
    refine .inl ⟨urbPrepareInSubmission_error hpr, (q.vurbs u).openAll.requestEnd, ?_⟩
    rw [cancel_reserved]
    exact hop _
  · rename_i q2 hpr
    have hsub := prepared_reserved (q := q0.modifyVurb u _) hpos hpr
    rw [hop, vurbs_setVurb_self] at hsub
    exact .inr ⟨rfl, _, _, hsub.of_setVurb, rfl⟩

/-- `bce_vhci_urb_send_out_data` submits, or fails and changes nothing. -/
theorem urbSendOutData_spec (q : Tq) (u : UrbId) (addr size : Nat) :
    (q.urbSendOutData u addr size).1 ≠ 0 ∧ (q.urbSendOutData u addr size).2.toCore = q.toCore ∨
      (q.urbSendOutData u addr size).1 = 0 ∧ 0 < q.sqOut.sq.availableCommands ∧ ∃ element,
        (q.urbSendOutData u addr size).2.toCore =
          (q.toCore.setPipe .toDevice (q.toCore.pushed .toDevice u element)).record (.setup u) := by
  unfold urbSendOutData
  split
  · exact .inl ⟨show -EPIPE ≠ 0 by decide, rfl⟩
  · rename_i q1 hres
    obtain ⟨hpos, rfl⟩ := reserveSubmission_ok hres
    exact .inr ⟨rfl, hpos, _, rfl⟩

/-- `bce_vhci_urb_send_out_transfer_data` queues one submission for the sizes it reports. -/
theorem urbSendOutTransferData_ok {q q' : Tq} {size n : Nat}
    (h : q.urbSendOutTransferData u (q.vurbs u).receiveOffset size = .ok (q', n)) :
    Submits q.toCore .toDevice u (q.vurbs u) size (q'.modifyVurb u fun v =>
      { v with submittedLength := n, state := .waitingForCompletion }).toCore := by
  unfold urbSendOutTransferData at h
  split at h
  · cases h
  rename_i q1 hres
  obtain ⟨hpos, rfl⟩ := reserveSubmission_ok hres
  simp only at h
  split at h
  · cases h
    exact ⟨_, size, le_rfl, hpos, queued_reserved q .toDevice u _ size⟩
  split at h
  · cases h
    exact ⟨_, size, le_rfl, hpos, queued_reserved q .toDevice u _ size⟩
  split at h
  · cases h
  rename_i sq _ hsq
  cases h
  obtain ⟨⟨element, -, rfl⟩, -, hle, -⟩ := Sq.setNextSubmissionSegmentList_ok hsq
  exact ⟨element, n, hle, hpos, queued_reserved q .toDevice u element n⟩

theorem urbSendOutTransferData_error {offset size : Nat}
    (h : q.urbSendOutTransferData u offset size = .error status) : status ≠ 0 := by
  unfold urbSendOutTransferData at h
  split at h
  · cases h
    decide
  simp only at h
  split at h
  · cases h
  split at h
  · cases h
  split at h
  · rename_i hsq
    cases h
    rw [Sq.setNextSubmissionSegmentList_error hsq]
    decide
  · cases h

/-- `bce_vhci_urb_continue_out` submits, or fails and changes nothing. -/
theorem urbContinueOut_spec (q : Tq) (u : UrbId) :
    (q.urbContinueOut u).1 ≠ 0 ∧ (q.urbContinueOut u).2.toCore = q.toCore ∨ (q.urbContinueOut u).1 = 0 ∧
        Submits q.toCore .toDevice u (q.vurbs u) (sub32 (q.vurbs u).requestEnd (q.vurbs u).receiveOffset)
          (q.urbContinueOut u).2.toCore := by
  unfold urbContinueOut
  simp only
  split
  · split
    · rename_i status herr
      exact .inl ⟨urbSendOutTransferData_error herr, rfl⟩
    · rename_i q' n hok
      exact .inr ⟨rfl, urbSendOutTransferData_ok hok⟩
  split
  · split
    · rename_i status herr
      exact .inl ⟨urbSendOutTransferData_error herr, rfl⟩
    · rename_i q' n hok
      obtain ⟨element, m, hle, hpos, heq⟩ := urbSendOutTransferData_ok hok
      exact .inr ⟨rfl, element, m, by omega, hpos, heq⟩
  · exact .inl ⟨show -EINVAL ≠ 0 by decide, rfl⟩

/-! ## Handlers -/

/-- The result `r` of a handler is reached from `c` by steps of `u`. If it is 0, a request that was neither waiting
nor cancelled is still linked and still neither. -/
structure Handled (u : UrbId) (c : Core) (r : Int × Tq) : Prop where
  steps : UrbSteps u c r.2.toCore
  stays : r.1 = 0 → (c.vurbs u).state ≠ .initPending → (c.vurbs u).state ≠ .cancelled →
    u ∈ r.2.urbList ∧ (r.2.vurbs u).state ≠ .initPending ∧ (r.2.vurbs u).state ≠ .cancelled

namespace Handled

variable {u : UrbId} {c : Core}

/-- Nothing happened. -/
theorem refl {q : Tq} (hu : u ∈ q.urbList) (status : Int) : Handled u q.toCore (status, q) where
  steps := ReflTransGen.refl
  stays := fun _ hnt hcan => ⟨hu, hnt, hcan⟩

theorem ended {r : Int × Tq} (hsp : UrbStep u c r.2.toCore) (hr : r.1 ≠ 0) : Handled u c r where
  steps := single hsp
  stays := fun h => absurd h hr

end Handled

/-- What `bce_vhci_urb_fail_data_transfer` does to a queue whose request was changed to `v`. -/
theorem toCore_urbFailDataTransfer {c : Core} {v : VUrb}
    (hq : q.toCore = c.setVurb u v) : (q.urbFailDataTransfer u status).2.toCore =
      (c.setVurb u { v with actualLength := v.receiveOffset }).urbComplete u status := by
  show (q.toCore.setVurb u
    { q.vurbs u with actualLength := (q.vurbs u).receiveOffset }).urbComplete u status = _
  rw [hq, vurbs_setVurb_self, setVurb_setVurb]

theorem UrbStep.of_submits {v : VUrb} (hu : u ∈ c.urbList) (hnt : (c.vurbs u).state ≠ .initPending)
    (hpr : Prepared (c.vurbs u) v d limit) (h : Submits c d u v limit c') : UrbStep u c c' := by
  obtain ⟨element, n, hle, hpos, rfl⟩ := h
  have hsp := send d v element limit n hu (fun h => absurd h hnt) hpr hle hpos
  rwa [charge_of_ne _ _ hnt] at hsp

theorem Submits.stays {v : VUrb} (hu : u ∈ c.urbList) (h : Submits c d u v limit c') :
    u ∈ c'.urbList ∧ (c'.vurbs u).state = .waitingForCompletion := by
  obtain ⟨element, n, -, -, rfl⟩ := h
  rw [urbList_send, vurbs_send_self]
  exact ⟨hu, rfl⟩

/-- What an event of the data stage does to a request that waits for it: it ends the request, makes it submit on the
queue for `d`, or, only for requests to the device and control requests, waits for another event. -/
inductive Reaction (u : UrbId) (q : Tq) (d : Direction) (r : Int × Tq) : Prop
  | ended (v : VUrb) (status : Int) : r.1 ≠ 0 → Final q.log u (q.vurbs u) v status →
      r.2.toCore = (q.toCore.setVurb u v).urbComplete u status → Reaction u q d r
  | sent (v : VUrb) (limit : Nat) : r.1 = 0 → Prepared (q.vurbs u) v d limit →
      v.urb = (q.vurbs u).urb → v.isControl = (q.vurbs u).isControl →
      Submits q.toCore d u v limit r.2.toCore → Reaction u q d r
  | waits (v : VUrb) : r.1 = 0 → (q.vurbs u).dir = .toDevice ∨ (q.vurbs u).isControl = true →
      Quiet (q.vurbs u) v → v.state ≠ .initPending → v.state ≠ .cancelled →
      r.2.toCore = q.toCore.setVurb u v → Reaction u q d r

namespace Reaction

variable {u : UrbId} {q : Tq} {d : Direction}

theorem handled {r : Int × Tq} (hu : u ∈ q.urbList) (hnt : (q.vurbs u).state ≠ .initPending) (h : Reaction u q d r) :
    Handled u q.toCore r := by
  cases h with
  | ended v status hr hfin hco =>
    refine Handled.ended ?_ hr
    rw [hco]
    exact complete v status hu hfin
  | sent v limit _ hpr _ _ hsub =>
    refine ⟨single (of_submits hu hnt hpr hsub), ?_⟩
    intro _ _ _
    obtain ⟨hlin, hsta⟩ := hsub.stays hu
    exact ⟨hlin, by rw [hsta]; decide, by rw [hsta]; decide⟩
  | waits v _ _ hqu hin' hcan hco =>
    have hsp := quiet v hu (fun h => absurd h hnt) hqu
    rw [charge_of_ne _ _ hnt, ← hco] at hsp
    refine ⟨single hsp, ?_⟩
    intro _ _ _
    rw [hco, vurbs_setVurb_self]
    exact ⟨hu, hin', hcan⟩

/-- The data stage failed after the request was changed to `v`. -/
theorem failed {q' : Tq} {v : VUrb} {status : Int} (hnt : (q.vurbs u).state ≠ .initPending)
    (hcan : (q.vurbs u).state ≠ .cancelled) (hq : q'.toCore = q.toCore.setVurb u v)
    (hv : v.state = (q.vurbs u).state) (hst : status ≠ 0) :
    Reaction u q d (q'.urbFailDataTransfer u status) :=
  .ended { v with actualLength := v.receiveOffset } status (show -ENOENT ≠ 0 by decide)
    (.failed _ _ _ hv hnt hcan hst) (toCore_urbFailDataTransfer hq)

theorem of_submit {f : VUrb → VUrb} {r : Int × Tq} (hnt : (q.vurbs u).state ≠ .initPending)
    (hcan : (q.vurbs u).state ≠ .cancelled)
    (hpr : Prepared (q.vurbs u) (f (q.vurbs u)) d (sub32 (f (q.vurbs u)).requestEnd (f (q.vurbs u)).receiveOffset))
    (hf : (f (q.vurbs u)).state = (q.vurbs u).state) (hurb : (f (q.vurbs u)).urb = (q.vurbs u).urb)
    (hcon : (f (q.vurbs u)).isControl = (q.vurbs u).isControl)
    (hr : r.1 ≠ 0 ∧ r.2.toCore = (q.modifyVurb u f).toCore ∨
      r.1 = 0 ∧ Submits (q.modifyVurb u f).toCore d u ((q.modifyVurb u f).vurbs u)
        (sub32 ((q.modifyVurb u f).vurbs u).requestEnd ((q.modifyVurb u f).vurbs u).receiveOffset)
        r.2.toCore) :
    Reaction u q d (if r.1 ≠ 0 then r.2.urbFailDataTransfer u r.1 else (0, r.2)) := by
  rcases hr with ⟨hne, hco⟩ | ⟨hzero, hsub⟩
  · rw [if_pos hne]
    exact failed hnt hcan hco hf hne
  · rw [if_neg (not_not_intro hzero)]
    rw [vurbs_modifyVurb_self] at hsub
    exact .sent _ _ rfl hpr hurb hcon (Submits.of_setVurb (c := q.toCore) hsub)

end Reaction

/-- `bce_vhci_urb_data_update` holds the message back or lets a waiting request react. -/
theorem urbDataUpdate_reaction (q : Tq) (u : UrbId) (msg : Message) : q.urbDataUpdate u msg = (-EAGAIN, q) ∨
      (q.vurbs u).state = .waitingForTransferRequest ∧ Reaction u q .toDevice (q.urbDataUpdate u msg) := by
  unfold urbDataUpdate
  simp only
  split
  · rename_i hwt
    have hnt : (q.vurbs u).state ≠ .initPending := by
      rw [hwt.1]
      decide
    have hcan : (q.vurbs u).state ≠ .cancelled := by
      rw [hwt.1]
      decide
    split
    · exact .inl rfl
    rename_i hzlp
    refine .inr ⟨hwt.1, ?_⟩
    split
    · exact Reaction.failed hnt hcan (setVurb_self ..).symm rfl (show -EPROTO ≠ 0 by decide)
    have hop : sub32 (q.vurbs u).length (q.vurbs u).receiveOffset = 0 → (q.vurbs u).isZlp :=
      fun hrs => Bool.not_eq_false _ |>.mp fun hz => hzlp ⟨hrs, hz⟩
    exact Reaction.of_submit hnt hcan (Prepared.window (q.vurbs u) msg.param2 hwt.1 hop rfl) rfl rfl rfl
      (urbContinueOut_spec _ u)
  · exact .inl rfl

theorem urbDataUpdate_handled (hu : u ∈ q.urbList) (msg : Message) : Handled u q.toCore (q.urbDataUpdate u msg) := by
  rcases urbDataUpdate_reaction q u msg with hbk | ⟨hwt, hreac⟩
  · rw [hbk]
    exact Handled.refl hu _
  · apply hreac.handled hu
    rw [hwt]
    decide

/-- `bce_vhci_urb_control_check_status` ends the request or does nothing. It ends a cancelled one only if the stored
status is neither 0 nor success. -/
theorem urbControlCheckStatus_steps (hu : u ∈ q.urbList) (hnt : (q.vurbs u).state ≠ .initPending)
    (hlog : (q.vurbs u).state = .cancelled → .status u .cancelled (q.vurbs u).receivedStatus ∈ q.log) :
    UrbSteps u q.toCore (q.urbControlCheckStatus u).2.toCore := by
  unfold urbControlCheckStatus
  simp only
  split
  · exact refl
  split
  · by_cases hsuc : (q.vurbs u).receivedStatus = BCE_VHCI_SUCCESS
    · have hdn : (q.vurbs u).state = .dataTransferComplete := by grind
      rw [if_neg (not_not_intro hsuc)]
      exact single (complete _ 0 hu (Final.succeeded _ hdn))
    have hfin : Final q.log u (q.vurbs u)
        { q.vurbs u with state := .controlComplete } (-EPIPE) := by grind [Final.cancelled, Final.statusFailed]
    have hsp := complete _ _ hu hfin
    rw [if_pos hsuc]
    split
    · exact single hsp
    split
    · exact single hsp
    · exact single hsp
  · exact refl

theorem Handled.then_checkStatus {r : Int × Tq} (h : Handled u q.toCore r) (hnt : (q.vurbs u).state ≠ .initPending)
    (hcan : (q.vurbs u).state ≠ .cancelled) :
    UrbSteps u q.toCore (if r.1 ≠ 0 then r else r.2.urbControlCheckStatus u).2.toCore := by
  split
  · exact h.steps
  rename_i hzero
  obtain ⟨hlin, hin', hcan'⟩ := h.stays (not_not.1 hzero) hnt hcan
  refine h.steps.trans (urbControlCheckStatus_steps hlin hin' ?_)
  exact fun hc => absurd hc hcan'

/-- A status message is stored before it is checked, and its record names the state that the check
reads. -/
theorem latch_checkStatus_steps {q q' : Tq} {s : Nat} (hu : u ∈ q.urbList) (hnt : (q.vurbs u).state ≠ .initPending)
    (hcon : (q.vurbs u).isControl) (hq : q'.toCore = q.toCore.latch u s) :
    UrbSteps u q.toCore (q'.urbControlCheckStatus u).2.toCore := by
  have hv : q'.vurbs u = { q.vurbs u with receivedStatus := s } := by
    rw [hq]
    exact vurbs_setVurb_self ..
  have hsp : UrbStep u q.toCore q'.toCore := by
    rw [hq]
    exact latch s hu hcon
  refine head hsp (urbControlCheckStatus_steps ?_ ?_ ?_)
  · rw [hq]
    exact hu
  · rw [hv]
    exact hnt
  · intro hcan
    rw [hv] at hcan ⊢
    rw [hq, ← (hcan : (q.vurbs u).state = .cancelled)]
    exact List.mem_cons_self

theorem urbControlUpdate_steps (hu : u ∈ q.urbList) (hnt : (q.vurbs u).state ≠ .initPending)
    (hcon : (q.vurbs u).isControl) (msg : Message) : UrbSteps u q.toCore (q.urbControlUpdate u msg).2.toCore := by
  unfold urbControlUpdate
  simp only
  split
  · exact latch_checkStatus_steps hu hnt hcon rfl
  split
  · rename_i hwt
    split
    · rcases urbSendOutData_spec q u (q.vurbs u).urb.setupDma sizeofUsbCtrlrequest with
        ⟨hne, hco⟩ | ⟨hzero, hpos, element, hco⟩
      · grind
      rw [if_neg (not_not_intro hzero)]
      have hset : ∀ q' : Tq, q'.toCore =
          (q.toCore.setPipe .toDevice (q.toCore.pushed .toDevice u element)).record (.setup u) →
          (q'.modifyVurb u fun v =>
            { v with state := .controlWaitingForSetupCompletion }).toCore =
            q.toCore.sendSetup u element := by
        intro q' hq'
        simp only [modifyVurb, onCore, hq']
        rfl
      refine single ?_
      rw [hset _ hco]
      exact setup element hu hwt hcon hpos
    · exact refl
  split
  · rename_i hda
    refine Handled.then_checkStatus (urbDataUpdate_handled hu msg) hnt ?_
    rcases hda with h | h <;> rw [h] <;> decide
  · exact refl

theorem urbUpdate_steps (hu : u ∈ q.urbList) (msg : Message) : UrbSteps u q.toCore (q.urbUpdate u msg).2.toCore := by
  unfold urbUpdate
  simp only
  split
  · exact refl
  rename_i hnt
  split
  · rename_i hcon
    exact urbControlUpdate_steps hu hnt hcon msg
  · exact (urbDataUpdate_handled hu msg).steps

/-- The end of a data stage: a control request waits for its status stage, any other one ends. -/
theorem Reaction.dataDone {n : Nat} {f : VUrb → VUrb} (hac : (q.vurbs u).Accepts n)
    (hout : (q.vurbs u).dir = .toDevice → n = (q.vurbs u).submittedLength ∧
      (q.vurbs u).length ≤ ((q.vurbs u).advance n).receiveOffset)
    (hf : f (q.vurbs u) = { (q.vurbs u).advance n with
      actualLength := ((q.vurbs u).advance n).receiveOffset, state := .dataTransferComplete }) :
    Reaction u q d (if !(q.vurbs u).isControl then (-ENOENT, (q.modifyVurb u f).urbComplete u 0)
      else (0, q.modifyVurb u f)) := by
  cases hcon : (q.vurbs u).isControl with
  | false =>
    refine .ended _ 0 (show -ENOENT ≠ 0 by decide) (Final.done _ n hac hcon hout) ?_
    rw [← hf]
    rfl
  | true =>
    refine .waits _ rfl (.inr hcon) (Quiet.dataDone _ n hac hcon fun hd => (hout hd).2)
      (show dataTransferComplete ≠ _ by decide)
      (show dataTransferComplete ≠ _ by decide) ?_
    rw [← hf]
    rfl

/-- `bce_vhci_urb_data_transfer_completion` for a request that waits for a completion. -/
theorem urbDataTransferCompletion_reaction (cd : CompletionData) (hwt : (q.vurbs u).state = .waitingForCompletion) :
    Reaction u q (q.vurbs u).dir (q.urbDataTransferCompletion u cd) := by
  have hnt : (q.vurbs u).state ≠ .initPending := by
    rw [hwt]
    decide
  have hcan : (q.vurbs u).state ≠ .cancelled := by
    rw [hwt]
    decide
  obtain ⟨status, dataSize, result⟩ := cd
  unfold urbDataTransferCompletion
  simp only
  rw [if_pos hwt]
  split
  · exact Reaction.failed hnt hcan (setVurb_self ..).symm rfl (show -EOVERFLOW ≠ 0 by decide)
  have hac : (q.vurbs u).Accepts dataSize := ⟨hwt, by omega, by omega, by omega⟩
  split
  · exact Reaction.failed (v := { q.vurbs u with receiveOffset := _ }) hnt hcan rfl rfl
      (show -EIo ≠ 0 by decide)
  split
  · exact Reaction.failed (v := (q.vurbs u).advance dataSize) hnt hcan rfl rfl (show -ERemoteIo ≠ 0 by decide)
  rename_i hex
  split
  · rename_i hsh
    have hin : (q.vurbs u).dir ≠ .toDevice := by
      rw [hsh.1]
      decide
    split
    · refine .ended
        { (q.vurbs u).advance dataSize with
          actualLength := ((q.vurbs u).advance dataSize).receiveOffset } (-ERemoteIo)
        (show -ENOENT ≠ 0 by decide)
        (.failed _ _ _ rfl hnt hcan (show -ERemoteIo ≠ 0 by decide)) ?_
      rw [modifyVurb_modifyVurb]
      rfl
    · simp only [modifyVurb_modifyVurb]
      exact Reaction.dataDone hac (fun hd => absurd hd hin) rfl
  rename_i hlg
  -- a completion that is not short covers the submission
  have hsz : dataSize = (q.vurbs u).submittedLength := by
    have hle := hac.le_submitted
    cases hd : (q.vurbs u).dir with
    | toDevice => exact not_not.1 fun h => hex ⟨hd, h⟩
    | fromDevice => exact le_antisymm hle (not_lt.1 fun h => hlg ⟨hd, h⟩)
  subst hsz
  split
  · rename_i hmo
    rw [hmo.1]
    exact Reaction.of_submit hnt hcan (Prepared.continue (q.vurbs u) hac hmo.2 hmo.1.symm rfl) rfl rfl rfl
      (urbContinueIn_spec _ u)
  split
  · rename_i hmo
    rw [hmo.1]
    exact Reaction.of_submit hnt hcan (Prepared.continue (q.vurbs u) hac hmo.2 hmo.1.symm rfl) rfl rfl rfl
      (urbContinueOut_spec _ u)
  split
  · rename_i hmo
    refine .waits { (q.vurbs u).advance _ with state := .waitingForTransferRequest } rfl
      (.inl hmo.1) (Quiet.waitForWindow _ hac hmo.1 hmo.2)
      (show waitingForTransferRequest ≠ _ by decide)
      (show waitingForTransferRequest ≠ _ by decide) ?_
    rw [modifyVurb_modifyVurb]
    rfl
  · rename_i hend
    simp only [modifyVurb_modifyVurb]
    refine Reaction.dataDone hac (fun hd => ⟨rfl, ?_⟩) rfl
    exact not_lt.1 fun h => hend ⟨hd, h⟩

theorem urbDataTransferCompletion_handled (hu : u ∈ q.urbList)
    (cd : CompletionData) : Handled u q.toCore (q.urbDataTransferCompletion u cd) := by
  by_cases hwt : (q.vurbs u).state = .waitingForCompletion
  · apply (urbDataTransferCompletion_reaction cd hwt).handled hu
    rw [hwt]
    decide
  · have hno : q.urbDataTransferCompletion u cd = (0, q) := if_neg hwt
    rw [hno]
    exact Handled.refl hu 0

/-! ## Starting a request -/

/-- `bce_vhci_urb_data_start` in terms of the request: it fails, waits for the device or submits. -/
theorem urbDataStart_spec (hstr : (q.vurbs u).CanStart) :
    ((q.urbDataStart u).1 ≠ 0 ∧ ∃ stop, (q.urbDataStart u).2.toCore =
        q.toCore.setVurb u { q.vurbs u with requestEnd := stop }) ∨
      ((q.urbDataStart u).1 = 0 ∧ ∃ v, Quiet (q.vurbs u) v ∧ v.state ≠ .initPending ∧
        (q.urbDataStart u).2.toCore = q.toCore.setVurb u v) ∨
      (q.urbDataStart u).1 = 0 ∧ ∃ c v limit length,
        Prepared (q.vurbs u) v .fromDevice limit ∧ Submits q.toCore .fromDevice u v limit c ∧
        (q.urbDataStart u).2.toCore = c.record (.request u length) := by
  unfold urbDataStart
  simp only
  split
  · rename_i hdir
    refine .inr (.inl ⟨rfl, _, Quiet.startOut _ hstr hdir, ?_, rfl⟩)
    show (q.vurbs u).startState ≠ .initPending
    unfold VUrb.startState
    split <;> decide
  · rename_i hdir
    rcases urbDataTransferIn_spec q u with hfa | ⟨hzero, c, length, hsub, hco⟩
    · exact .inl hfa
    · exact .inr (.inr ⟨hzero, c, _, _, length, Prepared.start _ (.inl hstr) hdir rfl, hsub, hco⟩)

section

variable (hu : u ∈ q.urbList)
include hu

/-- `bce_vhci_urb_init` of a waiting request. -/
theorem urbInit_steps (hnt : (q.vurbs u).state = .initPending) :
    UrbSteps u q.toCore (q.urbInit u).2.toCore ∧ (q.urbInit u).2.urbList = q.urbList ∧
      ((q.urbInit u).1 ≠ 0 → ((q.urbInit u).2.vurbs u).state = .initPending) := by
  unfold urbInit
  split
  · exact ⟨refl, rfl, fun _ => hnt⟩
  rename_i hcred
  have hpos : (q.vurbs u).state = .initPending → 0 < q.remainingActiveRequests := fun _ => Nat.pos_of_ne_zero hcred
  cases hcon : (q.vurbs u).isControl with
  | true =>
    have hsp := quiet _ hu hpos (Quiet.waitForSetup _ hnt hcon)
    rw [charge_of_start _ hnt (show controlWaitingForSetupRequest ≠ _ by decide)] at hsp
    simp only [if_true, onCore]
    exact ⟨single hsp, rfl, fun h => absurd rfl h⟩
  | false =>
    rcases urbDataStart_spec (.inl ⟨hnt, hcon⟩) with
      ⟨hne, stop, hco⟩ | ⟨hzero, v, hqu, hv, hco⟩ |
      ⟨hzero, c, v, limit, length, hpr, ⟨element, n, hle, havail, rfl⟩, hco⟩
    · -- a failed start takes no credit
      have hsp := quiet _ hu hpos (Quiet.failedStart _ stop hnt hcon)
      rw [charge_self] at hsp
      simp only [Bool.false_eq_true, if_false, if_neg hne, hco]
      refine ⟨single hsp, rfl, fun _ => ?_⟩
      rw [vurbs_setVurb_self]
      exact hnt
    · have hsp := quiet v hu hpos hqu
      rw [charge_of_start _ hnt hv] at hsp
      simp only [Bool.false_eq_true, if_false, if_pos hzero, onCore, hco]
      exact ⟨single hsp, rfl, fun h => absurd hzero h⟩
    · have hsp := send _ v element limit n hu hpos hpr hle havail
      rw [charge_of_start _ hnt (show waitingForCompletion ≠ _ by decide)] at hsp
      simp only [Bool.false_eq_true, if_false, if_pos hzero, onCore, hco]
      refine ⟨(single hsp).tail (request length), ?_, fun h => absurd hzero h⟩
      exact urbList_send q.toCore .fromDevice u v element n

theorem urbControlTransferCompletion_steps (cd : CompletionData) :
    UrbSteps u q.toCore (q.urbControlTransferCompletion u cd).2.toCore := by
  unfold urbControlTransferCompletion
  simp only
  split
  · rename_i hsu
    have hnt : (q.vurbs u).state ≠ .initPending := by
      rw [hsu]
      decide
    have hcan : (q.vurbs u).state ≠ .cancelled := by
      rw [hsu]
      decide
    rcases urbDataStart_spec (.inr hsu) with
      ⟨hne, stop, hco⟩ | ⟨hzero, v, hqu, hv, hco⟩ |
      ⟨hzero, c, v, limit, length, hpr, hsub, hco⟩
    · rw [if_pos hne]
      refine single ?_
      show UrbStep u q.toCore ((q.urbDataStart u).2.toCore.urbComplete u _)
      rw [hco]
      exact complete _ _ hu (Final.failed _ _ _ rfl hnt hcan hne)
    · grind [charge_of_ne, quiet]
    · rw [if_neg (not_not_intro hzero)]
      rw [hco]
      exact (single (of_submits hu hnt hpr hsub)).tail (request length)
  split
  · rename_i hda
    apply (urbDataTransferCompletion_handled hu cd).then_checkStatus
    · rcases hda with h | h <;> rw [h] <;> decide
    · rcases hda with h | h <;> rw [h] <;> decide
  · exact refl

theorem urbTransferCompletion_steps
    (cd : CompletionData) : UrbSteps u q.toCore (q.urbTransferCompletion u cd).2.toCore := by
  unfold urbTransferCompletion
  split
  · exact urbControlTransferCompletion_steps hu cd
  · exact (urbDataTransferCompletion_handled hu cd).steps

end

/-- A completion ends a request from the device without a status stage, or makes it submit. -/
theorem urbTransferCompletion_served (cd : CompletionData) (hcon : (q.vurbs u).isControl = false)
    (hdir : (q.vurbs u).dir = .fromDevice) (hwt : (q.vurbs u).state = .waitingForCompletion) :
    Served u q.toCore (q.urbTransferCompletion u cd).2.toCore := by
  have hfun : q.urbTransferCompletion u cd = q.urbDataTransferCompletion u cd := by
    unfold urbTransferCompletion
    rw [hcon]
    rfl
  rw [hfun]
  cases urbDataTransferCompletion_reaction cd hwt with
  | ended v status _ _ hco =>
    rw [hco]
    exact Served.complete v status
  | sent v limit _ _ hurb hctl hsub =>
    obtain ⟨element, n, -, -, hco⟩ := hsub
    rw [hco, hdir]
    exact Served.send v element n hurb hctl
  | waits v _ hor => grind

theorem urbResume_steps (hu : u ∈ q.urbList) : UrbSteps u q.toCore (q.urbResume u).toCore := by
  unfold urbResume
  simp only
  split
  · exact refl
  rename_i hwt
  have hwt := not_not.1 hwt
  have hnt : (q.vurbs u).state ≠ .initPending := by
    rw [hwt]
    decide
  have hcan : (q.vurbs u).state ≠ .cancelled := by
    rw [hwt]
    decide
  split
  · rename_i hdir
    rcases urbDataTransferIn_spec q u with ⟨hne, stop, hco⟩ | ⟨hzero, c, length, hsub, hco⟩
    · rw [if_pos hne]
      refine single ?_
      show UrbStep u q.toCore ((q.urbDataTransferIn u).2.toCore.urbComplete u _)
      rw [hco]
      exact complete _ _ hu (Final.failed _ _ _ rfl hnt hcan hne)
    · rw [if_neg (not_not_intro hzero), hco]
      exact (single (of_submits hu hnt
        (Prepared.start _ (.inr hwt) hdir rfl) hsub)).tail (request length)
  · rename_i hdir
    have hsp := quiet _ hu (fun h => absurd h hnt) (Quiet.resumeOut _ hwt hdir)
    rw [charge_of_ne _ _ hnt] at hsp
    exact single hsp

end KaiT2en.Vhci
