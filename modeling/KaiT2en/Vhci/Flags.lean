import KaiT2en.Vhci.Machine

/-!
# The flags of a transfer queue

What the functions under `urb_lock` do to `active`, `stalled` and `paused_by`. `Effect` says it for
one call of a handler: the flags stay, or the queue stalls and then submits nothing in this call.
`Flagged` says it for the loops, where other calls may follow: `paused_by` stays, and a queue that
has not stalled is as active as before.
-/

namespace KaiT2en.Vhci

open KaiT2en.Kernel KaiT2en.Dma

/-- The flags of a transfer queue, with the count that goes with `stalled`. -/
structure Flags where
  active : Bool
  stalled : Bool
  stalledAt : Nat
  pausedBy : BitVec 32

/-- The flags of `q`. -/
def Tq.flags (q : Tq) : Flags := ⟨q.active, q.stalled, q.stalledAt, q.pausedBy⟩

/-- The effect of one call of a handler on the flags. -/
inductive Effect (q q' : Tq) : Prop
  | same : q'.flags = q.flags → Effect q q'
  | stalls : q'.flags = ⟨false, true, if q.stalled then q.stalledAt else q'.submissions, q.pausedBy⟩ → Effect q q'

theorem Effect.of_flags {q q₁ q' : Tq} (hfl : q₁.flags = q.flags) (h : Effect q₁ q') : Effect q q' := by
  have hstl : q₁.stalled = q.stalled := congrArg Flags.stalled hfl
  have hat : q₁.stalledAt = q.stalledAt := congrArg Flags.stalledAt hfl
  have hpaus : q₁.pausedBy = q.pausedBy := congrArg Flags.pausedBy hfl
  cases h with
  | same h => exact .same (h.trans hfl)
  | stalls h =>
    rw [hstl, hat, hpaus] at h
    exact .stalls h

namespace Tq

variable (q : Tq) (u : UrbId)

@[simp] theorem flags_onCore (f : Core → Core) : (q.onCore f).flags = q.flags := rfl

@[simp] theorem flags_modifyVurb (f : VUrb → VUrb) : (q.modifyVurb u f).flags = q.flags := rfl

@[simp] theorem flags_urbComplete (status : Int) : (q.urbComplete u status).flags = q.flags := rfl

@[simp] theorem flags_reserveMessage : q.reserveMessage.2.flags = q.flags := by
  unfold reserveMessage
  split <;> rfl

theorem flags_reserveSubmission {q' : Tq} {d : Direction} (h : q.reserveSubmission d = .ok q') :
    q'.flags = q.flags := by
  unfold reserveSubmission at h
  split at h
  · cases h
  · cases h
    rfl

theorem flags_urbPrepareInSubmission {q' : Tq} {size : Nat}
    (h : q.urbPrepareInSubmission u size = .ok q') : q'.flags = q.flags := by
  unfold urbPrepareInSubmission at h
  simp only at h
  split at h
  · cases h
    rfl
  split at h
  · cases h
    rfl
  split at h
  · cases h
  · cases h
    rfl

@[simp] theorem flags_urbContinueIn : (q.urbContinueIn u).2.flags = q.flags := by
  unfold urbContinueIn
  split
  · rfl
  rename_i q₁ hres
  have hfl := q.flags_reserveSubmission hres
  simp only
  split
  · exact hfl
  · rename_i q₂ hpr
    exact (q₁.flags_urbPrepareInSubmission u hpr).trans hfl

@[simp] theorem flags_urbDataTransferIn : (q.urbDataTransferIn u).2.flags = q.flags := by
  unfold urbDataTransferIn
  simp only
  have hmsg := q.flags_reserveMessage
  generalize q.reserveMessage.2 = q₀ at hmsg ⊢
  split
  · exact hmsg
  split
  · exact hmsg
  rename_i q₁ hres
  have hfl := (q₀.flags_reserveSubmission hres).trans hmsg
  split
  · exact hfl
  · rename_i q₂ hpr
    exact (flags_urbPrepareInSubmission _ u hpr).trans hfl

@[simp] theorem flags_urbDataStart : (q.urbDataStart u).2.flags = q.flags := by
  unfold urbDataStart
  simp only
  split
  · rfl
  · exact q.flags_urbDataTransferIn u

@[simp] theorem flags_urbSendOutData (addr size : Nat) : (q.urbSendOutData u addr size).2.flags = q.flags := by
  unfold urbSendOutData
  split
  · rfl
  · rename_i q₁ hres
    have hfl : q₁.flags = q.flags := q.flags_reserveSubmission hres
    exact hfl

theorem flags_urbSendOutTransferData {q' : Tq} {offset size n : Nat}
    (h : q.urbSendOutTransferData u offset size = .ok (q', n)) : q'.flags = q.flags := by
  unfold urbSendOutTransferData at h
  split at h
  · cases h
  rename_i q₁ hres
  have hfl := q.flags_reserveSubmission hres
  simp only at h
  split at h
  · cases h
    exact hfl
  split at h
  · cases h
    exact hfl
  split at h
  · cases h
  · cases h
    exact hfl

@[simp] theorem flags_urbContinueOut : (q.urbContinueOut u).2.flags = q.flags := by
  have hsd : ∀ offset n, (q.urbSendOut u offset n).2.flags = q.flags := by
    intro offset n
    unfold urbSendOut
    split
    · rfl
    · rename_i q₁ _ hst
      have hfl : q₁.flags = q.flags := q.flags_urbSendOutTransferData u hst
      exact hfl
  rw [urbContinueOut_eq]
  split
  · exact hsd _ _
  split
  · exact hsd _ _
  · rfl

@[simp] theorem flags_urbInit : (q.urbInit u).2.flags = q.flags := by
  unfold urbInit
  split
  · rfl
  split
  rename_i status q₁ hstr
  have hfl : q₁.flags = q.flags := by
    split at hstr
    · cases hstr
      rfl
    · have hda := q.flags_urbDataStart u
      rw [hstr] at hda
      exact hda
  split
  · exact (q₁.flags_onCore _).trans hfl
  · exact hfl

@[simp] theorem flags_urbResume : (q.urbResume u).flags = q.flags := by
  unfold urbResume
  simp only
  split
  · rfl
  split
  · split <;> exact q.flags_urbDataTransferIn u
  · rfl

@[simp] theorem submissions_urbComplete (status : Int) : (q.urbComplete u status).submissions = q.submissions := by
  show (q.toCore.urbComplete u status).sqIn.sq.submitted + (q.toCore.urbComplete u status).sqOut.sq.submitted = _
  rw [Core.sqIn_urbComplete, Core.sqOut_urbComplete]
  rfl

end Tq

/-! ## The handlers -/

/-- A call that ends with the queue stalled and has submitted nothing since. -/
theorem Effect.of_stall {q q' : Tq} (hfl : q'.flags = q.stall.flags)
    (hsub : q'.submissions = q.submissions) : Effect q q' := by
  refine .stalls ?_
  rw [hfl, hsub]
  rfl

/-- The effect of a handler that tells by its status whether the request goes on. -/
structure Handles (q : Tq) (r : Int × Tq) : Prop where
  effect : Effect q r.2
  goesOn : r.1 = 0 → r.2.flags = q.flags

namespace Handles

variable {q : Tq} {r : Int × Tq}

theorem of_flags (h : r.2.flags = q.flags) : Handles q r := ⟨.same h, fun _ => h⟩

theorem of_ended (h : Effect q r.2) (hr : r.1 ≠ 0) : Handles q r := ⟨h, fun h0 => absurd h0 hr⟩

end Handles

namespace Tq

variable (q : Tq) (u : UrbId)

theorem urbFailDataTransfer_handles (status : Int) : Handles q (q.urbFailDataTransfer u status) := by
  refine .of_ended (.of_stall ?_ ?_) (show -ENOENT ≠ 0 by decide)
  · exact flags_urbComplete _ u status
  · exact submissions_urbComplete _ u status

/-- What follows an attempt to submit that left the flags alone. -/
theorem continued_handles {q₁ : Tq} {status : Int} (h : q₁.flags = q.flags) :
    Handles q (if status ≠ 0 then q₁.urbFailDataTransfer u status else (0, q₁)) := by
  split
  · have hfa := q₁.urbFailDataTransfer_handles u status
    exact .of_ended (hfa.effect.of_flags h) (show -ENOENT ≠ 0 by decide)
  · exact .of_flags h

variable (msg : Message) (c : CompletionData)

theorem urbDataUpdate_handles : Handles q (q.urbDataUpdate u msg) := by
  unfold urbDataUpdate
  simp only
  split
  · split
    · exact .of_flags rfl
    split
    · exact q.urbFailDataTransfer_handles u _
    · exact q.continued_handles u ((flags_urbContinueOut _ u).trans (q.flags_modifyVurb u _))
  · exact .of_flags rfl

theorem urbControlCheckStatus_effect : Effect q (q.urbControlCheckStatus u).2 := by
  unfold urbControlCheckStatus
  simp only
  split
  · exact .same rfl
  split
  · split
    · split
      · exact .of_stall (flags_urbComplete _ u (-EPIPE)) (submissions_urbComplete _ u (-EPIPE))
      · refine .of_stall ?_ ?_
        · split <;> exact flags_urbComplete _ u (-EPIPE)
        · split <;> exact submissions_urbComplete _ u (-EPIPE)
    · exact .same (flags_urbComplete _ u 0)
  · exact .same rfl

theorem checkStatus_effect {r : Int × Tq} (h : Handles q r) :
    Effect q (if r.1 ≠ 0 then r else r.2.urbControlCheckStatus u).2 := by
  split
  · exact h.effect
  · rename_i hz
    exact (r.2.urbControlCheckStatus_effect u).of_flags (h.goesOn (not_not.1 hz))

theorem urbControlUpdate_effect : Effect q (q.urbControlUpdate u msg).2 := by
  unfold urbControlUpdate
  simp only
  split
  · refine Effect.of_flags ?_ (urbControlCheckStatus_effect _ u)
    rfl
  split
  · split
    · split <;> exact .same (q.flags_urbSendOutData u _ _)
    · exact .same rfl
  split
  · exact q.checkStatus_effect u (q.urbDataUpdate_handles u msg)
  · exact .same rfl

theorem urbUpdate_effect : Effect q (q.urbUpdate u msg).2 := by
  unfold urbUpdate
  simp only
  split
  · exact .same rfl
  split
  · exact q.urbControlUpdate_effect u msg
  · exact (q.urbDataUpdate_handles u msg).effect

theorem urbDataTransferCompletion_handles : Handles q (q.urbDataTransferCompletion u c) := by
  obtain ⟨status, dataSize, result⟩ := c
  by_cases hwt : (q.vurbs u).state = .waitingForCompletion
  · unfold urbDataTransferCompletion
    simp only
    rw [if_pos hwt]
    split
    · exact q.urbFailDataTransfer_handles u _
    split
    · have hfa := urbFailDataTransfer_handles (q.modifyVurb u fun v =>
        { v with receiveOffset := add32 (q.vurbs u).receiveOffset dataSize }) u (-EIo)
      exact .of_ended (hfa.effect.of_flags (q.flags_modifyVurb u _)) (show -ENOENT ≠ 0 by decide)
    set q₁ := q.modifyVurb u fun v =>
      { v with
        receiveOffset := add32 (q.vurbs u).receiveOffset dataSize
        acked := v.acked ++ [(v.receiveOffset, dataSize)] } with hq₁
    have hfl : q₁.flags = q.flags := q.flags_modifyVurb u _
    split
    · have hfa := q₁.urbFailDataTransfer_handles u (-ERemoteIo)
      exact .of_ended (hfa.effect.of_flags hfl) (show -ENOENT ≠ 0 by decide)
    split
    · split
      · exact .of_flags ((flags_urbComplete _ u _).trans hfl)
      split
      · exact .of_flags ((flags_urbComplete _ u _).trans hfl)
      · exact .of_flags hfl
    split
    · exact q.continued_handles u ((q₁.flags_urbContinueIn u).trans hfl)
    split
    · exact q.continued_handles u ((q₁.flags_urbContinueOut u).trans hfl)
    split
    · exact .of_flags hfl
    split
    · exact .of_flags ((flags_urbComplete _ u _).trans hfl)
    · exact .of_flags hfl
  · have hno : q.urbDataTransferCompletion u ⟨status, dataSize, result⟩ = (0, q) := if_neg hwt
    rw [hno]
    exact .of_flags rfl

theorem urbControlTransferCompletion_effect : Effect q (q.urbControlTransferCompletion u c).2 := by
  unfold urbControlTransferCompletion
  simp only
  split
  · split <;> exact .same (q.flags_urbDataStart u)
  split
  · exact q.checkStatus_effect u (q.urbDataTransferCompletion_handles u c)
  · exact .same rfl

theorem urbTransferCompletion_effect : Effect q (q.urbTransferCompletion u c).2 := by
  unfold urbTransferCompletion
  split
  · exact q.urbControlTransferCompletion_effect u c
  · exact (q.urbDataTransferCompletion_handles u c).effect

end Tq

/-! ## The loops -/

/-- What a section under `urb_lock` does to the flags unless it restarts the queue. -/
structure Flagged (q q' : Tq) : Prop where
  pausedBy : q'.pausedBy = q.pausedBy
  inactive : q.active = false → q'.active = false
  unstalled : q'.stalled = false → q.stalled = false ∧ q'.active = q.active

namespace Flagged

variable {q q₁ q' : Tq}

theorem of_flags (h : q'.flags = q.flags) : Flagged q q' := by
  have hact : q'.active = q.active := congrArg Flags.active h
  have hstl : q'.stalled = q.stalled := congrArg Flags.stalled h
  exact ⟨congrArg Flags.pausedBy h, hact.trans, fun hs => ⟨hstl ▸ hs, hact⟩⟩

theorem refl : Flagged q q := of_flags rfl

theorem trans (h : Flagged q q₁) (h' : Flagged q₁ q') : Flagged q q' where
  pausedBy := h'.pausedBy.trans h.pausedBy
  inactive := fun hq => h'.inactive (h.inactive hq)
  unstalled := fun hq' =>
    have hq₁ := h'.unstalled hq'
    have hq := h.unstalled hq₁.1
    ⟨hq.1, hq₁.2.trans hq.2⟩

theorem of_effect (h : Effect q q') : Flagged q q' := by
  cases h with
  | same h => exact of_flags h
  | stalls h =>
    have hstl : q'.stalled := congrArg Flags.stalled h
    refine ⟨congrArg Flags.pausedBy h, fun _ => congrArg Flags.active h, fun hs => ?_⟩
    rw [hstl] at hs
    cases hs

end Flagged

namespace Tq

theorem initPendingUrbsLoop_flagged : ∀ (l : List UrbId) (q : Tq), Flagged q (initPendingUrbsLoop l q)
  | [], q => .refl
  | u :: rest, q => by
    unfold initPendingUrbsLoop
    split
    · exact .refl
    split
    · exact (Flagged.of_flags (q.flags_urbInit u)).trans (initPendingUrbsLoop_flagged rest _)
    · exact initPendingUrbsLoop_flagged rest q

theorem deliverPendingLoop_flagged : ∀ (evq : List Message) (q : Tq), Flagged q (deliverPendingLoop evq q)
  | [], q => .of_flags rfl
  | msg :: evq, q => by
    unfold deliverPendingLoop
    split
    · exact .of_flags rfl
    rename_i u _ _
    have hupd := Flagged.of_effect (q.urbUpdate_effect u msg)
    simp only
    split
    · exact hupd.trans (.of_flags rfl)
    · exact hupd.trans (deliverPendingLoop_flagged evq _)

variable (q : Tq) (d : Direction)

theorem deliverPending_flagged : Flagged q q.deliverPending :=
  (deliverPendingLoop_flagged q.evq q).trans (initPendingUrbsLoop_flagged _ _)

theorem deferEvent_flagged (kmalloc : Bool) (msg : Message) : Flagged q (q.deferEvent kmalloc msg) := by
  unfold deferEvent
  split <;> exact .of_flags rfl

theorem transferQueueEvent_flagged (kmalloc : Bool) (msg : Message) :
    Flagged q (q.transferQueueEvent kmalloc msg) := by
  unfold transferQueueEvent
  split
  · split
    · exact q.deferEvent_flagged kmalloc msg
    · exact .refl
  have hdel := q.deliverPending_flagged
  simp only
  split
  · exact hdel.trans (deferEvent_flagged _ kmalloc msg)
  split
  · exact hdel
  rename_i u _ _
  have hupd := hdel.trans (Flagged.of_effect (urbUpdate_effect _ u msg))
  split
  · exact hupd.trans (deferEvent_flagged _ kmalloc msg)
  · exact hupd.trans (initPendingUrbsLoop_flagged _ _)

theorem flags_outPendingDone : (q.outPendingDone d).flags = q.flags := by cases d <;> rfl

theorem handleCompletion_flagged (c : CompletionData) :
    Flagged q (q.handleCompletion d c) := by
  unfold handleCompletion
  split
  · exact .of_flags (q.flags_outPendingDone d)
  split
  · exact .of_flags (q.flags_outPendingDone d)
  · rename_i u _ _
    exact (Flagged.of_effect (q.urbTransferCompletion_effect u c)).trans (.of_flags (flags_outPendingDone _ d))

theorem completionLoop_flagged (d : Direction) : ∀ (fuel : Nat) (q : Tq), Flagged q (completionLoop d fuel q)
  | 0, q => .refl
  | fuel + 1, q => by
    unfold completionLoop
    split
    · exact .refl
    rename_i c q₁ hnx
    obtain ⟨r, -, hr⟩ := Option.map_eq_some_iff.1 hnx
    cases hr
    exact (Flagged.of_flags (q.flags_onCore _)).trans
      ((handleCompletion_flagged _ d _).trans (completionLoop_flagged d fuel _))

theorem transferQueueCompletion_flagged : Flagged q (q.transferQueueCompletion d) :=
  (completionLoop_flagged d _ q).trans (deliverPending_flagged _)

theorem resumeLoop_flagged : ∀ (l : List UrbId) (q : Tq), Flagged q (resumeLoop l q)
  | [], q => .refl
  | u :: rest, q => by
    unfold resumeLoop
    split
    · split
      · exact .refl
      · exact (Flagged.of_flags (q.flags_urbInit u)).trans (resumeLoop_flagged rest _)
    · exact (Flagged.of_flags (q.flags_urbResume u)).trans (resumeLoop_flagged rest _)

theorem restart_flagged : Flagged { q with active := true } q.restart :=
  (resumeLoop_flagged _ _).trans (deliverPending_flagged _)

theorem restoreActive_flagged : Flagged { q with active := true } q.restoreActive := deliverPending_flagged _

theorem urbCreate_flagged (v : VUrb) (link : Int) : Flagged q (q.urbCreate v link) := by
  have hstr : ∀ q₁ : Tq, (if q₁.active then if q₁.canInitUrb then q₁.urbInit q.nextUrb else (0, q₁)
      else (0, if q₁.stalled then q₁.requestReset else q₁)).2.flags = q₁.flags := by
    intro q₁
    split
    · split
      · exact q₁.flags_urbInit _
      · rfl
    · split <;> rfl
  have hend : ∀ r : Int × Tq, r.2.flags = q.flags → Flagged q
      (if r.1 ≠ 0 then r.2.onCore fun c => c.urbReject q.nextUrb else r.2.deliverPending) := by
    intro r hfl
    split
    · exact .of_flags hfl
    · exact (Flagged.of_flags hfl).trans r.2.deliverPending_flagged
  unfold urbCreate
  split
  · exact .refl
  · have hcreat := hend _ (hstr (q.onCore fun c => c.usbHcdLinkUrbToEp v))
    exact hcreat

theorem urbRequestCancel_flagged (u : UrbId) (status : Int) : Flagged q (q.urbRequestCancel u status) := by
  unfold urbRequestCancel
  split
  · exact .refl
  split
  · exact .refl
  · simp only
    split <;> exact .of_flags rfl

end Tq

end KaiT2en.Vhci
