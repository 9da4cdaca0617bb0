import KaiT2en.Vhci.UrbSimulation

/-!
# The actions of the machine as steps

The loops over the queue and the actions of `tqMachine` are sequences of the steps of `CoreStep`
(`System.next_steps`). `System.invariant` is the rule for invariants that follows: it asks for one
argument for each step.
-/

namespace KaiT2en.Vhci

open KaiT2en.Kernel KaiT2en.Dma KaiT2en.Lib.Transition List Relation Core ReflTransGen CoreStep System Tq

/-! ## Loops -/

variable {c c' : Core} {u : UrbId}

theorem UrbSteps.coreSteps (h : UrbSteps u c c') : CoreSteps c c' := h.lift id fun _ _ => urb u

/-- A request can only remove itself from the list. -/
theorem UrbStep.urbList_eq (h : UrbStep u c c') :
    (c'.urbList = c.urbList ∨ c'.urbList = c.urbList.erase u) ∧ c'.nextUrb = c.nextUrb := by
  cases h with
  | latch _ | setup _ | request _ => exact ⟨.inl rfl, rfl⟩
  | quiet v =>
    unfold Core.charge
    split <;> exact ⟨.inl rfl, rfl⟩
  | send d v element limit n =>
    unfold Core.charge
    cases d <;> split <;> exact ⟨.inl rfl, rfl⟩
  | complete v status => exact ⟨.inr (urbList_urbComplete ..), nextUrb_urbComplete ..⟩

/-- The other requests stay in the list. -/
theorem UrbSteps.mem_urbList {u w : UrbId} (h : UrbSteps u c c') (hne : w ≠ u)
    (hw : w ∈ c.urbList) : w ∈ c'.urbList := by
  refine steps_preserve (I := fun c => w ∈ c.urbList) ?_ h hw
  intro c c' hw hsp
  rcases hsp.urbList_eq.1 with heq | heq
  · rw [heq]
    exact hw
  · rw [heq]
    exact (mem_erase_of_ne hne).2 hw

theorem initPendingUrbsLoop_steps : ∀ (l : List UrbId) (q : Tq), (∀ u ∈ l, u ∈ q.urbList) →
      CoreSteps q.toCore (initPendingUrbsLoop l q).toCore
  | [], _, _ => refl
  | u :: rest, q, hl => by
    have hrs : ∀ w ∈ rest, w ∈ q.urbList := fun w hw => hl w (mem_cons_of_mem _ hw)
    unfold initPendingUrbsLoop
    split
    · exact refl
    split
    · rename_i hin
      obtain ⟨hsts, hls, -⟩ := urbInit_steps (hl u mem_cons_self) hin
      refine hsts.coreSteps.trans (initPendingUrbsLoop_steps rest _ ?_)
      rw [hls]
      exact hrs
    · exact initPendingUrbsLoop_steps rest q hrs

theorem initPendingUrbs_steps (q : Tq) : CoreSteps q.toCore q.initPendingUrbs.toCore :=
  initPendingUrbsLoop_steps q.urbList q fun _ h => h

theorem deliverPendingLoop_steps : ∀ (l : List Message) (q : Tq), CoreSteps q.toCore (deliverPendingLoop l q).toCore
  | [], _ => refl
  | msg :: rest, q => by
    unfold deliverPendingLoop
    split
    · exact refl
    rename_i u _ hls
    have hsts : UrbSteps u q.toCore (q.urbUpdate u msg).2.toCore := by
      apply urbUpdate_steps
      rw [hls]
      exact mem_cons_self
    simp only
    split
    · exact hsts.coreSteps
    · exact hsts.coreSteps.trans (deliverPendingLoop_steps rest _)

theorem deliverPending_steps (q : Tq) : CoreSteps q.toCore q.deliverPending.toCore :=
  (deliverPendingLoop_steps q.evq q).trans (initPendingUrbs_steps _)

theorem toCore_deferEvent (q : Tq) (kmalloc : Bool) (msg : Message) : (q.deferEvent kmalloc msg).toCore = q.toCore := by
  unfold deferEvent
  split <;> rfl

theorem transferQueueEvent_steps (q : Tq) (kmalloc : Bool) (msg : Message) :
    CoreSteps q.toCore (q.transferQueueEvent kmalloc msg).toCore := by
  unfold transferQueueEvent
  split
  · split
    · rw [toCore_deferEvent]
    · exact refl
  refine (deliverPending_steps q).trans ?_
  simp only
  generalize q.deliverPending = q
  split
  · rw [toCore_deferEvent]
  split
  · exact refl
  rename_i u _ hls
  have hsts : UrbSteps u q.toCore (q.urbUpdate u msg).2.toCore := by
    apply urbUpdate_steps
    rw [hls]
    exact mem_cons_self
  refine hsts.coreSteps.trans ?_
  split
  · rw [toCore_deferEvent]
  · exact initPendingUrbs_steps _

theorem toCore_outPendingDone (q : Tq) (d : Direction) : (q.outPendingDone d).toCore = q.toCore := by cases d <;> rfl

variable {q : Tq}

/-- One completion that the loop of `bce_vhci_transfer_queue_completion` reads. -/
theorem handleCompletion_step {d : Direction} {cd : CompletionData} {sq : Sq Entry}
    (hnx : (q.pipe d).sq.nextCompletion = some (cd, sq)) :
    CoreStep q.toCore ((q.onCore fun c => c.take d cd sq).handleCompletion d cd).toCore := by
  unfold Tq.handleCompletion
  split
  · rename_i habor
    simp only [Tq.notifySubmissionComplete, Tq.onCore, toCore_outPendingDone]
    exact takeAborted d hnx habor
  rename_i habor
  have hls : (q.toCore.take d cd sq).urbList = q.urbList := urbList_setPipe ..
  have hvs : (q.toCore.take d cd sq).vurbs = q.vurbs := vurbs_setPipe ..
  split
  · rename_i hemp
    rw [toCore_outPendingDone]
    exact takeEmpty d hnx habor (hls.symm.trans hemp)
  rename_i u rest hcn
  simp only [Tq.notifySubmissionComplete, Tq.onCore, toCore_outPendingDone]
  refine consume d u hnx habor (hls.symm.trans hcn) ?_ ?_
  · apply urbTransferCompletion_steps (q := q.onCore fun c => c.take d cd sq)
    rw [hcn]
    exact mem_cons_self
  · intro hctl hdir hwt
    rw [← hvs] at hctl hdir hwt
    exact urbTransferCompletion_served (q := q.onCore fun c => c.take d cd sq) cd hctl
      hdir hwt

theorem completionLoop_steps (d : Direction) :
    ∀ (fuel : Nat) (q : Tq), CoreSteps q.toCore (completionLoop d fuel q).toCore
  | 0, _ => refl
  | fuel + 1, q => by
    unfold completionLoop nextCompletion
    cases hnx : (q.pipe d).sq.nextCompletion with
    | none => exact refl
    | some r => exact (completionLoop_steps d fuel _).head (handleCompletion_step hnx)

theorem transferQueueCompletion_steps (q : Tq) (d : Direction) :
    CoreSteps q.toCore (q.transferQueueCompletion d).toCore :=
  (completionLoop_steps d _ q).trans (deliverPending_steps _)

theorem resumeLoop_steps : ∀ (l : List UrbId) (q : Tq), l.Nodup → (∀ u ∈ l, u ∈ q.urbList) →
      CoreSteps q.toCore (resumeLoop l q).toCore
  | [], _, _, _ => refl
  | u :: rest, q, hnd, hl => by
    have hrs : ∀ w ∈ rest, w ∈ q.urbList := fun w hw => hl w (mem_cons_of_mem _ hw)
    obtain ⟨hfst, hnd⟩ := nodup_cons.1 hnd
    unfold resumeLoop
    split
    · rename_i hin
      split
      · exact refl
      obtain ⟨hsts, hls, -⟩ := urbInit_steps (hl u mem_cons_self) hin
      refine hsts.coreSteps.trans (resumeLoop_steps rest _ hnd ?_)
      rw [hls]
      exact hrs
    -- a request that cannot be resumed leaves the list, the others stay
    have hsts := urbResume_steps (hl u mem_cons_self)
    refine hsts.coreSteps.trans (resumeLoop_steps rest _ hnd ?_)
    intro w hw
    exact hsts.mem_urbList (fun h => hfst (h ▸ hw)) (hrs w hw)

/-- The section of `bce_vhci_transfer_queue_do_resume` under `urb_lock`. -/
theorem restart_steps (hnd : q.urbList.Nodup) : CoreSteps q.toCore q.restart.toCore :=
  (resumeLoop_steps q.urbList { q with active := true } hnd fun _ h => h).trans
    (deliverPending_steps _)

/-! ## Actions of the machine -/

/-- `bce_vhci_urb_create` for a request that the driver has built. -/
theorem urbCreate_steps {urb : Urb} {sgList : Option SegmentList} {link : Int}
    (hsq : q.endp.hasSq urb.dir) (hbu : urb.xferBulk = q.endp.xferBulk) :
    CoreSteps q.toCore (q.urbCreate (VUrb.fresh urb q.endp.isControl sgList) link).toCore := by
  unfold urbCreate
  split
  · exact refl
  refine head (CoreStep.link urb sgList hsq hbu) ?_
  simp only
  -- from here on only the linked request matters
  set q1 : Tq := q.onCore fun c => c.usbHcdLinkUrbToEp (VUrb.fresh urb q.endp.isControl sgList) with hq1
  have hu : q.nextUrb ∈ q1.urbList := mem_append_right _ mem_cons_self
  have hin : (q1.vurbs q.nextUrb).state = .initPending := by
    have hv : q1.vurbs q.nextUrb = VUrb.fresh urb q.endp.isControl sgList := Function.update_self ..
    rw [hv]
    rfl
  show CoreSteps q1.toCore _
  split
  · split
    · obtain ⟨hsts, hls, hfa⟩ := urbInit_steps hu hin
      refine hsts.coreSteps.trans ?_
      split
      · rename_i hne
        refine single (CoreStep.reject q.nextUrb ?_ (hfa hne))
        rw [hls]
        exact hu
      · exact deliverPending_steps _
    · exact deliverPending_steps _
  · split
    · exact deliverPending_steps q1.requestReset
    · exact deliverPending_steps _

theorem urbRequestCancel_steps (q : Tq) (u : UrbId) (status : Int) :
    CoreSteps q.toCore (q.urbRequestCancel u status).toCore := by
  unfold urbRequestCancel
  split
  · exact refl
  rename_i hu
  split
  · exact refl
  refine head (checkUnlink u status) ?_
  simp only
  split
  · exact refl
  · rename_i hsta
    exact single (mark u status (not_not.1 hu) hsta)

theorem urbNew_ok {urb : Urb} {o : CreateOutcome} {v : VUrb}
    (h : q.urbNew urb o = .ok v) : ∃ sgList, v = VUrb.fresh urb q.endp.isControl sgList := by
  unfold urbNew at h
  split at h
  · cases h
  split at h
  · cases h
    exact ⟨none, rfl⟩
  split at h
  · cases h
  · rename_i list _
    cases h
    exact ⟨some list, rfl⟩

namespace System

theorem unlock_steps {c : Core} {s : System} (worker : Bool) (h : CoreSteps c s.toCore) :
    CoreSteps c (s.unlock worker).toCore := by
  cases worker with
  | false => exact h
  | true => exact h.tail goOn

theorem pause_steps (s : System) (src : BitVec 32) (worker : Bool) :
    CoreSteps s.toCore (s.pause src worker).toCore := by
  unfold pause
  split
  · exact unlock_steps worker refl
  split
  · exact refl
  · exact unlock_steps worker refl

theorem resume_steps (s : System) (src : BitVec 32) (worker : Bool) :
    CoreSteps s.toCore (s.resume src worker).toCore := by
  unfold resume
  split
  · exact unlock_steps worker refl
  split
  · exact refl
  · exact unlock_steps worker refl

theorem flushQueue_steps (s : System) (d : Direction) (o : Outcome) : CoreSteps s.toCore (s.flushQueue d o).toCore := by
  unfold flushQueue
  split
  · exact single (flush d)
  · exact refl

theorem afterFlush_steps (s : System) (op : PauseOp) (d : Direction) :
    CoreSteps s.toCore (s.afterFlush op d).toCore := by
  cases d with
  | fromDevice => exact refl
  | toDevice =>
    unfold afterFlush
    cases op.call with
    | pause _ | resume _ => exact unlock_steps op.worker refl
    | reset => exact refl

variable {s t : System}

theorem pauseStep_steps {op : PauseOp} {o : Outcome} (hnd : s.urbList.Nodup)
    (h : s.pauseStep op o = some t) : CoreSteps s.toCore t.toCore := by
  unfold pauseStep at h
  cases hst : op.stage with
  | mark | removePending | resetCommand =>
    simp only [hst, Option.some.injEq] at h
    subst h
    exact refl
  | drain =>
    simp only [hst] at h
    split at h
    · split at h
      · cases h
      · cases h
        exact refl
    · cases h
      exact refl
  | setPaused =>
    simp only [hst] at h
    split at h <;> cases h <;> exact refl
  | flush d =>
    simp only [hst] at h
    split at h
    · split at h
      · cases h
        exact flushQueue_steps s d o
      · cases h
        exact (flushQueue_steps s d o).trans (afterFlush_steps _ op d)
    · cases h
      exact afterFlush_steps s op d
  | restoreActive =>
    simp only [hst, Option.some.injEq] at h
    subst h
    exact unlock_steps op.worker (deliverPending_steps { s.toTq with active := true })
  | setActive =>
    simp only [hst] at h
    split at h
    · cases h
      exact unlock_steps op.worker refl
    · cases h
      exact refl
  | restart =>
    simp only [hst] at h
    split at h <;> cases h <;> exact unlock_steps op.worker (restart_steps hnd)

/-- The request that the cancel worker holds is at the stage of its action. -/
theorem onHeld_some {stage : HeldStage} {f : Held → Option System} (h : s.onHeld stage f = some t) :
    ∃ held, s.held = some held ∧ held.stage = stage ∧ f held = some t := by
  unfold onHeld at h
  split at h
  · rename_i held hhe
    split at h
    · rename_i hst
      exact ⟨held, hhe, hst, h⟩
    · cases h
  · cases h

theorem workerCall_steps {s t call : System} {held : Held}
    (hca : CoreSteps s.toCore call.toCore) (h : s.workerCall held call = some t) :
    CoreSteps s.toCore t.toCore := by
  unfold workerCall at h
  split at h
  · split at h
    · cases h
    · cases h
      exact hca
  · cases h
    exact single goOn

theorem cancelStep_steps {a : Action} (h : s.cancelStep a = some t) : CoreSteps s.toCore t.toCore := by
  cases a with
  | cancelPick =>
    simp only [cancelStep] at h
    split at h
    · rename_i hdl
      split at h
      · cases h
        exact refl
      · rename_i u rest hls
        cases h
        exact single (pick u hdl.2 hls)
    · cases h
  | cancelPause =>
    obtain ⟨held, -, -, h⟩ := onHeld_some h
    exact workerCall_steps (pause_steps s _ true) h
  | cancelUnlink =>
    obtain ⟨held, hhe, hst, h⟩ := onHeld_some h
    cases h
    exact single (unlink held hhe hst)
  | cancelResume =>
    obtain ⟨held, -, -, h⟩ := onHeld_some h
    exact workerCall_steps (resume_steps s _ true) h
  | cancelGiveback =>
    obtain ⟨held, hhe, hst, h⟩ := onHeld_some h
    cases h
    exact single (give held hhe hst)
  | cancelFree =>
    obtain ⟨held, hhe, hst, h⟩ := onHeld_some h
    cases h
    exact single (free held hhe hst)
  | _ => cases h

theorem next_steps {a : Action} (hnd : s.urbList.Nodup) (h : s.next a = some t) : CoreSteps s.toCore t.toCore := by
  cases a with
  | enqueue urb o =>
    simp only [next] at h
    split at h
    · rename_i hendp
      split at h
      · cases h
        exact refl
      rename_i v hv
      obtain ⟨sgList, rfl⟩ := urbNew_ok hv
      cases h
      exact urbCreate_steps hendp.1 hendp.2
    · cases h
  | dequeue u status =>
    cases h
    exact urbRequestCancel_steps s.toTq u status
  | event kmalloc msg =>
    cases h
    exact transferQueueEvent_steps s.toTq kmalloc msg
  | post d e =>
    simp only [next] at h
    split at h
    · rename_i hpn
      cases h
      exact single (post d e hpn)
    · cases h
  | completion d =>
    cases h
    exact transferQueueCompletion_steps s.toTq d
  | giveback =>
    simp only [next] at h
    split at h
    · cases h
    · rename_i u rest hls
      cases h
      exact single (pop u hls)
  | pause src =>
    simp only [next] at h
    split at h
    · cases h
    · cases h
      exact pause_steps s src false
  | resume src =>
    simp only [next] at h
    split at h
    · cases h
    · cases h
      exact resume_steps s src false
  | reset =>
    simp only [next] at h
    split at h
    · cases h
    · cases h
      unfold reset
      split <;> exact refl
  | resetResume =>
    simp only [next] at h
    split at h
    · cases h
    · cases h
      exact resume_steps { s with resetResume := false } _ false
  | pauseStep o =>
    simp only [next] at h
    split at h
    · cases h
    · exact pauseStep_steps hnd h
  | firmwareStalled =>
    cases h
    dsimp only
    split <;> exact refl
  | endpointReset | setDmaAvailable _ | setAsyncReservations _ =>
    cases h
    exact refl
  | cancelPick => exact cancelStep_steps (a := .cancelPick) h
  | cancelPause => exact cancelStep_steps (a := .cancelPause) h
  | cancelUnlink => exact cancelStep_steps (a := .cancelUnlink) h
  | cancelResume => exact cancelStep_steps (a := .cancelResume) h
  | cancelGiveback => exact cancelStep_steps (a := .cancelGiveback) h
  | cancelFree => exact cancelStep_steps (a := .cancelFree) h

end System

/-! ## Well-formed queues -/

/-- No request is linked twice, and new requests get new numbers. -/
structure Core.WellFormed (c : Core) : Prop where
  nodup : c.urbList.Nodup
  lt_next : ∀ u ∈ c.urbList, u < c.nextUrb

namespace Core.WellFormed

variable {c c' : Core}

section

variable (h : c.WellFormed)
include h

theorem of_erase {u : UrbId} (hls : c'.urbList = c.urbList ∨ c'.urbList = c.urbList.erase u)
    (hnx : c'.nextUrb = c.nextUrb) : c'.WellFormed := by
  rcases hls with heq | heq
  · exact ⟨heq ▸ h.nodup, fun w hw => hnx ▸ h.lt_next w (heq ▸ hw)⟩
  · refine ⟨heq ▸ h.nodup.erase u, fun w hw => ?_⟩
    rw [heq] at hw
    exact hnx ▸ h.lt_next w (mem_of_mem_erase hw)

theorem urbSteps {u : UrbId} (hsts : UrbSteps u c c') : c'.WellFormed :=
  steps_preserve (fun _ _ hc hsp => hc.of_erase hsp.urbList_eq.1 hsp.urbList_eq.2) hsts h

theorem take (d : Direction) (cd : CompletionData) (sq : Sq Entry) : (c.take d cd sq).WellFormed := by
  cases d <;> exact ⟨h.nodup, h.lt_next⟩

theorem step (hsp : CoreStep c c') : c'.WellFormed := by
  have hpp : ∀ (c : Core) (d : Direction) (p : Pipe), c.WellFormed → (c.setPipe d p).WellFormed := by
    intro c d p h
    cases d <;> exact ⟨h.nodup, h.lt_next⟩
  cases hsp with
  | urb u hurb => exact h.of_erase hurb.urbList_eq.1 hurb.urbList_eq.2
  | post _ _ | flush _ => exact hpp _ _ _ h
  | takeAborted d => exact hpp _ _ _ (h.take ..)
  | takeEmpty d => exact h.take ..
  | consume d u _ _ _ hsts => exact hpp _ _ _ ((h.take ..).urbSteps hsts)
  | link urb sgList =>
    refine ⟨?_, fun w hw => ?_⟩
    · refine nodup_append.2 ⟨h.nodup, nodup_singleton _, ?_⟩
      intro a ha b hb
      have hlt := h.lt_next a ha
      rw [mem_singleton.1 hb]
      exact hlt.ne
    · rcases mem_append.1 hw with hw | hw
      · exact (h.lt_next w hw).trans (Nat.lt_succ_self _)
      · rw [mem_singleton.1 hw]
        exact Nat.lt_succ_self _
  | reject u => exact h.of_erase (u := u) (.inr rfl) rfl
  | checkUnlink _ _ | pick _ | goOn | give _ | free _ | pop _ => exact ⟨h.nodup, h.lt_next⟩
  | mark u status =>
    unfold Core.urbMarkCancelled
    simp only
    split <;> exact ⟨h.nodup, h.lt_next⟩
  | unlink held => exact h.of_erase (u := held.urb) (.inr (urbList_cancelUnlink ..)) (nextUrb_cancelUnlink ..)

end

end Core.WellFormed

/-! ## The history -/

theorem UrbStep.log_suffix (h : UrbStep u c c') : c.log <:+ c'.log := by
  cases h with
  | latch _ | setup _ | request _ => exact suffix_cons _ _
  | quiet v =>
    rw [log_charge]
    exact suffix_rfl
  | send d v element limit n =>
    rw [log_charge, log_send]
    exact suffix_cons _ _
  | complete v status =>
    rw [log_urbComplete]
    exact suffix_append [_, _, _] _

theorem UrbSteps.log_suffix (h : UrbSteps u c c') : c.log <:+ c'.log :=
  steps_preserve (I := fun c' => c.log <:+ c'.log) (fun _ _ hc hsp => hc.trans hsp.log_suffix) h
    suffix_rfl

theorem CoreStep.log_suffix (h : CoreStep c c') : c.log <:+ c'.log := by
  have hpp : ∀ (c : Core) (d : Direction) (p : Pipe), c.log <:+ (c.setPipe d p).log := by
    intro c d p
    rw [log_setPipe]
  have htk : ∀ (d : Direction) (cd : CompletionData) (sq : Sq Entry), c.log <:+ (c.take d cd sq).log := by
    intro d cd sq
    exact (hpp ..).trans (suffix_cons _ _)
  cases h with
  | urb u hurb => exact hurb.log_suffix
  | post _ _ | flush _ => exact hpp ..
  | takeAborted d => exact (htk ..).trans (hpp ..)
  | takeEmpty d => exact htk ..
  | consume d u _ _ _ hsts => exact ((htk ..).trans (UrbSteps.log_suffix hsts)).trans (hpp ..)
  | link _ _ | checkUnlink _ _ | pick _ | goOn => exact suffix_rfl
  | reject u => exact suffix_append [_, _] _
  | mark u status =>
    unfold Core.urbMarkCancelled
    simp only
    split <;> exact suffix_rfl
  | unlink held =>
    rw [log_cancelUnlink]
    exact suffix_cons _ _
  | give _ | free _ | pop _ => exact suffix_cons _ _

/-! ## The endpoint -/

theorem UrbStep.endp_eq (h : UrbStep u c c') : c'.endp = c.endp := by
  cases h with
  | latch _ | setup _ | request _ => rfl
  | quiet v => rw [endp_charge, endp_setVurb]
  | send d v element limit n => rw [endp_charge, endp_send]
  | complete v status => rw [endp_urbComplete, endp_setVurb]

theorem CoreStep.endp_eq (h : CoreStep c c') : c'.endp = c.endp := by
  have htk : ∀ (d : Direction) (cd : CompletionData) (sq : Sq Entry),
      (c.take d cd sq).endp = c.endp := fun d cd sq => c.endp_setPipe d _
  cases h with
  | urb u hurb => exact hurb.endp_eq
  | post d e | flush d => exact c.endp_setPipe d _
  | takeAborted d => exact (endp_setPipe _ d _).trans (htk d _ _)
  | takeEmpty d => exact htk d _ _
  | consume d u _ _ _ hsts =>
    refine (endp_setPipe _ d _).trans ?_
    exact steps_preserve (I := fun c' => c'.endp = c.endp)
      (fun _ _ hc hsp => hsp.endp_eq.trans hc) hsts (htk d _ _)
  | link _ _ | reject _ | checkUnlink _ _ | pick _ | goOn | give _ | free _ | pop _ => rfl
  | mark u status => exact endp_urbMarkCancelled ..
  | unlink held => exact endp_cancelUnlink ..

/-! ## The invariant rule -/

variable {I : Core → Prop}

/-- The invariant rule: what holds of a new queue and is kept by every step holds in every run. -/
theorem System.invariant (hin : ∀ endp, I (Core.create endp))
    (hsp : ∀ c c', c.WellFormed → I c → CoreStep c c' → I c') {s : System}
    (h : tqMachine.Reachable s) : I s.toCore := by
  have hboth : s.toCore.WellFormed ∧ I s.toCore := by
    refine h.invariant (I := fun s => s.toCore.WellFormed ∧ I s.toCore) ?_ ?_
    · rintro s ⟨endp, rfl⟩
      exact ⟨⟨nodup_nil, fun u hu => absurd hu not_mem_nil⟩, hin endp⟩
    · intro s a t _ _ hs hnx
      refine steps_preserve (I := fun c => c.WellFormed ∧ I c) ?_
        (next_steps hs.1.nodup hnx) hs
      exact fun c c' hc hcst => ⟨hc.1.step hcst, hsp c c' hc.1 hc.2 hcst⟩
  exact hboth.2

/-- The invariant rule under a condition on the history that every shorter history meets as well. -/
theorem System.guarded_invariant {G : List Event → Prop} (hG : ∀ l l', l <:+ l' → G l' → G l)
    (hin : ∀ endp, I (Core.create endp)) (hsp : ∀ c c', c.WellFormed → G c'.log → I c → CoreStep c c' → I c')
    {s : System} (h : tqMachine.Reachable s) (hs : G s.log) : I s.toCore := by
  refine invariant (I := fun c => G c.log → I c) (fun endp _ => hin endp) ?_ h hs
  intro c c' hwf hc hcst hlog
  exact hsp c c' hwf hlog (hc (hG _ _ hcst.log_suffix hlog)) hcst

/-- The same rule for the steps of one request. -/
theorem UrbSteps.guarded_invariant {G : List Event → Prop} (hG : ∀ l l', l <:+ l' → G l' → G l)
    (hsp : ∀ c c', c.WellFormed → G c'.log → I c → UrbStep u c c' → I c')
    (h : UrbSteps u c c') (hwf : c.WellFormed) (hlog : G c'.log) (hc : I c) : I c' := by
  have hboth : c'.WellFormed ∧ (G c'.log → I c') := by
    refine steps_preserve (I := fun c => c.WellFormed ∧ (G c.log → I c)) ?_ h ⟨hwf, fun _ => hc⟩
    intro c c' hc hurb
    refine ⟨hc.1.of_erase hurb.urbList_eq.1 hurb.urbList_eq.2, fun hlog => ?_⟩
    exact hsp c c' hc.1 hlog (hc.2 (hG _ _ hurb.log_suffix hlog)) hurb
  exact hboth.2 hlog

/-- In every run the shared part of a queue is one that a new queue reaches by `CoreStep`, and no request is linked
twice. -/
theorem queue_refines_core {s : System} (h : tqMachine.Reachable s) :
    CoreSteps (Core.create s.endp) s.toCore ∧ s.urbList.Nodup := by
  refine System.invariant (I := fun c => CoreSteps (Core.create c.endp) c ∧ c.urbList.Nodup)
    (fun endp => ⟨refl, nodup_nil⟩) ?_ h
  intro c c' hwf hc hcst
  rw [hcst.endp_eq]
  exact ⟨hc.1.tail hcst, (hwf.step hcst).nodup⟩

theorem queue_refines_core_enqueued : ∃ s, tqMachine.Reachable s ∧ s.urbList = [0] ∧
    CoreSteps (Core.create s.endp) s.toCore := by
  obtain ⟨s, hs, hli⟩ := Machine.exists_of_run (M := tqMachine) (P := fun s => s.urbList = [0])
    [.enqueue ⟨.fromDevice, 18, 0x1000, 0x2000, false, false, [], by decide⟩ ⟨true, true, none, 0⟩] ⟨.control, rfl⟩
    (by decide)
  exact ⟨s, hs, hli, (queue_refines_core hs).1⟩

end KaiT2en.Vhci
