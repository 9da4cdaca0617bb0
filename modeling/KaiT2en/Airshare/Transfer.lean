import KaiT2en.Airshare.Loopback

/-!
# Whole transfers

The invariant of the loopback machine, and what follows from it for smooth runs: the sender returns only
`Sent` and the receiver only `Received` with the files that were sent (`Inv.safe`), until both have returned
some step other than a keep-alive is possible (`Inv.progress`), and there are not many of these steps
(`Inv.length_le`).
-/

namespace KaiT2en.Airshare.Loopback

open KaiT2en.Lib.Encoding KaiT2en.Lib.Transition KaiT2en.Lib.Fifo List Option Nat
open Send Receive

/-- The queues lead from what the readers have seen to what the writers have written. -/
structure Inv (codec : Codec SharingFrame) (files : List OutgoingFile) (s : State) (rp sp sq rq : Pos) :
    Prop where
  sender : SenderAt codec files s.sender sq sp
  receiver : ReceiverAt codec files s.receiver rp rq
  toReceiver : Path (Move codec files) rp s.toReceiver sp
  toSender : Path (Move codec []) sq s.toSender rq

/-! ## How much is left to do -/

def senderWeight : Phase → Nat
  | .returned _ => 0
  | _ => 1

def receiverWeight : Option Run → Nat
  | none => 4
  | some run => (if run.preparing then 3 else 0) + if run.accepting then 1 else 0

/-- Frames to be written and frames under way, and the turns that do not depend on frames. -/
def weight (files : List OutgoingFile) (s : State) (sp rq : Pos) : Nat :=
  2 * left files sp + s.toReceiver.length + (2 * left [] rq + s.toSender.length) +
    senderWeight s.sender + receiverWeight s.receiver

/-- A keep-alive. -/
def Tick : Action → Bool
  | .sender .tick _ => true
  | .receiver (.tick _) => true
  | _ => false

/-- A state with the invariant and less to do. A keep-alive adds a frame. -/
def Follows (codec : Codec SharingFrame) (files : List OutgoingFile) (s : State) (sp rq : Pos) (tick : Bool)
    (t : State) : Prop :=
  ∃ rp' sp' sq' rq', Inv codec files t rp' sp' sq' rq' ∧
    weight files t sp' rq' + 1 ≤ weight files s sp rq + if tick then 2 else 0

section Steps

variable {codec : Codec SharingFrame} {files : List OutgoingFile} {s t : State} {rp sp sq rq : Pos}

theorem Inv.init : Inv codec files ⟨.connecting, none, [], []⟩ (Pos.begin files (offers files))
    (Pos.begin files (offers files)) (Pos.begin [] answers) (Pos.begin [] answers) :=
  ⟨.connecting, .idle, .nil _, .nil _⟩

variable {frames : List V1Frame}

theorem Work.path {p q : Pos} (h : Path (Work codec files) p frames q) :
    Path (Move codec files) p frames q ∧ frames.length + left files q ≤ left files p :=
  ⟨h.mono fun _ _ _ hwk => hwk.1, h.length_add_le fun _ _ _ hwk => hwk.2⟩

/-! ## Who has returned -/

variable {receiver : Option Run}

theorem ReceiverAt.ended_of_done (h : ReceiverAt codec files receiver rp .done) :
    ∃ run paths, receiver = some run ∧ run.ended = some (.ok (.received paths [])) ∧
      Delivered files run.session paths := by
  generalize hq : Pos.done = q at h
  cases h with
  | idle | asked | receiving => exact nomatch hq
  | fresh _ hrep => cases hrep <;> exact nomatch hq
  | ended hen hdel => exact ⟨_, _, rfl, hen, hdel⟩

theorem ReceiverAt.done_or_left (h : ReceiverAt codec files receiver rp rq) : rq = .done ∨ 0 < left [] rq := by
  cases h with
  | idle | asked | receiving => exact .inr (by decide)
  | fresh _ hrep => cases hrep <;> exact .inr (by decide)
  | ended => exact .inl rfl

theorem Inv.eq_done (h : Inv codec files s rp sp sq rq) (hen : s.receiverEnded) : rq = .done := by
  have hat := h.receiver
  rw [State.receiverEnded] at hen
  generalize s.receiver = receiver at hat hen
  cases hat with
  | idle => exact nomatch hen
  | fresh hfsh =>
    rw [any_some, hfsh.steady.ended] at hen
    exact nomatch hen
  | asked hstd | receiving hstd =>
    rw [any_some, hstd.ended] at hen
    exact nomatch hen
  | ended => rfl

/-- The sender has returned: it has seen everything, so the receiver has returned as well. -/
theorem Inv.ended_of_returned (h : Inv codec files s rp sp sq rq) (hret : s.sender.Returned) :
    ∃ run paths, s.receiver = some run ∧ run.ended = some (.ok (.received paths [])) := by
  have hsq : sq = .done := by
    have hat := h.sender
    generalize s.sender = phase at hat hret
    cases hat with
    | returned => rfl
    | connecting | waiting | sending | draining => exact nomatch hret
  have hlf := h.toSender.le_of_move Move.left_le
  rw [hsq] at hlf
  have hat := h.receiver
  rcases hat.done_or_left with hrq | hpos
  · rw [hrq] at hat
    obtain ⟨run, paths, hrun, hen, -⟩ := hat.ended_of_done
    exact ⟨run, paths, hrun, hen⟩
  · exact absurd hlf (not_le.2 hpos)

/-! ## Steps of the sender -/

theorem senderWeight_of_reacts {phase phase' : Phase} {input : Input}
    (h : Reacts codec files phase input phase' frames) : senderWeight phase = 1 := by
  cases h <;> rfl

theorem Inv.sends (h : Inv codec files s rp sp sq rq) {phase : Phase} {rest frames : List V1Frame}
    {sq' sp' : Pos} (hweig : senderWeight s.sender = 1) (hat : SenderAt codec files phase sq' sp')
    (hrs : Path (Move codec []) sq' rest rq) (hfrs : Path (Work codec files) sp frames sp')
    (hless : rest.length + senderWeight phase ≤ s.toSender.length + frames.length) :
    Follows codec files s sp rq false
      { s with sender := phase, toSender := rest, toReceiver := s.toReceiver ++ frames } := by
  obtain ⟨hpa, hlen⟩ := Work.path hfrs
  refine ⟨rp, sp', sq', rq, ⟨hat, h.receiver, h.toReceiver.append hpa, hrs⟩, ?_⟩
  simp only [weight, length_append, Bool.false_eq_true, if_false]
  omega

theorem senderStep_eq {action : SenderAction} (h : senderStep codec files s action false = some t) :
    ∃ input rest phase frames, senderInput s action = some (input, rest) ∧
      Reacts codec files s.sender input phase frames ∧
      t = { s with sender := phase, toSender := rest, toReceiver := s.toReceiver ++ frames } := by
  unfold senderStep at h
  split at h
  · exact nomatch h
  next hinp =>
  split at h
  · exact nomatch h
  · next hrea =>
    cases h
    exact ⟨_, _, _, _, hinp, reacts_of_react hrea, rfl⟩

variable {frame : V1Frame}

/-- Behind the disconnection every frame is of the end of the script. -/
theorem SenderAt.skips {sq' : Pos} (hat : SenderAt codec files .draining sq sp)
    (hmv : Move codec [] sq frame sq') : SenderAt codec files .draining sq' sp := by
  cases hat with
  | draining hsq =>
    rcases hsq with rfl | rfl
    · cases hmv with
      | idle => exact .draining (.inl rfl)
      | bye => exact .draining (.inr rfl)
    · cases hmv with
      | idle => exact .draining (.inr rfl)

theorem Inv.sender_step (hset : Setting codec files) (h : Inv codec files s rp sp sq rq) {action : SenderAction}
    (hsmo : action ≠ .deadline ∧ action ≠ .silent ∧ action ≠ .drained ∧ action.Ranged)
    (hstep : senderStep codec files s action false = some t) :
    Follows codec files s sp rq (Tick (.sender action false)) t := by
  obtain ⟨input, rest, phase, frames, hinp, hreac, rfl⟩ := senderStep_eq hstep
  have hweig := senderWeight_of_reacts hreac
  have hle : senderWeight phase ≤ 1 := by cases phase <;> simp [senderWeight]
  have hat := h.sender
  generalize s.sender = sender at hreac hat
  cases action with
  | connected id =>
    simp only [senderInput, ite_none_right_eq_some] at hinp
    obtain ⟨-, hinp⟩ := hinp
    cases hinp
    cases hreac
    cases hat
    apply h.sends hweig (.waiting BytesPayloads.buffered_empty .encryption) h.toSender
      (path_sharingFrames _ _ hsmo.2.2.2)
    simp only [sharingFrames, length_cons]
    omega
  | frame id =>
    have hpa := h.toSender
    simp only [senderInput] at hinp
    split at hinp
    · next frame queue hque =>
      cases hinp
      rw [hque] at hpa
      obtain ⟨sq', hmv, hrs⟩ := hpa.exists_of_cons
      have hless : rest.length + senderWeight phase ≤ s.toSender.length + frames.length := by
        rw [hque, length_cons]
        omega
      cases hreac with
      | frame hfr =>
        obtain ⟨_, _, sp', hsa, hat', hfrs⟩ := senderAt_onFrame hset hat hmv hsmo.2.2.2
        cases hfr.symm.trans hsa
        exact h.sends hweig hat' hrs hfrs hless
      | skip => exact h.sends hweig (hat.skips hmv) hrs (.nil sp) hless
    · exact nomatch hinp
  | tick =>
    cases hinp
    cases hreac
    refine ⟨rp, sp, sq, rq, ⟨hat, h.receiver, h.toReceiver.snoc (.idle (.inl rfl)), h.toSender⟩, ?_⟩
    simp only [weight, length_append, length_singleton, Tick, if_true]
    omega
  | deadline => exact absurd rfl hsmo.1
  | silent => exact absurd rfl hsmo.2.1
  | closed =>
    simp only [senderInput, ite_none_right_eq_some, Bool.and_eq_true, List.isEmpty_iff] at hinp
    obtain ⟨⟨hen, hque⟩, hinp⟩ := hinp
    cases hinp
    -- the receiver has closed the connection, and the sender has read everything
    have hsq : sq = .done := by
      have hpa := h.toSender
      rw [hque] at hpa
      exact hpa.eq_of_nil.trans (h.eq_done hen)
    subst hsq
    cases hreac with
    | lost => exact nomatch hat
    | closed =>
      cases hat
      exact h.sends hweig .returned h.toSender (.nil _) (le_refl _)
  | read n =>
    cases hinp
    cases hreac with
    | read hpos hchk hend =>
      cases hat
      exact h.sends hweig (.sending hend) h.toSender
        (.single ((Move.chunk hpos hchk hend).work not_idle_chunkFrame)) (Nat.add_le_add_left hle _)
  | finishFile =>
    cases hinp
    cases hreac with
    | @finishFile file todo offset hend =>
      cases hat with
      | sending hfst =>
        have hoffs : offset = file.content.length := le_antisymm hfst hend
        subst hoffs
        refine h.sends hweig (.sending ?_) h.toSender
          (.single (Move.lastChunk.work not_idle_chunkFrame)) (Nat.add_le_add_left hle _)
        cases todo with
        | nil => rfl
        | cons next todo => exact zero_le _
  | disconnect =>
    cases hinp
    cases hreac with
    | disconnect offset =>
      cases hat with
      | sending hfst =>
        have hoffs : offset = 0 := hfst
        subst hoffs
        exact h.sends hweig (.draining (.inl rfl)) h.toSender
          (.single (Move.bye.work not_idle_disconnection)) (Nat.add_le_add_left hle _)
  | drained => exact absurd rfl hsmo.2.2.1

/-! ## Turns of the receiver -/

theorem receiverStep_eq {action : ReceiverAction} (h : receiverStep codec s action = some t) :
    ∃ event rest run run', receiverEvent s action = some (event, rest) ∧ s.receiver = some run ∧
      (linkFails event → s.sender.Returned) ∧ run.ended = none ∧
      run.turn codec event = some run' ∧
      t = { s with
        receiver := some run'
        toReceiver := rest
        toSender := s.toSender ++ written run run' } := by
  unfold receiverStep at h
  cases hev : receiverEvent s action with
  | none =>
    rw [hev] at h
    exact nomatch h
  | some pair =>
    obtain ⟨event, rest⟩ := pair
    cases hrcvr : s.receiver with
    | none =>
      simp only [hev, hrcvr] at h
      exact nomatch h
    | some run =>
      simp only [hev, hrcvr, ite_none_left_eq_some] at h
      obtain ⟨hli, h⟩ := h
      cases hnx : (receiveMachine codec).next run event with
      | none =>
        rw [hnx] at h
        exact nomatch h
      | some run' =>
        rw [hnx] at h
        cases h
        simp only [receiveMachine, ite_none_left_eq_some] at hnx
        refine ⟨event, rest, run, run', rfl, rfl, ?_, not_isSome_iff_eq_none.1 hnx.1, hnx.2, rfl⟩
        intro hfa
        rw [hfa, Bool.true_and, Bool.not_eq_true', Bool.not_eq_false] at hli
        exact hli

variable {rest : List V1Frame}

section

variable (h : Inv codec files s rp sp sq rq)
include h

theorem Inv.advances {run run' : Run} {rp' : Pos} (hrun : s.receiver = some run)
    (hadv : Advances codec files run run' rp' rq) (hrs : Path (Move codec files) rp' rest sp)
    (hless : rest.length + 1 ≤ s.toReceiver.length + (written run run').length) :
    Follows codec files s sp rq false
      { s with
        receiver := some run'
        toReceiver := rest
        toSender := s.toSender ++ written run run' } := by
  obtain ⟨rq', hat, hwrn, hpr, haccg⟩ := hadv
  obtain ⟨hpa, hlen⟩ := Work.path hwrn
  refine ⟨rp', sp, sq, rq', ⟨h.sender, hat, hrs, h.toSender.append hpa⟩, ?_⟩
  simp only [weight, hrun, receiverWeight, hpr, haccg, length_append, Bool.false_eq_true, if_false]
  omega

theorem Inv.background {run run' : Run} {tick : Bool} (hrun : s.receiver = some run) (hwrn : written run run' = frames)
    (hsa : Same run run') (hdl : ∀ frame ∈ frames, Idle frame)
    (hless : frames.length + receiverWeight (some run') + 1 ≤ receiverWeight (some run) + if tick then 2 else 0) :
    Follows codec files s sp rq tick
      { s with receiver := some run', toSender := s.toSender ++ written run run' } := by
  have hat := h.receiver
  rw [hrun] at hat
  have hpa : Path (Move codec []) rq frames rq := by
    clear hwrn hless
    induction frames with
    | nil => exact .nil rq
    | cons frame frames ih =>
      exact .cons (.idle (hdl frame mem_cons_self)) (ih fun later hlat => hdl later (mem_cons_of_mem _ hlat))
  rw [hwrn]
  refine ⟨rp, sp, sq, rq, ⟨h.sender, hat.same hsa, h.toReceiver, h.toSender.append hpa⟩, ?_⟩
  simp only [weight, hrun, length_append]
  omega

/-- Before the user has answered, the sender has not begun to send files. -/
theorem Inv.stays {rp' : Pos} (hmv : Move codec files rp frame rp') (hrs : Path (Move codec files) rp' rest sp)
    (hrq : rq = .setup (.response .accept) [] none) (hrp : rp = .files files 0) :
    rp' = rp ∧ Idle frame := by
  have hst : left files rp ≤ left files sp := by
    have hrd := h.toSender.le_of_move Move.left_le
    rw [hrq] at hrd
    have hat := h.sender
    rw [hrp]
    generalize s.sender = phase at hat
    cases hat with
    | connecting => exact le_add_left _ _
    | waiting _ hoff =>
      cases hoff with
      | encryption | result => exact le_add_left _ _
      | response => exact le_refl _
    | sending | returned => exact absurd hrd (by decide)
    | draining hsq => rcases hsq with rfl | rfl <;> exact absurd hrd (by decide)
  have haft := hrs.le_of_move Move.left_le
  rcases hmv.left_lt with hlt | hdl
  · omega
  · exact hdl

end

theorem Inv.receiver_step (hset : Setting codec files) (h : Inv codec files s rp sp sq rq) {action : ReceiverAction}
    (hsmo : Smooth files (.receiver action)) (hstep : receiverStep codec s action = some t) :
    Follows codec files s sp rq (Tick (.receiver action)) t := by
  obtain ⟨event, rest, run, run', hev, hrun, hli, hop, htu, rfl⟩ := receiverStep_eq hstep
  -- the sender is still there, so that writes do not fail
  have hnot : s.sender.Returned = false := by
    rw [Bool.eq_false_iff]
    intro hret
    obtain ⟨other, paths, hoth, hen⟩ := h.ended_of_returned hret
    cases hrun.symm.trans hoth
    cases hop.symm.trans hen
  have hwor : linkFails event = false := by grind
  have hat := h.receiver
  rw [hrun] at hat
  have hstd : Steady run := by
    cases hat with
    | fresh hfsh => exact hfsh.steady
    | asked hstd => exact hstd
    | receiving hstd => exact hstd
    | ended hen => cases hop.symm.trans hen
  cases action with
  | frame env =>
    simp only [receiverEvent] at hev
    cases hque : s.toReceiver with
    | nil =>
      rw [hque] at hev
      cases hev
    | cons frame queue =>
      rw [hque] at hev
      cases hev
      cases htu
      have hpa := h.toReceiver
      rw [hque] at hpa
      obtain ⟨rp', hmv, hrs⟩ := hpa.exists_of_cons
      simp only [linkFails, Bool.or_eq_false_iff] at hwor
      have hadv := receiverAt_onFrame hset hsmo.1 hsmo.2 hwor hat hop hmv (h.stays hmv hrs)
      apply h.advances hrun hadv hrs
      rw [hque, length_cons]
      omega
  | silent => exact hsmo.elim
  | closed =>
    simp only [receiverEvent, hnot, Bool.false_and, Bool.false_eq_true, if_false] at hev
    cases hev
  | answer yes env =>
    cases hev
    obtain ⟨rfl, hid⟩ := hsmo
    simp only [linkFails, Bool.or_eq_false_iff] at hwor
    simp only [Run.turn] at htu
    cases hat with
    | fresh hfsh =>
      rw [hfsh.pendingConsent] at htu
      cases htu
    | receiving _ _ hpn =>
      rw [hpn] at htu
      cases htu
    | ended hen => cases hop.symm.trans hen
    | asked _ hacc hpn hrcvg =>
      obtain ⟨intro, hint⟩ := isSome_iff_exists.1 hpn
      rw [hint] at htu
      simp only [Option.some.injEq] at htu
      subst htu
      have hres : run.onAnswer codec env intro true = Run.note { run with
            pendingConsent := none
            accepted := true
            granted := run.granted ++ [intro] }
            (sharingFrames codec env.payloadId (.response .accept)) := by
        simp only [Run.onAnswer, Bool.or_true, if_true]
        rw [send_eq hwor.1]
        exact if_pos rfl
      rw [hres]
      refine h.advances hrun ⟨.files [] 0, .receiving ⟨hstd.ended, hstd.switching⟩ rfl rfl rfl
        hset.nonempty hrcvg, ?_, rfl, rfl⟩ h.toReceiver ?_
      · rw [written_of_log rfl]
        exact path_sharingFrames _ _ hid
      · rw [written_of_log rfl, sharingFrames, length_cons]
        omega
  | prepared ok env =>
    cases hev
    simp only [linkFails, Bool.or_eq_false_iff] at hwor
    simp only [Run.turn, ite_none_right_eq_some, Option.some.injEq] at htu
    obtain ⟨hpr, rfl⟩ := htu
    cases ok with
    | true =>
      have hres : run.onPrepared env true = { Run.note { run with preparing := false }
          [.bandwidthUpgradeNegotiation .upgradePathAvailable] with accepting := true } := by
        simp only [Run.onPrepared, if_true]
        rw [send_eq hwor.1]
      rw [hres]
      refine h.background hrun (written_of_log rfl) ⟨rfl, rfl, rfl, rfl, rfl⟩ ?_ ?_
      · exact fun frame hfr => .inr (mem_singleton.1 hfr)
      · simp only [receiverWeight, Run.note, hpr, length_singleton, if_true, Tick, Bool.false_eq_true, if_false]
        omega
    | false =>
      refine h.background hrun (written_eq_nil rfl) ⟨rfl, rfl, rfl, rfl, rfl⟩ (forall_mem_nil _) ?_
      simp only [receiverWeight, Run.onPrepared, hpr, length_nil, if_true, Tick, Bool.false_eq_true, if_false]
      omega
  | unconnected env =>
    cases hev
    simp only [Run.turn, ite_none_right_eq_some, Option.some.injEq] at htu
    obtain ⟨haccg, rfl⟩ := htu
    have hres : Run.startSwitch { run with accepting := false } env 0 false id =
        { run with accepting := false, switching := none } := rfl
    rw [hres]
    refine h.background hrun (written_eq_nil rfl) ⟨rfl, rfl, rfl, rfl, hstd.switching.symm⟩ (forall_mem_nil _) ?_
    simp only [receiverWeight, haccg, length_nil, if_true, Tick, Bool.false_eq_true, if_false]
    omega
  | tick env =>
    cases hev
    simp only [linkFails, Bool.or_eq_false_iff] at hwor
    simp only [Run.turn, Option.some.injEq] at htu
    subst htu
    have hres : run.onKeepAlive env = run.note [.keepAlive] := by
      simp only [Run.onKeepAlive, Run.Switching, hstd.switching, any_none, Bool.false_eq_true, if_false]
      exact send_eq hwor.1 _ _
    have hweig : receiverWeight (some (run.note [.keepAlive])) = receiverWeight (some run) := rfl
    rw [hres]
    refine h.background hrun (written_of_log rfl) ⟨rfl, rfl, rfl, rfl, rfl⟩ ?_ ?_
    · exact fun frame hfr => .inl (mem_singleton.1 hfr)
    · simp only [length_singleton, Tick, if_true]
      omega

theorem Inv.start_step (h : Inv codec files s rp sp sq rq) (upgrade : Bool) {id : Int} (hid : Ranged id)
    (hrcvr : s.receiver = none) :
    Follows codec files s sp rq false
      { s with
        receiver := some (Run.start upgrade)
        toSender := s.toSender ++ sharingFrames codec id .pairedKeyEncryption } := by
  have hat := h.receiver
  rw [hrcvr] at hat
  cases hat with
  | idle =>
    obtain ⟨hpa, hlen⟩ := Work.path (path_sharingFrames .pairedKeyEncryption [.pairedKeyResult, .response .accept] hid)
    refine ⟨_, sp, sq, _, ⟨h.sender, ?_, h.toReceiver, h.toSender.append hpa⟩, ?_⟩
    · refine .fresh ⟨⟨rfl, rfl⟩, rfl, rfl, ?_, BytesPayloads.buffered_empty⟩ .encryption
      exact ⟨rfl, rfl, rfl, nodup_nil, .nil, trivial, fun _ hid => nomatch hid⟩
    · have hweig : receiverWeight (some (Run.start upgrade)) ≤ 3 := by
        cases upgrade <;> decide
      simp only [weight, hrcvr, receiverWeight, length_append, Bool.false_eq_true, if_false]
        at hweig ⊢
      simp only [Pos.begin, answers] at hlen ⊢
      omega

variable {upgrade : Bool}

theorem Inv.step (hset : Setting codec files) (h : Inv codec files s rp sp sq rq) {action : Action}
    (hsmo : Smooth files action) (hnx : (loopbackMachine codec files upgrade).next s action = some t) :
    Follows codec files s sp rq (Tick action) t := by
  cases action with
  | sender action fails =>
    obtain ⟨hfa, hsmo⟩ := hsmo
    subst hfa
    exact h.sender_step hset hsmo hnx
  | start id =>
    simp only [loopbackMachine] at hnx
    cases hrcvr : s.receiver with
    | some run =>
      rw [hrcvr] at hnx
      exact nomatch hnx
    | none =>
      rw [hrcvr] at hnx
      cases hnx
      exact h.start_step upgrade hsmo hrcvr
  | receiver action => exact h.receiver_step hset hsmo hnx

/-! ## What follows -/

/-- The sender returns only `Sent`, the receiver only `Received` with what was sent. -/
theorem Inv.safe (h : Inv codec files s rp sp sq rq) : (∀ result, s.sender = .returned result → result = .ok .sent) ∧
      ∀ run result, s.receiver = some run → run.ended = some result →
        ∃ paths, result = .ok (.received paths []) ∧ Delivered files run.session paths := by
  constructor
  · intro result hres
    have hat := h.sender
    rw [hres] at hat
    cases hat
    rfl
  · intro run result hrun hen
    have hdn : s.receiverEnded := by
      rw [State.receiverEnded, hrun, any_some, hen]
      rfl
    have hat := h.receiver
    rw [h.eq_done hdn] at hat
    obtain ⟨other, paths, hoth, hrec, hdel⟩ := hat.ended_of_done
    cases hrun.symm.trans hoth
    exact ⟨paths, Option.some.inj (hen.symm.trans hrec), hdel⟩

theorem ReceiverAt.within (h : ReceiverAt codec files receiver rp rq) :
    rp.Within files := by
  cases h with
  | idle => exact Pos.Within.begin (fun _ hfi => hfi) fun v1 hv1 => mem_append_left _ hv1
  | fresh _ hrep =>
    cases hrep with
    | encryption => exact fun v1 hv1 => mem_append_left _ hv1
    | result => exact fun v1 hv1 => mem_append_left _ (mem_cons_of_mem _ hv1)
    | offer => exact fun v1 hv1 => mem_append_left _ (mem_cons_of_mem _ (mem_cons_of_mem _ hv1))
  | asked => exact fun _ hfi => hfi
  | receiving _ _ _ hfiles =>
    rw [← hfiles]
    exact fun _ hfi => mem_append_right _ hfi
  | ended => exact fun _ hfi => nomatch hfi

theorem SenderAt.within {phase : Phase} (h : SenderAt codec files phase sq sp) : sq.Within files := by
  have hno : ∀ file ∈ ([] : List OutgoingFile), file ∈ files := fun _ hfi => nomatch hfi
  cases h with
  | connecting => exact Pos.Within.begin hno fun v1 hv1 => mem_append_right _ hv1
  | waiting _ hoff =>
    cases hoff with
    | encryption => exact fun v1 hv1 => mem_append_right _ hv1
    | result => exact fun v1 hv1 => mem_append_right _ (mem_cons_of_mem _ hv1)
    | response => exact fun v1 hv1 => mem_append_right _ (mem_cons_of_mem _ (mem_cons_of_mem _ hv1))
  | sending => exact hno
  | draining hp =>
    rcases hp with rfl | rfl
    · exact hno
    · trivial
  | returned => trivial

theorem Inv.scripted (h : Inv codec files s rp sp sq rq) :
    ∀ frame ∈ s.toReceiver ++ s.toSender, Scripted codec files frame := by
  intro frame hfr
  rcases mem_append.1 hfr with hfr | hfr
  · apply h.toReceiver.forall_mem _ h.receiver.within frame hfr
    exact fun p m q hp hmv => hmv.scripted (fun _ hfi => hfi) hp
  · have hno : ∀ file ∈ ([] : List OutgoingFile), file ∈ files := fun _ hfi => nomatch hfi
    apply h.toSender.forall_mem _ h.sender.within frame hfr
    exact fun p m q hp hmv => hmv.scripted hno hp

theorem ranged_zero : Ranged 0 := by decide

/-- A step is possible that is not a keep-alive. -/
def Enabled (codec : Codec SharingFrame) (files : List OutgoingFile) (upgrade : Bool) (s : State) : Prop :=
  ∃ action t, Smooth files action ∧ Tick action = false ∧ (loopbackMachine codec files upgrade).next s action = some t

theorem enabled_of_isSome (action : Action) (hsmo : Smooth files action)
    (htc : Tick action = false) (h : ((loopbackMachine codec files upgrade).next s action).isSome) :
    Enabled codec files upgrade s := by
  obtain ⟨t, hnx⟩ := isSome_iff_exists.1 h
  exact ⟨action, t, hsmo, htc, hnx⟩

theorem enabled_sender {a : SenderAction} {input : Input} (hsmo : Smooth files (.sender a false))
    (htc : Tick (.sender a false) = false) (hinp : senderInput s a = some (input, rest))
    (hrea : (s.sender.react codec files input).isSome) : Enabled codec files upgrade s := by
  obtain ⟨⟨phase, frames⟩, hrea⟩ := isSome_iff_exists.1 hrea
  apply enabled_of_isSome _ hsmo htc
  simp [loopbackMachine, senderStep, hinp, hrea]

theorem enabled_receiver {run : Run}
    (hrun : s.receiver = some run) (hop : run.ended = none) (hque : s.toReceiver = frame :: rest) :
    Enabled codec files upgrade s := by
  apply enabled_of_isSome (.receiver (.frame .calm)) ⟨⟨fun _ _ => rfl, rfl, rfl⟩, ranged_zero⟩ rfl
  simp [loopbackMachine, receiverStep, receiverEvent, hque, hrun, linkFails, Env.calm, receiveMachine, hop, Run.turn]

theorem exists_cons {p q : Pos} (h : Path (Move codec files) p frames q)
    (hne : p ≠ q) : ∃ frame rest, frames = frame :: rest := by
  cases frames with
  | nil => exact absurd h.eq_of_nil hne
  | cons frame rest => exact ⟨frame, rest, rfl⟩

section

variable (h : Inv codec files s rp sp sq rq)
include h

theorem Inv.progress_waiting {bytes : BytesPayloads} {run : Run} (hsd : s.sender = .waiting bytes)
    (hrun : s.receiver = some run) (hque : s.toSender = []) : Enabled codec files upgrade s := by
  have hsq : sq = rq := by
    have hpa := h.toSender
    rw [hque] at hpa
    exact hpa.eq_of_nil
  have hfrom := h.sender
  have hat := h.receiver
  have hpa := h.toReceiver
  rw [hsd, hsq] at hfrom
  rw [hrun] at hat
  cases hat with
  | fresh hfsh hrep =>
    have hne : ∀ {v1 : SharingV1} {rest : List SharingV1} {half : Option Int},
        Replied files v1 rest rq → SenderAt codec files (.waiting bytes) rq sp →
        Pos.setup v1 rest half ≠ sp := by
      intro v1 rest half hrep hfrom heq
      cases hrep with
      | encryption | result | offer =>
        cases hfrom with
        | waiting _ hoff =>
          cases hoff
          cases heq
    obtain ⟨frame, rest, hfrs⟩ := exists_cons hpa (hne hrep hfrom)
    exact enabled_receiver hrun hfsh.steady.ended hfrs
  | asked hstd hacc hpn hrcvg =>
    obtain ⟨intro, hint⟩ := isSome_iff_exists.1 hpn
    apply enabled_of_isSome (.receiver (.answer true .calm)) ⟨rfl, ranged_zero⟩ rfl
    simp [loopbackMachine, receiverStep, receiverEvent, hrun, linkFails, Env.calm, receiveMachine, hstd.ended, Run.turn, hint]
  | receiving | ended => cases hfrom

theorem Inv.progress_draining {run : Run}
    (hsd : s.sender = .draining) (hrun : s.receiver = some run) (hque : s.toSender = []) :
    Enabled codec files upgrade s := by
  have hsq : sq = rq := by
    have hpa := h.toSender
    rw [hque] at hpa
    exact hpa.eq_of_nil
  have hfrom := h.sender
  have hat := h.receiver
  have hpa := h.toReceiver
  rw [hsd, hsq] at hfrom
  rw [hrun] at hat
  have hsp : sp = .done := by
    cases hfrom
    rfl
  rw [hsp] at hpa
  have htak : rp ≠ .done → run.ended = none → Enabled codec files upgrade s := by
    intro hne hop
    obtain ⟨frame, rest, hfrs⟩ := exists_cons hpa hne
    exact enabled_receiver hrun hop hfrs
  cases hat with
  | fresh hfsh => exact htak nofun hfsh.steady.ended
  | asked hstd | receiving hstd => exact htak nofun hstd.ended
  | ended hen =>
    apply enabled_sender (a := .closed) ⟨rfl, nofun, nofun, nofun, trivial⟩ rfl
    · simp only [senderInput, State.receiverEnded, hrun, any_some, hen, isSome_some, hque,
        isEmpty_nil, Bool.and_self, if_true]
      rfl
    · rw [hsd]
      rfl

/-- Until both have returned, something happens other than a keep-alive. -/
theorem Inv.progress (upgrade : Bool)
    (hop : ¬(s.sender.Returned ∧ s.receiverEnded)) : Enabled codec files upgrade s := by
  cases hrcvr : s.receiver with
  | none =>
    apply enabled_of_isSome (.start 0) ranged_zero rfl
    simp [loopbackMachine, hrcvr]
  | some run =>
    cases hsd : s.sender with
    | connecting =>
      apply enabled_sender (smooth_connected ranged_zero) rfl (by rw [senderInput, hrcvr]; rfl)
      rw [hsd]
      rfl
    | waiting bytes =>
      cases hque : s.toSender with
      | nil => exact h.progress_waiting hsd hrcvr hque
      | cons frame rest =>
        apply enabled_sender (smooth_frame ranged_zero) rfl (by rw [senderInput, hque])
        rw [hsd]
        rfl
    | sending todo offset =>
      cases todo with
      | nil =>
        apply enabled_sender (a := .disconnect) ⟨rfl, nofun, nofun, nofun, trivial⟩ rfl rfl
        rw [hsd]
        rfl
      | cons file todo =>
        by_cases hlt : offset < file.content.length
        · apply enabled_sender (a := (.read 1)) ⟨rfl, nofun, nofun, nofun, trivial⟩ rfl rfl
          have hrd : 0 < 1 ∧ 1 ≤ CHUNK ∧ offset + 1 ≤ file.content.length := ⟨zero_lt_one, by decide, hlt⟩
          rw [hsd, Phase.react, if_pos hrd]
          rfl
        · apply enabled_sender (a := .finishFile) ⟨rfl, nofun, nofun, nofun, trivial⟩ rfl rfl
          rw [hsd, Phase.react, if_neg hlt]
          rfl
    | draining =>
      cases hque : s.toSender with
      | nil => exact h.progress_draining hsd hrcvr hque
      | cons frame rest =>
        apply enabled_sender (smooth_frame ranged_zero) rfl (by rw [senderInput, hque])
        rw [hsd]
        rfl
    | returned result =>
      have hret : s.sender.Returned := by
        rw [hsd]
        rfl
      obtain ⟨other, paths, hoth, hen⟩ := h.ended_of_returned hret
      refine absurd ⟨hret, ?_⟩ hop
      rw [State.receiverEnded, hoth, any_some, hen]
      rfl

end

end Steps

end KaiT2en.Airshare.Loopback
