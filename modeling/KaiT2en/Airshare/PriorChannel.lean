import KaiT2en.Airshare.Turn

/-!
# The prior channel during a bandwidth upgrade

After LAST_WRITE_TO_PRIOR_CHANNEL nothing may be written to the Bluetooth connection but the answer to the phone's own
LAST_WRITE_TO_PRIOR_CHANNEL and the closing disconnection, until the phone's SAFE_TO_CLOSE_PRIOR_CHANNEL has moved the
link to the hotspot.

Six branches of the loop write to the link, and only the keep-alive looks at the switch. `Silent` says when the others
have nothing to write; if the turns during the switch are silent, so is the prior channel (`prior_channel_quiet`). In
`response_on_prior_channel` the user answers during the switch.
-/

namespace KaiT2en.Airshare.Receive

open KaiT2en.Lib.Encoding KaiT2en.Lib.Transition Run

/-- What may be written to the prior connection after LAST_WRITE. -/
def Written.Closing (what : Written) : Prop :=
  what = .sealed (.bandwidthUpgradeNegotiation .safeToClosePriorChannel) ∨ what = .plainDisconnection

/-- Nothing but that is written to the prior connection while the window is open. -/
def QuietLog (log : List LogEntry) : Prop :=
  ∀ entry ∈ log, entry.window = true → entry.prior = true → entry.what.Closing

def Run.PriorQuiet (s : Run) : Prop := QuietLog s.log

/-- During the switch the user does not answer, the sender does not ask for a paired key again, and the
transfer is not completed. -/
def Silent (codec : Codec SharingFrame) (s : Run) (event : Event) : Prop :=
  s.Switching = true → match event with
    | .answer _ _ => False
    | .frame (some (.payloadTransfer header chunk)) _ =>
      s.session.sharing codec header chunk ≠ some (some .pairedKeyEncryption) ∧
        ¬(s.accepted = true ∧ s.session.Completing header chunk)
    | _ => True

instance (codec : Codec SharingFrame) (s : Run) : (event : Event) → Decidable (Silent codec s event)
  | .answer _ _ => inferInstanceAs (Decidable (_ → False))
  | .frame (some (.payloadTransfer _ _)) _ => inferInstanceAs (Decidable (_ → _ ∧ ¬(_ ∧ _)))
  | .frame (some (.bandwidthUpgradeNegotiation _)) _ | .frame (some .keepAlive) _
  | .frame (some .disconnection) _ | .frame (some .other) _ | .frame none _
  | .lost | .prepared _ _ | .connected _ _ | .keepAlive _ => .isTrue fun _ => trivial

/-! ## The state of the switch -/

/-- While the window is open the switch is under way, and no other can begin. -/
structure Run.Hushed (s : Run) : Prop where
  log : QuietLog s.log
  switching : s.window = true → ∃ switch, s.switching = some switch ∧ switch.writer = true ∧ switch.safe = false
  accepting : s.window = true → s.accepting = false
  preparing : s.window = true ∨ s.accepting = true → s.preparing = false

namespace Run

variable {codec : Codec SharingFrame} {s : Run} {env : Env}

theorem Hushed.start (upgrade : Bool) : (start upgrade).Hushed := ⟨nofun, nofun, nofun, nofun⟩

theorem Hushed.switching_of_window (h : s.Hushed) (hwin : s.window) : s.Switching := by
  obtain ⟨switch, hswit, -, hsf⟩ := h.switching hwin
  rw [Switching, hswit, Option.any_some, hsf]
  rfl

theorem Hushed.window_closed (h : s.Hushed) (hbef : s.accepting ∨ s.preparing) : s.window = false := by
  have haccg := h.accepting
  have hpr := h.preparing
  cases hwin : s.window <;> simp_all

/-- Writing what may be written in the window, or anything outside of it. -/
theorem Hushed.note (h : s.Hushed) {frames : List V1Frame}
    (hfrs : s.window → ∀ frame ∈ frames, (Written.sealed frame).Closing) :
    (s.note frames).Hushed := by
  refine { h with log := fun entry hent hwin hprior => ?_ }
  rcases List.mem_append.1 hent with hold | hnew
  · exact h.log entry hold hwin hprior
  · obtain ⟨frame, hfr, rfl⟩ := List.mem_map.1 hnew
    exact hfrs hwin frame hfr

theorem Hushed.send (h : s.Hushed) {n : Nat} {frames : List V1Frame} {next : Run → Run}
    (hfrs : s.window → ∀ frame ∈ frames, (Written.sealed frame).Closing)
    (hnx : (s.note frames).Hushed → (next (s.note frames)).Hushed) :
    (s.send env n frames next).Hushed := by
  have hnote := h.note hfrs
  rcases send_cases (s := s) n frames next with ⟨-, hsd⟩ | ⟨-, hsd⟩
  · rw [hsd]
    exact { hnote with }
  · rw [hsd]
    exact hnx hnote

theorem closing_of_window_eq_false (hwin : s.window = false) (frames : List V1Frame) :
    s.window → ∀ frame ∈ frames, (Written.sealed frame).Closing := by
  intro h
  rw [hwin] at h
  exact nomatch h

section

variable (h : s.Hushed)
include h

theorem Hushed.startSwitch {n : Nat} {ok : Bool} {next : Run → Run}
    (haccg : s.accepting) (hnx : ∀ u : Run, u.Hushed → (next u).Hushed) :
    (startSwitch { s with accepting := false } env n ok next).Hushed := by
  have hwin : s.window = false := h.window_closed (.inl haccg)
  have hpr : s.preparing = false := h.preparing (.inr haccg)
  have hop : ({ s with accepting := false } : Run).Hushed := ⟨h.log, h.switching, fun _ => rfl, fun _ => hpr⟩
  unfold Run.startSwitch
  cases ok with
  | true =>
    simp only [if_true]
    refine hop.send (closing_of_window_eq_false hwin _) ?_
    intro hnote
    apply hnx
    exact ⟨hnote.log, fun _ => ⟨_, rfl, rfl, rfl⟩, fun _ => rfl, fun _ => hpr⟩
  | false =>
    apply hnx
    refine ⟨h.log, ?_, fun _ => rfl, fun _ => hpr⟩
    intro hop
    rw [hwin] at hop
    exact nomatch hop

theorem Hushed.takeSwitch : s.takeSwitch.Hushed := by
  unfold Run.takeSwitch
  split
  · rename_i switch hswit
    split
    · -- the switch is over, so the window is closed
      rename_i hdn
      refine ⟨h.log, ?_, h.accepting, h.preparing⟩
      intro hwin
      obtain ⟨other, hoth, -, hsf⟩ := h.switching hwin
      rw [hswit] at hoth
      cases hoth
      rw [hsf, Bool.and_false] at hdn
      exact nomatch hdn
    · exact h
  · exact h

theorem Hushed.onLastWrite : (s.onLastWrite env Run.takeSwitch).Hushed := by
  have hrs : ∀ u : Run, u.Hushed → (u.confirmLastWrite env Run.takeSwitch).Hushed := by
    intro u hu
    unfold confirmLastWrite
    split
    · rename_i switch hswit
      apply hu.send
      · intro _ frame hfr
        rw [List.mem_singleton.1 hfr]
        exact .inl rfl
      · intro hnote
        apply Hushed.takeSwitch
        refine ⟨hnote.log, ?_, hnote.accepting, hnote.preparing⟩
        intro hwin
        obtain ⟨other, hoth, hwrit, hsf⟩ := hu.switching hwin
        rw [hswit] at hoth
        cases hoth
        exact ⟨_, rfl, hwrit, hsf⟩
    · exact hu.takeSwitch
  rw [onLastWrite_eq]
  split
  · rename_i haccg
    exact h.startSwitch haccg hrs
  · exact hrs s h

theorem Hushed.onSafeToClose : s.onSafeToClose.Hushed := by
  unfold Run.onSafeToClose
  split
  · rename_i switch hswit
    split
    · -- the writer moves to the hotspot
      refine ⟨?_, nofun, nofun, ?_⟩
      · intro entry hent hwin hprior
        rcases List.mem_append.1 hent with hold | hnew
        · exact h.log entry hold hwin hprior
        · rw [List.mem_singleton.1 hnew]
          exact .inr rfl
      · rintro (hwin | haccg)
        · exact nomatch hwin
        · exact h.preparing (.inr haccg)
    rename_i hwrit
    refine ⟨h.log, ?_, h.accepting, h.preparing⟩
    intro hwin
    obtain ⟨other, hoth, hwrit', -⟩ := h.switching hwin
    rw [hswit] at hoth
    cases hoth
    exact absurd hwrit' hwrit
  · exact h

theorem Hushed.onNegotiation (event : EventType) : (s.onNegotiation env event).Hushed := by
  cases event with
  | lastWriteToPriorChannel => exact h.onLastWrite
  | safeToClosePriorChannel => exact h.onSafeToClose.takeSwitch
  | upgradeFailure =>
    refine ⟨h.log, nofun, fun _ => rfl, ?_⟩
    rintro (hwin | haccg)
    · exact nomatch hwin
    · exact nomatch haccg
  | unknown | upgradePathAvailable | clientIntroduction | clientIntroductionAck => exact h.takeSwitch

/-! ## Payloads -/

theorem Hushed.checkComplete (hwin : s.window → s.accepted → s.session.complete → False) :
    (s.checkComplete env).Hushed := by
  unfold Run.checkComplete
  split
  · rename_i hcm
    obtain ⟨hacc, hall⟩ := Bool.and_eq_true_iff.1 hcm
    apply h.send
    · intro hop
      exact absurd hall (hwin hop hacc)
    · intro hnote
      exact { hnote with }
  · exact h

theorem Hushed.session (session : Session) : ({ s with session := session } : Run).Hushed := { h with }

theorem Hushed.onSharing {header : PayloadHeader} {chunk : PayloadChunk} {session : Session} {setup : SharingFrame}
    (hsp : s.session.PayloadStep codec env header chunk session (.ok (some setup)))
    (hsil : s.window → s.session.sharing codec header chunk ≠ some (some .pairedKeyEncryption) ∧
        ¬(s.accepted ∧ s.session.Completing header chunk)) :
    (onSharing codec { s with session := session } env setup).Hushed := by
  have hs := h.session session
  have hnot : s.window → s.accepted → session.complete → False := by
    intro hwin hacc hcm
    exact (hsil hwin).2 ⟨hacc, hsp.completing hcm⟩
  -- most sharing frames change nothing
  have hoth : (Run.checkComplete { s with session := session } env).Hushed := hs.checkComplete hnot
  cases setup with
  | none => exact hoth
  | some v1 =>
    cases v1 with
    | unknown | response _ | pairedKeyResult | certificateInfo => exact hoth
    | pairedKeyEncryption =>
      apply hs.send
      · intro hwin
        cases hsp with
        | sharing hty hla htx hfr => exact absurd hfr (hsil hwin).1
      · intro hnote
        exact hnote.checkComplete hnot
    | introduction frame =>
      unfold Run.onSharing
      simp only
      cases hprepa : session.prepare env s.introductions frame with
      | mk session' result =>
        cases result with
        | error e => exact { h with }
        | ok _ =>
          refine Hushed.checkComplete { h with } ?_
          intro hwin hacc hcm
          have hsa := Session.prepare_complete hprepa hcm
          rw [hsa] at hcm
          exact hnot hwin hacc hcm
    | cancel => exact { h with }

theorem Hushed.onPayload {header : PayloadHeader} {chunk : PayloadChunk} (hsil : s.window →
      s.session.sharing codec header chunk ≠ some (some .pairedKeyEncryption) ∧
        ¬(s.accepted ∧ s.session.Completing header chunk)) :
    (s.onPayload codec env header chunk).Hushed := by
  have hsp := s.session.onPayload_step env codec header chunk
  unfold Run.onPayload
  cases hres : s.session.onPayload codec env header chunk with
  | mk session result =>
    rw [hres] at hsp
    cases result with
    | error e => exact { h with }
    | ok r =>
      cases r with
      | none =>
        refine (h.session session).checkComplete ?_
        intro hwin hacc hcm
        exact (hsil hwin).2 ⟨hacc, hsp.completing hcm⟩
      | some setup => exact h.onSharing hsp hsil

/-! ## Whole sessions -/

theorem Hushed.turn {event : Event} {t : Run} (hsil : Silent codec s event)
    (htu : s.turn codec event = some t) : t.Hushed := by
  have hwin : s.window → _ := fun hwin => hsil (h.switching_of_window hwin)
  cases event with
  | frame frame env =>
    cases htu
    unfold onFrame
    split
    · exact h.onPayload hwin
    · exact h.onNegotiation _
    · exact { h with }
    · exact h
  | lost =>
    cases htu
    exact { h with }
  | answer yes env =>
    simp only [Run.turn] at htu
    split at htu
    · cases htu
      unfold onAnswer
      apply Hushed.send
      · exact { h with }
      · intro hop
        exact (hwin hop).elim
      · intro hnote
        apply iteInduction (motive := Run.Hushed)
        · intro _
          exact hnote
        · intro _
          exact { hnote with }
    · cases htu
  | prepared ok env =>
    simp only [Run.turn] at htu
    split at htu
    · rename_i hpr
      cases htu
      have hcl := h.window_closed (.inr hpr)
      have hdn : ({ s with preparing := false } : Run).Hushed := ⟨h.log, h.switching, h.accepting, fun _ => rfl⟩
      unfold onPrepared
      split
      · refine hdn.send (closing_of_window_eq_false hcl _) ?_
        intro hnote
        refine ⟨hnote.log, hnote.switching, ?_, fun _ => rfl⟩
        intro hop
        exact absurd (hcl.symm.trans hop) Bool.false_ne_true
      · exact hdn
    · cases htu
  | connected ok env =>
    simp only [Run.turn] at htu
    split at htu
    · rename_i haccg
      cases htu
      exact h.startSwitch haccg (fun _ hu => hu)
    · cases htu
  | keepAlive env =>
    cases htu
    unfold onKeepAlive
    split
    · exact h
    rename_i hswitc
    refine h.send ?_ (fun hnote => hnote)
    intro hop
    exact absurd (h.switching_of_window hop) hswitc

end

end Run

/-- If the turns during the switch are silent, nothing else is written to the prior channel. -/
theorem prior_channel_quiet (codec : Codec SharingFrame) {s : Run}
    (h : (receiveMachine codec).Reach (Silent codec) s) : s.PriorQuiet := by
  have hinv : s.Hushed := by
    apply h.invariant (I := Run.Hushed)
    · rintro _ ⟨upgrade, rfl⟩
      exact Run.Hushed.start upgrade
    · intro s event t _ hsil hs hnx
      simp only [receiveMachine, Option.ite_none_left_eq_some] at hnx
      exact hs.turn hsil hnx.2
  exact hinv.log

/-- The user answers after the switch. -/
theorem prior_channel_quiet_lateAnswer : ∃ s, (receiveMachine sampleCodec).Reach (Silent sampleCodec) s ∧
    s.onHotspot = true ∧ s.accepted = true ∧ s.PriorQuiet := by
  obtain ⟨s, hre, hhot, hacc⟩ := Machine.exists_of_guarded_run
    (M := receiveMachine sampleCodec) (P := fun s => s.onHotspot = true ∧ s.accepted = true)
    (Silent sampleCodec)
    [.prepared true .calm, .frame (some introductionFrame) .calm, .connected true .calm, .keepAlive .calm,
      .frame (some (.bandwidthUpgradeNegotiation .lastWriteToPriorChannel)) .calm,
      .frame (some (.bandwidthUpgradeNegotiation .safeToClosePriorChannel)) .calm,
      .answer true .calm] ⟨true, rfl⟩ (by decide +kernel)
  exact ⟨s, hre, hhot, hacc, prior_channel_quiet sampleCodec hre⟩

/-- The user answers during the switch, and the response goes out on the prior channel. -/
theorem response_on_prior_channel : ∃ s, (receiveMachine sampleCodec).Reachable s ∧
    (∃ frame ∈ sharingFrames sampleCodec 0 (.response .accept),
      ⟨.sealed frame, true, true⟩ ∈ s.log) ∧ ¬s.PriorQuiet := by
  obtain ⟨s, hs, frame, hfr, hlog⟩ := Machine.exists_of_run (M := receiveMachine sampleCodec)
    (P := fun s => ∃ frame ∈ sharingFrames sampleCodec 0 (.response .accept),
      (⟨.sealed frame, true, true⟩ : LogEntry) ∈ s.log)
    [.prepared true .calm, .frame (some introductionFrame) .calm, .connected true .calm,
      .answer true .calm] ⟨true, rfl⟩ (by decide +kernel)
  refine ⟨s, hs, ⟨frame, hfr, hlog⟩, ?_⟩
  intro hqu
  rcases hqu _ hlog rfl rfl with hclos | hclos
  · cases hclos
    revert hfr
    decide +kernel
  · exact nomatch hclos

end KaiT2en.Airshare.Receive
