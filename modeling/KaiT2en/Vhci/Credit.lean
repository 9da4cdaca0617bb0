import KaiT2en.Vhci.Ledger

/-!
# The credit for active requests

A request takes a credit when it leaves `INIT_PENDING` and returns it when it ends, in `bce_vhci_urb_complete` or in
the cancel worker. `Core.Credit` says that the free credits and the active requests add up to `max_active_requests`,
which is so in every run that follows the phases of `Ledger` (`active_request_credit`). A request that is ended on
both ways returns its credit twice (`active_request_credit_exceeded`).
-/

namespace KaiT2en.Vhci

open KaiT2en.Kernel KaiT2en.Dma KaiT2en.Lib KaiT2en.Lib.Transition Function Core VUrb UrbState

/-- The request was initialised. The state of a cancelled request no longer tells, so
`cancel_was_active` does. -/
def VUrb.isActive (v : VUrb) : Bool :=
  decide (v.state ≠ .initPending) && (decide (v.state ≠ .cancelled) || v.cancelWasActive)

namespace VUrb

variable {v v' : VUrb}

theorem isActive_congr (hin : v'.state = .initPending ↔ v.state = .initPending)
    (hcan : v'.state = .cancelled ↔ v.state = .cancelled)
    (hact : v'.cancelWasActive = v.cancelWasActive) : v'.isActive = v.isActive := by
  unfold isActive
  rw [decide_eq_decide.2 (not_congr hin), decide_eq_decide.2 (not_congr hcan), hact]

theorem isActive_of_initPending (h : v.state = .initPending) : v.isActive = false := by simp [isActive, h]

theorem isActive_of_cancelled (h : v.state = .cancelled) : v.isActive = v.cancelWasActive := by simp [isActive, h]

theorem isActive_of_running (hin : v.state ≠ .initPending) (hcan : v.state ≠ .cancelled) :
    v.isActive := by
  simp [isActive, hin, hcan]

end VUrb

namespace Core

/-- How many linked requests were initialised. -/
def activeUrbs (c : Core) : Nat := c.urbList.countP fun u => (c.vurbs u).isActive

/-- Every credit is free or with an active request. -/
structure Credit (c : Core) : Prop where
  total : c.remainingActiveRequests + c.activeUrbs = c.maxActiveRequests
  max_le : c.maxActiveRequests ≤ BCE_VHCI_BULK_MAX_ACTIVE_URBS

end Core

/-- A request that ends has a credit and keeps it until it has ended. -/
theorem Final.not_initPending {log : List Event} {u : UrbId} {v v' : VUrb} {status : Int}
    (h : Final log u v v' status) : v.state ≠ .initPending ∧ v'.state ≠ .initPending := by
  cases h with
  | failed _ _ hsa hsta =>
    rw [hsa]
    exact ⟨hsta, hsta⟩
  | done n hac =>
    rw [hac.state]
    exact ⟨by decide, show dataTransferComplete ≠ _ by decide⟩
  | succeeded hsta | cancelled s hsta =>
    rw [hsta]
    exact ⟨by decide, show controlComplete ≠ _ by decide⟩
  | statusFailed hsta => exact ⟨hsta, show controlComplete ≠ _ by decide⟩

namespace Core.Credit

variable {u : UrbId} {c c' : Core} {ph : UrbId → Phase}

section

variable (h : c.Credit)
include h

theorem congr (hls : c'.urbList = c.urbList) (hact : ∀ w, (c'.vurbs w).isActive = (c.vurbs w).isActive)
    (hrem : c'.remainingActiveRequests = c.remainingActiveRequests)
    (hmax : c'.maxActiveRequests = c.maxActiveRequests) : c'.Credit := by
  have hcnt : c'.activeUrbs = c.activeUrbs := by
    unfold Core.activeUrbs
    rw [hls]
    exact List.countP_congr fun w _ => by rw [hact w]
  refine ⟨?_, hmax ▸ h.max_le⟩
  rw [hrem, hcnt, hmax]
  exact h.total

theorem erase (hnd : c.urbList.Nodup) (hu : u ∈ c.urbList) (hls : c'.urbList = c.urbList.erase u)
    (hoths : ∀ w, w ≠ u → c'.vurbs w = c.vurbs w)
    (hrem : c'.remainingActiveRequests = if (c.vurbs u).isActive then add32 c.remainingActiveRequests 1
      else c.remainingActiveRequests)
    (hmax : c'.maxActiveRequests = c.maxActiveRequests) : c'.Credit := by
  obtain ⟨rest, hrs⟩ := exists_others hnd hu fun w => (c.vurbs w).isActive
  have hold : c.activeUrbs = rest + (c.vurbs u).isActive.toNat := (hrs _ fun _ _ => rfl).1
  have hnew : c'.activeUrbs = rest := by
    unfold Core.activeUrbs
    rw [hls]
    exact (hrs _ fun w hw => by rw [hoths w hw]).2
  have htot := h.total
  have hmaxle := h.max_le
  refine ⟨?_, hmax ▸ hmaxle⟩
  rw [hrem, hnew, hmax]
  rw [hold] at htot
  cases hact : (c.vurbs u).isActive with
  | false =>
    rw [hact] at htot
    exact htot
  | true =>
    rw [hact] at htot
    have hlt : c.remainingActiveRequests + 1 < 2 ^ 32 := by
      unfold BCE_VHCI_BULK_MAX_ACTIVE_URBS at hmaxle
      omega
    rw [if_pos rfl, add32_of_lt hlt, add_assoc, add_comm 1 rest]
    exact htot

theorem stays (hnd : c.urbList.Nodup) (hs : Stays u c c')
    (hcred : Credited u c c' (c.vurbs u) (c'.vurbs u)) : c'.Credit := by
  cases hcred with
  | kept hin hrem =>
    refine h.congr hs.urbList (fun w => ?_) hrem hs.maxActiveRequests
    by_cases hw : w = u
    · rw [hw]
      exact isActive_congr hin hs.cancelled hs.wasActive
    · rw [hs.others w hw]
  | taken hu hin hstar hpos hrem =>
    obtain ⟨rest, hrs⟩ := exists_others hnd hu fun w => (c.vurbs w).isActive
    have hcan : (c'.vurbs u).state ≠ .cancelled := by
      intro hsta
      rw [hs.cancelled, hin] at hsta
      cases hsta
    have hold : c.activeUrbs = rest := by
      refine (hrs _ fun _ _ => rfl).1.trans ?_
      rw [isActive_of_initPending hin]
      rfl
    have hnew : c'.activeUrbs = rest + 1 := by
      unfold Core.activeUrbs
      rw [hs.urbList]
      refine (hrs _ fun w hw => by rw [hs.others w hw]).1.trans ?_
      rw [isActive_of_running hstar hcan]
      rfl
    have htot := h.total
    have hmaxle := h.max_le
    unfold BCE_VHCI_BULK_MAX_ACTIVE_URBS at hmaxle
    refine ⟨?_, hs.maxActiveRequests ▸ h.max_le⟩
    rw [hrem, hnew, hs.maxActiveRequests, sub32_of_le hpos (by omega)]
    omega

theorem urbStep (hwf : c.WellFormed) (hsf : CancelSafe c'.log) (hsp : UrbStep u c c') : c'.Credit := by
  have hsf' := CancelSafe.of_suffix _ _ hsp.log_suffix hsf
  rcases hsp.stays_or_complete with ⟨hstays, hcred⟩ | ⟨v, status, hu, hfin, rfl⟩
  · exact h.stays hwf.nodup hstays hcred
  obtain ⟨hsta, hsta'⟩ := hfin.not_initPending
  have hse : ((c.setVurb u v).vurbs u).state ≠ .initPending := by
    rw [vurbs_setVurb_self]
    exact hsta'
  refine h.erase hwf.nodup hu (urbList_urbComplete ..) ?_ ?_ ?_
  · intro w hw
    rw [vurbs_urbComplete]
    exact update_of_ne hw ..
  · rw [isActive_of_running hsta (hfin.not_cancelled hsf'), remaining_urbComplete _ _ _ hse]
    rfl
  · exact maxActiveRequests_urbComplete ..

theorem urbSteps (hwf : c.WellFormed) (hsf : CancelSafe c'.log) (hsts : UrbSteps u c c') : c'.Credit :=
  UrbSteps.guarded_invariant CancelSafe.of_suffix (I := Core.Credit)
    (fun _ _ hwf hsf h hsp => h.urbStep hwf hsf hsp) hsts hwf hsf h

theorem setPipe (d : Direction) (p : Pipe) : (c.setPipe d p).Credit := by
  cases d <;> exact h.congr rfl (fun _ => rfl) rfl rfl

theorem take (d : Direction) (cd : CompletionData) (sq : Sq Entry) : (c.take d cd sq).Credit :=
  (h.setPipe d _).congr rfl (fun _ => rfl) rfl rfl

theorem link (hwf : c.WellFormed) {v : VUrb} (hv : v.state = .initPending) : (c.usbHcdLinkUrbToEp v).Credit := by
  have hold : (c.usbHcdLinkUrbToEp v).activeUrbs = c.activeUrbs := by
    show (c.urbList ++ [c.nextUrb]).countP _ = _
    rw [List.countP_append, List.countP_singleton]
    have hse : ((c.usbHcdLinkUrbToEp v).vurbs c.nextUrb).isActive = false := by
      refine isActive_of_initPending ?_
      show (update c.vurbs c.nextUrb v c.nextUrb).state = _
      rw [update_self, hv]
    rw [hse]
    refine (Nat.add_zero _).trans (List.countP_congr fun w hw => ?_)
    have hne : w ≠ c.nextUrb := (hwf.lt_next w hw).ne
    show (update c.vurbs c.nextUrb v w).isActive ↔ _
    rw [update_of_ne hne]
  refine ⟨?_, h.max_le⟩
  rw [hold]
  exact h.total

theorem mark (hsta : (c.vurbs u).state ≠ .cancelled) (status : Int) : (c.urbMarkCancelled u status).Credit := by
  have hact : ∀ w, ((c.urbMarkCancelled u status).vurbs w).isActive = (c.vurbs w).isActive := by
    intro w
    rw [vurbs_urbMarkCancelled]
    by_cases hw : w = u
    · rw [hw, update_self, isActive_of_cancelled rfl]
      simp [isActive, hsta]
    · rw [update_of_ne hw]
  refine h.congr ?_ hact ?_ ?_ <;> (unfold Core.urbMarkCancelled; simp only; split <;> rfl)

/-- The cancel worker returns the credit of the request it unlinks. -/
theorem unlink (hph : Follows c ph) (hwf : c.WellFormed) {held : Held}
    (heq : c.held = some held) (hst : held.stage = .paused) : (c.cancelUnlink held).Credit := by
  have hp : ph held.urb = .picked := by
    rw [hph.heldPhase held heq, hst]
    rfl
  have hlin : (ph held.urb).isLinked := by
    rw [hp]
    rfl
  have hsta : (c.vurbs held.urb).state = .cancelled := (hph.cancelled _ hlin).2 (by rw [hp]; decide)
  have hact : held.wasActive = (c.vurbs held.urb).cancelWasActive := hph.heldActive held heq (by rw [hst]; rfl)
  refine h.erase hwf.nodup ((hph.linked _).2 hlin) (urbList_cancelUnlink ..)
    (fun w _ => by rw [vurbs_cancelUnlink]) ?_ (maxActiveRequests_cancelUnlink ..)
  rw [remaining_cancelUnlink, isActive_of_cancelled hsta, hact]

theorem step (hph : Follows c ph) (hwf : c.WellFormed) (hsf : CancelSafe c'.log) (hsp : CoreStep c c') : c'.Credit := by
  cases hsp with
  | urb u hurb => exact h.urbStep hwf hsf hurb
  | post d e | flush d => exact h.setPipe d _
  | takeAborted d => exact (h.take d _ _).setPipe d _
  | takeEmpty d => exact h.take d _ _
  | consume d u _ _ _ hsts =>
    rw [Core.notifySubmissionComplete, log_setPipe] at hsf
    exact ((h.take d _ _).urbSteps (hwf.take d _ _) hsf hsts).setPipe d _
  | link urb sgList => exact h.link hwf rfl
  | reject u hu hsta =>
    refine h.erase hwf.nodup hu rfl (fun w _ => rfl) ?_ rfl
    rw [isActive_of_initPending hsta]
    rfl
  | checkUnlink _ _ | pick _ _ _ | goOn | give _ _ _ | free _ _ _ | pop _ _ => exact h.congr rfl (fun _ => rfl) rfl rfl
  | mark u status hu hsta => exact h.mark hsta status
  | unlink held heq hst => exact h.unlink hph hwf heq hst

end

theorem create (endp : Endpoint) : (Core.create endp).Credit := by
  refine ⟨rfl, ?_⟩
  show Endpoint.maxActiveRequests endp ≤ _
  unfold Endpoint.maxActiveRequests
  split <;> decide

end Core.Credit

/-! ## Results -/

/-- If no failed status stage is reported for a request that is being cancelled, the free credits and the active
requests add up to `max_active_requests`. -/
theorem active_request_credit {s : System} (h : tqMachine.Reachable s) (hsafe : CancelSafe s.log) :
    s.remainingActiveRequests + s.activeUrbs = s.maxActiveRequests ∧
      s.remainingActiveRequests ≤ s.maxActiveRequests := by
  have hinv : (∃ ph, Follows s.toCore ph) ∧ s.toCore.Credit := by
    refine System.guarded_invariant CancelSafe.of_suffix (I := fun c => (∃ ph, Follows c ph) ∧ c.Credit) ?_ ?_ h hsafe
    · exact fun endp => ⟨⟨_, Follows.create endp⟩, Core.Credit.create endp⟩
    · rintro c c' hwf hsafe ⟨⟨ph, hph⟩, hcred⟩ hsp
      exact ⟨hph.step hwf hsafe hsp, hcred.step hph hwf hsafe hsp⟩
  have htot := hinv.2.total
  exact ⟨htot, htot ▸ Nat.le_add_right _ _⟩

/-- A cancelled control request has its credit until the cancel worker has unlinked it. -/
theorem active_request_credit_cancelled : ∃ s, tqMachine.Reachable s ∧ CancelSafe s.log ∧ s.activeUrbs = 1 ∧
      (s.remainingActiveRequests + s.activeUrbs = s.maxActiveRequests ∧
        s.remainingActiveRequests ≤ s.maxActiveRequests) := by
  obtain ⟨s, hs, hsf, hact⟩ := Machine.exists_of_run (M := tqMachine)
    (P := fun s => CancelSafe s.log ∧ s.activeUrbs = 1)
    [.enqueue getDescriptor .granted, .dequeue 0 (-104), .cancelPick] ⟨.control, rfl⟩ (by decide)
  exact ⟨s, hs, hsf, hact, active_request_credit hs hsf⟩

/-- A stalled status stage is reported while the cancel worker holds the request: both ends return the credit. -/
theorem active_request_credit_exceeded : ∃ s, tqMachine.Reachable s ∧ s.maxActiveRequests = 1 ∧ s.activeUrbs = 0 ∧
      s.remainingActiveRequests = 2 :=
  Machine.exists_of_run (cancelledControlRun stalledWhileCancelled) ⟨.control, rfl⟩ (by decide)

end KaiT2en.Vhci
