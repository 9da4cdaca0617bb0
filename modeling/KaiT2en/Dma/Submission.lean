import KaiT2en.Dma.Reserve
import KaiT2en.Dma.SegmentList
import KaiT2en.Lib.Ring
import KaiT2en.Lib.Total
import KaiT2en.Lib.Transition

/-!
# Accounting of a shared submission ring

Any number of clients reserve, cancel and submit on one queue while the device posts completions
and a handler notifies them; the engine may be disabled and enabled at any moment. Reservations
interleave access by access (`reserveStep`). The other operations are single steps: their callers
hold the lock of the queue.

`Ring.written` records, for every submission in order, the slot it wrote and what it put there.
`ring_accounting` is the accounting of every reachable state; `Ring.Inv.slot_ne_tail`, that the slot
of the next submission is not one of a submission that is still to be notified, follows from it.
-/

namespace KaiT2en.Dma

open KaiT2en.Kernel KaiT2en.Lib KaiT2en.Lib.Transition Ring Option

/-- A client of the ring: inside `t2bce_dma_reserve_submission` or holding what it returned, or done
with its reservation. -/
inductive Client where
  | reserving (call : ReserveCall)
  | finished
  deriving DecidableEq

/-- The reservations of a client: one from the moment its decrement succeeds. -/
def Client.owned : Client → Nat
  | .reserving call => call.pc.owned
  | .finished => 0

/-- A queue, the flag `dma->available` and the clients of the queue. -/
structure Ring where
  sq : Sq QeSubmission
  available : Bool
  clients : List Client
  written : List (Nat × Option QeSubmission)

variable (s : Ring)

def Ring.reservations : Nat := total Client.owned s.clients

/-- Submissions that are not yet notified. -/
def Ring.unnotified : Nat := s.sq.submitted - s.sq.notified

inductive RingAction where
  | call (timeout : Option Nat)
  | reserve (i : Nat) (w : WaitOutcome)
  | cancelReservation (i : Nat)
  | submitSingle (i : Nat) (addr size : Nat)
  | submitSegmentList (i : Nat) (list : SegmentList) (offset size : Nat)
  | post (e : QeCompletion)
  | take
  | notify
  | disable
  | enable

/-- Client `i` has a reservation that `t2bce_dma_reserve_submission` returned to it. -/
def Ring.holds (i : Nat) : Bool :=
  match s.clients[i]? with
  | some (.reserving call) => call.pc == .success
  | _ => false

/-- Client `i` uses its reservation for the submission that turns the queue into `sq`. -/
def Ring.submit (i : Nat) (sq : Sq QeSubmission) : Ring :=
  { s with
    sq := sq
    clients := s.clients.set i .finished
    written := s.written ++ [(s.sq.tail, sq.data s.sq.tail)] }

/-- One step. The device completes each submission once and a completion is notified once. -/
def ringNext : RingAction → Option Ring
  | .call timeout => some { s with clients := s.clients ++ [.reserving ⟨.enter, timeout⟩] }
  | .reserve i w =>
    match s.clients[i]? with
    | some (.reserving call) =>
      (reserveStep s.available w s.sq call).map fun r =>
        { s with sq := r.1, clients := s.clients.set i (.reserving r.2) }
    | _ => none
  | .cancelReservation i =>
    if s.holds i then
      some { s with
        sq := s.sq.cancelSubmissionReservation
        clients := s.clients.set i .finished }
    else none
  | .submitSingle i addr size =>
    if s.holds i then some (s.submit i (s.sq.setNextSubmissionSingle id addr size)) else none
  | .submitSegmentList i list offset size =>
    if s.holds i then
      match s.sq.setNextSubmissionSegmentList id list offset size with
      | .ok r => some (s.submit i r.1)
      -- the client keeps its reservation
      | .error _ => some s
    else none
  | .post e => if s.sq.posted < s.sq.submitted then some { s with sq := s.sq.handleCqCompletion e } else none
  | .take => s.sq.nextCompletion.map fun r => { s with sq := r.2 }
  | .notify =>
    if s.sq.notified < s.sq.taken then some { s with sq := s.sq.notifySubmissionComplete }
    else none
  | .disable => some { s with available := false }
  | .enable => some { s with available := true }

/-- The runs of a ring that `t2bce_dma_alloc_sq` created with at least two elements. -/
def ringMachine : Machine Ring RingAction where
  init s := (∃ mem elSize elCount, 2 ≤ elCount ∧ allocSq mem elSize elCount = some s.sq) ∧
    s.clients = [] ∧ s.written = []
  next := ringNext

/-! ## The invariant -/

/-- The accounting, the order of the four histories, and what the slots hold. -/
structure Ring.Inv : Prop where
  consistent : s.sq.Consistent s.reservations
  notified_le : s.sq.notified ≤ s.sq.taken
  taken_le : s.sq.taken ≤ s.sq.posted
  posted_le : s.sq.posted ≤ s.sq.submitted
  length : s.written.length = s.sq.submitted
  slot : ∀ k w, s.written[k]? = some w → w.1 = k % s.sq.elCount
  kept : ∀ k w, s.sq.notified ≤ k → s.written[k]? = some w → s.sq.data w.1 = w.2

variable {s : Ring}

theorem Ring.inv_init (h : ringMachine.init s) : s.Inv := by
  obtain ⟨⟨mem, elSize, elCount, h2, hall⟩, hclien, hwrn⟩ := h
  obtain ⟨hsq, hlt⟩ := elCount_le_of_allocSq hall
  have hc : s.sq.Consistent 0 := hsq ▸ Sq.fresh_consistent h2 hlt
  refine ⟨?_, ?_, ?_, ?_, ?_, ?_, ?_⟩
  · rw [reservations, hclien]
    exact hc
  all_goals simp [hsq, hwrn, Sq.fresh]

theorem Ring.Inv.of_frame {s t : Ring} (h : s.Inv) (hc : t.sq.Consistent t.reservations)
    (hwrn : t.written = s.written) (hda : t.sq.data = s.sq.data) (hel : t.sq.elCount = s.sq.elCount)
    (hsub : t.sq.submitted = s.sq.submitted) (hps : t.sq.posted = s.sq.posted) (htk : t.sq.taken = s.sq.taken)
    (hnot : t.sq.notified = s.sq.notified) : t.Inv where
  consistent := hc
  notified_le := by rw [hnot, htk]; exact h.notified_le
  taken_le := by rw [htk, hps]; exact h.taken_le
  posted_le := by rw [hps, hsub]; exact h.posted_le
  length := by rw [hwrn, hsub]; exact h.length
  slot := by rw [hwrn, hel]; exact h.slot
  kept := by rw [hwrn, hda, hnot]; exact h.kept

theorem Ring.client_of_holds {i : Nat} (h : s.holds i) :
    ∃ timeout, s.clients[i]? = some (.reserving ⟨.success, timeout⟩) := by
  unfold holds at h
  split at h
  · rename_i call hca
    obtain ⟨pc, timeout⟩ := call
    simp only [beq_iff_eq] at h
    subst h
    exact ⟨timeout, hca⟩
  · cases h

theorem Ring.reservations_of_holds {i : Nat} (h : s.holds i) : ∃ others, s.reservations = others + 1 ∧
      total Client.owned (s.clients.set i .finished) = others := by
  obtain ⟨timeout, hi⟩ := s.client_of_holds h
  obtain ⟨others, htot, hset⟩ := exists_rest Client.owned hi
  exact ⟨others, htot, hset .finished⟩

/-- No submission that is still to be notified occupies the slot at `tail` while somebody holds a
reservation. -/
theorem Ring.Inv.slot_ne_tail (h : s.Inv) (hres : 0 < s.reservations) {k : Nat}
    {w : Nat × Option QeSubmission} (hk : s.sq.notified ≤ k) (hw : s.written[k]? = some w) :
    w.1 ≠ s.sq.tail := by
  have hlt : k < s.sq.submitted := by
    rw [← h.length]
    exact (List.getElem?_eq_some_iff.1 hw).1
  have hrm := h.consistent.submitted_lt hres
  rw [h.slot k w hw, h.consistent.tail_eq]
  exact slot_ne hlt (by omega)

theorem Ring.Inv.submit (h : s.Inv) {i : Nat} (hi : s.holds i)
    (element : QeSubmission) : (s.submit i (s.sq.nextSubmission element)).Inv := by
  obtain ⟨others, hres, hset⟩ := s.reservations_of_holds hi
  have hc : s.sq.Consistent (others + 1) := hres ▸ h.consistent
  refine ⟨?_, h.notified_le, h.taken_le, Nat.le_succ_of_le h.posted_le, ?_, ?_, ?_⟩
  · show (s.sq.nextSubmission element).Consistent (total Client.owned (s.clients.set i .finished))
    rw [hset]
    exact hc.nextSubmission element
  · simp [Ring.submit, Sq.nextSubmission, h.length]
  · -- the new entry is the one at index `submitted`, whose slot is `tail`
    intro k w hw
    rcases getElem?_concat_cases hw with hold | ⟨hk, rfl⟩
    · exact h.slot k w hold
    · show s.sq.tail = k % s.sq.elCount
      rw [hc.tail_eq, hk, h.length]
  · intro k w hk hw
    rcases getElem?_concat_cases hw with hold | ⟨-, rfl⟩
    · show Function.update s.sq.data s.sq.tail (some element) w.1 = w.2
      rw [Function.update_of_ne (h.slot_ne_tail (by omega) hk hold)]
      exact h.kept k w hk hold
    · rfl

theorem Ring.Inv.step {s t : Ring} {a : RingAction} (h : s.Inv) (hst : ringNext s a = some t) :
    t.Inv := by
  cases a with
  | call timeout =>
    cases hst
    refine h.of_frame ?_ rfl rfl rfl rfl rfl rfl rfl
    simpa [reservations, Client.owned, ReservePc.owned] using h.consistent
  | reserve i w =>
    simp only [ringNext] at hst
    split at hst
    · rename_i call hi
      simp only [map_eq_some_iff] at hst
      obtain ⟨⟨sq', call'⟩, hr, rfl⟩ := hst
      obtain ⟨others, htot, hset⟩ := exists_rest Client.owned hi
      have hc : s.sq.Consistent (others + call.pc.owned) := by
        have := h.consistent
        rwa [reservations, htot] at this
      have hc' := reserveStep_consistent hr hc
      obtain ⟨free, waiting, done, rfl⟩ := reserveStep_frame hr
      refine h.of_frame ?_ rfl rfl rfl rfl rfl rfl rfl
      rw [reservations, hset]
      exact hc'
    · cases hst
  | cancelReservation i =>
    simp only [ringNext] at hst
    split at hst
    · rename_i hi
      cases hst
      obtain ⟨others, hres, hset⟩ := s.reservations_of_holds hi
      refine h.of_frame ?_ rfl rfl rfl rfl rfl rfl rfl
      rw [reservations, hset]
      exact (hres ▸ h.consistent).cancelSubmissionReservation
    · cases hst
  | submitSingle i addr size =>
    simp only [ringNext] at hst
    split at hst
    · rename_i hi
      cases hst
      exact h.submit hi _
    · cases hst
  | submitSegmentList i list offset size =>
    simp only [ringNext] at hst
    split at hst
    · rename_i hi
      cases hr : s.sq.setNextSubmissionSegmentList id list offset size with
      | error e =>
        simp only [hr, some.injEq] at hst
        exact hst ▸ h
      | ok r =>
        simp only [hr, some.injEq] at hst
        subst hst
        obtain ⟨⟨element, -, hsq⟩, -⟩ := Sq.setNextSubmissionSegmentList_ok hr
        rw [hsq]
        exact h.submit hi element
    · cases hst
  | post e =>
    simp only [ringNext] at hst
    split at hst
    · rename_i hlt
      cases hst
      exact
        { h with
          consistent := h.consistent.handleCqCompletion e
          taken_le := Nat.le_succ_of_le h.taken_le
          posted_le := hlt }
    · cases hst
  | take =>
    simp only [ringNext, map_eq_some_iff] at hst
    obtain ⟨⟨c, sq'⟩, hn, rfl⟩ := hst
    have hc := h.consistent.nextCompletion hn
    obtain ⟨⟨hne, -⟩, rfl⟩ := Sq.nextCompletion_spec hn
    have hlt : s.sq.taken < s.sq.posted := by
      refine lt_of_le_of_ne h.taken_le fun heq => hne ?_
      rw [h.consistent.cidx_eq, h.consistent.ctail_eq, heq]
    exact
      { h with
        consistent := hc
        notified_le := Nat.le_succ_of_le h.notified_le
        taken_le := hlt }
  | notify =>
    simp only [ringNext] at hst
    split at hst
    · rename_i hlt
      cases hst
      exact
        { h with
          consistent := h.consistent.notifySubmissionComplete
          notified_le := hlt
          kept := fun k w hk hw => h.kept k w (Nat.le_of_succ_le hk) hw }
    · cases hst
  | disable | enable =>
    cases hst
    exact h.of_frame h.consistent rfl rfl rfl rfl rfl rfl rfl

theorem Ring.inv_of_reachable (h : ringMachine.Reachable s) : s.Inv :=
  h.invariant (fun _ hi => inv_init hi) fun _ _ _ _ _ hinv hst => hinv.step hst

/-! ## Main results -/

/-- In every reachable state the free elements, the reservations and the submissions that are not notified make up the
capacity; `tail` is `head` plus the latter; each of them has its slot to itself, and no client about to submit writes
to one of them. -/
theorem ring_accounting {s : Ring} (h : ringMachine.Reachable s) :
    s.sq.availableCommands + s.reservations + s.unnotified = s.sq.elCount - 1 ∧
      s.sq.tail = (s.sq.head + s.unnotified) % s.sq.elCount ∧
      (∀ k w, s.sq.notified ≤ k → s.written[k]? = some w → s.sq.data w.1 = w.2) ∧
      ∀ i, s.holds i = true → ∀ k w, s.sq.notified ≤ k → s.written[k]? = some w → w.1 ≠ s.sq.tail := by
  have hinv := Ring.inv_of_reachable h
  have hle : s.sq.notified ≤ s.sq.submitted := hinv.notified_le.trans (hinv.taken_le.trans hinv.posted_le)
  refine ⟨?_, hinv.consistent.tail_eq_head_add hle, hinv.kept, ?_⟩
  · have := hinv.consistent.balance
    simp only [Ring.unnotified]
    omega
  · intro i hi k w hk hw
    obtain ⟨others, hres, -⟩ := s.reservations_of_holds hi
    exact hinv.slot_ne_tail (by omega) hk hw

/-- A fresh ring of `elCount` elements on an enabled engine. -/
def Ring.start (elCount : Nat) : Ring := ⟨Sq.fresh elCount, true, [], []⟩

theorem Ring.start_init {elCount : Nat} (h2 : 2 ≤ elCount) (hle : elCount ≤ 2 ^ 17) :
    ringMachine.init (start elCount) := by
  refine ⟨⟨Allocator.generous, 16, elCount, h2, ?_⟩, rfl, rfl⟩
  have hsq : sizeofSq ≤ KMALLOC_MAX_SIZE := by decide
  have hda : sizeofSqCompletionData * elCount ≤ KMALLOC_MAX_SIZE := by
    simp only [sizeofSqCompletionData, KMALLOC_MAX_SIZE]
    omega
  simp [allocSq, Allocator.generous, hsq, hda, start]

/-- Two clients fill a ring of three elements, and the engine is disabled while a third one waits for the first
completion. -/
def fullRingRun : List RingAction :=
  [.call none, .call none, .call (some 9)] ++
    List.replicate 3 (.reserve 0 .expire) ++ List.replicate 3 (.reserve 1 .expire) ++
    List.replicate 4 (.reserve 2 .expire) ++
    [.submitSingle 0 4096 64, .post ⟨0, 64, 0, 0⟩, .take, .disable, .notify, .reserve 2 (.wake 5), .reserve 2 .expire]

theorem ring_accounting_fullRingRun : ∃ s, ringMachine.run (Ring.start 3) fullRingRun = some s ∧
      s.unnotified = 0 ∧ s.reservations = 1 ∧ s.holds 1 = true ∧
      s.sq.availableCommands + s.reservations + s.unnotified = s.sq.elCount - 1 ∧
      s.sq.tail = (s.sq.head + s.unnotified) % s.sq.elCount := by
  obtain ⟨s, hrun⟩ : ∃ s, ringMachine.run (Ring.start 3) fullRingRun = some s := ⟨_, rfl⟩
  have hs : ringMachine.Reachable s :=
    Machine.reach_of_run (Machine.Reach.init (Ring.start_init (by decide) (by decide))) hrun
  have hfac : (ringMachine.run (Ring.start 3) fullRingRun).map
      (fun s => (s.unnotified, s.reservations, s.holds 1)) = some (0, 1, true) := by decide
  simp only [hrun, map_some, some.injEq, Prod.mk.injEq] at hfac
  have hacc := ring_accounting hs
  exact ⟨s, hrun, hfac.1, hfac.2.1, hfac.2.2, hacc.1, hacc.2.1⟩

end KaiT2en.Dma
