import KaiT2en.Vhci.Ledger

/-!
# Completions and notifications

`bce_vhci_transfer_queue_completion` takes completions off a submission queue and notifies the queue of each, which
frees an element of the ring. Only the branch for a completion that arrives while no request is linked goes on without
a notification. `Paired` counts these completions as dropped (`completion_dropped` is one); every other step keeps the
two in step. `completions_paired_iff` says that a queue gets all its elements back exactly if nothing was dropped.
-/

namespace KaiT2en.Vhci

open KaiT2en.Kernel KaiT2en.Dma KaiT2en.Lib.Transition List Core Event

/-- Whether the event takes a completion of the queue for `d` that nobody can be charged with. -/
def Event.isDropped (d : Direction) : Event → Bool
  | .take d' _ result _ none => d' == d && result != BCE_COMPLETION_ABORTED
  | _ => false

/-- How many completions of the queue for `d` were dropped. -/
def Core.dropped (c : Core) (d : Direction) : Nat := c.log.countP (isDropped d)

/-- The queue for `d` is consistent, and `pending` of the completions it gave out are still to be
notified. -/
structure Paired (c : Core) (d : Direction) (pending : Nat) : Prop where
  consistent : (c.pipe d).sq.Consistent 0
  balance : (c.pipe d).sq.notified + c.dropped d + pending = (c.pipe d).sq.taken

section Dropped

variable {c c' : Core} {d : Direction}

theorem dropped_append {l : List Event} (hlog : c'.log = l ++ c.log)
    (hpl : ∀ e ∈ l, e.isDropped d = false) : c'.dropped d = c.dropped d := by
  have hno : l.countP (isDropped d) = 0 := by
    apply countP_eq_zero.2
    intro e he
    rw [hpl e he]
    decide
  rw [Core.dropped, hlog, countP_append, hno, Nat.zero_add, Core.dropped]

theorem dropped_same (hlog : c'.log = c.log) : c'.dropped d = c.dropped d := by rw [Core.dropped, hlog, Core.dropped]

end Dropped

namespace Paired

variable {u : UrbId} {c c' : Core} {d : Direction} {pending : Nat}

section

variable (h : Paired c d pending)
include h

theorem frame (hsq : (c'.pipe d).sq = (c.pipe d).sq) (hdr : c'.dropped d = c.dropped d) : Paired c' d pending := by
  constructor
  · rw [hsq]
    exact h.consistent
  · rw [hsq, hdr]
    exact h.balance

/-- A submission takes an element of its queue and leaves the other queue alone. -/
theorem pushed {k : Direction} {element : QeSubmission}
    (hpp : ∀ e, c'.pipe e = if e = k then c.pushed k u element else c.pipe e)
    (hfr : 0 < (c.pipe k).sq.availableCommands) (hdr : c'.dropped d = c.dropped d) :
    Paired c' d pending := by
  by_cases hd : d = k
  · subst hd
    have hown := hpp d
    rw [if_pos rfl] at hown
    constructor
    · rw [hown]
      refine Sq.Consistent.nextSubmission (h.consistent.of_counters ?_ ?_) _
      · omega
      · omega
    · rw [hown, hdr]
      exact h.balance
  · have hoth := hpp d
    rw [if_neg hd] at hoth
    exact h.frame (by rw [hoth]) hdr

theorem urbStep (hsp : UrbStep u c c') : Paired c' d pending := by
  cases hsp with
  | latch s =>
    refine h.frame ?_ (dropped_append (c := c) (l := [_]) rfl (forall_mem_singleton.2 rfl))
    rw [Core.latch, pipe_setVurb, pipe_record]
  | setup element _ _ _ hfr =>
    exact h.pushed (c.pipe_sendSetup u element) hfr
      (dropped_append (c := c) (l := [_]) rfl (forall_mem_singleton.2 rfl))
  | quiet v =>
    refine h.frame ?_ (dropped_same ?_)
    · rw [pipe_charge, pipe_setVurb]
    · rw [log_charge, log_setVurb]
  | send d' v element limit n _ _ _ _ hfr =>
    have hlog : ((c.send d' u v element n).charge (c.vurbs u).state .waitingForCompletion).log =
        [.submit d' u v.receiveOffset n v (c.pipe d').liveOwners c.urbList] ++ c.log := by
      rw [log_charge, log_send]
      rfl
    have hpp : ∀ e, ((c.send d' u v element n).charge (c.vurbs u).state
        .waitingForCompletion).pipe e = if e = d' then c.pushed d' u element else c.pipe e := by
      intro e
      rw [pipe_charge, pipe_send]
    exact h.pushed hpp hfr (dropped_append hlog (forall_mem_singleton.2 rfl))
  | request length =>
    refine h.frame ?_ (dropped_append (c := c) (l := [_]) rfl (forall_mem_singleton.2 rfl))
    rw [pipe_record]
  | complete v status =>
    refine h.frame ?_ (dropped_append (c := c) (l := [_, _, _]) (log_urbComplete ..) fun e he => ?_)
    · rw [pipe_urbComplete, pipe_setVurb]
    · simp only [mem_cons, not_mem_nil, or_false] at he
      rcases he with rfl | rfl | rfl <;> rfl

theorem urbSteps (hsts : UrbSteps u c c') : Paired c' d pending :=
  steps_preserve (I := fun c => Paired c d pending) (fun _ _ hc hsp => hc.urbStep hsp) hsts h

theorem setPipe_of_ne {k : Direction} (hne : d ≠ k) (p : Pipe) : Paired (c.setPipe k p) d pending := by
  refine h.frame ?_ (dropped_same ?_)
  · rw [c.pipe_setPipe_of_ne _ _ hne]
  · rw [log_setPipe]

end

theorem notify (h : Paired c d (pending + 1)) : Paired (c.notifySubmissionComplete d) d pending := by
  constructor
  · rw [Core.notifySubmissionComplete, pipe_setPipe]
    exact h.consistent.notifySubmissionComplete
  · have hlog : (c.notifySubmissionComplete d).dropped d = c.dropped d := dropped_same (log_setPipe ..)
    have hbal := h.balance
    rw [hlog, Core.notifySubmissionComplete, pipe_setPipe]
    show (c.pipe d).sq.notified + 1 + _ + _ = (c.pipe d).sq.taken
    omega

theorem take (h : Paired c d pending) {cd : CompletionData} {sq : Sq Entry}
    (hnx : (c.pipe d).sq.nextCompletion = some (cd, sq)) :
    Paired (c.take d cd sq) d
      (if cd.status ≠ BCE_COMPLETION_ABORTED ∧ c.urbList = [] then pending else pending + 1) := by
  obtain ⟨-, hsq⟩ := Sq.nextCompletion_spec hnx
  have hpp : ((c.take d cd sq).pipe d).sq = sq := by rw [Core.take, pipe_record, pipe_setPipe]
  constructor
  · rw [hpp]
    exact h.consistent.nextCompletion hnx
  · have hbal := h.balance
    rw [hpp, hsq, Core.dropped, Core.take, Core.record, countP_cons, log_setPipe]
    show (c.pipe d).sq.notified + (c.dropped d + _) + _ = (c.pipe d).sq.taken + 1
    cases hls : c.urbList with
    | nil =>
      by_cases hst : cd.status = BCE_COMPLETION_ABORTED
      · simp only [hst, isDropped, head?_nil, Option.map_none, ne_eq,
          not_true_eq_false, false_and, if_false, bne_self_eq_false, Bool.and_false,
          Bool.false_eq_true]
        omega
      · simp only [hst, isDropped, head?_nil, Option.map_none, ne_eq,
          not_false_eq_true, and_self, if_true, beq_self_eq_true, bne_iff_ne, Bool.and_eq_true]
        omega
    | cons u rest =>
      simp only [isDropped, head?_cons, Option.map_some, reduceCtorEq, and_false, if_false, Bool.false_eq_true]
      omega

theorem take_of_ne (h : Paired c d pending) {k : Direction} (hne : d ≠ k) (cd : CompletionData)
    (sq : Sq Entry) : Paired (c.take k cd sq) d pending := by
  refine (h.setPipe_of_ne hne _).frame ?_ (dropped_append (l := [_]) rfl fun e he => ?_)
  · rw [Core.take, pipe_record]
  · rw [mem_singleton.1 he]
    cases hls : c.urbList with
    | nil => simp [isDropped, hne.symm]
    | cons u rest => rfl

theorem step (h : ∀ d, Paired c d 0) (hsp : CoreStep c c') (d : Direction) : Paired c' d 0 := by
  cases hsp with
  | urb u hurb => exact (h d).urbStep hurb
  | post k e =>
    by_cases hd : d = k
    · subst hd
      constructor
      · rw [Core.post, pipe_setPipe]
        exact (h d).consistent.handleCqCompletion e
      · have hdr : (c.post d e).dropped d = c.dropped d := dropped_same (log_setPipe ..)
        rw [hdr, Core.post, pipe_setPipe]
        exact (h d).balance
    · exact (h d).setPipe_of_ne hd _
  | flush k =>
    by_cases hd : d = k
    · subst hd
      refine (h d).frame ?_ (dropped_same (log_setPipe ..))
      rw [Core.flush, pipe_setPipe]
    · exact (h d).setPipe_of_ne hd _
  | takeAborted k hnx habor =>
    by_cases hd : d = k
    · subst hd
      have htk := (h d).take hnx
      rw [if_neg fun hboth => hboth.1 habor] at htk
      exact htk.notify
    · exact ((h d).take_of_ne hd _ _).setPipe_of_ne hd _
  | takeEmpty k hnx hst hls =>
    by_cases hd : d = k
    · subst hd
      have htk := (h d).take hnx
      rw [if_pos ⟨hst, hls⟩] at htk
      exact htk
    · exact (h d).take_of_ne hd _ _
  | consume k u hnx _ hls hsts _ =>
    by_cases hd : d = k
    · subst hd
      have htk := (h d).take hnx
      rw [if_neg fun hboth => by rw [hls] at hboth; exact absurd hboth.2 (by simp)] at htk
      exact (htk.urbSteps hsts).notify
    · exact (((h d).take_of_ne hd _ _).urbSteps hsts).setPipe_of_ne hd _
  | link _ _ | checkUnlink _ _ | pick _ | goOn => exact (h d).frame (by cases d <;> rfl) rfl
  | reject u =>
    refine (h d).frame (by cases d <;> rfl) (dropped_append (c := c) (l := [_, _]) rfl fun e he => ?_)
    simp only [mem_cons, not_mem_nil, or_false] at he
    rcases he with rfl | rfl <;> rfl
  | mark u status =>
    refine (h d).frame ?_ (dropped_same (log_urbMarkCancelled ..))
    rw [pipe_urbMarkCancelled]
  | unlink held =>
    refine (h d).frame ?_ (dropped_append (c := c) (l := [_]) (log_cancelUnlink ..) (forall_mem_singleton.2 rfl))
    rw [pipe_cancelUnlink]
  | give _ | free _ | pop _ =>
    exact (h d).frame (by cases d <;> rfl) (dropped_append (c := c) (l := [_]) rfl (forall_mem_singleton.2 rfl))

theorem create (endp : Endpoint) (d : Direction) : Paired (Core.create endp) d 0 := by
  have hfsh : Sq.Consistent (Sq.fresh 0x100 : Sq Entry) 0 := Sq.fresh_consistent (by decide) (by decide)
  cases d <;> exact ⟨hfsh, rfl⟩

end Paired

/-! ## Results -/

/-- In every run the notifications match the completions taken from a queue if and only if no completion was dropped;
once all its submissions are handled, the queue then has all its elements back. -/
theorem completions_paired_iff {s : System} (h : tqMachine.Reachable s) (d : Direction) :
    ((s.pipe d).sq.notified = (s.pipe d).sq.taken ↔ s.dropped d = 0) ∧ ((s.pipe d).sq.taken = (s.pipe d).sq.submitted →
        ((s.pipe d).sq.availableCommands = (s.pipe d).sq.elCount - 1 ∧
          (s.pipe d).sq.head = (s.pipe d).sq.tail ↔ s.dropped d = 0)) := by
  have hinv : Paired s.toCore d 0 :=
    System.invariant (I := fun c => ∀ d, Paired c d 0) Paired.create
      (fun _ _ _ h hsp => Paired.step h hsp) h d
  have hpi := hinv.balance
  have hbal := hinv.consistent.balance
  refine ⟨by omega, fun hall => ⟨fun hfr => by omega, fun hdr => ⟨by omega, ?_⟩⟩⟩
  have hcnt : (s.pipe d).sq.notified = (s.pipe d).sq.submitted := by omega
  rw [hinv.consistent.head_eq, hinv.consistent.tail_eq, hcnt]

/-- The data stage of a control request up to its submission. -/
def controlDataRun : List Action :=
  [.enqueue getDescriptor .granted, .event true ⟨.transferRequest, 0, 0, 8⟩,
    .post .toDevice ⟨0, 8, 0, BCE_COMPLETION_SUCCESS⟩, .completion .toDevice]

/-- A control request is served, and both queues get their elements back. -/
theorem completions_paired_getDescriptor : ∃ s, tqMachine.Reachable s ∧ (s.pipe .fromDevice).sq.submitted = 1 ∧
      (s.pipe .fromDevice).sq.taken = 1 ∧ s.dropped .fromDevice = 0 ∧
      (s.pipe .fromDevice).sq.availableCommands = (s.pipe .fromDevice).sq.elCount - 1 ∧
      (s.pipe .fromDevice).sq.head = (s.pipe .fromDevice).sq.tail := by
  obtain ⟨s, hs, hsub, htak, hdr⟩ := Machine.exists_of_run (M := tqMachine)
    (P := fun s => (s.pipe .fromDevice).sq.submitted = 1 ∧ (s.pipe .fromDevice).sq.taken = 1 ∧
      s.dropped .fromDevice = 0)
    (controlDataRun ++ [.post .fromDevice ⟨0, 18, 0, BCE_COMPLETION_SUCCESS⟩, .completion .fromDevice])
    ⟨.control, rfl⟩ (by decide)
  obtain ⟨-, hall⟩ := completions_paired_iff hs .fromDevice
  exact ⟨s, hs, hsub, htak, hdr, (hall (htak.trans hsub.symm)).2 hdr⟩

/-- The status stage of a control request stalls, which ends the request. The completion of its data submission finds
no request and is dropped: the queue stays one element short. -/
theorem completion_dropped : ∃ s, tqMachine.Reachable s ∧ (s.pipe .fromDevice).sq.submitted = 1 ∧
      (s.pipe .fromDevice).sq.taken = 1 ∧ (s.pipe .fromDevice).sq.notified = 0 ∧
      (s.pipe .fromDevice).sq.elCount = 256 ∧ (s.pipe .fromDevice).sq.availableCommands = 254 ∧
      (s.pipe .fromDevice).sq.head = 0 ∧ (s.pipe .fromDevice).sq.tail = 1 :=
  Machine.exists_of_run (controlDataRun ++ [.event true ⟨.controlTransferStatus, BCE_VHCI_USB_PIPE_STALL, 0, 0⟩,
      .post .fromDevice ⟨0, 18, 0, BCE_COMPLETION_SUCCESS⟩, .completion .fromDevice])
    ⟨.control, rfl⟩ (by decide)

end KaiT2en.Vhci
