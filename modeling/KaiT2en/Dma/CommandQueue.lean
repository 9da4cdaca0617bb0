import KaiT2en.Dma.Reserve
import KaiT2en.Lib.Ring
import KaiT2en.Lib.Total
import KaiT2en.Lib.Transition

/-!
# The BCE command queue

`struct bce_queue_cmdq` with any number of callers of `t2bce_dma_cmd_start` and `t2bce_dma_cmd_finish`, their
timeouts, the device and the completion handler. The sections under `cmdq->lck` are single steps, and so are the
notification that a timed-out caller makes without the lock and an iteration of the handler's loop. The device
completes the commands in order, each once, at any later time.

A caller's `own` is the number of its command, `replies` lists what the device answered, and `entry` says which of
these answers a slot of the completion table holds. The driver reads none of the three.

Every timed-out caller adds one free element that the ring does not have, so the queue returns to exactly
`el_count - 1` free elements if and only if no caller timed out (`cmdq_capacity`).
-/

namespace KaiT2en.Dma

open KaiT2en.Kernel KaiT2en.Lib KaiT2en.Lib.Transition Option Function

/-- `struct bce_queue_cmdq_result_el`. -/
structure ResultEl where
  cmpl : Bool
  status : Nat
  result : Nat
  slot : Nat
  generation : Nat
  deriving DecidableEq, Repr, Inhabited

/-- Where a caller of a command function is. -/
inductive CallerPc where
  /-- Inside `t2bce_dma_reserve_submission`, or refused by it. -/
  | reserving (call : ReserveCall)
  /-- In `wait_for_completion_timeout`. -/
  | waiting
  /-- The wait returned 0. -/
  | expired
  /-- The slot is given up, the submission is not yet notified. -/
  | cleared
  /-- `t2bce_dma_cmd_finish` returned `-ETIMEDOUT`. -/
  | timedOut
  /-- `t2bce_dma_cmd_finish` returned 0. -/
  | succeeded
  deriving DecidableEq, Repr

/-- A caller, its command and its result element. -/
structure Caller (γ : Type) where
  command : γ
  pc : CallerPc
  res : ResultEl
  own : Nat

/-- `struct bce_queue_cmdq` with its callers, the flag `dma->available` and the history. -/
structure Cmdq (γ : Type) where
  sq : Sq γ
  tres : Nat → Option Nat
  slotGen : Nat → Nat
  available : Bool
  callers : List (Caller γ)
  replies : List CompletionData
  entry : Nat → Nat

variable {γ : Type}

def BCE_CMD_SIZE : Nat := 0x40

/-- `sizeof(struct bce_queue_cmdq)`; only the success of its allocation matters. -/
def sizeofCmdq : Nat := 48

def allocCmdq (mem : Allocator) (elCount : Nat) : Option (Cmdq γ) :=
  if !mem.kzalloc sizeofCmdq then none
  else
    match allocSq mem BCE_CMD_SIZE elCount with
    | none => none
    | some sq =>
      if mem.kzalloc (8 * elCount) && mem.kzalloc (4 * elCount) then
        some
          { sq := sq, tres := fun _ => none, slotGen := fun _ => 0, available := true
            callers := [], replies := [], entry := fun _ => 0 }
      else none

/-- `msecs_to_jiffies` at the usual tick rate of 1000 Hz. -/
def msecsToJiffies (msecs : Nat) : Nat := msecs

/-- A call of `t2bce_dma_cmd_start`, before its reservation. -/
def Caller.start (command : γ) : Caller γ :=
  { command, pc := .reserving ⟨.enter, some (msecsToJiffies (1000 * 60 * 5))⟩
    res := default, own := 0 }

variable (s : Cmdq γ) (i : Nat)

/-- The locked section of `t2bce_dma_cmd_start` and `t2bce_dma_cmd_finish`, with the command that
the caller writes into the element in between. -/
def Cmdq.submitCommand (c : Caller γ) : Cmdq γ :=
  { s with
    callers := s.callers.set i
      { c with
        pc := .waiting
        res := { c.res with
          cmpl := false, slot := s.sq.tail, generation := s.slotGen s.sq.tail }
        own := s.sq.submitted }
    tres := update s.tres s.sq.tail (some i)
    sq := s.sq.nextSubmission c.command }

/-- The effect of `t2bce_dma_cmdq_completion` on the result element found at the head. -/
def Caller.deliver (slotGen : Nat) (result : CompletionData) (c : Caller γ) : Caller γ :=
  if c.res.generation = slotGen then
    { c with
      res := { c.res with result := result.result, status := result.status, cmpl := true } }
  else c

/-- The body of the loop of `t2bce_dma_cmdq_completion`: `result` was read from the queue, which is
now `sq`. -/
def Cmdq.completed (result : CompletionData) (sq : Sq γ) : Cmdq γ :=
  { s with
    callers :=
      match s.tres sq.head with
      | none => s.callers
      | some j => s.callers.modify j (Caller.deliver (s.slotGen sq.head) result)
    tres := update s.tres sq.head none
    sq := sq.notifySubmissionComplete }

/-- One iteration of the loop of `t2bce_dma_cmdq_completion`. -/
def Cmdq.cmdqCompletion : Option (Cmdq γ) := s.sq.nextCompletion.map fun r => s.completed r.1 r.2

/-- The locked part of the timeout path of `t2bce_dma_cmd_finish`. -/
def Cmdq.giveUpSlot (c : Caller γ) : Cmdq γ :=
  { s with
    callers := s.callers.set i { c with pc := .cleared }
    tres := update s.tres c.res.slot none
    slotGen := update s.slotGen c.res.slot (add32 (s.slotGen c.res.slot) 1) }

/-- The device answers the next command, which the interrupt handler records. -/
def Cmdq.posted (s : Cmdq γ) (reply : CompletionData) : Cmdq γ :=
  { s with
    sq := s.sq.handleCqCompletion
      { result := reply.result, dataSize := reply.dataSize, status := reply.status
        completionIndex := s.sq.posted % s.sq.elCount }
    replies := s.replies ++ [reply]
    entry := update s.entry s.sq.completionTail s.sq.posted }

/-- Move caller `i`, which is `c`, to `pc`. -/
def Cmdq.move (c : Caller γ) (pc : CallerPc) : Cmdq γ := { s with callers := s.callers.set i { c with pc } }

inductive CmdqAction (γ : Type) where
  | call (command : γ)
  | reserve (i : Nat) (w : WaitOutcome)
  | submit (i : Nat)
  | post (reply : CompletionData)
  | complete
  | wake (i : Nat)
  | expire (i : Nat)
  | giveUp (i : Nat)
  | notifyTimeout (i : Nat)
  | disable
  | enable

/-- The step that caller `i`, which is `c`, takes by `a`. -/
def Cmdq.callerNext (c : Caller γ) : CmdqAction γ → Option (Cmdq γ)
  | .reserve _ w =>
    match c.pc with
    | .reserving call =>
      (reserveStep s.available w s.sq call).map fun r => { s.move i c (.reserving r.2) with sq := r.1 }
    | _ => none
  | .submit _ =>
    match c.pc with
    | .reserving call => if call.pc = .success then some (s.submitCommand i c) else none
    | _ => none
  | .wake _ => if c.pc = .waiting ∧ c.res.cmpl then some (s.move i c .succeeded) else none
  | .expire _ => if c.pc = .waiting ∧ !c.res.cmpl then some (s.move i c .expired) else none
  | .giveUp _ => if c.pc = .expired then some (s.giveUpSlot i c) else none
  | .notifyTimeout _ =>
    if c.pc = .cleared then some { s.move i c .timedOut with sq := s.sq.notifySubmissionComplete }
    else none
  | _ => none

def CmdqAction.caller : CmdqAction γ → Option Nat
  | .reserve i _ | .submit i | .wake i | .expire i | .giveUp i | .notifyTimeout i => some i
  | _ => none

/-- One step of the queue, its callers or the device. -/
def cmdqNext (a : CmdqAction γ) : Option (Cmdq γ) :=
  match a with
  | .call command => some { s with callers := s.callers ++ [Caller.start command] }
  | .post reply => if s.sq.posted < s.sq.submitted then some (s.posted reply) else none
  | .complete => s.cmdqCompletion
  | .disable => some { s with available := false }
  | .enable => some { s with available := true }
  | _ => a.caller.bind fun i => s.callers[i]?.bind fun c => s.callerNext i c a

/-- The runs of a command queue of at least two elements. -/
def cmdqMachine (γ : Type) : Machine (Cmdq γ) (CmdqAction γ) where
  init s := ∃ mem elCount, 2 ≤ elCount ∧ allocCmdq mem elCount = some s
  next := cmdqNext

/-! ## What a step can do -/

/-- The steps of `cmdqNext` with their conditions. -/
inductive CmdqStep (s : Cmdq γ) : CmdqAction γ → Cmdq γ → Prop
  | call (command : γ) : CmdqStep s (.call command) { s with callers := s.callers ++ [Caller.start command] }
  | reserve {i : Nat} {w : WaitOutcome} {c : Caller γ} {call call' : ReserveCall} {sq : Sq γ} :
      s.callers[i]? = some c → c.pc = .reserving call →
      reserveStep s.available w s.sq call = some (sq, call') →
      CmdqStep s (.reserve i w) { s.move i c (.reserving call') with sq := sq }
  | submit {i : Nat} {c : Caller γ} {call : ReserveCall} :
      s.callers[i]? = some c → c.pc = .reserving call → call.pc = .success →
      CmdqStep s (.submit i) (s.submitCommand i c)
  | post (reply : CompletionData) : s.sq.posted < s.sq.submitted → CmdqStep s (.post reply) (s.posted reply)
  | complete {result : CompletionData} {sq : Sq γ} :
      s.sq.nextCompletion = some (result, sq) → CmdqStep s .complete (s.completed result sq)
  | wake {i : Nat} {c : Caller γ} : s.callers[i]? = some c → c.pc = .waiting → c.res.cmpl = true →
      CmdqStep s (.wake i) (s.move i c .succeeded)
  | expire {i : Nat} {c : Caller γ} : s.callers[i]? = some c → c.pc = .waiting → c.res.cmpl = false →
      CmdqStep s (.expire i) (s.move i c .expired)
  | giveUp {i : Nat} {c : Caller γ} :
      s.callers[i]? = some c → c.pc = .expired → CmdqStep s (.giveUp i) (s.giveUpSlot i c)
  | notifyTimeout {i : Nat} {c : Caller γ} : s.callers[i]? = some c → c.pc = .cleared → CmdqStep s (.notifyTimeout i)
        { s.move i c .timedOut with sq := s.sq.notifySubmissionComplete }
  | disable : CmdqStep s .disable { s with available := false }
  | enable : CmdqStep s .enable { s with available := true }

theorem cmdqStep_of_next {s t : Cmdq γ} {a : CmdqAction γ} (h : cmdqNext s a = some t) :
    CmdqStep s a t := by
  cases a with
  | call command => cases h; exact CmdqStep.call command
  | disable => cases h; exact CmdqStep.disable
  | enable => cases h; exact CmdqStep.enable
  | post reply =>
    simp only [cmdqNext, ite_none_right_eq_some, Option.some.injEq] at h
    obtain ⟨hlt, rfl⟩ := h
    exact CmdqStep.post reply hlt
  | complete =>
    simp only [cmdqNext, Cmdq.cmdqCompletion, map_eq_some_iff] at h
    obtain ⟨⟨result, sq⟩, hn, rfl⟩ := h
    exact CmdqStep.complete hn
  | reserve i w =>
    simp only [cmdqNext, CmdqAction.caller, bind_some, bind_eq_some_iff, Cmdq.callerNext] at h
    obtain ⟨c, hc, h⟩ := h
    split at h
    · rename_i call hpc
      obtain ⟨⟨sq, call'⟩, hr, rfl⟩ := map_eq_some_iff.1 h
      exact CmdqStep.reserve hc hpc hr
    · cases h
  | submit i =>
    simp only [cmdqNext, CmdqAction.caller, bind_some, bind_eq_some_iff, Cmdq.callerNext] at h
    obtain ⟨c, hc, h⟩ := h
    split at h
    · rename_i call hpc
      simp only [ite_none_right_eq_some, Option.some.injEq] at h
      obtain ⟨hs, rfl⟩ := h
      exact CmdqStep.submit hc hpc hs
    · cases h
  | wake i =>
    simp only [cmdqNext, CmdqAction.caller, bind_some, bind_eq_some_iff,
      Cmdq.callerNext, ite_none_right_eq_some, Option.some.injEq] at h
    obtain ⟨c, hc, ⟨hpc, hcl⟩, rfl⟩ := h
    exact CmdqStep.wake hc hpc hcl
  | expire i =>
    simp only [cmdqNext, CmdqAction.caller, bind_some, bind_eq_some_iff,
      Cmdq.callerNext, ite_none_right_eq_some, Option.some.injEq,
      Bool.not_eq_true'] at h
    obtain ⟨c, hc, ⟨hpc, hcl⟩, rfl⟩ := h
    exact CmdqStep.expire hc hpc hcl
  | giveUp i =>
    simp only [cmdqNext, CmdqAction.caller, bind_some, bind_eq_some_iff,
      Cmdq.callerNext, ite_none_right_eq_some, Option.some.injEq] at h
    obtain ⟨c, hc, hpc, rfl⟩ := h
    exact CmdqStep.giveUp hc hpc
  | notifyTimeout i =>
    simp only [cmdqNext, CmdqAction.caller, bind_some, bind_eq_some_iff,
      Cmdq.callerNext, ite_none_right_eq_some, Option.some.injEq] at h
    obtain ⟨c, hc, hpc, rfl⟩ := h
    exact CmdqStep.notifyTimeout hc hpc

/-! ## Capacity -/

/-- The elements a caller owns without having submitted. -/
def CallerPc.owned : CallerPc → Nat
  | .reserving call => call.pc.owned
  | _ => 0

/-- One for a caller that took the timeout path to its end. -/
def CallerPc.late : CallerPc → Nat
  | .timedOut => 1
  | _ => 0

/-- The total of `w` over the callers. -/
def Cmdq.weigh (w : CallerPc → Nat) : Nat := total (fun c => w c.pc) s.callers

def Cmdq.reservations : Nat := s.weigh CallerPc.owned

/-- Callers whose `t2bce_dma_cmd_finish` returned `-ETIMEDOUT`. -/
def Cmdq.timeouts : Nat := s.weigh CallerPc.late

/-- The free count follows the submissions and the notifications, and there is one notification for
each completion read and for each timeout. -/
structure Cmdq.Accounted : Prop where
  consistent : s.sq.Consistent s.reservations
  posted_le : s.sq.posted ≤ s.sq.submitted
  taken_le : s.sq.taken ≤ s.sq.posted
  notified_eq : s.sq.notified = s.sq.taken + s.timeouts

variable {s : Cmdq γ}

theorem allocCmdq_spec {mem : Allocator} {elCount : Nat} (h : allocCmdq mem elCount = some s) :
    s = { sq := Sq.fresh elCount, tres := fun _ => none, slotGen := fun _ => 0, available := true
          callers := [], replies := [], entry := fun _ => 0 } ∧ elCount < 2 ^ 18 := by
  unfold allocCmdq at h
  split at h
  · cases h
  split at h
  · cases h
  rename_i sq hsq
  obtain ⟨rfl, hlt⟩ := elCount_le_of_allocSq hsq
  simp only [ite_none_right_eq_some, Option.some.injEq] at h
  exact ⟨h.2.symm, hlt⟩

theorem Cmdq.accounted_init (h : (cmdqMachine γ).init s) : s.Accounted := by
  obtain ⟨mem, elCount, h2, hall⟩ := h
  obtain ⟨rfl, hlt⟩ := allocCmdq_spec hall
  exact ⟨Sq.fresh_consistent h2 hlt, Nat.le_refl 0, Nat.le_refl 0, rfl⟩

theorem Cmdq.weigh_completed (s : Cmdq γ) (w : CallerPc → Nat) (result : CompletionData)
    (sq : Sq γ) : (s.completed result sq).weigh w = s.weigh w := by
  simp only [Cmdq.weigh, Cmdq.completed]
  split
  · rfl
  · refine total_modify (fun c => ?_) _ _
    unfold Caller.deliver
    split <;> rfl

theorem Cmdq.Accounted.taken_lt (h : s.Accounted) {result : CompletionData}
    {sq : Sq γ} (hn : s.sq.nextCompletion = some (result, sq)) : s.sq.taken < s.sq.posted := by
  obtain ⟨⟨hne, -⟩, -⟩ := Sq.nextCompletion_spec hn
  refine lt_of_le_of_ne h.taken_le fun heq => hne ?_
  rw [h.consistent.cidx_eq, h.consistent.ctail_eq, heq]

theorem Cmdq.Accounted.of_caller (h : s.Accounted) {i : Nat} {c : Caller γ}
    {pc : CallerPc} (hc : s.callers[i]? = some c) (hpc : c.pc = pc) :
    ∃ others late, s.sq.Consistent (others + pc.owned) ∧ s.sq.notified = s.sq.taken + (late + pc.late) ∧
      ∀ (t : Cmdq γ) (c' : Caller γ), t.callers = s.callers.set i c' →
        t.reservations = others + c'.pc.owned ∧ t.timeouts = late + c'.pc.late := by
  subst hpc
  obtain ⟨others, hres, hset⟩ := exists_rest (fun c : Caller γ => c.pc.owned) hc
  obtain ⟨late, hlate, hset'⟩ := exists_rest (fun c : Caller γ => c.pc.late) hc
  refine ⟨others, late, ?_, ?_, ?_⟩
  · rw [← hres]
    exact h.consistent
  · rw [← hlate]
    exact h.notified_eq
  · intro t c' ht
    exact ⟨by rw [Cmdq.reservations, Cmdq.weigh, ht, hset], by rw [Cmdq.timeouts, Cmdq.weigh, ht, hset']⟩

theorem Cmdq.timeouts_set {s t : Cmdq γ} {i : Nat} {c c' : Caller γ} (hc : s.callers[i]? = some c)
    (hlate : c'.pc.late = c.pc.late) (hcal : t.callers = s.callers.set i c') : t.timeouts = s.timeouts := by
  obtain ⟨rest, htot, hset⟩ := exists_rest (fun c : Caller γ => c.pc.late) hc
  rw [Cmdq.timeouts, Cmdq.weigh, hcal, hset, Cmdq.timeouts, Cmdq.weigh, htot, hlate]

/-- A caller that only waits owns nothing, so moving it keeps the accounting. -/
theorem Cmdq.Accounted.move {s t : Cmdq γ} (h : s.Accounted) {i : Nat} {c c' : Caller γ} (hc : s.callers[i]? = some c)
    (hown : c'.pc.owned = c.pc.owned) (hlate : c'.pc.late = c.pc.late) (hcal : t.callers = s.callers.set i c')
    (hsq : t.sq = s.sq) : t.Accounted := by
  obtain ⟨others, late, hcn, hnot, hset⟩ := h.of_caller hc rfl
  obtain ⟨hres, hti⟩ := hset t c' hcal
  refine ⟨?_, ?_, ?_, ?_⟩
  · rw [hsq, hres, hown]
    exact hcn
  · rw [hsq]
    exact h.posted_le
  · rw [hsq]
    exact h.taken_le
  · rw [hsq, hti, hlate]
    exact hnot

theorem Cmdq.Accounted.step {s t : Cmdq γ} {a : CmdqAction γ} (h : s.Accounted)
    (hst : CmdqStep s a t) : t.Accounted := by
  cases hst with
  | call command =>
    refine ⟨?_, h.posted_le, h.taken_le, ?_⟩
    · simpa [Cmdq.reservations, Cmdq.weigh, Caller.start, CallerPc.owned, ReservePc.owned] using h.consistent
    · simpa [Cmdq.timeouts, Cmdq.weigh, Caller.start, CallerPc.late] using h.notified_eq
  | @reserve i w c call call' sq hc hpc hr =>
    obtain ⟨others, late, hcn, hnot, hset⟩ := h.of_caller hc hpc
    obtain ⟨hres, hti⟩ := hset { s.move i c (.reserving call') with sq := sq } _ rfl
    have hcn' := reserveStep_consistent hr hcn
    obtain ⟨free, waiting, done, rfl⟩ := reserveStep_frame hr
    refine ⟨?_, h.posted_le, h.taken_le, ?_⟩
    · rw [hres]
      exact hcn'
    · rw [hti]
      exact hnot
  | @submit i c call hc hpc hca =>
    obtain ⟨others, late, hcn, hnot, hset⟩ := h.of_caller hc hpc
    obtain ⟨hres, hti⟩ := hset (s.submitCommand i c) _ rfl
    simp only [CallerPc.owned, hca, ReservePc.owned] at hcn
    refine ⟨?_, Nat.le_succ_of_le h.posted_le, h.taken_le, ?_⟩
    · rw [hres]
      exact hcn.nextSubmission _
    · rw [hti]
      exact hnot
  | post reply hlt => exact ⟨h.consistent.handleCqCompletion _, hlt, Nat.le_succ_of_le h.taken_le, h.notified_eq⟩
  | @complete result sq hn =>
    have hlt := h.taken_lt hn
    have hc := (h.consistent.nextCompletion hn).notifySubmissionComplete
    obtain ⟨-, rfl⟩ := Sq.nextCompletion_spec hn
    refine ⟨?_, h.posted_le, hlt, ?_⟩
    · rw [Cmdq.reservations, Cmdq.weigh_completed]
      exact hc
    · rw [Cmdq.timeouts, Cmdq.weigh_completed]
      show s.sq.notified + 1 = s.sq.taken + 1 + s.timeouts
      rw [h.notified_eq]
      omega
  | wake hc hpc _ | expire hc hpc _ | giveUp hc hpc => exact h.move hc (by rw [hpc]; rfl) (by rw [hpc]; rfl) rfl rfl
  | @notifyTimeout i c hc hpc =>
    obtain ⟨others, late, hcn, hnot, hset⟩ := h.of_caller hc hpc
    obtain ⟨hres, hti⟩ := hset { s.move i c .timedOut with sq := s.sq.notifySubmissionComplete } _ rfl
    refine ⟨?_, h.posted_le, h.taken_le, ?_⟩
    · rw [hres]
      exact hcn.notifySubmissionComplete
    · rw [hti]
      show s.sq.notified + 1 = s.sq.taken + (late + 1)
      rw [hnot]
      rfl
  | disable | enable => exact { h with }

theorem Cmdq.accounted_of_reach {ok : Cmdq γ → CmdqAction γ → Prop} (h : (cmdqMachine γ).Reach ok s) : s.Accounted :=
  h.invariant (fun _ hi => Cmdq.accounted_init hi)
    fun _ _ _ _ _ hinv hst => hinv.step (cmdqStep_of_next hst)

/-- No caller is inside a command function. -/
def CallerPc.returned : CallerPc → Bool
  | .reserving ⟨.failed _, _⟩ => true
  | .timedOut => true
  | .succeeded => true
  | _ => false

/-- No caller is inside a command and every command has been completed. -/
def Cmdq.Quiet (s : Cmdq γ) : Prop := (∀ c ∈ s.callers, c.pc.returned = true) ∧ s.sq.taken = s.sq.submitted

theorem CallerPc.owned_of_returned {pc : CallerPc} (h : pc.returned) : pc.owned = 0 := by
  cases pc with
  | reserving call =>
    obtain ⟨pc, timeout⟩ := call
    cases pc <;> first | rfl | cases h
  | _ => rfl

/-- Without timeouts the free count stays within the capacity; in a quiet state it is the whole capacity, so that the
wait of the suspend path ends, if and only if no caller timed out. -/
theorem cmdq_capacity {s : Cmdq γ} (h : (cmdqMachine γ).Reachable s) :
    (s.timeouts = 0 → s.sq.availableCommands ≤ s.sq.elCount - 1) ∧
      (s.Quiet → (s.sq.availableCommands = s.sq.elCount - 1 ↔ s.timeouts = 0)) ∧
      (s.Quiet → s.timeouts = 0 → s.sq.commandQueueIdle = true) := by
  have hacc := Cmdq.accounted_of_reach h
  have hbal := hacc.consistent.balance
  have hnot := hacc.notified_eq
  have hle := hacc.taken_le.trans hacc.posted_le
  have hfr : s.Quiet → s.sq.availableCommands = s.sq.elCount - 1 + s.timeouts := by
    rintro ⟨hret, htak⟩
    have hres : s.reservations = 0 := total_eq_zero fun c hc => CallerPc.owned_of_returned (hret c hc)
    omega
  refine ⟨?_, ?_, ?_⟩
  · intro h0
    omega
  · intro hq
    have := hfr hq
    omega
  · intro hq h0
    exact hacc.consistent.commandQueueIdle (by rw [hfr hq, h0]; omega)

/-- The command queue as the driver creates it, with `0x20` elements. -/
def Cmdq.initial : Cmdq γ :=
  { sq := Sq.fresh 0x20, tres := fun _ => none, slotGen := fun _ => 0, available := true
    callers := [], replies := [], entry := fun _ => 0 }

theorem Cmdq.initial_init : (cmdqMachine γ).init Cmdq.initial := ⟨Allocator.generous, 0x20, by decide, rfl⟩

/-- Caller `i` issues a command and submits it. -/
def issue (i : Nat) (command : γ) : List (CmdqAction γ) :=
  .call command :: List.replicate 3 (.reserve i .expire) ++ [.submit i]

/-- One caller times out and gives its slot up, and then its completion arrives. -/
def lateCompletionRun : List (CmdqAction Unit) :=
  issue 0 () ++ [.expire 0, .giveUp 0, .notifyTimeout 0, .post ⟨0, 0, 0⟩, .complete]

/-- After a late completion the queue counts 32 free elements of 32, and the wait of the suspend path does not end. -/
theorem cmdq_exceeds_capacity : ∃ s, (cmdqMachine Unit).Reachable s ∧ s.Quiet ∧ s.sq.elCount = 0x20 ∧
      s.sq.availableCommands = 0x20 ∧ s.sq.commandQueueIdle = false := by
  simp only [Cmdq.Quiet]
  exact Machine.exists_of_run lateCompletionRun Cmdq.initial_init (by decide)

/-- Two commands that complete in time leave the queue idle. -/
theorem cmdq_capacity_two_commands :
    ∃ s, (cmdqMachine Unit).Reachable s ∧ s.Quiet ∧ s.sq.submitted = 2 ∧ s.timeouts = 0 ∧
      s.sq.availableCommands = s.sq.elCount - 1 ∧ s.sq.commandQueueIdle = true := by
  obtain ⟨s, hs, hret, htak, hsub, hti⟩ := Machine.exists_of_run (M := cmdqMachine Unit)
    (P := fun s => (∀ c ∈ s.callers, c.pc.returned = true) ∧ s.sq.taken = s.sq.submitted ∧
      s.sq.submitted = 2 ∧ s.timeouts = 0)
    (issue 0 () ++ issue 1 () ++ [.post ⟨0, 0, 7⟩, .post ⟨0, 0, 8⟩, .complete, .complete, .wake 0, .wake 1])
    Cmdq.initial_init (by decide)
  obtain ⟨-, hiff, hdl⟩ := cmdq_capacity hs
  exact ⟨s, hs, ⟨hret, htak⟩, hsub, hti, (hiff ⟨hret, htak⟩).2 hti, hdl ⟨hret, htak⟩ hti⟩

end KaiT2en.Dma
