import KaiT2en.Kernel.Primitives
import KaiT2en.Lib.Transition

/-!
# Commands to the firmware and their replies

The command queue of `t2bce_vhci/queue.c`. A call of `bce_vhci_command_queue_execute` holds `cq->mutex`, publishes its
buffer in `cq->completion.result`, writes the request and waits. When the wait times out it writes a second message
that cancels the first. A reply carries no number: `deliver_completion` copies it into whichever buffer is published.

Two exits go wrong (`command_replies_broken`). A reservation for the cancel message that fails leaves the buffer
published, and a late reply to an earlier request with the same command is taken for the current one.
`command_replies` says that nothing else does.
-/

namespace KaiT2en.Vhci

open KaiT2en.Kernel KaiT2en.Lib.Transition Machine Function Option

/-! ## The command queue -/

/-- `struct bce_vhci_message`, with the numbers of the wire. -/
structure WireMessage where
  cmd : BitVec 16
  status : BitVec 16
  param1 : BitVec 32
  param2 : BitVec 64
  deriving DecidableEq

/-- The number of a call of `bce_vhci_command_queue_execute`. -/
abbrev CallId := Nat

/-- How far a call is. -/
inductive ExecuteStage where
  | idle
  /-- Reserve an element for the request. -/
  | reserve
  /-- Publish the buffer. -/
  | register
  | write
  | wait
  /-- The wait has timed out: reserve an element for the cancel message. -/
  | cancelReserve
  | cancelWrite
  | cancelWait
  /-- The second wait has timed out: withdraw the buffer. -/
  | giveUp
  | returned (status : Int)
  deriving DecidableEq

/-- The buffer of the call has been published. -/
def ExecuteStage.registered : ExecuteStage → Bool
  | .write | .wait | .cancelReserve | .cancelWrite | .cancelWait | .giveUp => true
  | _ => false

/-- The request is not written yet. -/
def ExecuteStage.unsent : ExecuteStage → Bool
  | .reserve | .register | .write => true
  | _ => false

/-- The arguments and the locals of a call. -/
structure Call where
  req : WireMessage
  /-- The contents of the caller's buffer. -/
  res : WireMessage
  /-- The number of the message that carried the request. -/
  sent : Option Nat
  stage : ExecuteStage
  deriving DecidableEq

/-- `struct bce_vhci_command_queue`, with the calls, the messages and the replies, each with the number of the message
it answers. -/
structure CommandQueue where
  /-- Whose buffer `completion.result` points at. -/
  result : Option CallId
  /-- The counter of `completion.completion`. -/
  done : Nat
  mutex : Option CallId
  calls : CallId → Call
  written : List WireMessage
  replies : List (Nat × WireMessage)

def replyBit : BitVec 16 := 0x8000#16

/-- The bit that a cancel message has in its command. -/
def cancelBit : BitVec 16 := 0x4000#16

/-- `BCE_VHCI_SUCCESS` on the wire. -/
def successStatus : BitVec 16 := 1#16

/-- The message that cancels `req`. -/
def cancelRequest (req : WireMessage) : WireMessage := { req with cmd := req.cmd ||| cancelBit }

/-- The end of `__bce_vhci_command_queue_execute`, after a reply has come. -/
def executeStatus (req res : WireMessage) : Int :=
  if res.cmd &&& ~~~replyBit ≠ req.cmd then -EIo
  else if res.status = successStatus then 0
  else res.status.toNat

namespace CommandQueue

variable (s : CommandQueue)

def setCall (i : CallId) (c : Call) : CommandQueue := { s with calls := update s.calls i c }

/-- The call `i` goes on to `stage`. -/
def goTo (i : CallId) (stage : ExecuteStage) : CommandQueue := s.setCall i { s.calls i with stage := stage }

/-- The call `i` releases the mutex and returns. -/
def ret (i : CallId) (status : Int) : CommandQueue := { s.goTo i (.returned status) with mutex := none }

def messageQueueWrite (msg : WireMessage) : CommandQueue := { s with written := s.written ++ [msg] }

/-- `bce_vhci_command_queue_deliver_completion` for a reply to message `k`. -/
def deliverCompletion (k : Nat) (msg : WireMessage) : CommandQueue :=
  let s := { s with replies := (k, msg) :: s.replies }
  match s.result with
  | none => s
  | some i => { s.setCall i { s.calls i with res := msg } with done := s.done + 1, result := none }

end CommandQueue

/-- What can happen to a command queue. All but the first and the last are steps of the call that
holds the mutex. -/
inductive CommandAction where
  /-- A call takes the mutex; `res` is what its buffer holds. -/
  | enter (i : CallId) (req res : WireMessage)
  /-- `t2bce_core_reserve_submission` returns `status`. -/
  | reserve (status : Int)
  | register
  | write
  /-- A wait ends because the completion is done. -/
  | wake
  /-- A wait times out. -/
  | expire
  | withdraw
  /-- The firmware answers message `k`. -/
  | reply (k : Nat) (msg : WireMessage)

namespace CommandQueue

variable (s : CommandQueue)

/-- One step of the call `i`, which holds the mutex. -/
def executeStep (i : CallId) (a : CommandAction) : Option CommandQueue :=
  match (s.calls i).stage, a with
  | .reserve, .reserve status => some (if status ≠ 0 then s.ret i status else s.goTo i .register)
  | .register, .register => some { s.goTo i .write with result := some i, done := 0 }
  | .write, .write =>
    some ((s.setCall i { s.calls i with sent := some s.written.length, stage := .wait
      }).messageQueueWrite (s.calls i).req)
  | .wait, .wake =>
    if s.done = 0 then none
    else some ({ s with done := s.done - 1 }.ret i
      (executeStatus (s.calls i).req (s.calls i).res))
  | .wait, .expire => if s.done = 0 then some (s.goTo i .cancelReserve) else none
  | .cancelReserve, .reserve status =>
    -- the buffer stays published when the reservation fails
    some (if status ≠ 0 then s.ret i status else s.goTo i .cancelWrite)
  | .cancelWrite, .write => some ((s.goTo i .cancelWait).messageQueueWrite (cancelRequest (s.calls i).req))
  | .cancelWait, .wake =>
    if s.done = 0 then none
    else
      let s := { s with done := s.done - 1 }
      if (s.calls i).res.cmd &&& ~~~replyBit = (cancelRequest (s.calls i).req).cmd then some (s.ret i (-ETIMEDOUT))
      else some (s.ret i (executeStatus (s.calls i).req (s.calls i).res))
  | .cancelWait, .expire => if s.done = 0 then some (s.goTo i .giveUp) else none
  | .giveUp, .withdraw => some ({ s with result := none }.ret i (-ETIMEDOUT))
  | _, _ => none

def next : CommandAction → Option CommandQueue
  | .enter i req res =>
    if s.mutex = none ∧ (s.calls i).stage = .idle then
      some { s.setCall i ⟨req, res, none, .reserve⟩ with mutex := some i }
    else none
  | .reply k msg => if k < s.written.length then some (s.deliverCompletion k msg) else none
  | a =>
    match s.mutex with
    | none => none
    | some i => s.executeStep i a

end CommandQueue

def WireMessage.zero : WireMessage := ⟨0, 0, 0, 0⟩

def commandQueueCreate : CommandQueue where
  result := none
  done := 0
  mutex := none
  calls := fun _ => ⟨.zero, .zero, none, .idle⟩
  written := []
  replies := []

/-- A command queue with all its callers and the firmware. -/
def commandMachine : Machine CommandQueue CommandAction where
  init s := s = commandQueueCreate
  next := CommandQueue.next

/-! ## Steps -/

/-- What one action does, by the stage of the call that holds the mutex. -/
inductive CommandStep (s : CommandQueue) : CommandAction → CommandQueue → Prop
  | enter (i : CallId) (req res : WireMessage) : s.mutex = none → (s.calls i).stage = .idle →
      CommandStep s (.enter i req res)
        { s.setCall i ⟨req, res, none, .reserve⟩ with mutex := some i }
  | reply (k : Nat) (msg : WireMessage) : CommandStep s (.reply k msg) (s.deliverCompletion k msg)
  | reserveFailed (i : CallId) (status : Int) : s.mutex = some i → status ≠ 0 →
      (s.calls i).stage = .reserve → CommandStep s (.reserve status) (s.ret i status)
  | reserved (i : CallId) : s.mutex = some i → (s.calls i).stage = .reserve →
      CommandStep s (.reserve 0) (s.goTo i .register)
  | register (i : CallId) : s.mutex = some i → (s.calls i).stage = .register →
      CommandStep s .register { s.goTo i .write with result := some i, done := 0 }
  | write (i : CallId) : s.mutex = some i → (s.calls i).stage = .write → CommandStep s .write
        ((s.setCall i { s.calls i with sent := some s.written.length, stage := .wait
          }).messageQueueWrite (s.calls i).req)
  | wake (i : CallId) (status : Int) : s.mutex = some i → (s.calls i).stage.registered = true → s.done ≠ 0 →
      status = -ETIMEDOUT ∨ status = executeStatus (s.calls i).req (s.calls i).res →
      CommandStep s .wake ({ s with done := s.done - 1 }.ret i status)
  | expire (i : CallId) (stage : ExecuteStage) : s.mutex = some i →
      (s.calls i).stage.registered = true → stage.registered = true → stage.unsent = false →
      CommandStep s .expire (s.goTo i stage)
  | cancelReserveFailed (i : CallId) (status : Int) : s.mutex = some i → status ≠ 0 →
      (s.calls i).stage = .cancelReserve → CommandStep s (.reserve status) (s.ret i status)
  | cancelReserved (i : CallId) : s.mutex = some i → (s.calls i).stage = .cancelReserve →
      CommandStep s (.reserve 0) (s.goTo i .cancelWrite)
  | cancelWrite (i : CallId) : s.mutex = some i → (s.calls i).stage = .cancelWrite → CommandStep s .write
        ((s.goTo i .cancelWait).messageQueueWrite (cancelRequest (s.calls i).req))
  | withdraw (i : CallId) : s.mutex = some i → (s.calls i).stage = .giveUp →
      CommandStep s .withdraw ({ s with result := none }.ret i (-ETIMEDOUT))

theorem commandStep_of_executeStep {s t : CommandQueue} {i : CallId} {a : CommandAction}
    (hmut : s.mutex = some i) (h : s.executeStep i a = some t) : CommandStep s a t := by
  unfold CommandQueue.executeStep at h
  split at h
  · rename_i status hst
    cases h
    split
    · exact .reserveFailed i status hmut ‹_› hst
    · rename_i hz
      rw [not_not.1 hz]
      exact .reserved i hmut hst
  · rename_i hst
    cases h
    exact .register i hmut hst
  · rename_i hst
    cases h
    exact .write i hmut hst
  · rename_i hst
    split at h
    · cases h
    · cases h
      exact .wake i _ hmut (by rw [hst]; rfl) ‹_› (.inr rfl)
  · rename_i hst
    split at h
    · cases h
      exact .expire i .cancelReserve hmut (by rw [hst]; rfl) rfl rfl
    · cases h
  · rename_i status hst
    cases h
    split
    · exact .cancelReserveFailed i status hmut ‹_› hst
    · rename_i hz
      rw [not_not.1 hz]
      exact .cancelReserved i hmut hst
  · rename_i hst
    cases h
    exact .cancelWrite i hmut hst
  · rename_i hst
    have hreg : (s.calls i).stage.registered := by
      rw [hst]
      rfl
    split at h
    · cases h
    simp only at h
    split at h
    · cases h
      exact .wake i _ hmut hreg ‹_› (.inl rfl)
    · cases h
      exact .wake i _ hmut hreg ‹_› (.inr rfl)
  · rename_i hst
    split at h
    · cases h
      exact .expire i .giveUp hmut (by rw [hst]; rfl) rfl rfl
    · cases h
  · rename_i hst
    cases h
    exact .withdraw i hmut hst
  · cases h

theorem commandStep_of_next {s t : CommandQueue} {a : CommandAction} (h : s.next a = some t) :
    CommandStep s a t := by
  have hhol : ∀ a, (match s.mutex with
      | none => none
      | some i => s.executeStep i a) = some t → CommandStep s a t := by grind [commandStep_of_executeStep]
  cases a with
  | enter i req res =>
    simp only [CommandQueue.next, ite_none_right_eq_some, some.injEq] at h
    obtain ⟨⟨hmut, hdl⟩, rfl⟩ := h
    exact .enter i req res hmut hdl
  | reply k msg =>
    simp only [CommandQueue.next, ite_none_right_eq_some, some.injEq] at h
    obtain ⟨-, rfl⟩ := h
    exact .reply k msg
  | reserve _ | register | write | wake | expire | withdraw => exact hhol _ h

/-! ## Replies belong to their requests -/

/-- The call is not running. -/
def ExecuteStage.outside : ExecuteStage → Bool
  | .idle | .returned _ => true
  | _ => false

/-- `msg` passes the test on the command of a reply to the request of `c`. -/
def Call.matches (c : Call) (msg : WireMessage) : Prop := msg.cmd &&& ~~~replyBit = c.req.cmd
  deriving Decidable

/-- A reservation for a cancel message only fails when the buffer is withdrawn already, and a reply that finds a
published buffer answers the request of its owner or carries another command. -/
def CommandQueue.Attributed (s : CommandQueue) : CommandAction → Prop
  | .reserve status => ∀ i ∈ s.mutex, (s.calls i).stage = .cancelReserve → status ≠ 0 → s.result ≠ some i
  | .reply k msg => ∀ i ∈ s.result, (s.calls i).sent = some k ∨ ¬ (s.calls i).matches msg
  | _ => True

instance (s : CommandQueue) (a : CommandAction) : Decidable (s.Attributed a) := by
  cases a <;> unfold CommandQueue.Attributed <;> infer_instance

/-- What holds between the calls of a command queue. -/
structure CommandQueue.Inv (s : CommandQueue) : Prop where
  /-- Only the holder of the mutex is inside a call. -/
  outside : ∀ i, s.mutex ≠ some i → (s.calls i).stage.outside = true
  /-- A published buffer belongs to the holder of the mutex and is not written yet. -/
  published : ∀ i, s.result = some i → s.mutex = some i ∧ (s.calls i).stage.registered = true ∧ s.done = 0
  /-- A buffer that was published and is not any more holds a reply. -/
  answered : ∀ i, s.mutex = some i → (s.calls i).stage.registered = true → s.result = none →
    ∃ k, (k, (s.calls i).res) ∈ s.replies ∧ ((s.calls i).matches (s.calls i).res → (s.calls i).sent = some k)
  unsent : ∀ i, (s.calls i).stage.unsent = true → (s.calls i).sent = none
  own : ∀ i, (s.calls i).stage = .returned 0 → ∃ k, (s.calls i).sent = some k ∧ (k, (s.calls i).res) ∈ s.replies

namespace CommandQueue

theorem inv_create : commandQueueCreate.Inv where
  outside _ _ := rfl
  published _ h := nomatch h
  answered _ h := nomatch h
  unsent _ h := nomatch h
  own _ h := nomatch h

variable {s t : CommandQueue} {i : CallId}

section

variable (h : s.Inv)
include h

section

variable (hmut : s.mutex = some i)
include hmut

theorem Inv.step (hcs : ∀ j, j ≠ i → t.calls j = s.calls j) (hrep : t.replies = s.replies) (hstay : t.mutex = some i)
    (hins : (t.calls i).stage.outside = false)
    (hpub : ∀ j, t.result = some j → j = i ∧ (t.calls i).stage.registered ∧ t.done = 0)
    (hans : (t.calls i).stage.registered → t.result = none → ∃ k, (k, (t.calls i).res) ∈ s.replies ∧
        ((t.calls i).matches (t.calls i).res → (t.calls i).sent = some k))
    (huns : (t.calls i).stage.unsent → (t.calls i).sent = none) : t.Inv where
  outside j hj := by
    have hne : j ≠ i := fun heq => hj (heq ▸ hstay)
    rw [hcs j hne]
    exact h.outside j fun hs => hne (some.inj (hs.symm.trans hmut))
  published j hj := by
    obtain ⟨rfl, hreg, hdn⟩ := hpub j hj
    exact ⟨hstay, hreg, hdn⟩
  answered j hj hreg hres := by
    obtain rfl : j = i := some.inj (hj.symm.trans hstay)
    rw [hrep]
    exact hans hreg hres
  unsent j hj := by
    by_cases hne : j = i
    · rw [hne] at hj ⊢
      exact huns hj
    · rw [hcs j hne] at hj ⊢
      exact h.unsent j hj
  own j hj := by
    have hne : j ≠ i := by
      rintro rfl
      rw [hj] at hins
      cases hins
    rw [hcs j hne, hrep]
    exact h.own j (hcs j hne ▸ hj)

theorem Inv.ret {status : Int} (hresu : t.result = none) (hcs : t.calls = s.calls) (hrep : t.replies = s.replies)
    (hown : status = 0 → ∃ k, (s.calls i).sent = some k ∧ (k, (s.calls i).res) ∈ s.replies) :
    (t.ret i status).Inv := by
  have hoth : ∀ j, j ≠ i → (t.ret i status).calls j = s.calls j := by
    intro j hne
    rw [← hcs]
    exact update_of_ne hne ..
  have hse : (t.ret i status).calls i = { s.calls i with stage := .returned status } := by
    rw [← hcs]
    exact update_self ..
  refine ⟨?_, ?_, ?_, ?_, ?_⟩
  · intro j _
    by_cases hne : j = i
    · rw [hne, hse]
      rfl
    · rw [hoth j hne]
      exact h.outside j fun hs => hne (some.inj (hs.symm.trans hmut))
  · intro j hj
    rw [show (t.ret i status).result = none from hresu] at hj
    cases hj
  · intro j hj
    cases hj
  · intro j hj
    by_cases hne : j = i
    · rw [hne, hse] at hj
      cases hj
    · rw [hoth j hne] at hj ⊢
      exact h.unsent j hj
  · intro j hj
    rw [show (t.ret i status).replies = s.replies from hrep]
    by_cases hne : j = i
    · grind
    · rw [hoth j hne] at hj ⊢
      exact h.own j hj

/-- The buffer of the holder is published or withdrawn. -/
theorem Inv.result_cases : s.result = some i ∨ s.result = none := by
  cases hres : s.result with
  | none => exact .inr rfl
  | some j =>
    left
    rw [← (h.published j hres).1, hmut]

end

theorem Inv.enter (req res : WireMessage) (hmut : s.mutex = none) :
    { s.setCall i ⟨req, res, none, .reserve⟩ with mutex := some i }.Inv := by
  have hoth : ∀ j, j ≠ i → (s.setCall i ⟨req, res, none, .reserve⟩).calls j = s.calls j :=
    fun j hne => update_of_ne hne ..
  have hse : (s.setCall i ⟨req, res, none, .reserve⟩).calls i = ⟨req, res, none, .reserve⟩ := update_self ..
  have hfr : ∀ j, s.mutex ≠ some j := by
    intro j hj
    rw [hmut] at hj
    cases hj
  refine ⟨?_, ?_, ?_, ?_, ?_⟩
  · intro j hj
    have hne : j ≠ i := fun heq => hj (heq ▸ rfl)
    simp only [hoth j hne]
    exact h.outside j (hfr j)
  · intro j hj
    exact absurd (h.published j hj).1 (hfr j)
  · intro j hj hreg
    obtain rfl : i = j := some.inj hj
    simp only [hse] at hreg
    cases hreg
  · intro j hj
    by_cases hne : j = i
    · subst hne
      simp only [hse]
    · simp only [hoth j hne] at hj ⊢
      exact h.unsent j hj
  · intro j hj
    by_cases hne : j = i
    · subst hne
      simp only [hse] at hj
      cases hj
    · simp only [hoth j hne] at hj ⊢
      exact h.own j hj

theorem Inv.deliverCompletion {k : Nat} {msg : WireMessage}
    (hok : s.Attributed (.reply k msg)) : (s.deliverCompletion k msg).Inv := by
  unfold CommandQueue.deliverCompletion
  cases hres : s.result with
  | none =>
    -- no buffer is published, so the reply is dropped
    refine ⟨h.outside, ?_, ?_, h.unsent, ?_⟩
    · intro i hi
      cases hi
    · intro i hmut hreg _
      obtain ⟨l, hmem, hmat⟩ := h.answered i hmut hreg hres
      exact ⟨l, List.mem_cons_of_mem _ hmem, hmat⟩
    · intro i hi
      obtain ⟨l, hsent, hmem⟩ := h.own i hi
      exact ⟨l, hsent, List.mem_cons_of_mem _ hmem⟩
  | some i =>
    obtain ⟨hmut, hreg, hdn⟩ := h.published i hres
    have hoth : ∀ j, j ≠ i → update s.calls i { s.calls i with res := msg } j =
        s.calls j := fun j hne => update_of_ne hne ..
    have hse : update s.calls i { s.calls i with res := msg } i = { s.calls i with res := msg } := update_self ..
    refine ⟨?_, ?_, ?_, ?_, ?_⟩
    · intro j hj
      have hne : j ≠ i := fun heq => hj (heq ▸ hmut)
      simp only [setCall, hoth j hne]
      exact h.outside j hj
    · intro j hj
      cases hj
    · intro j hj _ _
      obtain rfl : j = i := some.inj (hj.symm.trans hmut)
      simp only [setCall, hse]
      refine ⟨k, List.mem_cons_self, fun hmat => ?_⟩
      exact (hok j hres).resolve_right (not_not_intro hmat)
    · intro j hj
      by_cases hne : j = i
      · subst hne
        simp only [setCall, hse] at hj ⊢
        exact h.unsent j hj
      · simp only [setCall, hoth j hne] at hj ⊢
        exact h.unsent j hj
    · intro j hj
      have hne : j ≠ i := by
        rintro rfl
        simp only [setCall, hse] at hj
        rw [hj] at hreg
        cases hreg
      simp only [setCall, hoth j hne] at hj ⊢
      obtain ⟨l, hsent, hmem⟩ := h.own j hj
      exact ⟨l, hsent, List.mem_cons_of_mem _ hmem⟩

/-- The stage of the holder changes, and nothing else that matters. -/
theorem Inv.goTo (hmut : s.mutex = some i) {stage : ExecuteStage} (hcs : ∀ j, j ≠ i → t.calls j = s.calls j)
    (hse : t.calls i = { s.calls i with stage := stage }) (hrep : t.replies = s.replies)
    (hmut' : t.mutex = s.mutex) (hresu : t.result = s.result) (hdn : t.done = s.done)
    (hins : stage.outside = false) (hreg : stage.registered = (s.calls i).stage.registered)
    (huns : stage.unsent → (s.calls i).stage.unsent) : t.Inv := by
  refine h.step hmut hcs hrep (hmut'.trans hmut) (by rw [hse]; exact hins) ?_ ?_ ?_
  · intro j hj
    rw [hresu] at hj
    obtain ⟨hj, hregj, hdon⟩ := h.published j hj
    obtain rfl : j = i := some.inj (hj.symm.trans hmut)
    exact ⟨rfl, by rw [hse]; exact hreg.trans hregj, by rw [hdn]; exact hdon⟩
  · intro hregt hno
    rw [hse] at hregt ⊢
    rw [hresu] at hno
    exact h.answered i hmut (hreg.symm.trans hregt) hno
  · rw [hse]
    exact fun hst => h.unsent i (huns hst)

theorem Inv.next {a : CommandAction} (hok : s.Attributed a) (hsp : CommandStep s a t) :
    t.Inv := by
  have hoth : ∀ (i : CallId) (c : Call) (j : CallId), j ≠ i → (s.setCall i c).calls j = s.calls j :=
    fun i c j hne => update_of_ne hne ..
  have hse : ∀ (i : CallId) (c : Call), (s.setCall i c).calls i = c := fun i c => update_self ..
  cases hsp with
  | enter i req res hmut _ => exact h.enter req res hmut
  | reply k msg => exact h.deliverCompletion hok
  | reserveFailed i status hmut hne hst =>
    refine h.ret hmut ?_ rfl rfl fun heq => absurd heq hne
    -- the buffer is not published yet
    rcases h.result_cases hmut with hres | hres
    · have hreg := (h.published i hres).2.1
      rw [hst] at hreg
      cases hreg
    · exact hres
  | reserved i hmut hst =>
    exact h.goTo hmut (hoth i _) (hse i _) rfl rfl rfl rfl rfl (by rw [hst]; rfl) fun _ => by rw [hst]; rfl
  | register i hmut hst =>
    refine h.step hmut (hoth i _) rfl hmut ?_ ?_ ?_ ?_
    · show ((s.setCall i _).calls i).stage.outside = false
      rw [hse]
      rfl
    · intro j hj
      refine ⟨(some.inj hj).symm, ?_, rfl⟩
      show ((s.setCall i _).calls i).stage.registered
      rw [hse]
      rfl
    · intro _ hno
      cases hno
    · intro _
      show ((s.setCall i _).calls i).sent = none
      rw [hse]
      exact h.unsent i (by rw [hst]; rfl)
  | write i hmut hst =>
    refine h.step hmut (hoth i _) rfl hmut ?_ ?_ ?_ ?_
    · show ((s.setCall i _).calls i).stage.outside = false
      rw [hse]
      rfl
    · intro j hj
      obtain ⟨hj, -, hdn⟩ := h.published j hj
      obtain rfl : j = i := some.inj (hj.symm.trans hmut)
      refine ⟨rfl, ?_, hdn⟩
      show ((s.setCall j _).calls j).stage.registered
      rw [hse]
      rfl
    · -- a reply came before the request was written: it does not match
      intro _ hno
      obtain ⟨k, hmem, hmat⟩ := h.answered i hmut (by rw [hst]; rfl) hno
      show ∃ k, (k, ((s.setCall i _).calls i).res) ∈ s.replies ∧
        (((s.setCall i _).calls i).matches ((s.setCall i _).calls i).res → _)
      simp only [hse]
      refine ⟨k, hmem, fun hm => ?_⟩
      have hsent := hmat hm
      rw [h.unsent i (by rw [hst]; rfl)] at hsent
      cases hsent
    · show ((s.setCall i _).calls i).stage.unsent → _
      rw [hse]
      nofun
  | wake i status hmut hreg hdn hstat =>
    have hno : s.result = none := by
      rcases h.result_cases hmut with hres | hres
      · exact absurd (h.published i hres).2.2 hdn
      · exact hres
    refine h.ret hmut hno rfl rfl fun hz => ?_
    obtain ⟨k, hmem, hmat⟩ := h.answered i hmut hreg hno
    rcases hstat with hstat | hstat
    · rw [hstat] at hz
      cases hz
    refine ⟨k, hmat ?_, hmem⟩
    by_contra hcmd
    have herr : executeStatus (s.calls i).req (s.calls i).res = -EIo := if_pos hcmd
    rw [hstat, herr] at hz
    cases hz
  | expire i stage hmut hreg hreg' hsent =>
    refine h.goTo hmut (hoth i _) (hse i _) rfl rfl rfl rfl ?_ (hreg'.trans hreg.symm) ?_
    · cases stage <;> first | rfl | cases hreg'
    · rw [hsent]
      nofun
  | cancelReserveFailed i status hmut hne hst =>
    refine h.ret hmut ?_ rfl rfl fun heq => absurd heq hne
    exact (h.result_cases hmut).resolve_left (hok i hmut hst hne)
  | cancelReserved i hmut hst | cancelWrite i hmut hst =>
    exact h.goTo hmut (hoth i _) (hse i _) rfl rfl rfl rfl rfl (by rw [hst]; rfl) nofun
  | withdraw i hmut hst =>
    refine h.ret (t := { s with result := none }) hmut rfl rfl rfl fun hz => ?_
    cases hz

end

end CommandQueue

/-- In every attributed run a call that has returned has withdrawn its buffer, and if it returned 0 the buffer holds a
reply to its own request. -/
theorem command_replies {s : CommandQueue} (h : commandMachine.Reach CommandQueue.Attributed s)
    {i : CallId} {status : Int} (hret : (s.calls i).stage = .returned status) :
    s.result ≠ some i ∧ (status = 0 → ∃ k, (s.calls i).sent = some k ∧ (k, (s.calls i).res) ∈ s.replies) := by
  have hinv : s.Inv := by
    refine h.invariant (I := CommandQueue.Inv) ?_ ?_
    · rintro s rfl
      exact CommandQueue.inv_create
    · intro s a t _ hok hs hnx
      exact hs.next hok (commandStep_of_next hnx)
  constructor
  · intro hres
    have hreg := (hinv.published i hres).2.1
    rw [hret] at hreg
    cases hreg
  · rintro rfl
    exact hinv.own i hret

/-- `BCE_VHCI_CMD_PORT_STATUS` for port 1. -/
def portStatus : WireMessage := ⟨0x16, 0, 1, 0⟩

/-- A reply to `req` with the parameter `value`. -/
def replyTo (req : WireMessage) (value : BitVec 64) : WireMessage :=
  { req with cmd := req.cmd ||| replyBit, status := successStatus, param2 := value }

/-- The call `i` asks for the port status and times out. -/
def timedOutCall (i : CallId) : List CommandAction :=
  [.enter i portStatus .zero, .reserve 0, .register, .write, .expire]

/-- The reply comes after the cancel message, and the call returns it. The acknowledgement of the cancellation meets
another call and is refused. -/
theorem command_replies_lateReply :
    ∃ s, commandMachine.Reach CommandQueue.Attributed s ∧ (s.calls 0).stage = .returned 0 ∧
      (s.calls 1).stage = .returned (-EIo) ∧ s.result ≠ some 0 ∧ s.result ≠ some 1 ∧
      ∃ k, (s.calls 0).sent = some k ∧ (k, (s.calls 0).res) ∈ s.replies := by
  obtain ⟨s, hre, hz, hone⟩ := exists_of_guarded_run (M := commandMachine)
    (P := fun s => (s.calls 0).stage = .returned 0 ∧ (s.calls 1).stage = .returned (-EIo))
    CommandQueue.Attributed (timedOutCall 0 ++ [.reserve 0, .write, .reply 0 (replyTo portStatus 7), .wake,
      .enter 1 portStatus .zero, .reserve 0, .register, .write,
      .reply 1 (replyTo (cancelRequest portStatus) 0), .wake]) rfl (by decide)
  obtain ⟨hfr, hown⟩ := command_replies hre hz
  exact ⟨s, hre, hz, hone, hfr, (command_replies hre hone).1, hown rfl⟩

/-- The reservation for the cancel message fails and the buffer stays published. In another run a call gives up, and
the late reply to its request is returned by the next call with the same command. -/
theorem command_replies_broken : (∃ s, commandMachine.Reachable s ∧ (s.calls 0).stage = .returned (-EAGAIN) ∧
        s.result = some 0) ∧
      ∃ s, commandMachine.Reachable s ∧ (s.calls 0).stage = .returned (-ETIMEDOUT) ∧
        (s.calls 1).stage = .returned 0 ∧ (s.calls 1).sent = some 2 ∧
        s.replies = [(0, replyTo portStatus 7)] ∧ (s.calls 1).res = replyTo portStatus 7 :=
  ⟨exists_of_run (timedOutCall 0 ++ [.reserve (-EAGAIN)]) rfl (by decide),
    exists_of_run (timedOutCall 0 ++ [.reserve 0, .write, .expire, .withdraw,
      .enter 1 portStatus .zero, .reserve 0, .register, .write, .reply 0 (replyTo portStatus 7), .wake])
      rfl (by decide)⟩

end KaiT2en.Vhci
