import KaiT2en.Kernel.Primitives
import KaiT2en.Lib.Transition

/-!
# Replies in the mailbox

`t2bce_core/mailbox.c`: callers of the mailbox take turns under `channel_lock`, the handler of reply interrupts runs
beside them, and the two meet in the atomic `mb_status`: 0 for no command, 1 for a command that waits for its reply, 2
for a reply. An action of `mailboxMachine` is one access to what they share.

In `reply_lost` an answered call returns `-ETIMEDOUT`, in `reply_crossed` a call gets the reply of the call before.
`mailbox_replies` is about the runs in which the device replies while the call of the reply waits and no wait ends
while the handler is running.
-/

namespace KaiT2en.Bce

open KaiT2en.Kernel KaiT2en.Lib.Transition Machine Option Function

/-- A reply, with the number of the call it answers. -/
structure MailboxReply where
  call : Nat
  value : BitVec 64
  deriving DecidableEq

/-- What a call returns and stores in `recv`. -/
structure SendResult where
  status : Int
  recv : Option MailboxReply
  deriving DecidableEq

/-- How far the call that holds `channel_lock` is; `reply` says whether it is a call of
`bce_mailbox_send_locked_timeout` or of `bce_mailbox_send_no_reply_locked`. -/
inductive MailboxStage where
  | idle
  /-- The exchange of `mb_status`. -/
  | exchange (reply : Bool)
  | reinit
  | post (reply : Bool)
  | wait
  | check
  /-- `mb_status` was not 2. -/
  | giveUp
  | take
  | clear (recv : Option MailboxReply)
  deriving DecidableEq

/-- How far `bce_mailbox_handle_interrupt` is. -/
inductive HandlerStage where
  | idle
  /-- There are replies to read. -/
  | fetch (counter : Nat)
  | look
  | answer
  | complete
  | drop
  deriving DecidableEq

/-- `struct bce_mailbox`, the call with number `calls` and the handler. `outcome` and `answered` are the history: what
the calls have returned, and the waiting calls that the handler has answered. -/
structure Mailbox where
  mbStatus : Nat
  mbCompletion : Nat
  mbResult : MailboxReply
  calls : Nat
  stage : MailboxStage
  handler : HandlerStage
  outcome : Nat → Option SendResult
  answered : List Nat

namespace Mailbox

def init : Mailbox := ⟨0, 0, ⟨0, 0⟩, 0, .idle, .idle, fun _ => none, []⟩

/-- The call returns. -/
def finish (s : Mailbox) (status : Int) (recv : Option MailboxReply) : Mailbox :=
  { s with stage := .idle, outcome := update s.outcome s.calls (some ⟨status, recv⟩) }

/-- The next step of the call, its timeout apart. -/
def sendStep (s : Mailbox) : Option Mailbox :=
  match s.stage with
  | .idle => none
  | .exchange reply =>
    if s.mbStatus ≠ 0 then some (s.finish (-EEXIST) none)
    else some { s with mbStatus := 1, stage := if reply then .reinit else .post false }
  | .reinit => some { s with mbCompletion := 0, stage := .post true }
  | .post reply => some { s with stage := if reply then .wait else .clear none }
  | .wait => if 0 < s.mbCompletion then some { s with mbCompletion := s.mbCompletion - 1, stage := .check } else none
  | .check => some { s with stage := if s.mbStatus ≠ 2 then .giveUp else .take }
  | .giveUp => some ({ s with mbStatus := 0 }.finish (-ETIMEDOUT) none)
  | .take => some { s with stage := .clear (some s.mbResult) }
  | .clear recv => some ({ s with mbStatus := 0 }.finish 0 recv)

/-- The number of replies in the counter register. -/
def replyCount (res : BitVec 32) : Nat := ((res >>> 20) &&& 0xf).toNat

/-- One round of the loop of `bce_mailbox_retrive_response`. -/
def fetch (s : Mailbox) (call : Nat) (lo hi : BitVec 32) : Option Mailbox :=
  match s.handler with
  | .fetch (n + 1) => some { s with mbResult := ⟨call, hi ++ lo⟩, handler := if n = 0 then .look else .fetch n }
  | _ => none

/-- The next step of the handler behind that loop. -/
def handlerStep (s : Mailbox) : Option Mailbox :=
  match s.handler with
  | .idle | .fetch _ => none
  | .look => some { s with handler := if s.mbStatus = 1 then .answer else .drop }
  | .answer =>
    some { s with
      mbStatus := 2
      handler := .complete
      answered := if s.mbStatus = 1 ∧ s.stage = .wait then s.calls :: s.answered else s.answered }
  | .complete => some { s with mbCompletion := s.mbCompletion + 1, handler := .idle }
  | .drop => some { s with mbStatus := 0, handler := .idle }

end Mailbox

inductive MailboxAction where
  /-- A call gets `channel_lock`. -/
  | call (reply : Bool)
  | send
  /-- The wait for the completion times out. -/
  | timeout
  /-- An interrupt, with the contents of the counter register. -/
  | interrupt (res : BitVec 32)
  | fetch (call : Nat) (lo hi : BitVec 32)
  | handle
  deriving DecidableEq

namespace Mailbox

def next (s : Mailbox) : MailboxAction → Option Mailbox
  | .call reply => if s.stage = .idle then some { s with calls := s.calls + 1, stage := .exchange reply } else none
  | .send => s.sendStep
  | .timeout => if s.stage = .wait ∧ s.mbCompletion = 0 then some { s with stage := .check } else none
  | .interrupt res =>
    if s.handler = .idle then some { s with handler := if replyCount res = 0 then .idle else .fetch (replyCount res) }
    else none
  | .fetch call lo hi => s.fetch call lo hi
  | .handle => s.handlerStep

end Mailbox

def mailboxMachine : Machine Mailbox MailboxAction where
  init s := s = Mailbox.init
  next := Mailbox.next

namespace Mailbox

variable (s : Mailbox)

/-- Replies are read for a call that waits for one and answer it, and no wait times out while the handler is running.
-/
def InTurn : MailboxAction → Prop
  | .interrupt res => replyCount res = 0 ∨ s.stage = .wait ∧ s.mbStatus = 1
  | .fetch call _ _ => call = s.calls
  | .timeout => s.handler = .idle
  | _ => True

instance : ∀ a, Decidable (s.InTurn a)
  | .interrupt _ => inferInstanceAs (Decidable (_ ∨ _ ∧ _))
  | .fetch _ _ _ | .timeout => inferInstanceAs (Decidable (_ = _))
  | .call _ | .send | .handle => inferInstanceAs (Decidable True)

/-- The steps of the call and of the handler lead to the return of the call `i` with a reply. -/
def Returns (i : Nat) : Prop :=
  ∃ l t, (∀ a ∈ l, a = .send ∨ a = .handle) ∧ mailboxMachine.run s l = some t ∧ ∃ r, t.outcome i = some ⟨0, some r⟩

/-- An answered call returns 0 with a reply, and no call returns the reply to an earlier one that timed
out. -/
structure Sound : Prop where
  kept : ∀ i ∈ s.answered, ∀ o, s.outcome i = some o → o.status = 0 ∧ o.recv.isSome = true
  returns : ∀ i ∈ s.answered, s.Returns i
  own : ∀ i j r, j < i → s.outcome j = some ⟨-ETIMEDOUT, none⟩ → s.outcome i = some ⟨0, some r⟩ → r.call ≠ j

/-! ## The invariant -/

/-- The reply of the running call is in `mb_result`, and the call will find it. -/
def Replied : Prop := s.mbStatus = 2 ∧ s.mbResult.call = s.calls

/-- What holds at each stage of the running call. -/
def AtStage : Prop :=
  match s.stage with
  | .idle => s.handler = .idle
  | .exchange _ => s.handler = .idle ∧ s.calls ∉ s.answered
  | .reinit => s.handler = .idle ∧ s.calls ∉ s.answered ∧ s.mbStatus = 1
  | .post reply => s.handler = .idle ∧ s.calls ∉ s.answered ∧ (reply = true → s.mbStatus = 1 ∧ s.mbCompletion = 0)
  | .wait =>
    (s.mbStatus = 1 ∧ s.mbCompletion = 0 ∧ s.calls ∉ s.answered ∧ s.handler ≠ .complete ∧ s.handler ≠ .drop ∧
        (s.handler = .look ∨ s.handler = .answer → s.mbResult.call = s.calls)) ∨
      s.Replied ∧ (s.handler = .complete ∧ s.mbCompletion = 0 ∨ s.handler = .idle ∧ 0 < s.mbCompletion)
  | .check => s.handler = .idle ∧ (s.Replied ∨ s.mbStatus ≠ 2 ∧ s.calls ∉ s.answered)
  | .giveUp => s.handler = .idle ∧ s.calls ∉ s.answered
  | .take => s.handler = .idle ∧ s.Replied
  | .clear none => s.handler = .idle ∧ s.calls ∉ s.answered
  | .clear (some r) => s.handler = .idle ∧ r.call = s.calls

structure Inv : Prop where
  stage : s.AtStage
  /-- The calls to come and the running call have not returned. -/
  fresh : ∀ i, s.calls < i ∨ s.stage ≠ .idle ∧ i = s.calls → s.outcome i = none
  answered : ∀ i ∈ s.answered, i ≤ s.calls ∧ (s.outcome i = none → s.stage ≠ .idle ∧ i = s.calls)
  kept : ∀ i ∈ s.answered, ∀ o, s.outcome i = some o → o.status = 0 ∧ o.recv.isSome = true
  own : ∀ i r, s.outcome i = some ⟨0, some r⟩ → r.call = i

attribute [grind] AtStage Replied finish

variable {s t : Mailbox}

section

variable (h : s.Inv)
include h

theorem Inv.finish (hqu : s.handler = .idle) {status : Int}
    {recv : Option MailboxReply} (hans : s.calls ∈ s.answered → status = 0 ∧ recv.isSome)
    (hown : ∀ r, recv = some r → r.call = s.calls) (mbStatus : Nat) :
    (Mailbox.finish { s with mbStatus := mbStatus } status recv).Inv := by
  have hrd i : (Mailbox.finish { s with mbStatus := mbStatus } status recv).outcome i =
      if i = s.calls then some ⟨status, recv⟩ else s.outcome i := update_apply ..
  refine ⟨hqu, fun i hi => ?_, fun i hi => ?_, fun i hi o ho => ?_, fun i r hr => ?_⟩
  · have := h.fresh i
    grind
  · have := h.answered i hi
    grind
  · have := h.kept i hi o
    grind
  · have := h.own i r
    grind

theorem Inv.keep (hcs : t.calls = s.calls) (hout : t.outcome = s.outcome)
    (hans : t.answered = s.answered) (hby : t.stage = .idle ↔ s.stage = .idle) (hst : t.AtStage) :
    t.Inv := by
  refine ⟨hst, ?_, ?_, ?_, ?_⟩
  · rw [hcs, hout, ne_eq, hby]
    exact h.fresh
  · rw [hcs, hout, hans, ne_eq, hby]
    exact h.answered
  · rw [hout, hans]
    exact h.kept
  · rw [hout]
    exact h.own

theorem Inv.sendStep (hnx : s.sendStep = some t) : t.Inv := by
  have hst := h.stage
  unfold Mailbox.sendStep at hnx
  unfold AtStage at hst
  cases hs : s.stage <;> simp only [hs, Option.some.injEq, reduceCtorEq] at hnx hst
  case exchange reply =>
    split at hnx <;> cases hnx
    · exact h.finish hst.1 (fun ha => absurd ha hst.2) (by simp) s.mbStatus
    · cases reply <;> exact h.keep rfl rfl rfl (by simp [hs]) (by grind)
  case reinit =>
    subst hnx
    exact h.keep rfl rfl rfl (by simp [hs]) (by grind)
  case post reply =>
    subst hnx
    cases reply <;> exact h.keep rfl rfl rfl (by simp [hs]) (by grind)
  case wait =>
    obtain ⟨hdn, ht⟩ := ite_none_right_eq_some.1 hnx
    cases ht
    exact h.keep rfl rfl rfl (by simp [hs]) (by grind)
  case check =>
    subst hnx
    by_cases htwo : s.mbStatus = 2
    · exact h.keep rfl rfl rfl (by simp [hs, htwo]) (by grind)
    · exact h.keep rfl rfl rfl (by simp [hs, htwo]) (by grind)
  case giveUp =>
    subst hnx
    exact h.finish hst.1 (fun ha => absurd ha hst.2) (by simp) 0
  case take =>
    subst hnx
    exact h.keep rfl rfl rfl (by simp [hs]) (by grind)
  case clear recv =>
    subst hnx
    cases recv with
    | none => exact h.finish hst.1 (fun ha => absurd ha hst.2) (by simp) 0
    | some r => exact h.finish hst.1 (fun _ => ⟨rfl, rfl⟩) (by grind) 0

theorem Inv.wait_of_handler (hby : s.handler ≠ .idle) : s.stage = .wait := by
  have := h.stage
  unfold AtStage at this
  split at this <;> first | assumption | exact absurd this hby | exact absurd this.1 hby

theorem Inv.handlerStep (hnx : s.handlerStep = some t) : t.Inv := by
  have hst := h.stage
  have hwt := h.wait_of_handler
  unfold Mailbox.handlerStep at hnx
  cases hh : s.handler <;> simp only [hh, Option.some.injEq, reduceCtorEq] at hnx <;> subst hnx
  case look => exact h.keep rfl rfl rfl Iff.rfl (by grind)
  case complete => exact h.keep rfl rfl rfl Iff.rfl (by grind)
  case drop => grind
  case answer =>
    have hs := hwt (by simp [hh])
    have hone : s.mbStatus = 1 := by grind
    refine ⟨by grind, h.fresh, fun i hi => ?_, fun i hi => ?_, h.own⟩
    · have := h.answered i
      have := h.fresh i
      grind
    · have := h.kept i
      have := h.fresh i
      grind

theorem Inv.next {a : MailboxAction} (ha : s.InTurn a) (hnx : s.next a = some t) : t.Inv := by
  cases a with
  | call reply =>
    obtain ⟨hdl, ht⟩ := ite_none_right_eq_some.1 hnx
    cases ht
    have hst := h.stage
    refine ⟨?_, fun i hi => h.fresh i (by grind), fun i hi => ?_, h.kept, h.own⟩
    · have := h.answered (s.calls + 1)
      grind
    · have := h.answered i hi
      grind
  | send => exact h.sendStep hnx
  | timeout =>
    obtain ⟨⟨hs, hdn⟩, ht⟩ := ite_none_right_eq_some.1 hnx
    cases ht
    have hst := h.stage
    have hdl : s.handler = .idle := ha
    exact h.keep rfl rfl rfl (by simp [hs]) (by grind)
  | interrupt res =>
    obtain ⟨hdl, ht⟩ := ite_none_right_eq_some.1 hnx
    cases ht
    have hst := h.stage
    have htu : replyCount res = 0 ∨ s.stage = .wait ∧ s.mbStatus = 1 := ha
    exact h.keep rfl rfl rfl Iff.rfl (by grind)
  | fetch call lo hi =>
    have hmine : call = s.calls := ha
    have hst := h.stage
    have hwt := h.wait_of_handler
    simp only [Mailbox.next, Mailbox.fetch] at hnx
    split at hnx <;> cases hnx
    exact h.keep rfl rfl rfl Iff.rfl (by grind)
  | handle => exact h.handlerStep hnx

end

/-! ## The call returns -/

theorem Returns.step {i : Nat} {a : MailboxAction} (ha : a = .send ∨ a = .handle)
    (hnx : s.next a = some t) (h : t.Returns i) : s.Returns i := by
  obtain ⟨l, u, hl, hrun, hr⟩ := h
  refine ⟨a :: l, u, List.forall_mem_cons.2 ⟨ha, hl⟩, ?_, hr⟩
  rw [Machine.run, show mailboxMachine.next s a = some t from hnx]
  exact hrun

theorem returns_take (hs : s.stage = .take) : s.Returns s.calls := by
  refine .step (t := { s with stage := .clear (some s.mbResult) }) (.inl rfl) (by simp [next, sendStep, hs]) ?_
  refine .step (.inl rfl) rfl ⟨[], _, nofun, rfl, s.mbResult, ?_⟩
  exact update_self ..

theorem returns_check (hs : s.stage = .check) (htwo : s.mbStatus = 2) : s.Returns s.calls :=
  .step (t := { s with stage := .take }) (.inl rfl) (by simp [next, sendStep, hs, htwo]) (returns_take rfl)

theorem returns_wait (hs : s.stage = .wait) (htwo : s.mbStatus = 2) (hdn : 0 < s.mbCompletion) : s.Returns s.calls :=
  .step (t := { s with mbCompletion := s.mbCompletion - 1, stage := .check }) (.inl rfl)
    (by simp [next, sendStep, hs, hdn]) (returns_check rfl htwo)

theorem Inv.returns (h : s.Inv) {i : Nat} (hi : i ∈ s.answered) : s.Returns i := by
  cases ho : s.outcome i with
  | some o =>
    obtain ⟨hz, hsome⟩ := h.kept i hi o ho
    obtain ⟨r, hr⟩ := isSome_iff_exists.1 hsome
    exact ⟨[], s, nofun, rfl, r, by rw [ho, ← hz, ← hr]⟩
  | none =>
    obtain ⟨hby, rfl⟩ := (h.answered i hi).2 ho
    have hst := h.stage
    unfold AtStage at hst
    cases hs : s.stage <;> simp only [hs, hi, not_true_eq_false, and_false, or_false, false_and, false_or] at hst hby
    case idle => exact absurd rfl hby
    case wait =>
      obtain ⟨hrep, ⟨hcm, -⟩ | ⟨-, hdn⟩⟩ := hst
      · exact .step (t := { s with mbCompletion := s.mbCompletion + 1, handler := .idle }) (.inr rfl)
          (by simp [Mailbox.next, Mailbox.handlerStep, hcm]) (returns_wait hs hrep.1 (Nat.succ_pos _))
      · exact returns_wait hs hrep.1 hdn
    case check => exact returns_check hs hst.2.1
    case take => exact returns_take hs
    case clear recv =>
      cases recv with
      | none => exact hst.elim
      | some r =>
        refine .step (.inl rfl) (by rw [Mailbox.next, Mailbox.sendStep, hs]) ⟨[], _, nofun, rfl, r, ?_⟩
        exact update_self ..

end Mailbox

/-- When replies are read only for a call that waits for one and answer it, and no wait times out while the handler is
running, an answered call returns its reply and no later call does. -/
theorem mailbox_replies {s : Mailbox} (h : mailboxMachine.Reach Mailbox.InTurn s) : s.Sound := by
  have hinv : s.Inv := by
    apply h.invariant
    · rintro s rfl
      exact ⟨rfl, fun _ _ => rfl, nofun, nofun, nofun⟩
    · intro s a t _ ha hinv hnx
      exact hinv.next ha hnx
  refine ⟨hinv.kept, fun i hi => hinv.returns hi, fun i j r hlt _ hr => ?_⟩
  rw [hinv.own i r hr]
  exact Nat.ne_of_gt hlt

/-- An interrupt with one reply to the call `i`, and the handler up to its end. -/
def replyTo (i : Nat) (lo : BitVec 32) : List MailboxAction := [.interrupt 0x100000, .fetch i lo 0, .handle, .handle]

/-- A call that is answered, one without a reply, and one that times out. -/
theorem mailbox_replies_three :
    ∃ s, mailboxMachine.Reach Mailbox.InTurn s ∧ s.answered = [1] ∧ s.outcome 1 = some ⟨0, some ⟨1, 7⟩⟩ ∧
      s.outcome 2 = some ⟨0, none⟩ ∧ s.outcome 3 = some ⟨-ETIMEDOUT, none⟩ ∧ s.Sound := by
  obtain ⟨s, hs, hans, hfst, hsec, hthird⟩ := exists_of_guarded_run (M := mailboxMachine)
    (P := fun s => s.answered = [1] ∧ s.outcome 1 = some ⟨0, some ⟨1, 7⟩⟩ ∧ s.outcome 2 = some ⟨0, none⟩ ∧
      s.outcome 3 = some ⟨-ETIMEDOUT, none⟩) Mailbox.InTurn
    ([.call true, .send, .send, .send] ++ replyTo 1 7 ++ [.handle, .send, .send, .send, .send, .call false,
      .send, .send, .send, .call true, .send, .send, .send, .interrupt 0, .timeout, .send, .send]) rfl (by decide)
  exact ⟨s, hs, hans, hfst, hsec, hthird, mailbox_replies hs⟩

/-- A second interrupt makes the answered call return `-ETIMEDOUT`; a reply after the timeout of its call is returned
by the next one. -/
theorem reply_lost_or_crossed :
    (∃ s, mailboxMachine.Reachable s ∧ 1 ∈ s.answered ∧ s.outcome 1 = some ⟨-ETIMEDOUT, none⟩) ∧
      ∃ s, mailboxMachine.Reachable s ∧ s.outcome 1 = some ⟨-ETIMEDOUT, none⟩ ∧
        s.outcome 2 = some ⟨0, some ⟨1, 7⟩⟩ := by
  constructor
  · exact exists_of_run ([.call true, .send, .send, .send] ++ replyTo 1 7 ++ [.handle] ++ replyTo 1 8 ++
      [.send, .send, .send]) rfl (by decide)
  · exact exists_of_run ([.call true, .send, .send, .send, .timeout, .send, .send, .call true, .send,
      .send, .send] ++ replyTo 1 7 ++ [.handle, .send, .send, .send, .send]) rfl (by decide)

end KaiT2en.Bce
