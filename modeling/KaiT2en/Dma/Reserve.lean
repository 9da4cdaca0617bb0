import KaiT2en.Dma.Queue

/-!
# `t2bce_dma_reserve_submission` step by step

The reservation is the one operation on a submission queue that its callers run without a lock, and it may sleep. Here
it performs one access to shared memory per step, so that other clients, completions and the shutdown of the engine
interleave anywhere.

`reserveStep_consistent` accounts for one step: a call owns one element from its successful decrement until it returns
an error, or, once it has returned 0, until the caller gives it up. A call with a null timeout, run alone, is
`Sq.reserveSubmission` (`reserveStep_run_null`).
-/

namespace KaiT2en.Dma

open KaiT2en.Kernel Option

variable {α : Type}

/-- The next access of a call of `t2bce_dma_reserve_submission`. -/
inductive ReservePc where
  /-- The first test of `dma->available`. -/
  | enter
  /-- The loop condition, `atomic_dec_if_positive(&sq->available_commands)`. -/
  | decrement
  /-- The test of `dma->available` after a failed decrement, and the test of the timeout. -/
  | recheck
  /-- `atomic_inc` of the waiting count. -/
  | announce
  /-- `wait_for_completion_timeout`. -/
  | wait
  /-- After a timeout: `atomic_dec_if_positive` of the waiting count. -/
  | withdraw
  /-- After a timeout: `try_wait_for_completion`. -/
  | drain
  /-- The test of `dma->available` at the end of the loop body. -/
  | again
  /-- The test of `dma->available` after the loop. -/
  | taken
  /-- The `atomic_inc` that undoes the decrement. -/
  | undo
  | success
  | failed (errno : Int)
  deriving DecidableEq, Repr

/-- A call in progress; `timeout = none` is the null pointer. -/
structure ReserveCall where
  pc : ReservePc
  timeout : Option Nat
  deriving DecidableEq, Repr

/-- What ends a `wait_for_completion_timeout`. -/
inductive WaitOutcome where
  | expire
  | wake (remaining : Nat)
  deriving DecidableEq, Repr

/-- One step of a call. `w` matters in `wait` only: the wait expires only if no completion is
pending, and otherwise consumes one. -/
def reserveStep (available : Bool) (w : WaitOutcome) (sq : Sq α) (c : ReserveCall) : Option (Sq α × ReserveCall) :=
  match c.pc with
  | .enter => some (sq, { c with pc := if available then .decrement else .failed (-ESHUTDOWN) })
  | .decrement =>
    let dec := atomicDecIfPositive sq.availableCommands
    some ({ sq with availableCommands := dec.2 },
      { c with pc := if dec.1 < 0 then .recheck else .taken })
  | .recheck =>
    let pc : ReservePc :=
      if !available then .failed (-ESHUTDOWN)
      else if c.timeout = none ∨ c.timeout = some 0 then .failed (-EAGAIN)
      else .announce
    some (sq, { c with pc })
  | .announce =>
    some ({ sq with
        availableCommandCompletionWaitingCount := sq.availableCommandCompletionWaitingCount + 1 },
      { c with pc := .wait })
  | .wait =>
    match w with
    | .expire => if sq.availableCommandCompletion = 0 then some (sq, ⟨.withdraw, some 0⟩) else none
    | .wake remaining =>
      if sq.availableCommandCompletion = 0 ∨ remaining = 0 ∨ c.timeout.getD 0 < remaining then none
      else some ({ sq with availableCommandCompletion := sq.availableCommandCompletion - 1 },
        ⟨.again, some remaining⟩)
  | .withdraw =>
    let dec := atomicDecIfPositive sq.availableCommandCompletionWaitingCount
    some ({ sq with availableCommandCompletionWaitingCount := dec.2 },
      { c with pc := if dec.1 < 0 then .drain else .again })
  | .drain =>
    some ({ sq with availableCommandCompletion := sq.availableCommandCompletion - 1 },
      { c with pc := .again })
  | .again => some (sq, { c with pc := if available then .decrement else .failed (-ESHUTDOWN) })
  | .taken => some (sq, { c with pc := if available then .success else .undo })
  | .undo => some (sq.cancelSubmissionReservation, { c with pc := .failed (-ESHUTDOWN) })
  | .success => none
  | .failed _ => none

/-- The elements a call owns: one from its successful decrement on. -/
def ReservePc.owned : ReservePc → Nat
  | .taken => 1
  | .undo => 1
  | .success => 1
  | _ => 0

variable {c c' : ReserveCall} {available : Bool} {w : WaitOutcome} {sq sq' : Sq α}

section

variable (h : reserveStep available w sq c = some (sq', c'))
include h

theorem reserveStep_frame : ∃ free waiting done, sq' = { sq with
      availableCommands := free
      availableCommandCompletion := done
      availableCommandCompletionWaitingCount := waiting } := by
  obtain ⟨pc, timeout⟩ := c
  cases pc <;> simp only [reserveStep] at h
  case wait =>
    cases w <;> simp only at h <;> split at h <;> simp only [some.injEq, Prod.mk.injEq, reduceCtorEq] at h
    · exact ⟨_, _, _, h.1.symm⟩
    · exact ⟨_, _, _, h.1.symm⟩
  all_goals
    simp only [some.injEq, Prod.mk.injEq, reduceCtorEq] at h
  all_goals exact ⟨_, _, _, h.1.symm⟩

theorem reserveStep_free (hnn : 0 ≤ sq.availableCommands) :
    0 ≤ sq'.availableCommands ∧ sq'.availableCommands + c'.pc.owned = sq.availableCommands + c.pc.owned := by
  obtain ⟨pc, timeout⟩ := c
  cases pc <;> simp only [reserveStep] at h
  case decrement =>
    obtain ⟨rfl, rfl⟩ := h
    by_cases hpos : 0 < sq.availableCommands
    · have hneg : ¬sq.availableCommands - 1 < 0 := by omega
      simp only [atomicDecIfPositive_of_pos hpos, if_neg hneg, ReservePc.owned]
      omega
    have hneg : sq.availableCommands - 1 < 0 := by omega
    have hle : sq.availableCommands ≤ 0 := by omega
    simp only [atomicDecIfPositive_of_nonpos hle, if_pos hneg, ReservePc.owned]
    exact ⟨hnn, trivial⟩
  case wait =>
    cases w <;> simp only at h <;> split at h <;> simp only [some.injEq, Prod.mk.injEq, reduceCtorEq] at h <;>
      obtain ⟨rfl, rfl⟩ := h <;> exact ⟨hnn, rfl⟩
  case undo =>
    obtain ⟨rfl, rfl⟩ := h
    simp only [Sq.cancelSubmissionReservation, ReservePc.owned]
    omega
  all_goals
    simp only [some.injEq, Prod.mk.injEq, reduceCtorEq] at h
  -- the remaining steps touch neither the free count nor the ownership
  all_goals
    obtain ⟨rfl, rfl⟩ := h
    refine ⟨hnn, ?_⟩
    repeat' split
    all_goals rfl

theorem reserveStep_consistent {others : Nat}
    (hc : sq.Consistent (others + c.pc.owned)) : sq'.Consistent (others + c'.pc.owned) := by
  obtain ⟨hnn, hfr⟩ := reserveStep_free h hc.nonneg
  obtain ⟨free, waiting, done, rfl⟩ := reserveStep_frame h
  refine hc.of_counters hnn ?_
  simp only at hfr
  omega

end

/-- Repeat the steps of one call, at most `fuel` times, until it returns. -/
def reserveAlone (available : Bool) : Nat → Sq α → ReserveCall → Sq α × ReserveCall
  | 0, sq, c => (sq, c)
  | fuel + 1, sq, c =>
    match reserveStep available .expire sq c with
    | none => (sq, c)
    | some (sq', c') => reserveAlone available fuel sq' c'

theorem reserveStep_run_null (available : Bool) (sq : Sq α) : reserveAlone available 3 sq ⟨.enter, none⟩ =
      match sq.reserveSubmission available with
      | .ok sq' => (sq', ⟨.success, none⟩)
      | .error e => (sq, ⟨.failed e, none⟩) := by
  cases available with
  | false => rfl
  | true =>
    have hent : reserveStep true .expire sq ⟨.enter, none⟩ = some (sq, ⟨.decrement, none⟩) := rfl
    by_cases hpos : 0 < sq.availableCommands
    · have hneg : ¬sq.availableCommands - 1 < 0 := by omega
      have hdec : reserveStep true .expire sq ⟨.decrement, none⟩ =
          some ({ sq with availableCommands := sq.availableCommands - 1 }, ⟨.taken, none⟩) := by
        simp only [reserveStep, atomicDecIfPositive_of_pos hpos, if_neg hneg]
      simp only [reserveAlone, hent, hdec, Sq.reserveSubmission, atomicDecIfPositive_of_pos hpos, if_neg hneg]
      rfl
    have hneg : sq.availableCommands - 1 < 0 := by omega
    have hle : sq.availableCommands ≤ 0 := by omega
    have hdec : reserveStep true .expire sq ⟨.decrement, none⟩ = some (sq, ⟨.recheck, none⟩) := by
      simp only [reserveStep, atomicDecIfPositive_of_nonpos hle, if_pos hneg]
    simp only [reserveAlone, hent, hdec, Sq.reserveSubmission, atomicDecIfPositive_of_nonpos hle, if_pos hneg]
    rfl

end KaiT2en.Dma
