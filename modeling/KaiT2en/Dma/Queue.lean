import KaiT2en.Kernel.Primitives

/-!
# Submission queues of the BCE DMA engine

The model of `struct bce_queue_sq` and of the operations of `t2bce_dma/queue.c` on it. A queue owns a ring of
`el_count` elements. The driver appends at `tail`, the completion handlers advance `head`, the interrupt handler
stores completions at `completion_tail`, and `t2bce_dma_next_completion` reads them at `completion_cidx`. Free
elements are counted apart, in the atomic `available_commands`.

`submitted`, `posted`, `taken` and `notified` are history variables that no operation reads. `Sq.Consistent` states
how they determine the indices and the counter; every operation keeps it, whatever its caller does.
-/

namespace KaiT2en.Dma

open KaiT2en.Kernel Nat

/-- `struct bce_sq_completion_data`. -/
structure CompletionData where
  status : Nat
  dataSize : Nat
  result : Nat
  deriving DecidableEq, Repr, Inhabited

def BCE_COMPLETION_SUCCESS : Nat := 0
def BCE_COMPLETION_ERROR : Nat := 1
def BCE_COMPLETION_ABORTED : Nat := 2
def BCE_COMPLETION_NO_SPACE : Nat := 3
def BCE_COMPLETION_OVERRUN : Nat := 4

/-- The fields of `struct bce_qe_completion` that concern one queue. -/
structure QeCompletion where
  result : Nat
  dataSize : Nat
  completionIndex : Nat
  status : Nat
  deriving DecidableEq, Repr

/-- `struct bce_queue_sq` with ring elements of type `α`. -/
structure Sq (α : Type) where
  elCount : Nat
  availableCommands : Int
  /-- The counter of `available_command_completion`. -/
  availableCommandCompletion : Nat
  availableCommandCompletionWaitingCount : Int
  head : Nat
  tail : Nat
  completionCidx : Nat
  completionTail : Nat
  data : Nat → Option α
  completionData : Nat → CompletionData
  submitted : Nat
  posted : Nat
  taken : Nat
  notified : Nat

variable {α : Type}

/-- The value that `atomic_set` stores for a `u32` argument: the `int` with the same bits. -/
def atomicOfU32 (v : Nat) : Int := Int.bmod v (2 ^ 32)

/-- The queue that `t2bce_dma_alloc_sq` initializes. -/
def Sq.fresh (elCount : Nat) : Sq α where
  elCount := elCount
  availableCommands := atomicOfU32 (sub32 elCount 1)
  availableCommandCompletion := 0
  availableCommandCompletionWaitingCount := 0
  head := 0
  tail := 0
  completionCidx := 0
  completionTail := 0
  data := fun _ => none
  completionData := fun _ => default
  submitted := 0
  posted := 0
  taken := 0
  notified := 0

/-- `sizeof(struct bce_queue_sq)` is far below any allocation limit; only its success matters. -/
def sizeofSq : Nat := 256

def sizeofSqCompletionData : Nat := 24

/-- `t2bce_dma_alloc_sq`. The ring size is computed in `u32`, the size of the completion table in `size_t`. -/
def allocSq (mem : Allocator) (elSize elCount : Nat) : Option (Sq α) :=
  if !mem.kzalloc sizeofSq then none
  else if mem.dmaAllocCoherent (elCount * elSize % 2 ^ 32) && mem.kzalloc (sizeofSqCompletionData * elCount) then
    some (Sq.fresh elCount)
  else none

variable (sq : Sq α)

def Sq.cancelSubmissionReservation : Sq α := { sq with availableCommands := sq.availableCommands + 1 }

/-- `t2bce_dma_next_submission` together with the write of the element it returns. -/
def Sq.nextSubmission (element : α) : Sq α :=
  { sq with
    data := Function.update sq.data sq.tail (some element)
    tail := (sq.tail + 1) % sq.elCount
    submitted := sq.submitted + 1 }

def Sq.notifySubmissionComplete : Sq α :=
  let waiting := atomicDecIfPositive sq.availableCommandCompletionWaitingCount
  { sq with
    head := (sq.head + 1) % sq.elCount
    availableCommands := sq.availableCommands + 1
    availableCommandCompletionWaitingCount := waiting.2
    availableCommandCompletion :=
      if 0 ≤ waiting.1 then sq.availableCommandCompletion + 1 else sq.availableCommandCompletion
    notified := sq.notified + 1 }

def Sq.nextCompletion : Option (CompletionData × Sq α) :=
  if sq.completionCidx = sq.completionTail then none
  else some (sq.completionData sq.completionCidx,
    { sq with
      completionCidx := (sq.completionCidx + 1) % sq.elCount
      taken := sq.taken + 1 })

/-- `t2bce_dma_handle_cq_completion` for a completion whose queue id selects `sq`. -/
def Sq.handleCqCompletion (e : QeCompletion) : Sq α :=
  let cmpl : CompletionData :=
    if sq.completionTail ≠ e.completionIndex then ⟨BCE_COMPLETION_ERROR, 0, 0⟩
    else ⟨e.status, e.dataSize, e.result⟩
  { sq with
    completionData := Function.update sq.completionData sq.completionTail cmpl
    completionTail := (sq.completionTail + 1) % sq.elCount
    posted := sq.posted + 1 }

/-- `t2bce_dma_reserve_submission` with a null or expired timeout, run alone; `available` is the engine's flag. -/
def Sq.reserveSubmission (available : Bool) : Except Int (Sq α) :=
  if !available then .error (-ESHUTDOWN)
  else
    let dec := atomicDecIfPositive sq.availableCommands
    if dec.1 < 0 then .error (-EAGAIN)
    else .ok { sq with availableCommands := dec.2 }

/-- The condition that `t2bce_dma_wait_command_queue_idle` waits for. The `int` is compared as an
unsigned number. -/
def Sq.commandQueueIdle : Bool := sq.availableCommands % 2 ^ 32 == ((sub32 sq.elCount 1 : Nat) : Int)

theorem Sq.nextCompletion_spec {sq sq' : Sq α} {c : CompletionData} (h : sq.nextCompletion = some (c, sq')) :
    (sq.completionCidx ≠ sq.completionTail ∧ c = sq.completionData sq.completionCidx) ∧ sq' = { sq with
        completionCidx := (sq.completionCidx + 1) % sq.elCount
        taken := sq.taken + 1 } := by
  unfold Sq.nextCompletion at h
  split at h
  · cases h
  · rename_i hne
    cases h
    exact ⟨⟨hne, rfl⟩, rfl⟩

theorem Sq.reserveSubmission_ok {sq sq' : Sq α} {available : Bool} (h : sq.reserveSubmission available = .ok sq') :
    0 < sq.availableCommands ∧ sq' = { sq with availableCommands := sq.availableCommands - 1 } := by
  unfold Sq.reserveSubmission at h
  split at h
  · cases h
  by_cases hpos : 0 < sq.availableCommands
  · rw [atomicDecIfPositive_of_pos hpos, if_neg (by omega)] at h
    cases h
    exact ⟨hpos, rfl⟩
  · rw [atomicDecIfPositive_of_nonpos (by omega), if_pos (by omega)] at h
    cases h

/-! ## The counters behind the indices -/

/-- The history determines the four ring indices, and the free, the `reserved` and the submitted elements add up to
the capacity and the notifications. -/
structure Sq.Consistent (reserved : Nat) : Prop where
  two_le : 2 ≤ sq.elCount
  elCount_lt : sq.elCount < 2 ^ 18
  nonneg : 0 ≤ sq.availableCommands
  head_eq : sq.head = sq.notified % sq.elCount
  tail_eq : sq.tail = sq.submitted % sq.elCount
  cidx_eq : sq.completionCidx = sq.taken % sq.elCount
  ctail_eq : sq.completionTail = sq.posted % sq.elCount
  balance : sq.availableCommands + reserved + sq.submitted = sq.elCount - 1 + sq.notified

/-- A queue that was allocated has a completion table that `kzalloc` could return, so its element
count is small. -/
theorem elCount_le_of_allocSq {mem : Allocator} {elSize elCount : Nat} {sq : Sq α}
    (h : allocSq mem elSize elCount = some sq) :
    sq = Sq.fresh elCount ∧ elCount < 2 ^ 18 := by
  unfold allocSq at h
  split at h
  · exact absurd h (by simp)
  split at h
  · rename_i hmem
    rw [Bool.and_eq_true] at hmem
    have hle := mem.kzalloc_le _ hmem.2
    simp only [Option.some.injEq] at h
    refine ⟨h.symm, ?_⟩
    simp only [sizeofSqCompletionData, KMALLOC_MAX_SIZE] at hle
    omega
  · exact absurd h (by simp)

theorem atomicOfU32_sub32_one {elCount : Nat} (h2 : 1 ≤ elCount) (hlt : elCount < 2 ^ 18) :
    atomicOfU32 (sub32 elCount 1) = (elCount : Int) - 1 := by
  have hsub : sub32 elCount 1 = elCount - 1 := sub32_of_le h2 (by omega)
  unfold atomicOfU32
  rw [hsub, Int.bmod_eq_of_le (by omega) (by omega)]
  omega

theorem Sq.fresh_consistent {elCount : Nat} (h2 : 2 ≤ elCount) (hlt : elCount < 2 ^ 18) :
    (Sq.fresh elCount : Sq α).Consistent 0 where
  two_le := h2
  elCount_lt := hlt
  nonneg := by
    simp only [Sq.fresh, atomicOfU32_sub32_one (by omega : 1 ≤ elCount) hlt]
    omega
  head_eq := (zero_mod _).symm
  tail_eq := (zero_mod _).symm
  cidx_eq := (zero_mod _).symm
  ctail_eq := (zero_mod _).symm
  balance := by
    simp only [Sq.fresh, atomicOfU32_sub32_one (by omega : 1 ≤ elCount) hlt]
    omega

namespace Sq.Consistent

variable {sq sq' : Sq α} {reserved : Nat}

theorem cancelSubmissionReservation (h : sq.Consistent (reserved + 1)) :
    sq.cancelSubmissionReservation.Consistent reserved :=
  { h with
    nonneg := Int.add_nonneg h.nonneg (by decide)
    balance := by
      have := h.balance
      simp only [Sq.cancelSubmissionReservation]
      omega }

theorem nextSubmission (h : sq.Consistent (reserved + 1)) (element : α) :
    (sq.nextSubmission element).Consistent reserved :=
  { h with
    tail_eq := by
      show (sq.tail + 1) % sq.elCount = (sq.submitted + 1) % sq.elCount
      rw [h.tail_eq, mod_add_mod]
    balance := by
      have := h.balance
      simp only [Sq.nextSubmission]
      omega }

section

variable (h : sq.Consistent reserved)
include h

theorem notifySubmissionComplete :
    sq.notifySubmissionComplete.Consistent reserved :=
  { h with
    nonneg := Int.add_nonneg h.nonneg (by decide)
    head_eq := by
      show (sq.head + 1) % sq.elCount = (sq.notified + 1) % sq.elCount
      rw [h.head_eq, mod_add_mod]
    balance := by
      have := h.balance
      simp only [Sq.notifySubmissionComplete]
      omega }

theorem handleCqCompletion (e : QeCompletion) : (sq.handleCqCompletion e).Consistent reserved :=
  { h with
    ctail_eq := by
      show (sq.completionTail + 1) % sq.elCount = (sq.posted + 1) % sq.elCount
      rw [h.ctail_eq, mod_add_mod] }

theorem nextCompletion {c : CompletionData} (hn : sq.nextCompletion = some (c, sq')) : sq'.Consistent reserved := by
  obtain ⟨-, rfl⟩ := Sq.nextCompletion_spec hn
  exact { h with
    cidx_eq := by rw [h.cidx_eq, mod_add_mod] }

/-- Changing only the counters of `atomic_dec_if_positive` and of the waiters keeps the indices;
`reserved` then follows the free count. -/
theorem of_counters {available waiting : Int} {done reserved' : Nat}
    (hnn : 0 ≤ available) (hbal : available + reserved' = sq.availableCommands + reserved) :
    ({ sq with
        availableCommands := available
        availableCommandCompletion := done
        availableCommandCompletionWaitingCount := waiting } : Sq α).Consistent reserved' :=
  { h with
    nonneg := hnn
    balance := by
      have := h.balance
      simp only
      omega }

theorem reserveSubmission {available : Bool}
    (hr : sq.reserveSubmission available = .ok sq') : sq'.Consistent (reserved + 1) := by
  obtain ⟨hpos, rfl⟩ := Sq.reserveSubmission_ok hr
  exact h.of_counters (by omega) (by omega)

theorem tail_eq_head_add (hle : sq.notified ≤ sq.submitted) :
    sq.tail = (sq.head + (sq.submitted - sq.notified)) % sq.elCount := by
  rw [h.tail_eq, h.head_eq, Nat.mod_add_mod, Nat.add_sub_cancel' hle]

theorem submitted_lt (hres : 0 < reserved) : sq.submitted + 1 < sq.notified + sq.elCount := by
  have := h.balance
  have := h.nonneg
  omega

theorem commandQueueIdle (hfr : sq.availableCommands = sq.elCount - 1) : sq.commandQueueIdle := by
  have h2 := h.two_le
  have hlt := h.elCount_lt
  unfold Sq.commandQueueIdle
  rw [hfr, sub32_of_le (by omega) (by omega), Int.emod_eq_of_lt (by omega) (by omega)]
  simp only [beq_iff_eq]
  omega

end

end Sq.Consistent

end KaiT2en.Dma
