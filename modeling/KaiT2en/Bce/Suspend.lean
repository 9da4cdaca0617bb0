import KaiT2en.Kernel.Primitives

/-!
# System sleep of the BCE core driver

`t2bce_suspend` and `t2bce_resume` with the helpers that take and release the mailbox `channel_lock`. Everything the
functions learn from outside (client hooks, the values of `mb_status`, allocations, mailbox replies) is a parameter. A definition has the name of its function, without `bce_`.

The no-state fallback starts by undoing the preparation, which releases the lock, and undoes it once more when one of
its first two steps fails. `pm_balanced_iff` says for which outcomes the lock is used in a balanced way.
-/

namespace KaiT2en.Bce

open KaiT2en.Kernel

/-- The fields of `struct t2bce_device` that the sleep functions use. `savedDataDmaSize` is `none`
while there is no state buffer. -/
structure T2bceDevice where
  channelLock : Mutex
  mailboxChannelActive : Bool
  dmaAvailable : Bool
  dmaIrqDisabled : Bool
  xhciPmStopped : Bool
  fwVersion : Nat
  statefulSuspendValid : Bool
  noStateFallback : Bool
  noStateResume : Bool
  savedDataDmaSize : Option Nat
  deriving DecidableEq

def BC_PROTOCOL_VERSION : Nat := 0x20001
def BCE_STATE_INITIAL_SIZE : Nat := 0x1000
def BCE_STATE_MAX_SIZE : Nat := 0x100000

def bceUseStatefulSleep : Bool := true

/-! ## Mailbox -/

def BCE_MB_RESTORE_NO_STATE : Nat := 0x15
def BCE_MB_SAVE_STATE_AND_SLEEP_GROW : Nat := 0x19
def BCE_MB_SAVE_RESTORE_STATE_COMPLETE : Nat := 0x1A

def mbType (v : Nat) : Nat := v / 2 ^ 58

def mbValue (v : Nat) : Nat := v % 2 ^ 58

/-- What happens to a message that is sent with the lock held. -/
inductive MailboxOutcome where
  /-- `mb_status` was not 0. -/
  | busy
  | timeout
  | reply (resp : Nat)
  deriving DecidableEq

def mailboxSendLocked : MailboxOutcome → Except Int Nat
  | .busy => .error (-EEXIST)
  | .timeout => .error (-ETIMEDOUT)
  | .reply resp => .ok resp

/-- `bce_mailbox_send_no_reply_locked`; `idle` tells whether `mb_status` was 0. -/
def mailboxSendNoReplyLocked (idle : Bool) : Int := if idle then 0 else -EEXIST

/-- The loop of `bce_pm_wait_mailbox_idle`; `mbStatus` lists the values it reads. -/
def waitMailboxIdleLoop (mbStatus : Nat → Nat) : Nat → Int
  | 0 => -ETIMEDOUT
  | retries + 1 =>
    if mbStatus 0 = 0 then 0
    else if retries = 0 then -ETIMEDOUT
    else waitMailboxIdleLoop (fun k => mbStatus (k + 1)) retries

def pmWaitMailboxIdle (mbStatus : Nat → Nat) : Int := waitMailboxIdleLoop mbStatus 100

namespace T2bceDevice

variable (bce : T2bceDevice)

/-! ## Preparation and its two ways back -/

/-- `bce_dma_engine_disable`; the call returns once the command queue is idle. -/
def dmaEngineDisable : T2bceDevice := { bce with dmaAvailable := false }

def dmaEngineEnable : T2bceDevice := { bce with dmaAvailable := true }

def bceDmaIrqDisable : T2bceDevice := if bce.dmaIrqDisabled then bce else { bce with dmaIrqDisabled := true }

def bceDmaIrqEnable : T2bceDevice := if !bce.dmaIrqDisabled then bce else { bce with dmaIrqDisabled := false }

def xhciPmStop : T2bceDevice := { bce with xhciPmStopped := true }

def xhciPmStart : T2bceDevice := { bce with xhciPmStopped := false }

def statefulSupported : Bool := bceUseStatefulSleep && decide (BC_PROTOCOL_VERSION ≤ bce.fwVersion)

def mailboxChannelPause : T2bceDevice := { bce with channelLock := bce.channelLock.lock }

def mailboxChannelResume : T2bceDevice := { bce with channelLock := bce.channelLock.unlock }

def pmChannelPause (mbStatus : Nat → Nat) : Int × T2bceDevice :=
  let bce := bce.mailboxChannelPause
  let status := pmWaitMailboxIdle mbStatus
  if status ≠ 0 then (status, bce.mailboxChannelResume)
  else (0, { bce with mailboxChannelActive := false })

def pmChannelResume : T2bceDevice := { bce with mailboxChannelActive := true }.mailboxChannelResume

def pmSuspendPrepare (mbStatus : Nat → Nat) : Int × T2bceDevice :=
  let (status, bce) := bce.dmaEngineDisable.pmChannelPause mbStatus
  if status ≠ 0 then (status, bce.dmaEngineEnable) else (0, bce.xhciPmStop)

def pmSuspendAbort : T2bceDevice := bce.bceDmaIrqEnable.xhciPmStart.pmChannelResume.dmaEngineEnable

def pmResumeFinishLocked : T2bceDevice := bce.xhciPmStart.pmChannelResume.dmaEngineEnable

/-! ## The stateful path -/

def allocStateBuffer (kzalloc : Bool) (size : Nat) : Int × T2bceDevice :=
  if kzalloc then (0, { bce with savedDataDmaSize := some size })
  else (-ENOMEM, { bce with savedDataDmaSize := none })

def freeStateBuffer : T2bceDevice := { bce with savedDataDmaSize := none }

end T2bceDevice

/-- What one round of the state save meets: the mapped address, if any, the fate of the message, and whether a larger
buffer could be allocated. -/
structure SaveRound where
  dmaAddr : Option Nat
  send : MailboxOutcome
  kzalloc : Bool

/-- How a round ends when it does not ask for a larger buffer. -/
def SaveRound.status (r : SaveRound) (size : Nat) : Except Int Nat :=
  match r.dmaAddr with
  | none => .error (-ENOMEM)
  | some addr =>
    if addr % BCE_STATE_INITIAL_SIZE ≠ 0 then .error (-EINVAL)
    else
      match mailboxSendLocked r.send with
      | .error status => .error status
      | .ok resp =>
        if mbType resp = BCE_MB_SAVE_RESTORE_STATE_COMPLETE then .error 0
        else if mbType resp ≠ BCE_MB_SAVE_STATE_AND_SLEEP_GROW then .error (-EINVAL)
        else if mbValue resp ≤ size ∨ BCE_STATE_MAX_SIZE < mbValue resp then .error (-EINVAL)
        else .ok (mbValue resp)

/-- `ALIGN(size, BCE_STATE_INITIAL_SIZE)`. -/
def alignState (size : Nat) : Nat :=
  (size + (BCE_STATE_INITIAL_SIZE - 1)) / BCE_STATE_INITIAL_SIZE * BCE_STATE_INITIAL_SIZE

theorem SaveRound.lt_of_status_ok {r : SaveRound} {size requested : Nat} (h : r.status size = .ok requested) :
    size < requested ∧ requested ≤ BCE_STATE_MAX_SIZE := by
  unfold SaveRound.status at h
  cases hd : r.dmaAddr with
  | none => simp only [hd, reduceCtorEq] at h
  | some addr =>
    split at h
    · cases h
    · grind

theorem le_alignState (size : Nat) : size ≤ alignState size := by
  unfold alignState BCE_STATE_INITIAL_SIZE
  omega

/-- The loop of `bce_pm_suspend_try_state` with a buffer of `size` bytes, which grows with each round up to the
maximum. -/
def pmSuspendTryStateLoop (rounds : Nat → SaveRound) (size : Nat) (bce : T2bceDevice) : Int × T2bceDevice :=
  match _h : (rounds 0).status size with
  | .error status =>
    if status = 0 then (0, { bce with statefulSuspendValid := true })
    else (status, bce.freeStateBuffer)
  | .ok requested =>
    let (status, bce) := bce.freeStateBuffer.allocStateBuffer (rounds 0).kzalloc (alignState requested)
    if status ≠ 0 then (status, bce)
    else pmSuspendTryStateLoop (fun k => rounds (k + 1)) (alignState requested) bce
termination_by BCE_STATE_MAX_SIZE - size
decreasing_by
  have hlt := SaveRound.lt_of_status_ok _h
  have hle := le_alignState requested
  omega

def pmSuspendTryState (kzalloc : Bool) (rounds : Nat → SaveRound) (bce : T2bceDevice) : Int × T2bceDevice :=
  let bce := { bce with statefulSuspendValid := false }.freeStateBuffer
  let (status, bce) := bce.allocStateBuffer kzalloc BCE_STATE_INITIAL_SIZE
  if status ≠ 0 then (status, bce)
  else pmSuspendTryStateLoop rounds BCE_STATE_INITIAL_SIZE bce

/-! ## Suspend -/

/-- Everything that `t2bce_suspend` learns from outside. -/
structure SuspendEnv where
  /-- The result of `t2bce_core_clients_pm_prepare`. -/
  pmPrepare : Int
  /-- The values of `mb_status` during the first preparation. -/
  mbStatus : Nat → Nat
  kzalloc : Bool
  rounds : Nat → SaveRound
  /-- The result of `t2bce_core_clients_pm_prepare_no_state`. -/
  pmPrepareNoState : Int
  /-- The values of `mb_status` during the preparation of the no-state fallback. -/
  mbStatusNoState : Nat → Nat
  /-- Whether `mb_status` is 0 when the no-state sleep request is sent. -/
  sleepIdle : Bool

def pmSuspendFallbackNoState (idle : Bool) : Int := if mailboxSendNoReplyLocked idle ≠ 0 then -EIo else 0

variable (env : SuspendEnv) (bce : T2bceDevice)

def pmSuspendNoStateFallback : Int × T2bceDevice :=
  let bce := { bce.pmSuspendAbort with noStateFallback := true, noStateResume := true }
  if env.pmPrepareNoState ≠ 0 then (env.pmPrepareNoState, bce.pmSuspendAbort)
  else
    let (status, bce) := bce.pmSuspendPrepare env.mbStatusNoState
    let status := if status = 0 then pmSuspendFallbackNoState env.sleepIdle else status
    if status ≠ 0 then (status, bce.pmSuspendAbort) else (status, bce)

/-- `t2bce_suspend` between taking and releasing `pm_lock`, up to its label `out_unlock`. -/
def suspendPath : Int × T2bceDevice :=
  let bce := { bce with statefulSuspendValid := false, noStateFallback := false, noStateResume := false }
  if env.pmPrepare ≠ 0 then (env.pmPrepare, bce)
  else
    let (status, bce) := bce.pmSuspendPrepare env.mbStatus
    if status ≠ 0 then (status, bce)
    else if !bce.statefulSupported then pmSuspendNoStateFallback env bce
    else
      let (status, bce) := pmSuspendTryState env.kzalloc env.rounds bce
      if status = 0 then (status, bce)
      else if status ≠ -EAGAIN then (status, bce.pmSuspendAbort)
      else pmSuspendNoStateFallback env bce

def t2bceSuspend : Int × T2bceDevice :=
  let (status, bce) := suspendPath env bce
  (status, if status = 0 then bce.bceDmaIrqDisable else bce)

/-! ## Resume -/

/-- What `t2bce_resume` learns from outside. -/
structure ResumeEnv where
  dmaAddr : Option Nat
  send : MailboxOutcome

def pmResumeNoState (env : ResumeEnv) : Int :=
  match mailboxSendLocked env.send with
  | .error status => status
  | .ok resp => if mbType resp ≠ BCE_MB_RESTORE_NO_STATE then -EINVAL else 0

def pmResumeStateful (env : ResumeEnv) (bce : T2bceDevice) : Int × T2bceDevice :=
  if bce.savedDataDmaSize = none ∨ bce.savedDataDmaSize = some 0 then (-EINVAL, bce)
  else
    match env.dmaAddr with
    | none => (-ENOMEM, bce.freeStateBuffer)
    | some addr =>
      if addr % BCE_STATE_INITIAL_SIZE ≠ 0 then (-EINVAL, bce.freeStateBuffer)
      else
        match mailboxSendLocked env.send with
        | .error status => (status, bce.freeStateBuffer)
        | .ok resp =>
          if mbType resp ≠ BCE_MB_SAVE_RESTORE_STATE_COMPLETE then (-EINVAL, bce.freeStateBuffer)
          else (0, bce.freeStateBuffer)

def t2bceResume (env : ResumeEnv) (bce : T2bceDevice) : Int × T2bceDevice :=
  let bce := bce.bceDmaIrqEnable
  let usedStateful := bce.statefulSupported && bce.statefulSuspendValid
  let (status, bce) := if usedStateful then pmResumeStateful env bce else (pmResumeNoState env, bce)
  if status ≠ 0 then (status, bce.pmResumeFinishLocked)
  else
    let bce := if usedStateful then { bce with statefulSuspendValid := false } else bce
    (status, bce.pmResumeFinishLocked)

/-! ## What the steps do to the channel -/

/-- The mailbox becomes idle within the 100 reads of `bce_pm_wait_mailbox_idle`. -/
def BecomesIdle (mbStatus : Nat → Nat) : Prop := ∃ k < 100, mbStatus k = 0

theorem waitMailboxIdleLoop_eq_zero_iff (retries : Nat) : ∀ mbStatus : Nat → Nat,
      waitMailboxIdleLoop mbStatus retries = 0 ↔ ∃ k < retries, mbStatus k = 0 := by
  induction retries with
  | zero =>
    simp [waitMailboxIdleLoop, ETIMEDOUT]
  | succ retries ih =>
    intro mbStatus
    unfold waitMailboxIdleLoop
    by_cases h0 : mbStatus 0 = 0
    · grind
    rw [if_neg h0]
    -- the reads from the second one on are the reads of the remaining retries
    have hshift : (∃ k < retries + 1, mbStatus k = 0) ↔ ∃ k < retries, mbStatus (k + 1) = 0 := by
      constructor
      · rintro ⟨k, hk, hz⟩
        cases k with
        | zero => exact absurd hz h0
        | succ k => exact ⟨k, Nat.lt_of_succ_lt_succ hk, hz⟩
      · grind
    rw [hshift]
    by_cases hr : retries = 0
    · subst hr
      simp [ETIMEDOUT]
    · rw [if_neg hr]
      exact ih _

theorem pmWaitMailboxIdle_eq_zero_iff (mbStatus : Nat → Nat) : pmWaitMailboxIdle mbStatus = 0 ↔ BecomesIdle mbStatus :=
  waitMailboxIdleLoop_eq_zero_iff 100 mbStatus

namespace T2bceDevice

/-- The two devices agree on the lock, on `mailbox_channel_active` and on the DMA engine. -/
structure SameChannel (a b : T2bceDevice) : Prop where
  lock : b.channelLock = a.channelLock
  active : b.mailboxChannelActive = a.mailboxChannelActive
  dma : b.dmaAvailable = a.dmaAvailable

theorem SameChannel.refl (a : T2bceDevice) : SameChannel a a := ⟨rfl, rfl, rfl⟩

variable (bce : T2bceDevice)

theorem bceDmaIrqDisable_sameChannel : SameChannel bce bce.bceDmaIrqDisable := by
  unfold bceDmaIrqDisable
  split
  · exact SameChannel.refl bce
  · exact ⟨rfl, rfl, rfl⟩

theorem bceDmaIrqEnable_sameChannel : SameChannel bce bce.bceDmaIrqEnable := by
  unfold bceDmaIrqEnable
  split
  · exact SameChannel.refl bce
  · exact ⟨rfl, rfl, rfl⟩

/-- A device on which nobody has taken the lock for sleep and mailbox and DMA engine are in use. -/
structure Running : Prop where
  lock : bce.channelLock = ⟨false, false⟩
  active : bce.mailboxChannelActive = true
  dma : bce.dmaAvailable = true

/-- A device that is prepared for sleep. -/
structure Quiesced : Prop where
  lock : bce.channelLock = ⟨true, false⟩

theorem Running.of_sameChannel {a b : T2bceDevice} (ha : a.Running) (h : SameChannel a b) :
    b.Running :=
  ⟨h.lock.trans ha.lock, h.active.trans ha.active, h.dma.trans ha.dma⟩

theorem Quiesced.of_sameChannel {a b : T2bceDevice} (ha : a.Quiesced) (h : SameChannel a b) :
    b.Quiesced :=
  ⟨h.lock.trans ha.lock⟩

variable {bce : T2bceDevice}

theorem Running.pmSuspendPrepare (h : bce.Running) (mbStatus : Nat → Nat) :
    (BecomesIdle mbStatus → (bce.pmSuspendPrepare mbStatus).1 = 0 ∧ (bce.pmSuspendPrepare mbStatus).2.Quiesced) ∧
      (¬BecomesIdle mbStatus → (bce.pmSuspendPrepare mbStatus).1 ≠ 0 ∧ (bce.pmSuspendPrepare mbStatus).2.Running) := by
  have hlo : bce.channelLock.lock = ⟨true, false⟩ := by rw [h.lock]; rfl
  constructor
  · intro hdl
    have hsu := (pmWaitMailboxIdle_eq_zero_iff mbStatus).2 hdl
    simp only [T2bceDevice.pmSuspendPrepare, pmChannelPause, hsu, ne_eq, not_true_eq_false, if_false]
    exact ⟨trivial, ⟨hlo⟩⟩
  · intro hby
    have hsu : pmWaitMailboxIdle mbStatus ≠ 0 := fun h0 => hby ((pmWaitMailboxIdle_eq_zero_iff mbStatus).1 h0)
    simp only [T2bceDevice.pmSuspendPrepare, pmChannelPause, if_pos hsu]
    refine ⟨hsu, ?_, h.active, rfl⟩
    show bce.channelLock.lock.unlock = ⟨false, false⟩
    rw [hlo]
    rfl

theorem statefulSupported_pmSuspendPrepare (bce : T2bceDevice) (mbStatus : Nat → Nat) :
    (bce.pmSuspendPrepare mbStatus).2.statefulSupported = bce.statefulSupported := by
  unfold T2bceDevice.pmSuspendPrepare pmChannelPause
  by_cases hsu : pmWaitMailboxIdle mbStatus = 0
  · simp only [hsu, ne_eq, not_true_eq_false, if_false]
    rfl
  · simp only [ne_eq, hsu, not_false_eq_true, if_true]
    rfl

/-- Undoing a preparation gives the running device back. -/
theorem Quiesced.pmSuspendAbort (h : bce.Quiesced) :
    bce.pmSuspendAbort.Running := by
  refine ⟨?_, rfl, rfl⟩
  show bce.bceDmaIrqEnable.channelLock.unlock = _
  rw [(bceDmaIrqEnable_sameChannel bce).lock, h.lock]
  rfl

/-- Undoing it twice unlocks the free lock. -/
theorem Running.pmSuspendAbort_misused (h : bce.Running) : bce.pmSuspendAbort.channelLock.misused := by
  show bce.bceDmaIrqEnable.channelLock.unlock.misused
  rw [(bceDmaIrqEnable_sameChannel bce).lock, h.lock]
  rfl

theorem Quiesced.pmResumeFinishLocked (h : bce.Quiesced) :
    bce.pmResumeFinishLocked.Running := by
  refine ⟨?_, rfl, rfl⟩
  show bce.channelLock.unlock = _
  rw [h.lock]
  rfl

end T2bceDevice

open T2bceDevice

theorem SaveRound.status_ne_eagain (r : SaveRound) (size : Nat) : r.status size ≠ .error (-EAGAIN) := by
  intro h
  unfold SaveRound.status at h
  cases hd : r.dmaAddr with
  | none => simp [hd, EAGAIN, ENOMEM] at h
  | some addr =>
    simp only [hd] at h
    split at h
    · simp [EAGAIN, EINVAL] at h
    cases hs : r.send with
    | busy => simp [hs, mailboxSendLocked, EAGAIN, EEXIST] at h
    | timeout => simp [hs, mailboxSendLocked, EAGAIN, ETIMEDOUT] at h
    | reply resp => grind [mailboxSendLocked, EAGAIN, EINVAL]

theorem pmSuspendTryStateLoop_of_error {rounds : Nat → SaveRound} {size : Nat} {status : Int}
    (h : (rounds 0).status size = .error status) (bce : T2bceDevice) :
    pmSuspendTryStateLoop rounds size bce = if status = 0 then (0, { bce with statefulSuspendValid := true })
      else (status, bce.freeStateBuffer) := by
  rw [pmSuspendTryStateLoop]
  split
  · rename_i status' h'
    rw [h] at h'
    cases h'
    rfl
  · rename_i requested h'
    rw [h] at h'
    cases h'

theorem pmSuspendTryStateLoop_of_ok {rounds : Nat → SaveRound} {size requested : Nat}
    (h : (rounds 0).status size = .ok requested) (bce : T2bceDevice) :
    pmSuspendTryStateLoop rounds size bce = if (rounds 0).kzalloc then
        pmSuspendTryStateLoop (fun k => rounds (k + 1)) (alignState requested)
          { bce with savedDataDmaSize := some (alignState requested) }
      else (-ENOMEM, bce.freeStateBuffer) := by
  rw [pmSuspendTryStateLoop]
  split
  · rename_i status h'
    rw [h] at h'
    cases h'
  · grind [allocStateBuffer, freeStateBuffer, ENOMEM]

theorem pmSuspendTryStateLoop_spec (rounds : Nat → SaveRound) (size : Nat) (bce : T2bceDevice) :
    SameChannel bce (pmSuspendTryStateLoop rounds size bce).2 ∧
      (pmSuspendTryStateLoop rounds size bce).1 ≠ -EAGAIN := by
  -- on the room that is left for the buffer to grow
  induction hrm : BCE_STATE_MAX_SIZE - size using Nat.strong_induction_on generalizing rounds size bce with
  | _ room ih =>
    cases hsu : (rounds 0).status size with
    | error status =>
      rw [pmSuspendTryStateLoop_of_error hsu]
      split
      · exact ⟨⟨rfl, rfl, rfl⟩, show (0 : Int) ≠ -EAGAIN by decide⟩
      · refine ⟨⟨rfl, rfl, rfl⟩, fun h => ?_⟩
        exact (rounds 0).status_ne_eagain size (h ▸ hsu)
    | ok requested =>
      rw [pmSuspendTryStateLoop_of_ok hsu]
      split
      · have hlt := SaveRound.lt_of_status_ok hsu
        have hle := le_alignState requested
        obtain ⟨hsa, hstat⟩ := ih (BCE_STATE_MAX_SIZE - alignState requested) (by omega)
          (fun k => rounds (k + 1)) (alignState requested)
          { bce with savedDataDmaSize := some (alignState requested) } rfl
        exact ⟨{ hsa with }, hstat⟩
      · exact ⟨⟨rfl, rfl, rfl⟩, show -ENOMEM ≠ -EAGAIN by decide⟩

theorem pmSuspendTryState_spec (kzalloc : Bool) (rounds : Nat → SaveRound) (bce : T2bceDevice) :
    SameChannel bce (pmSuspendTryState kzalloc rounds bce).2 ∧ (pmSuspendTryState kzalloc rounds bce).1 ≠ -EAGAIN := by
  cases kzalloc with
  | false =>
    have heq : pmSuspendTryState false rounds bce =
        (-ENOMEM, { bce with statefulSuspendValid := false }.freeStateBuffer) := by
      simp [pmSuspendTryState, allocStateBuffer, freeStateBuffer, ENOMEM]
    exact ⟨⟨rfl, rfl, rfl⟩, show -ENOMEM ≠ -EAGAIN by decide⟩
  | true =>
    have heq : pmSuspendTryState true rounds bce = pmSuspendTryStateLoop rounds BCE_STATE_INITIAL_SIZE { bce with
          statefulSuspendValid := false
          savedDataDmaSize := some BCE_STATE_INITIAL_SIZE } := by
      simp [pmSuspendTryState, allocStateBuffer, freeStateBuffer]
    obtain ⟨hsa, hsu⟩ := pmSuspendTryStateLoop_spec rounds BCE_STATE_INITIAL_SIZE
      { bce with
        statefulSuspendValid := false
        savedDataDmaSize := some BCE_STATE_INITIAL_SIZE }
    exact ⟨{ hsa with }, hsu⟩

/-! ## Balance -/

/-- A sleep path ends with the lock held if it returns 0, and with a running device otherwise. -/
def Settles (r : Int × T2bceDevice) : Prop := (r.1 = 0 → r.2.Quiesced) ∧ (r.1 ≠ 0 → r.2.Running)

variable {bce : T2bceDevice}

variable (env : SuspendEnv)

/-- The fallback settles exactly if none of its first two steps fails. -/
theorem pmSuspendNoStateFallback_settles_iff (h : bce.Quiesced) :
    Settles (pmSuspendNoStateFallback env bce) ↔ env.pmPrepareNoState = 0 ∧ BecomesIdle env.mbStatusNoState := by
  have hrun : ({ bce.pmSuspendAbort with noStateFallback := true, noStateResume := true } :
      T2bceDevice).Running := h.pmSuspendAbort.of_sameChannel ⟨rfl, rfl, rfl⟩
  obtain ⟨hdl, hby⟩ := hrun.pmSuspendPrepare env.mbStatusNoState
  unfold pmSuspendNoStateFallback
  by_cases hpr : env.pmPrepareNoState = 0
  · simp only [hpr, ne_eq, not_true_eq_false, if_false, true_and]
    by_cases hi : BecomesIdle env.mbStatusNoState
    · obtain ⟨hsu, hq⟩ := hdl hi
      simp only [hsu, if_true, hi, iff_true]
      by_cases hsleep : pmSuspendFallbackNoState env.sleepIdle = 0
      · rw [if_neg (by simpa using hsleep)]
        exact ⟨fun _ => hq, fun hne => absurd hsleep hne⟩
      · rw [if_pos hsleep]
        exact ⟨fun h0 => absurd h0 hsleep, fun _ => hq.pmSuspendAbort⟩
    obtain ⟨hsu, hr⟩ := hby hi
    simp only [if_neg hsu, hi, iff_false]
    rw [if_pos hsu]
    rintro ⟨-, hrunn⟩
    have hmis := hr.pmSuspendAbort_misused
    rw [(hrunn hsu).lock] at hmis
    cases hmis
  rw [if_pos hpr]
  simp only [hpr, false_and, iff_false]
  rintro ⟨-, hrunn⟩
  have hmis := hrun.pmSuspendAbort_misused
  rw [(hrunn hpr).lock] at hmis
  cases hmis

theorem suspendPath_settles_iff (h : bce.Running) :
    Settles (suspendPath env bce) ↔ env.pmPrepare ≠ 0 ∨ ¬BecomesIdle env.mbStatus ∨ bce.statefulSupported ∨
        env.pmPrepareNoState = 0 ∧ BecomesIdle env.mbStatusNoState := by
  have hrun : ({ bce with
      statefulSuspendValid := false, noStateFallback := false, noStateResume := false } :
      T2bceDevice).Running := h.of_sameChannel ⟨rfl, rfl, rfl⟩
  obtain ⟨hdl, hby⟩ := hrun.pmSuspendPrepare env.mbStatus
  have hsup := statefulSupported_pmSuspendPrepare { bce with
    statefulSuspendValid := false, noStateFallback := false, noStateResume := false } env.mbStatus
  have hsup : _ = bce.statefulSupported := hsup
  unfold suspendPath
  by_cases hpr : env.pmPrepare = 0
  · simp only [hpr, ne_eq, not_true_eq_false, if_false, false_or]
    by_cases hi : BecomesIdle env.mbStatus
    · obtain ⟨hsu, hq⟩ := hdl hi
      simp only [hsu, not_true_eq_false, if_false, hsup, hi, false_or]
      cases hst : bce.statefulSupported with
      | false =>
        simp only [Bool.not_false, if_true, Bool.false_eq_true, false_or]
        exact pmSuspendNoStateFallback_settles_iff env hq
      | true =>
        obtain ⟨hsa, hagain⟩ := pmSuspendTryState_spec env.kzalloc env.rounds (pmSuspendPrepare _ env.mbStatus).2
        simp only [Bool.not_true, Bool.false_eq_true, if_false, true_or, iff_true]
        split
        · rename_i h0
          exact ⟨fun _ => hq.of_sameChannel hsa, fun hne => absurd h0 hne⟩
        rename_i h0
        rw [if_pos hagain]
        refine ⟨fun he => absurd he h0, fun _ => ?_⟩
        exact (hq.of_sameChannel hsa).pmSuspendAbort
    · obtain ⟨hsu, hr⟩ := hby hi
      simp only [hi, not_false_eq_true, true_or, iff_true]
      rw [if_pos hsu]
      exact ⟨fun h0 => absurd h0 hsu, fun _ => hr⟩
  · simp only [ne_eq, hpr, not_false_eq_true, true_or, iff_true]
    exact ⟨fun h0 => absurd h0 hpr, fun _ => hrun⟩

/-- Every resume of a prepared device gives the running device back. -/
theorem t2bceResume_running (env : ResumeEnv) (h : bce.Quiesced) : (t2bceResume env bce).2.Running := by
  have hq : bce.bceDmaIrqEnable.Quiesced := h.of_sameChannel (bceDmaIrqEnable_sameChannel bce)
  have hstate : (pmResumeStateful env bce.bceDmaIrqEnable).2.Quiesced := by
    unfold pmResumeStateful
    repeat' split
    all_goals exact ⟨hq.lock⟩
  unfold t2bceResume
  by_cases hused : (bce.bceDmaIrqEnable.statefulSupported && bce.bceDmaIrqEnable.statefulSuspendValid)
  · simp only [hused, if_true]
    split
    · exact hstate.pmResumeFinishLocked
    · exact T2bceDevice.Quiesced.pmResumeFinishLocked ⟨hstate.lock⟩
  simp only [hused, Bool.false_eq_true, if_false]
  split
  · exact hq.pmResumeFinishLocked
  · exact hq.pmResumeFinishLocked

/-- One system sleep never misuses the lock; after a suspend that returned 0 it is held until the resume, and after
one that failed it is free, the mailbox is in use and the DMA engine is enabled. -/
def PmBalanced (wake : ResumeEnv) (bce : T2bceDevice) : Prop :=
  let (status, asleep) := t2bceSuspend env bce
  let (_, awake) := t2bceResume wake asleep
  asleep.channelLock.misused = false ∧
    (status = 0 → asleep.channelLock.held = true ∧ awake.channelLock = ⟨false, false⟩) ∧
    (status ≠ 0 → asleep.channelLock.held = false ∧ asleep.mailboxChannelActive = true ∧ asleep.dmaAvailable = true)

/-- From a running device the sleep is balanced exactly if the clients refuse to prepare, the mailbox does not become
idle, the firmware supports stateful sleep, or the first two steps of the no-state fallback succeed. -/
theorem pm_balanced_iff (wake : ResumeEnv) {bce : T2bceDevice} (h : bce.Running) :
    PmBalanced env wake bce ↔ env.pmPrepare ≠ 0 ∨ ¬BecomesIdle env.mbStatus ∨ bce.statefulSupported = true ∨
        env.pmPrepareNoState = 0 ∧ BecomesIdle env.mbStatusNoState := by
  rw [← suspendPath_settles_iff env h]
  unfold PmBalanced t2bceSuspend Settles
  obtain ⟨status, asleep⟩ := suspendPath env bce
  by_cases h0 : status = 0
  · simp only [h0, if_true, ne_eq, not_true_eq_false, false_implies, and_true, true_implies]
    have hsa := bceDmaIrqDisable_sameChannel asleep
    constructor
    · rintro ⟨hmis, hhe, -⟩
      rw [hsa.lock] at hmis hhe
      exact ⟨Mutex.ext hhe hmis⟩
    · intro hq
      refine ⟨?_, ?_, ?_⟩
      · rw [hsa.lock, hq.lock]
      · rw [hsa.lock, hq.lock]
      · exact (t2bceResume_running wake (hq.of_sameChannel hsa)).lock
  simp only [h0, if_false, false_implies, true_and, ne_eq, not_false_eq_true, true_implies]
  constructor
  · rintro ⟨hmis, hfr, hact, hdma⟩
    exact ⟨Mutex.ext hfr hmis, hact, hdma⟩
  · intro hr
    exact ⟨by rw [hr.lock], by rw [hr.lock], hr.active, hr.dma⟩

/-- A device with firmware that has no stateful sleep. -/
def oldFirmware : T2bceDevice where
  channelLock := ⟨false, false⟩
  mailboxChannelActive := true
  dmaAvailable := true
  dmaIrqDisabled := false
  xhciPmStopped := false
  fwVersion := 0x20000
  statefulSuspendValid := false
  noStateFallback := false
  noStateResume := false
  savedDataDmaSize := none

/-- All steps succeed except the client hook for the no-state sleep, which returns `-ENOMEM`. -/
def failingNoState : SuspendEnv where
  pmPrepare := 0
  mbStatus := fun _ => 0
  kzalloc := true
  rounds := fun _ => ⟨some 0, .reply 0, true⟩
  pmPrepareNoState := -ENOMEM
  mbStatusNoState := fun _ => 0
  sleepIdle := true

/-- The suspend fails and has unlocked the mailbox channel twice. -/
theorem t2bceSuspend_unlocks_twice : oldFirmware.Running ∧ (t2bceSuspend failingNoState oldFirmware).1 = -ENOMEM ∧
      (t2bceSuspend failingNoState oldFirmware).2.channelLock.misused = true ∧
      ¬PmBalanced failingNoState ⟨none, .timeout⟩ oldFirmware := by
  have hmis : (t2bceSuspend failingNoState oldFirmware).2.channelLock.misused = true := by decide
  refine ⟨⟨rfl, rfl, rfl⟩, by decide, hmis, fun hbal => ?_⟩
  have hnot : (t2bceSuspend failingNoState oldFirmware).2.channelLock.misused = false := hbal.1
  exact absurd (hmis.symm.trans hnot) (by decide)

/-- The same firmware sleeps and wakes with the lock balanced if the clients can be prepared. -/
theorem pm_balanced_oldFirmware : oldFirmware.Running ∧
      PmBalanced { failingNoState with pmPrepareNoState := 0 } ⟨none, .timeout⟩ oldFirmware :=
  have hrun : oldFirmware.Running := ⟨rfl, rfl, rfl⟩
  ⟨hrun, (pm_balanced_iff _ _ hrun).2 (.inr (.inr (.inr ⟨rfl, 0, by decide, rfl⟩)))⟩

end KaiT2en.Bce
