import KaiT2en.Bce.Suspend

/-!
# The size of the state buffer

In the loop of `bce_pm_suspend_try_state` the firmware is offered a buffer, and it may ask for a larger one. An offer is
one message with the address of the buffer and the number of its pages. `state_save_in_bounds` says that the offers of a
call grow up to the maximum, that both parts of a message can be told apart, and when the call keeps a buffer.
-/

namespace KaiT2en.Bce

open KaiT2en.Kernel List Nat SaveRound

def BCE_MB_SAVE_STATE_AND_SLEEP : Nat := 0x17
def BCE_STATE_ADDR_MASK : Nat := 0xffffffff000

/-- `BCE_MB_MSG`. -/
def mbMsg (type value : Nat) : Nat := type <<< 58 ||| value % 2 ^ 58

/-- The highest address that `DMA_BIT_MASK(37)` of `t2bce_probe` lets `dma_map_single` return. -/
def dmaMask : Nat := 2 ^ 37 - 1

/-- The mapped buffer of a round. -/
structure Offer where
  addr : Nat
  size : Nat

def Offer.pages (o : Offer) : Nat := o.size / BCE_STATE_INITIAL_SIZE

/-- The message of a round. -/
def Offer.message (o : Offer) : Nat := mbMsg BCE_MB_SAVE_STATE_AND_SLEEP (o.addr &&& BCE_STATE_ADDR_MASK ||| o.pages)

/-- A round sends its message if the buffer is mapped to an aligned address. -/
def SaveRound.offers (r : SaveRound) (size : Nat) : List Offer :=
  match r.dmaAddr with
  | none => []
  | some addr => if addr % BCE_STATE_INITIAL_SIZE ≠ 0 then [] else [⟨addr, size⟩]

/-- The offers of the loop with a buffer of `size` bytes. -/
def saveOffers (rounds : Nat → SaveRound) (size : Nat) : List Offer :=
  (rounds 0).offers size ++ match _h : (rounds 0).status size with
    | .error _ => []
    | .ok requested => if (rounds 0).kzalloc then saveOffers (fun k => rounds (k + 1)) (alignState requested) else []
termination_by BCE_STATE_MAX_SIZE - size
decreasing_by
  have hlt := lt_of_status_ok _h
  have hle := le_alignState requested
  omega

/-- The offers of a call. -/
def tryStateOffers (kzalloc : Bool) (rounds : Nat → SaveRound) : List Offer :=
  if kzalloc then saveOffers rounds BCE_STATE_INITIAL_SIZE else []

/-- A size that a buffer can have. -/
def StateSize (size : Nat) : Prop := 0 < size ∧ size % BCE_STATE_INITIAL_SIZE = 0 ∧ size ≤ BCE_STATE_MAX_SIZE

/-- An offer with a size in bounds, whose message gives back the address and the number of pages. -/
structure Offer.Sound (o : Offer) : Prop where
  size : StateSize o.size
  apart : (o.addr &&& BCE_STATE_ADDR_MASK) &&& o.pages = 0
  type : mbType o.message = BCE_MB_SAVE_STATE_AND_SLEEP
  addr : mbValue o.message / BCE_STATE_INITIAL_SIZE * BCE_STATE_INITIAL_SIZE = o.addr
  pages : mbValue o.message % BCE_STATE_INITIAL_SIZE * BCE_STATE_INITIAL_SIZE = o.size

theorem mbMsg_spec (type : Nat) {value : Nat} (h : value < 2 ^ 58) :
    mbType (mbMsg type value) = type ∧ mbValue (mbMsg type value) = value := by
  have hor := two_pow_add_eq_or_of_lt h type
  rw [mbMsg, mod_eq_of_lt h, shiftLeft_eq, mul_comm, ← hor, mbType, mbValue]
  omega

theorem two_pow_mul_and_of_lt {i b : Nat} (h : b < 2 ^ i) (a : Nat) : 2 ^ i * a &&& b = 0 := by
  refine eq_of_testBit_eq fun j => ?_
  rw [testBit_and, testBit_two_pow_mul, zero_testBit]
  by_cases hj : i ≤ j
  · rw [Nat.testBit_lt_two_pow (h.trans_le (Nat.pow_le_pow_right (by decide) hj)), Bool.and_false]
  · rw [decide_eq_false hj, Bool.false_and, Bool.false_and]

/-- The mask takes nothing from an aligned address below `2 ^ 44`. -/
theorem and_addrMask {k : Nat} (h : k < 2 ^ 32) : 2 ^ 12 * k &&& BCE_STATE_ADDR_MASK = 2 ^ 12 * k := by
  have hma : BCE_STATE_ADDR_MASK = (2 ^ 32 - 1) <<< 12 := by decide
  have hshift : 2 ^ 12 * k = k <<< 12 := by rw [shiftLeft_eq, mul_comm]
  rw [hma, hshift, ← shiftLeft_and_distrib, and_two_pow_sub_one_eq_mod, mod_eq_of_lt h]

theorem Offer.sound {o : Offer} (hsz : StateSize o.size) (haddr : o.addr ≤ dmaMask)
    (halig : o.addr % BCE_STATE_INITIAL_SIZE = 0) : o.Sound := by
  obtain ⟨addr, size⟩ := o
  simp only [StateSize, BCE_STATE_INITIAL_SIZE, BCE_STATE_MAX_SIZE, dmaMask] at hsz haddr halig
  obtain ⟨k, rfl⟩ : ∃ k, addr = 2 ^ 12 * k := ⟨addr / 4096, by omega⟩
  obtain ⟨n, rfl⟩ : ∃ n, size = 4096 * n := ⟨size / 4096, by omega⟩
  have hpag : Offer.pages ⟨2 ^ 12 * k, 4096 * n⟩ = n := Nat.mul_div_cancel_left n (by decide)
  have hma := and_addrMask (show k < 2 ^ 32 by omega)
  have hn : n < 2 ^ 12 := by omega
  have hor := two_pow_add_eq_or_of_lt hn k
  have hmsg : Offer.message ⟨2 ^ 12 * k, 4096 * n⟩ = mbMsg BCE_MB_SAVE_STATE_AND_SLEEP (2 ^ 12 * k + n) := by
    simp only [Offer.message, hpag, hma, hor]
  obtain ⟨hty, hvalue⟩ := mbMsg_spec BCE_MB_SAVE_STATE_AND_SLEEP (show 2 ^ 12 * k + n < 2 ^ 58 by omega)
  refine ⟨hsz, ?_, ?_, ?_, ?_⟩
  · rw [hma, hpag]
    exact two_pow_mul_and_of_lt hn k
  · rw [hmsg, hty]
  · rw [hmsg, hvalue]
    show (2 ^ 12 * k + n) / 4096 * 4096 = 2 ^ 12 * k
    omega
  · rw [hmsg, hvalue]
    show (2 ^ 12 * k + n) % 4096 * 4096 = 4096 * n
    omega

theorem StateSize.align {size requested : Nat} (h : size < requested) (hmax : requested ≤ BCE_STATE_MAX_SIZE) :
    StateSize (alignState requested) ∧ size < alignState requested := by
  simp only [StateSize, alignState, BCE_STATE_INITIAL_SIZE, BCE_STATE_MAX_SIZE] at hmax ⊢
  omega

theorem pmSuspendTryStateLoop_retains (rounds : Nat → SaveRound) (size : Nat) (bce : T2bceDevice)
    (hbuf : bce.savedDataDmaSize.isSome) :
    (pmSuspendTryStateLoop rounds size bce).2.savedDataDmaSize.isSome ↔ (pmSuspendTryStateLoop rounds size bce).1 = 0 ∧
        (pmSuspendTryStateLoop rounds size bce).2.statefulSuspendValid := by
  induction hrm : BCE_STATE_MAX_SIZE - size using Nat.strong_induction_on generalizing rounds size bce with
  | _ room ih =>
    cases hst : (rounds 0).status size with
    | error status =>
      rw [pmSuspendTryStateLoop_of_error hst]
      split
      · exact iff_of_true hbuf ⟨rfl, rfl⟩
      next hne => exact iff_of_false Bool.false_ne_true fun h => hne h.1
    | ok requested =>
      rw [pmSuspendTryStateLoop_of_ok hst]
      split
      · have hlt := lt_of_status_ok hst
        have hle := le_alignState requested
        exact ih _ (by omega) _ _ _ rfl rfl
      · exact iff_of_false Bool.false_ne_true fun h => absurd h.1 (show -ENOMEM ≠ 0 by decide)

/-- Sound offers that grow, from `size` on. -/
def Grows (size : Nat) (l : List Offer) : Prop := l.Pairwise (·.size < ·.size) ∧ ∀ o ∈ l, size ≤ o.size ∧ o.Sound

theorem SaveRound.offers_grow {r : SaveRound} (hma : ∀ addr, r.dmaAddr = some addr → addr ≤ dmaMask) {size : Nat}
    (hsz : StateSize size) {later : List Offer} (h : Grows (size + 1) later) : Grows size (r.offers size ++ later) := by
  have hlat : Grows size later := ⟨h.1, fun o ho => ⟨le_of_succ_le (h.2 o ho).1, (h.2 o ho).2⟩⟩
  unfold offers
  split
  · exact hlat
  next addr haddr =>
  split
  · exact hlat
  next halig =>
  refine ⟨pairwise_cons.2 ⟨fun o ho => (h.2 o ho).1, h.1⟩, forall_mem_cons.2 ⟨⟨le_refl _, ?_⟩, hlat.2⟩⟩
  exact Offer.sound hsz (hma addr haddr) (not_not.1 halig)

theorem saveOffers_grow {rounds : Nat → SaveRound}
    (hma : ∀ k addr, (rounds k).dmaAddr = some addr → addr ≤ dmaMask) {size : Nat} (hsz : StateSize size) :
    Grows size (saveOffers rounds size) := by
  -- on the room that is left for the buffer to grow
  induction hrm : BCE_STATE_MAX_SIZE - size using Nat.strong_induction_on generalizing rounds size with
  | _ room ih =>
    rw [saveOffers]
    apply offers_grow (hma 0) hsz
    split
    · exact ⟨.nil, nofun⟩
    next requested hst =>
    obtain ⟨hlt, hmax⟩ := lt_of_status_ok hst
    obtain ⟨hnx, hgr⟩ := StateSize.align hlt hmax
    split
    · obtain ⟨hpi, hlat⟩ := ih _ (by omega) (fun k => hma (k + 1)) hnx rfl
      exact ⟨hpi, fun o ho => ⟨hgr.trans_le (hlat o ho).1, (hlat o ho).2⟩⟩
    · exact ⟨.nil, nofun⟩

/-- The offers of a call grow and are sound, and the call keeps a buffer exactly if the state is stored. -/
theorem state_save_in_bounds {rounds : Nat → SaveRound}
    (hmask : ∀ k addr, (rounds k).dmaAddr = some addr → addr ≤ dmaMask) (kzalloc : Bool) (bce : T2bceDevice) :
    (tryStateOffers kzalloc rounds).Pairwise (·.size < ·.size) ∧ (∀ o ∈ tryStateOffers kzalloc rounds, o.Sound) ∧
      ((pmSuspendTryState kzalloc rounds bce).2.savedDataDmaSize.isSome = true ↔
        (pmSuspendTryState kzalloc rounds bce).1 = 0 ∧
          (pmSuspendTryState kzalloc rounds bce).2.statefulSuspendValid = true) := by
  cases kzalloc with
  | false => exact ⟨.nil, nofun, iff_of_false Bool.false_ne_true fun h => absurd h.1 (show -ENOMEM ≠ 0 by decide)⟩
  | true =>
    have hin : StateSize BCE_STATE_INITIAL_SIZE := ⟨by decide, rfl, by decide⟩
    obtain ⟨hpi, hsnd⟩ := saveOffers_grow hmask hin
    exact ⟨hpi, fun o ho => (hsnd o ho).2, pmSuspendTryStateLoop_retains rounds _ _ rfl⟩

/-- The firmware stores its state at once. -/
def storedRound : SaveRound := ⟨some 0x5000, .reply (mbMsg BCE_MB_SAVE_RESTORE_STATE_COMPLETE 0), true⟩

theorem state_save_in_bounds_stored :
    0x5000 ≤ dmaMask ∧ ∀ bce, (pmSuspendTryState true (fun _ => storedRound) bce).2.savedDataDmaSize.isSome = true := by
  refine ⟨by decide, fun bce => (state_save_in_bounds ?_ true bce).2.2.2 ?_⟩
  · rintro k addr ⟨⟩
    decide
  · have hstor : storedRound.status BCE_STATE_INITIAL_SIZE = .error 0 := by decide
    show (pmSuspendTryStateLoop _ _ _).1 = 0 ∧ (pmSuspendTryStateLoop _ _ _).2.statefulSuspendValid = true
    rw [pmSuspendTryStateLoop_of_error hstor]
    exact ⟨rfl, rfl⟩

end KaiT2en.Bce
