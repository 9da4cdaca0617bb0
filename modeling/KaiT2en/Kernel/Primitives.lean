import Mathlib.Tactic

/-!
# Kernel primitives

The parts of the kernel interface that several drivers use: error numbers, `atomic_t` counters,
`struct completion`, unsigned 32-bit arithmetic and the success predicates of the allocators.
-/

namespace KaiT2en.Kernel

/-! ## Error numbers -/

def EIo : Int := 5
def EPERM : Int := 1
def EAGAIN : Int := 11
def ENOMEM : Int := 12
def EFAULT : Int := 14
def EBUSY : Int := 16
def EEXIST : Int := 17
def ENODEV : Int := 19
def EINVAL : Int := 22
def ENOSPC : Int := 28
def EPIPE : Int := 32
def EIDRM : Int := 43
def ENOENT : Int := 2
def EPROTO : Int := 71
def EOVERFLOW : Int := 75
def EOPNOTSUPP : Int := 95
def ESHUTDOWN : Int := 108
def ETIMEDOUT : Int := 110
def EUCLEAN : Int := 117
def ERemoteIo : Int := 121

/-! ## Atomic counters -/

/-- `atomic_dec_if_positive`: the returned value and the new counter. -/
def atomicDecIfPositive (v : Int) : Int × Int := if v - 1 < 0 then (v - 1, v) else (v - 1, v - 1)

theorem atomicDecIfPositive_of_pos {v : Int} (h : 0 < v) : atomicDecIfPositive v = (v - 1, v - 1) := by
  unfold atomicDecIfPositive
  rw [if_neg (by omega)]

theorem atomicDecIfPositive_of_nonpos {v : Int} (h : v ≤ 0) : atomicDecIfPositive v = (v - 1, v) := by
  unfold atomicDecIfPositive
  rw [if_pos (by omega)]

/-! ## Unsigned 32-bit arithmetic -/

/-- Addition of `u32` values. -/
def add32 (a b : Nat) : Nat := (a + b) % 2 ^ 32

/-- Subtraction of `u32` values. -/
def sub32 (a b : Nat) : Nat := (a + 2 ^ 32 - b) % 2 ^ 32

theorem add32_of_lt {a b : Nat} (h : a + b < 2 ^ 32) : add32 a b = a + b := Nat.mod_eq_of_lt h

theorem sub32_of_le {a b : Nat} (hba : b ≤ a) (ha : a < 2 ^ 32) : sub32 a b = a - b := by
  unfold sub32
  omega

/-! ## Mutexes -/

/-- A `struct mutex` as its one user sees it: whether it is held, and whether it was ever unlocked while free or
locked while held. -/
@[ext]
structure Mutex where
  held : Bool
  misused : Bool
  deriving DecidableEq, Repr

/-- `mutex_lock`. -/
def Mutex.lock (m : Mutex) : Mutex := ⟨true, m.misused || m.held⟩

def Mutex.unlock (m : Mutex) : Mutex := ⟨false, m.misused || !m.held⟩

/-! ## Allocation -/

/-- `PAGE_SIZE` of the x86 kernels that run on these machines. -/
def PAGE_SIZE : Nat := 4096

/-- The largest object that `kmalloc` returns on x86: `1 << (MAX_PAGE_ORDER + PAGE_SHIFT)`. -/
def KMALLOC_MAX_SIZE : Nat := 2 ^ 22

/-- Which requests the two allocators grant. No `kzalloc` above `KMALLOC_MAX_SIZE` succeeds. -/
structure Allocator where
  dmaAllocCoherent : Nat → Bool
  kzalloc : Nat → Bool
  kzalloc_le : ∀ size, kzalloc size = true → size ≤ KMALLOC_MAX_SIZE

/-- An allocator that grants every request it can. -/
def Allocator.generous : Allocator where
  dmaAllocCoherent := fun _ => true
  kzalloc := fun size => decide (size ≤ KMALLOC_MAX_SIZE)
  kzalloc_le := fun _ h => of_decide_eq_true h

end KaiT2en.Kernel
