import Mathlib.Order.Basic

/-!
# Binary search for a boundary

A predicate on the positions below `n` that holds up to some position and not from there on has a boundary. The search
keeps an interval that contains it. `Splits.low` and `Splits.high` are the two ways to go on from a position in the
interval, and an interval without positions is the boundary (`Splits.iff`).
-/

namespace KaiT2en.Lib.BinarySearch

/-- The position in the middle of an interval. -/
def middle (lo hi : Nat) : Nat := lo + (hi - lo) / 2

theorem le_middle (lo hi : Nat) : lo ≤ middle lo hi := Nat.le_add_right _ _

theorem middle_lt {lo hi : Nat} (h : lo < hi) : middle lo hi < hi := by
  rw [middle]
  omega

/-- A predicate that holds up to some position below `n`. -/
def Initial (p : Nat → Prop) (n : Nat) : Prop := ∀ i j, i ≤ j → j < n → p j → p i

/-- The boundary of `p` below `n` is between `lo` and `hi`. -/
structure Splits (p : Nat → Prop) (n lo hi : Nat) : Prop where
  le : lo ≤ hi
  bound : hi ≤ n
  below : ∀ i, i < lo → p i
  above : ∀ i, hi ≤ i → i < n → ¬ p i

variable {p : Nat → Prop} {n lo hi m : Nat}

theorem Splits.start (p : Nat → Prop) (n : Nat) : Splits p n 0 n where
  le := Nat.zero_le n
  bound := Nat.le_refl n
  below i hi := absurd hi (Nat.not_lt_zero i)
  above _ hle hlt := absurd hlt (Nat.not_lt.2 hle)

theorem Splits.high (h : Splits p n lo hi) (hp : Initial p n) (hm : m < hi) (hpm : p m) : Splits p n (m + 1) hi where
  le := hm
  bound := h.bound
  below i hi := hp i m (Nat.le_of_lt_succ hi) (Nat.lt_of_lt_of_le hm h.bound) hpm
  above := h.above

theorem Splits.low (h : Splits p n lo hi) (hp : Initial p n) (hlo : lo ≤ m) (hm : m < hi) (hpm : ¬ p m) :
    Splits p n lo m where
  le := hlo
  bound := Nat.le_trans (Nat.le_of_lt hm) h.bound
  below := h.below
  above i hle hlt hpi := hpm (hp m i hle hlt hpi)

/-- The positions below the boundary are those where the predicate holds. -/
theorem Splits.iff (h : Splits p n lo lo) {i : Nat} (hi : i < n) : p i ↔ i < lo := by
  constructor
  · intro hpi
    by_contra hle
    exact h.above i (Nat.not_lt.1 hle) hi hpi
  · exact h.below i

end KaiT2en.Lib.BinarySearch
