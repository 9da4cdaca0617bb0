import Mathlib.Algebra.Order.Ring.Nat
import Mathlib.Tactic.Ring

/-!
# Numbers of a fixed width in bytes

Big-endian and little-endian encodings of natural numbers in a given number of bytes, and what a reader
gets back from them. Bits above the width are dropped, as a cast to a machine integer drops them.
-/

namespace KaiT2en.Lib.Bytes

/-- The number that `bs` continues after `v`, the most significant byte first. -/
def ofBeFrom (v : Nat) : List UInt8 → Nat
  | [] => v
  | b :: bs => ofBeFrom (v * 256 + b.toNat) bs

variable (k v : Nat) (bs : List UInt8)

/-- The number with the given bytes, the most significant first. -/
def ofBe : Nat := ofBeFrom 0 bs

/-- The lower `k` bytes of `v`, the most significant first. -/
def beBytes : Nat → Nat → List UInt8
  | 0, _ => []
  | k + 1, v => UInt8.ofNat (v / 256 ^ k) :: beBytes k v

/-- The number with the given bytes, the least significant first. -/
def ofLe : Nat := ofBe bs.reverse

/-- The lower `k` bytes of `v`, the least significant first. -/
def leBytes : List UInt8 := (beBytes k v).reverse

@[simp] theorem length_beBytes : (beBytes k v).length = k := by
  induction k with
  | zero => rfl
  | succ k ih => rw [beBytes, List.length_cons, ih]

@[simp] theorem length_leBytes : (leBytes k v).length = k := by
  rw [leBytes, List.length_reverse, length_beBytes]

theorem ofBeFrom_beBytes : ∀ acc, ofBeFrom acc (beBytes k v) = acc * 256 ^ k + v % 256 ^ k := by
  induction k with
  | zero =>
    intro acc
    rw [beBytes, ofBeFrom, pow_zero, Nat.mod_one, Nat.mul_one, Nat.add_zero]
  | succ k ih =>
    intro acc
    have hbt : (UInt8.ofNat (v / 256 ^ k)).toNat = v / 256 ^ k % 256 := UInt8.toNat_ofNat'
    rw [beBytes, ofBeFrom, ih, hbt, pow_succ, Nat.mod_mul]
    ring

theorem ofBe_beBytes_mod : ofBe (beBytes k v) = v % 256 ^ k := by
  rw [ofBe, ofBeFrom_beBytes, Nat.zero_mul, Nat.zero_add]

theorem ofBe_beBytes {k v : Nat} (h : v < 256 ^ k) : ofBe (beBytes k v) = v := by
  rw [ofBe_beBytes_mod, Nat.mod_eq_of_lt h]

theorem ofLe_leBytes_mod : ofLe (leBytes k v) = v % 256 ^ k := by
  rw [ofLe, leBytes, List.reverse_reverse, ofBe_beBytes_mod]

theorem ofLe_leBytes {k v : Nat} (h : v < 256 ^ k) : ofLe (leBytes k v) = v := by
  rw [ofLe_leBytes_mod, Nat.mod_eq_of_lt h]

theorem ofBeFrom_lt : ∀ acc, ofBeFrom acc bs < (acc + 1) * 256 ^ bs.length := by
  induction bs with
  | nil =>
    intro acc
    rw [ofBeFrom, List.length_nil, pow_zero]
    omega
  | cons b bs ih =>
    intro acc
    have hbt : b.toNat < 256 := b.toNat_lt
    calc ofBeFrom (acc * 256 + b.toNat) bs
        < (acc * 256 + b.toNat + 1) * 256 ^ bs.length := ih _
      _ ≤ ((acc + 1) * 256) * 256 ^ bs.length := Nat.mul_le_mul_right _ (by omega)
      _ = (acc + 1) * 256 ^ (b :: bs).length := by rw [List.length_cons, pow_succ]; ring

theorem ofBe_lt : ofBe bs < 256 ^ bs.length := by simpa [ofBe] using ofBeFrom_lt bs 0

theorem ofLe_lt : ofLe bs < 256 ^ bs.length := by simpa [ofLe] using ofBe_lt bs.reverse

end KaiT2en.Lib.Bytes
