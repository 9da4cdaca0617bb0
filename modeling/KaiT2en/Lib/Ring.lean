import Mathlib.Data.Nat.ModEq

/-!
# Ring indices

A ring of `n` slots is addressed by counters reduced modulo `n`. Two counters less than `n` apart
address the same slot only if they are equal (`slot_inj`).
-/

namespace KaiT2en.Lib.Ring

variable {n i j : Nat}

/-- Counters less than `n` apart that address one slot are equal. -/
theorem slot_inj (hij : i ≤ j) (hlt : j < i + n) (h : i % n = j % n) : i = j := by
  have hmod : i ≡ j [MOD n] := h
  have hdvd : n ∣ j - i := (Nat.modEq_iff_dvd' hij).1 hmod
  have hz : j - i = 0 := Nat.eq_zero_of_dvd_of_lt hdvd (by omega)
  omega

theorem slot_ne (hij : i < j) (hlt : j < i + n) : i % n ≠ j % n := by
  intro h
  have := slot_inj hij.le hlt h
  omega

end KaiT2en.Lib.Ring
