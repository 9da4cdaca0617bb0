import Mathlib.Init

/-!
# Computations that fail or panic

`Fallible ε α` is the result of a computation that returns a value, returns an error of `ε`, or panics.
`Fallible.Ends E Q x` says that `x` does not panic, that its value satisfies `Q` and that its error
satisfies `E`; it is decomposed along `bind` by `Fallible.ends_bind`.
-/

namespace KaiT2en.Lib.Failure

universe u v

inductive Fallible (ε : Type u) (α : Type v) where
  | ok (a : α)
  | err (e : ε)
  | panic
  deriving DecidableEq

namespace Fallible

variable {ε : Type u} {α β : Type v}

instance : Monad (Fallible ε) where
  pure := ok
  bind x f :=
    match x with
    | ok a => f a
    | err e => err e
    | panic => panic

@[simp] theorem pure_eq (a : α) : (pure a : Fallible ε α) = ok a := rfl

@[simp] theorem ok_bind (a : α) (f : α → Fallible ε β) : (ok a >>= f) = f a := rfl

@[simp] theorem err_bind (e : ε) (f : α → Fallible ε β) : (err e >>= f) = err e := rfl

@[simp] theorem panic_bind (f : α → Fallible ε β) : ((panic : Fallible ε α) >>= f) = panic := rfl

/-- Fail with `e` unless the condition holds. -/
def ensure (c : Prop) [Decidable c] (e : ε) : Fallible ε PUnit := if c then ok ⟨⟩ else err e

variable {c : Prop} {e : ε}

theorem ensure_pos [Decidable c] (h : c) : (ensure c e : Fallible ε PUnit) = ok ⟨⟩ := if_pos h

theorem ensure_neg [Decidable c] (h : ¬c) : (ensure c e : Fallible ε PUnit) = err e := if_neg h

variable {x : Fallible ε α}

theorem bind_eq_ok {f : α → Fallible ε β} {b : β} : (x >>= f) = ok b ↔ ∃ a, x = ok a ∧ f a = ok b := by
  cases x with
  | ok a =>
    constructor
    · intro h
      exact ⟨a, rfl, h⟩
    · rintro ⟨a', ha, h⟩
      cases ha
      exact h
  | err _ | panic =>
    constructor
    · intro h
      cases h
    · rintro ⟨a', ha, -⟩
      cases ha

/-- The computation returns a value in `Q` or an error in `E`. -/
def Ends (E : ε → Prop) (Q : α → Prop) : Fallible ε α → Prop
  | ok a => Q a
  | err e => E e
  | panic => False

variable {E : ε → Prop} {Q : α → Prop} {R : β → Prop}

theorem ends_bind {f : α → Fallible ε β} (hx : Ends E Q x) (hf : ∀ a, Q a → Ends E R (f a)) : Ends E R (x >>= f) := by
  cases x with
  | ok a => exact hf a hx
  | err _ | panic => exact hx

theorem ends_ensure [Decidable c] (he : E e) : Ends E (fun _ => c) (ensure c e : Fallible ε PUnit) := by
  by_cases h : c
  · rw [ensure_pos h]
    exact h
  · rw [ensure_neg h]
    exact he

theorem ends_ite [Decidable c] {x y : Fallible ε α} (hx : c → Ends E Q x)
    (hy : ¬c → Ends E Q y) : Ends E Q (if c then x else y) := by
  split
  · rename_i h
    exact hx h
  · rename_i h
    exact hy h

theorem Ends.ne_panic (h : Ends E Q x) : x ≠ panic := by
  intro hx
  rw [hx] at h
  exact h

theorem Ends.of_ok {a : α} (h : Ends E Q x) (hx : x = ok a) : Q a := by
  rw [hx] at h
  exact h

theorem Ends.of_err (h : Ends E Q x) (hx : x = err e) : E e := by
  rw [hx] at h
  exact h

end Fallible

end KaiT2en.Lib.Failure
