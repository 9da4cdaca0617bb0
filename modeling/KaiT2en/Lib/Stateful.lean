import Mathlib.Init

/-!
# Commands

`Command σ ε α` is a computation on a state of `σ` that returns a value of `α` or an error of `ε`. The state is kept after
an error: what was done before it is done.
-/

namespace KaiT2en.Lib.Stateful

/-- A computation on a state that returns a value or an error. -/
def Command (σ ε α : Type) : Type := σ → Except ε α × σ

namespace Command

variable {σ ε α β : Type}

/-- Go on with a value, or keep the error. -/
def andThen (x : Command σ ε α) (f : α → Command σ ε β) : Command σ ε β := fun s =>
  match x s with
  | (.ok a, s') => f a s'
  | (.error e, s') => (.error e, s')

instance : Monad (Command σ ε) where
  pure a := fun s => (.ok a, s)
  bind := andThen

/-- Stop with an error. -/
def fail (e : ε) : Command σ ε α := fun s => (.error e, s)

/-- A computation on a part of the state. -/
def zoom {τ : Type} (get : τ → σ) (set : σ → τ → τ) (x : Command σ ε α) : Command τ ε α := fun t =>
  ((x (get t)).1, set (x (get t)).2 t)

@[simp] theorem pure_apply (a : α) (s : σ) : (pure a : Command σ ε α) s = (.ok a, s) := rfl

@[simp] theorem fail_apply (e : ε) (s : σ) : (fail e : Command σ ε α) s = (.error e, s) := rfl

variable {x : Command σ ε α} {f : α → Command σ ε β} {s s' : σ}

theorem bind_of_ok {a : α} (h : x s = (.ok a, s')) : (x >>= f) s = f a s' := by
  change andThen x f s = _
  rw [andThen, h]

theorem bind_of_error {e : ε} (h : x s = (.error e, s')) : (x >>= f) s = (.error e, s') := by
  change andThen x f s = _
  rw [andThen, h]

theorem bind_eq_ok {b : β} {t : σ} : (x >>= f) s = (.ok b, t) ↔ ∃ a s', x s = (.ok a, s') ∧ f a s' = (.ok b, t) := by
  rcases hx : x s with ⟨e | a, s'⟩
  · rw [bind_of_error hx]
    constructor
    · intro h
      cases h
    · rintro ⟨a, t', h, -⟩
      cases h
  rw [bind_of_ok hx]
  constructor
  · intro h
    exact ⟨a, s', rfl, h⟩
  · rintro ⟨a', t', h, hf⟩
    cases h
    exact hf

end Command

end KaiT2en.Lib.Stateful
