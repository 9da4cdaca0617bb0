import Mathlib.Init

/-!
# Computations with a trace

`Traced ε α` is a value of `α` with the list of the events of `ε` that its computation gives rise to,
such as the addresses it reads. `Traced.All P x` says that every event of `x` satisfies `P`; it is
decomposed along `pure` and `bind` by `Traced.all_pure` and `Traced.all_bind`.
-/

namespace KaiT2en.Lib.Trace

universe u v

/-- A value and the events of its computation in order. -/
structure Traced (ε : Type u) (α : Type v) where
  value : α
  trace : List ε

namespace Traced

variable {ε : Type u} {α β : Type v}

instance : Monad (Traced ε) where
  pure a := ⟨a, []⟩
  bind x f := ⟨(f x.value).value, x.trace ++ (f x.value).trace⟩

@[simp] theorem value_pure (a : α) : (pure a : Traced ε α).value = a := rfl

@[simp] theorem value_bind (x : Traced ε α) (f : α → Traced ε β) : (x >>= f).value = (f x.value).value := rfl

/-- All events of the computation satisfy `P`. -/
def All (P : ε → Prop) (x : Traced ε α) : Prop := ∀ e ∈ x.trace, P e

variable {P : ε → Prop}

theorem all_pure (a : α) : (pure a : Traced ε α).All P := by
  intro e he
  cases he

theorem all_bind {x : Traced ε α} {f : α → Traced ε β} : (x >>= f).All P ↔ x.All P ∧ (f x.value).All P := by
  constructor
  · intro h
    exact ⟨fun e he => h e (List.mem_append_left _ he), fun e he => h e (List.mem_append_right _ he)⟩
  · rintro ⟨hx, hf⟩ e he
    rcases List.mem_append.1 he with he | he
    · exact hx e he
    · exact hf e he

end Traced

end KaiT2en.Lib.Trace
