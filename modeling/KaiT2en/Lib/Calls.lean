import KaiT2en.Lib.Transition

/-!
# Components that are used by calls

A component with a state of `σ` whose users make calls of `α`. A call returns a result and a new state, and can be made
only in some states. `after_call` is the rule for what holds after the calls of a run: it is enough to show for one call
that it keeps an invariant and that its result is as it should be.
-/

namespace KaiT2en.Lib.Calls

open KaiT2en.Lib.Transition

universe u v w

/-- A component: how it starts, which calls can be made, and what a call does. -/
structure Component (σ : Type u) (α : Type v) (ρ : Type w) where
  init : σ → Prop
  can : σ → α → Bool
  perform : α → σ → ρ × σ

variable {σ : Type u} {α : Type v} {ρ : Type w}

namespace Component

/-- The runs of a component. -/
def machine (C : Component σ α ρ) : Machine σ α where
  init := C.init
  next s a := if C.can s a then some (C.perform a s).2 else none

variable {C : Component σ α ρ} {ok : σ → α → Prop} {I : σ → Prop} {s : σ}

theorem reach_call {a : α} (h : C.machine.Reach ok s) (hcan : C.can s a) (hok : ok s a) :
    C.machine.Reach ok (C.perform a s).2 :=
  .step h hok (if_pos hcan)

theorem reach_invariant (hin : ∀ s, C.init s → I s)
    (hca : ∀ s a, C.can s a → ok s a → I s → I (C.perform a s).2) (h : C.machine.Reach ok s) : I s := by
  apply Machine.Reach.invariant hin ?_ h
  intro s a t _ hok hs hnx
  obtain ⟨hcan, hper⟩ := Option.ite_none_right_eq_some.1 hnx
  cases hper
  exact hca s a hcan hok hs

/-- What one call does from a state with the invariant, every call of a run does. -/
theorem after_call {P : σ → α → ρ × σ → Prop} {a : α} (hin : ∀ s, C.init s → I s)
    (hca : ∀ s a, C.can s a → ok s a → I s → I (C.perform a s).2 ∧ P s a (C.perform a s))
    (h : C.machine.Reach ok s) (hcan : C.can s a) (hok : ok s a) : P s a (C.perform a s) :=
  (hca s a hcan hok (reach_invariant hin (fun s a hcan hok hs => (hca s a hcan hok hs).1) h)).2

end Component

end KaiT2en.Lib.Calls
