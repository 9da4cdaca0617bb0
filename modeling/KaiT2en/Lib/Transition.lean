import Mathlib.Logic.Relation

/-!
# Machines, guarded runs and invariants

A machine is a predicate of initial states and an executable, partial step function on actions. `Machine.Reach M ok`
collects the states of all finite runs whose steps all satisfy the guard `ok` on the state before the step and its
action; `Machine.Reachable` is the unguarded case. `Machine.Reach.invariant` is the induction rule for safety,
`Machine.exists_of_run` and `Machine.exists_of_guarded_run` turn an evaluated list of actions into a reachable state,
and `Machine.length_add_le_of_run` and `Machine.length_le_of_run` bound the runs made of actions that lower a measure.

`steps_preserve` is the rule for the reflexive transitive closure of a step relation.
-/

namespace KaiT2en.Lib.Transition

open Option

universe u v

/-- Initial states and a partial step function; `next s a = none` means that the action `a` is not
enabled in `s`. -/
structure Machine (σ : Type u) (α : Type v) where
  init : σ → Prop
  next : σ → α → Option σ

variable {σ : Type u} {α : Type v}

namespace Machine

/-- The states of all finite runs whose steps satisfy `ok`. -/
inductive Reach (M : Machine σ α) (ok : σ → α → Prop) : σ → Prop
  | init {s : σ} : M.init s → Reach M ok s
  | step {s t : σ} {a : α} : Reach M ok s → ok s a → M.next s a = some t → Reach M ok t

/-- The states of all finite runs. -/
abbrev Reachable (M : Machine σ α) : σ → Prop := M.Reach fun _ _ => True

/-- Perform a list of actions in order. -/
def run (M : Machine σ α) : σ → List α → Option σ
  | s, [] => some s
  | s, a :: as => (M.next s a).bind fun t => M.run t as

variable {M : Machine σ α} {ok : σ → α → Prop}

/-- The invariant rule. The step case may use that the source state is reached. -/
theorem Reach.invariant {I : σ → Prop} (hin : ∀ s, M.init s → I s)
    (hsp : ∀ s a t, M.Reach ok s → ok s a → I s → M.next s a = some t → I t) {s : σ} (h : M.Reach ok s) : I s := by
  induction h with
  | init h => exact hin _ h
  | step hs hok hst ih => exact hsp _ _ _ hs hok ih hst

theorem reach_of_run : ∀ {s t : σ} {as : List α}, M.Reachable s → M.run s as = some t → M.Reachable t
  | s, t, [], hs, h => by
    simp only [run, Option.some.injEq] at h
    exact h ▸ hs
  | s, t, a :: as, hs, h => by
    simp only [run, bind_eq_some_iff] at h
    obtain ⟨s', hs', ht⟩ := h
    exact reach_of_run (Reach.step hs trivial hs') ht

theorem run_preserves {I : σ → Prop} (hsp : ∀ s a t, I s → M.next s a = some t → I t) {as : List α} :
    ∀ {s t : σ}, I s → M.run s as = some t → I t := by
  induction as with
  | nil =>
    intro s t hs h
    simp only [run, Option.some.injEq] at h
    exact h ▸ hs
  | cons a as ih =>
    intro s t hs h
    simp only [run, bind_eq_some_iff] at h
    obtain ⟨s', hs', ht⟩ := h
    exact ih (hsp s a s' hs hs') ht

/-- A run from an initial state that evaluates to a state with the decidable property `P`. -/
theorem exists_of_run {s : σ} {P : σ → Prop} [DecidablePred P] (l : List α) (hs : M.init s)
    (h : ((M.run s l).map fun t => decide (P t)) = some true) : ∃ t, M.Reachable t ∧ P t := by
  obtain ⟨t, ht, hp⟩ := map_eq_some_iff.1 h
  exact ⟨t, reach_of_run (Reach.init hs) ht, of_decide_eq_true hp⟩

theorem length_add_le_of_run {p : α → Prop} {μ : σ → Nat}
    (hdown : ∀ s a t, p a → M.next s a = some t → μ t < μ s) {l : List α} :
    ∀ {s t : σ}, (∀ a ∈ l, p a) → M.run s l = some t → l.length + μ t ≤ μ s := by
  induction l with
  | nil =>
    intro s t _ h
    simp only [run, Option.some.injEq] at h
    subst h
    exact Nat.le_of_eq (Nat.zero_add _)
  | cons a l ih =>
    intro s t hp h
    simp only [run, bind_eq_some_iff] at h
    obtain ⟨s', hs', ht⟩ := h
    have hfst := hdown s a s' (hp a List.mem_cons_self) hs'
    have hrs := ih (fun b hb => hp b (List.mem_cons_of_mem a hb)) ht
    rw [List.length_cons]
    omega

/-- A measure that every action lowers, except that some actions add to it, bounds the runs by the number
of these. -/
theorem length_le_of_run {R : σ → Nat → Prop} {adds : α → Bool} {c : Nat}
    (hsp : ∀ s a t w, R s w → M.next s a = some t → ∃ w', R t w' ∧ w' + 1 ≤ w + if adds a then c else 0) {l : List α} :
    ∀ {s t : σ} {w : Nat}, R s w → M.run s l = some t → l.length ≤ w + c * l.countP adds := by
  induction l with
  | nil => exact fun _ _ => Nat.zero_le _
  | cons a l ih =>
    intro s t w hs h
    simp only [run, bind_eq_some_iff] at h
    obtain ⟨s', hs', ht⟩ := h
    obtain ⟨w', hw', hle⟩ := hsp s a s' w hs hs'
    have hrs := ih hw' ht
    rw [List.length_cons, List.countP_cons, Nat.mul_add]
    cases hadds : adds a with
    | true =>
      rw [hadds, if_pos rfl] at hle
      rw [if_pos rfl, Nat.mul_one]
      omega
    | false =>
      rw [hadds, if_neg nofun] at hle
      omega

/-- The machine restricted to the steps that satisfy a decidable guard. -/
def guarded (M : Machine σ α) (ok : σ → α → Prop) [∀ s a, Decidable (ok s a)] : Machine σ α where
  init := M.init
  next s a := if ok s a then M.next s a else none

theorem reach_of_guarded [∀ s a, Decidable (ok s a)] {s : σ} (h : (M.guarded ok).Reachable s) :
    M.Reach ok s := by
  induction h with
  | init h => exact Reach.init h
  | step _ _ hst ih =>
    simp only [guarded, ite_none_right_eq_some] at hst
    exact Reach.step ih hst.1 hst.2

theorem exists_of_guarded_run (ok : σ → α → Prop) [∀ s a, Decidable (ok s a)] {s : σ} {P : σ → Prop}
    [DecidablePred P] (l : List α) (hs : M.init s) (h : (((M.guarded ok).run s l).map fun t => decide (P t)) = some true) :
    ∃ t, M.Reach ok t ∧ P t := by
  obtain ⟨t, ht, hp⟩ := exists_of_run (M := M.guarded ok) l hs h
  exact ⟨t, reach_of_guarded ht, hp⟩

end Machine

/-- A predicate kept by every step is kept by every finite run. -/
theorem steps_preserve {r : σ → σ → Prop} {I : σ → Prop} (hsp : ∀ s t, I s → r s t → I t)
    {s t : σ} (h : Relation.ReflTransGen r s t) (hs : I s) : I t := by
  induction h with
  | refl => exact hs
  | tail _ hla ih => exact hsp _ _ ih hla

end KaiT2en.Lib.Transition
