import Mathlib.Data.List.Basic

/-!
# Queues between two automata

A writer puts messages into a queue and a reader takes them out in order. If both follow the same transition
relation, the messages in the queue lead from where the reader is to where the writer is. The reader takes
the first step of that path, the writer adds a last one.
-/

namespace KaiT2en.Lib.Fifo

universe u v

variable {P : Type u} {M : Type v}

/-- The messages lead from one position to another. -/
inductive Path (move : P → M → P → Prop) : P → List M → P → Prop
  | nil (p : P) : Path move p [] p
  | cons {p q r : P} {m : M} {l : List M} : move p m q → Path move q l r → Path move p (m :: l) r

namespace Path

variable {move : P → M → P → Prop} {p q r : P} {m : M} {l l' : List M}

theorem eq_of_nil (h : Path move p [] q) : p = q := by
  cases h
  rfl

theorem exists_of_cons (h : Path move p (m :: l) r) : ∃ q, move p m q ∧ Path move q l r := by
  cases h with
  | cons hmv hpa => exact ⟨_, hmv, hpa⟩

theorem append (h : Path move p l q) (h' : Path move q l' r) : Path move p (l ++ l') r := by
  induction h with
  | nil => exact h'
  | cons hmv _ ih => exact cons hmv (ih h')

theorem single (h : move p m q) : Path move p [m] q := cons h (nil q)

theorem snoc (h : Path move p l q) (hmv : move q m r) : Path move p (l ++ [m]) r := h.append (single hmv)

theorem forall_mem {I : P → Prop} {T : M → Prop} (hmv : ∀ p m q, I p → move p m q → T m ∧ I q)
    (h : Path move p l q) (hp : I p) : ∀ m ∈ l, T m := by
  induction h with
  | nil => exact fun _ hm => nomatch hm
  | cons hfst _ ih =>
    obtain ⟨hm, hnx⟩ := hmv _ _ _ hp hfst
    exact List.forall_mem_cons.2 ⟨hm, ih hnx⟩

theorem le_of_move {μ : P → Nat} (hmv : ∀ p m q, move p m q → μ q ≤ μ p) (h : Path move p l q) : μ q ≤ μ p := by
  induction h with
  | nil => exact Nat.le_refl _
  | cons hfst _ ih => exact Nat.le_trans ih (hmv _ _ _ hfst)

/-- A quantity that every message decreases bounds the number of messages. -/
theorem length_add_le {μ : P → Nat} (hmv : ∀ p m q, move p m q → μ q < μ p) (h : Path move p l q) :
    l.length + μ q ≤ μ p := by
  induction h with
  | nil => exact Nat.le_of_eq (Nat.zero_add _)
  | cons hfst _ ih =>
    have hlt := hmv _ _ _ hfst
    rw [List.length_cons]
    omega

theorem mono {move' : P → M → P → Prop} (hmv : ∀ p m q, move p m q → move' p m q)
    (h : Path move p l q) : Path move' p l q := by
  induction h with
  | nil => exact nil _
  | cons hfst _ ih => exact cons (hmv _ _ _ hfst) ih

end Path

end KaiT2en.Lib.Fifo
