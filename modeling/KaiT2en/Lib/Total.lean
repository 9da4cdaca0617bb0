import Mathlib.Tactic

/-!
# Pools of threads and histories

The total of a weight over the members of a list. Replacing one member changes the total by the difference of the two
weights, which `exists_rest` states by naming the part that stays; `exists_others` does the same for counts.
`ListMove` and `CountMove` describe a step that moves one member, `prefix_erase` and `prefix_filter_lt` concern the
oldest members of a list. `getElem?_concat_cases` tells the entries of a history from the one just recorded.
-/

namespace KaiT2en.Lib

open List

universe u

variable {τ : Type u}

/-- The sum of `f` over a list. -/
def total (f : τ → Nat) (l : List τ) : Nat := (l.map f).sum

@[simp] theorem total_append_singleton (f : τ → Nat) (l : List τ) (a : τ) : total f (l ++ [a]) = total f l + f a := by
  simp [total]

variable {l : List τ}

/-- The weight of the other members does not depend on the member at index `i`. -/
theorem exists_rest (f : τ → Nat) {i : Nat} {a : τ} (h : l[i]? = some a) :
    ∃ rest, total f l = rest + f a ∧ ∀ b, total f (l.set i b) = rest + f b := by
  induction l generalizing i with
  | nil => simp at h
  | cons x xs ih =>
    cases i with
    | zero =>
      simp only [getElem?_cons_zero, Option.some.injEq] at h
      subst h
      refine ⟨total f xs, ?_, ?_⟩
      · simp [total, Nat.add_comm]
      · simp [total, Nat.add_comm]
    | succ i =>
      obtain ⟨rest, htot, hset⟩ := ih h
      refine ⟨f x + rest, ?_, ?_⟩
      · simp only [total, map_cons, sum_cons] at htot ⊢
        omega
      · intro b
        have := hset b
        simp only [total, set_cons_succ, map_cons, sum_cons] at this ⊢
        omega

theorem total_modify {f : τ → Nat} {g : τ → τ} (hg : ∀ a, f (g a) = f a) (l : List τ) (i : Nat) :
    total f (l.modify i g) = total f l := by
  induction l generalizing i with
  | nil => simp
  | cons x xs ih =>
    cases i with
    | zero => simp [total, hg]
    | succ i =>
      have := ih i
      simp only [total] at this
      simp [total, this]

theorem total_eq_zero {f : τ → Nat} (h : ∀ a ∈ l, f a = 0) : total f l = 0 := by
  refine sum_eq_zero fun w hw => ?_
  obtain ⟨a, ha, rfl⟩ := mem_map.1 hw
  exact h a ha

theorem le_total (f : τ → Nat) {i : Nat} {a : τ} (h : l[i]? = some a) : f a ≤ total f l := by
  obtain ⟨rest, htot, -⟩ := exists_rest f h
  omega

theorem exists_others {ι : Type u} [DecidableEq ι] {l : List ι} (hnd : l.Nodup) {a : ι} (ha : a ∈ l) (q : ι → Bool) :
    ∃ rest, ∀ q' : ι → Bool, (∀ w, w ≠ a → q' w = q w) →
      l.countP q' = rest + (q' a).toNat ∧ (l.erase a).countP q' = rest := by
  refine ⟨(l.erase a).countP q, fun q' hq => ?_⟩
  have herase : (l.erase a).countP q' = (l.erase a).countP q := by
    refine countP_congr fun w hw => ?_
    rw [hq w fun h => (List.Nodup.not_mem_erase hnd) (h ▸ hw)]
  refine ⟨?_, herase⟩
  rw [(perm_cons_erase ha).countP_eq q', countP_cons, herase]
  cases q' a <;> rfl

/-! ## Moving one member -/

/-- `l'` has no repetitions and the members of `l`, except that `a` is in it exactly if `b`. -/
structure ListMove {ι : Type u} (a : ι) (l l' : List ι) (b : Prop) : Prop where
  nodup : l'.Nodup
  others : ∀ w, w ≠ a → (w ∈ l' ↔ w ∈ l)
  own : a ∈ l' ↔ b

namespace ListMove

variable {ι : Type u} {a : ι} {l : List ι} {b : Prop}

theorem same (hnd : l.Nodup) (h : a ∈ l ↔ b) : ListMove a l l b := ⟨hnd, fun _ _ => Iff.rfl, h⟩

theorem erase [DecidableEq ι] (hnd : l.Nodup) (hb : ¬b) : ListMove a l (l.erase a) b :=
  ⟨hnd.erase a, fun _ hw => mem_erase_of_ne hw, iff_of_false hnd.not_mem_erase hb⟩

theorem append (hnd : l.Nodup) (ha : a ∉ l) (hb : b) : ListMove a l (l ++ [a]) b := by
  refine ⟨?_, fun w hw => by simp [hw], iff_of_true (by simp) hb⟩
  rw [nodup_append]
  refine ⟨hnd, nodup_singleton a, ?_⟩
  rintro x hx y hy rfl
  exact ha (mem_singleton.1 hy ▸ hx)

theorem tail (hnd : (a :: l).Nodup) (hb : ¬b) : ListMove a (a :: l) l b :=
  ⟨(nodup_cons.1 hnd).2, fun w hw => by simp [hw],
    iff_of_false (nodup_cons.1 hnd).1 hb⟩

end ListMove

/-- `f'` is `f`, except that its value at `a` is `n`. -/
structure CountMove {ι : Type u} (a : ι) (f f' : ι → Nat) (n : Nat) : Prop where
  others : ∀ w, w ≠ a → f' w = f w
  own : f' a = n

/-! ## Prefixes -/

theorem prefix_erase {ι : Type u} [DecidableEq ι] {a : ι} {l l' : List ι} (h : l <+: l')
    (ha : a ∉ l) : l <+: l'.erase a := by
  obtain ⟨rest, rfl⟩ := h
  rw [erase_append_right _ ha]
  exact prefix_append _ _

theorem prefix_filter_lt {l : List Nat} (h : l.Pairwise (· < ·)) (n : Nat) :
    l.filter (fun k => decide (k < n)) <+: l := by
  induction l with
  | nil => exact prefix_rfl
  | cons a l ih =>
    obtain ⟨hfst, hrs⟩ := pairwise_cons.1 h
    by_cases ha : a < n
    · rw [filter_cons_of_pos (by simpa using ha)]
      exact (prefix_cons_inj a).2 (ih hrs)
    -- everything behind `a` is larger
    have hno : l.filter (fun k => decide (k < n)) = [] := by
      apply filter_eq_nil_iff.2
      intro k hk
      have := hfst k hk
      simp only [decide_eq_true_eq]
      omega
    rw [filter_cons_of_neg (by simpa using ha), hno]
    exact nil_prefix

theorem getElem?_concat_cases {a w : τ} {k : Nat} (h : (l ++ [a])[k]? = some w) :
    l[k]? = some w ∨ k = l.length ∧ w = a := by
  by_cases hk : k < l.length
  · rw [getElem?_append_left hk] at h
    exact .inl h
  rw [getElem?_append_right (by omega), getElem?_singleton] at h
  split at h
  · cases h
    exact .inr ⟨by omega, rfl⟩
  · cases h

end KaiT2en.Lib
