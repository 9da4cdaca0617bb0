import KaiT2en.Lib.BinarySearch

/-!
# Names and the key table of the SMC

The SMC keeps its keys sorted by name. `t2smc_get_entry_by_key` compares names with `strcmp` and searches the table for
the first name that is not before a key and for the first one that is after it. With different names these boundaries are
the same if the key is not in the table (`KeyTable.absent_of_bounds`), and otherwise they are one apart
(`KeyTable.present_of_bounds`).
-/

namespace KaiT2en.Smc

open KaiT2en.Lib.BinarySearch

/-! ## Names and the key table -/

/-- `strcmp` on strings without their terminators. -/
def strcmp : List UInt8 → List UInt8 → Int
  | [], [] => 0
  | [], _ :: _ => -1
  | _ :: _, [] => 1
  | c :: cs, d :: ds => if c = d then strcmp cs ds else if c < d then -1 else 1

theorem strcmp_self (a : List UInt8) : strcmp a a = 0 := by
  induction a with
  | nil => rfl
  | cons c cs ih => rw [strcmp, if_pos rfl, ih]

theorem strcmp_trans {a b : List UInt8} : ∀ {c : List UInt8}, strcmp a b < 0 → strcmp b c < 0 → strcmp a c < 0 := by
  induction a, b using strcmp.induct with
  | case1 => exact fun h => absurd h (Int.lt_irrefl 0)
  | case2 y ys =>
    intro c _ hbc
    cases c with
    | nil => cases hbc
    | cons z zs => exact Int.negSucc_lt_zero 0
  | case3 x xs =>
    intro c hab
    cases hab
  | case4 x xs ys ih =>
    intro c hab hbc
    cases c with
    | nil => cases hbc
    | cons z zs => grind [strcmp]
  | case5 x xs y ys hne hlt =>
    intro c _ hbc
    cases c with
    | nil => cases hbc
    | cons z zs => grind [strcmp]
  | case6 x xs y ys hne hge =>
    intro c hab
    rw [strcmp, if_neg hne, if_neg hge] at hab
    cases hab

/-- Strings of which none is before the other are the same. -/
theorem eq_of_strcmp {a b : List UInt8} (hab : ¬ strcmp a b < 0) (hba : ¬ strcmp b a < 0) : a = b := by
  induction a, b using strcmp.induct with
  | case1 => rfl
  | case2 y ys => exact absurd (Int.negSucc_lt_zero 0) hab
  | case3 x xs => exact absurd (Int.negSucc_lt_zero 0) hba
  | case4 x xs ys ih =>
    rw [strcmp, if_pos rfl] at hab hba
    rw [ih hab hba]
  | case5 x xs y ys hne hlt =>
    rw [strcmp, if_neg hne, if_pos hlt] at hab
    exact absurd (Int.negSucc_lt_zero 0) hab
  | case6 x xs y ys hne hge =>
    have hlt : y < x := by grind
    rw [strcmp, if_neg (Ne.symm hne), if_pos hlt] at hba
    exact absurd (Int.negSucc_lt_zero 0) hba

/-- What the SMC has for a key. -/
structure KeyRecord where
  name : List UInt8
  len : UInt8
  type : List UInt8
  flags : UInt8
  deriving DecidableEq

/-- The key table of the SMC: different names of four characters, sorted. -/
structure KeyTable where
  keys : List KeyRecord
  four : ∀ k ∈ keys, k.name.length = 4
  noNul : ∀ k ∈ keys, 0 ∉ k.name
  sorted : keys.Pairwise fun k k' => strcmp k.name k'.name < 0

namespace KeyTable

variable (t : KeyTable) (key : List UInt8)

def keyCount : Nat := t.keys.length

def name (index : Nat) : List UInt8 := (t.keys[index]?.map KeyRecord.name).getD []

/-- The name at `index` is before `key`. -/
def Before (index : Nat) : Prop := strcmp (t.name index) key < 0

/-- The name at `index` is not after `key`. -/
def NotAfter (index : Nat) : Prop := ¬ strcmp key (t.name index) < 0

variable {t key} {index : Nat} {k : KeyRecord}

theorem name_eq (h : t.keys[index]? = some k) : t.name index = k.name := by
  rw [name, h, Option.map_some, Option.getD_some]

theorem exists_key (h : index < t.keyCount) : ∃ k, t.keys[index]? = some k := ⟨_, List.getElem?_eq_getElem h⟩

theorem strcmp_name {i j : Nat} (hij : i < j) (hj : j < t.keyCount) : strcmp (t.name i) (t.name j) < 0 := by
  obtain ⟨k, hk⟩ := exists_key (Nat.lt_trans hij hj)
  obtain ⟨k', hk'⟩ := exists_key hj
  rw [name_eq hk, name_eq hk']
  obtain ⟨hi, rfl⟩ := List.getElem?_eq_some_iff.1 hk
  obtain ⟨hj, rfl⟩ := List.getElem?_eq_some_iff.1 hk'
  exact List.pairwise_iff_getElem.1 t.sorted i j hi hj hij

theorem before_initial : Initial (t.Before key) t.keyCount := by
  intro i j hij hj hbef
  rcases Nat.lt_or_eq_of_le hij with hlt | rfl
  · exact strcmp_trans (strcmp_name hlt hj) hbef
  · exact hbef

theorem notAfter_initial : Initial (t.NotAfter key) t.keyCount := by
  intro i j hij hj hnot haft
  rcases Nat.lt_or_eq_of_le hij with hlt | rfl
  · exact hnot (strcmp_trans haft (strcmp_name hlt hj))
  · exact hnot haft

theorem name_of_not_before (hbef : ¬ t.Before key index) (hnot : t.NotAfter key index) : t.name index = key :=
  eq_of_strcmp hbef hnot

theorem not_before_of_name (h : t.name index = key) : ¬ t.Before key index ∧ t.NotAfter key index := by
  rw [Before, NotAfter, h, strcmp_self]
  exact ⟨Int.lt_irrefl 0, Int.lt_irrefl 0⟩

theorem absent_of_bounds {lo : Nat} (hlo : Splits (t.Before key) t.keyCount lo lo)
    (hhi : Splits (t.NotAfter key) t.keyCount lo lo) : ∀ k ∈ t.keys, k.name ≠ key := by
  intro k hk hna
  obtain ⟨index, hidx, rfl⟩ := List.mem_iff_getElem.1 hk
  have hat : t.name index = key := (name_eq (List.getElem?_eq_getElem hidx)).trans hna
  obtain ⟨hbef, hnot⟩ := not_before_of_name hat
  exact hbef ((hlo.iff hidx).2 ((hhi.iff hidx).1 hnot))

/-- If the boundaries differ, they are one apart and the key is between them. -/
theorem present_of_bounds {lo hi : Nat} (hlo : Splits (t.Before key) t.keyCount lo lo)
    (hhi : Splits (t.NotAfter key) t.keyCount hi hi) (hne : hi ≠ lo) :
    hi = lo + 1 ∧ ∃ k, t.keys[lo]? = some k ∧ k.name = key := by
  -- a name between the boundaries is the key
  have hbet : ∀ i, lo ≤ i → i < hi → t.name i = key := by
    intro i hle hlt
    have hi := Nat.lt_of_lt_of_le hlt hhi.bound
    refine name_of_not_before (fun h => ?_) ((hhi.iff hi).2 hlt)
    exact Nat.not_lt.2 hle ((hlo.iff hi).1 h)
  -- a name before the key is not after it
  have hle : lo ≤ hi := by
    by_contra hgt
    have hlt : hi < lo := Nat.not_le.1 hgt
    have hbound := Nat.lt_of_lt_of_le hlt hlo.bound
    have hbef := (hlo.iff hbound).2 hlt
    have haft : ¬ t.NotAfter key hi := fun h => Nat.lt_irrefl hi ((hhi.iff hbound).1 h)
    have hse := strcmp_trans hbef (Classical.not_not.1 haft)
    rw [strcmp_self] at hse
    cases hse
  have hlt : lo < hi := Nat.lt_of_le_of_ne hle (Ne.symm hne)
  obtain ⟨k, hk⟩ := exists_key (Nat.lt_of_lt_of_le hlt hhi.bound)
  refine ⟨?_, k, hk, (name_eq hk).symm.trans (hbet lo (Nat.le_refl lo) hlt)⟩
  -- a second such name would be the first one again
  by_contra hfar
  have hnx : lo + 1 < hi := by omega
  have hsa := strcmp_name (t := t) (Nat.lt_succ_self lo) (Nat.lt_of_lt_of_le hnx hhi.bound)
  rw [hbet lo (Nat.le_refl lo) hlt, hbet (lo + 1) (Nat.le_succ lo) hnx, strcmp_self] at hsa
  cases hsa

end KeyTable

end KaiT2en.Smc
