import Mathlib.Data.Nat.Digits.Lemmas

/-!
# Numbers as text

Numbers in some radix as bytes of text: `padded` writes one with leading zeros, `fromStrRadix` reads one. A number that
fits into a field fills it exactly (`length_padded`) and is read back (`fromStrRadix_padded`).
-/

namespace KaiT2en.Lib.Numeral

open List Nat Option

def digitChar (d : Nat) : UInt8 := if d < 10 then (48 + d).toUInt8 else (87 + d).toUInt8

/-- The digits of a number, with `0` for zero. -/
def numeral (radix n : Nat) : List UInt8 := if n = 0 then [48] else (digits radix n).reverse.map digitChar

/-- A number with leading zeros up to `width`. -/
def padded (radix width n : Nat) : List UInt8 := List.replicate (width - (numeral radix n).length) 48 ++ numeral radix n

def toDigit (radix : Nat) (b : UInt8) : Option Nat :=
  if 48 ≤ b.toNat ∧ b.toNat ≤ 57 ∧ b.toNat - 48 < radix then some (b.toNat - 48)
  else if 97 ≤ b.toNat ∧ b.toNat ≤ 122 ∧ b.toNat - 87 < radix then some (b.toNat - 87)
  else if 65 ≤ b.toNat ∧ b.toNat ≤ 90 ∧ b.toNat - 55 < radix then some (b.toNat - 55)
  else none

/-- Read digits after those of `n`. -/
def readDigits (radix : Nat) : Nat → List UInt8 → Option Nat
  | n, [] => some n
  | n, b :: bytes =>
    match toDigit radix b with
    | some d => readDigits radix (n * radix + d) bytes
    | none => none

/-- `from_str_radix` of an unsigned type with the values below `limit`. A plus sign may come first. -/
def fromStrRadix (radix limit : Nat) (bytes : List UInt8) : Option Nat :=
  match bytes with
  | [] => none
  | b :: rest => (readDigits radix 0 (if b = 43 ∧ rest ≠ [] then rest else b :: rest)).filter (· < limit)

variable {radix : Nat}

theorem toDigit_digitChar (hrad : radix ≤ 36) {d : Nat} (hd : d < radix) : toDigit radix (digitChar d) = some d := by
  by_cases hten : d < 10
  · have hnat : (digitChar d).toNat = 48 + d := by
      rw [digitChar, if_pos hten, toUInt8, UInt8.toNat_ofNat']
      omega
    rw [toDigit, hnat, if_pos (by omega)]
    congr 1
    omega
  have hnat : (digitChar d).toNat = 87 + d := by
    rw [digitChar, if_neg hten, toUInt8, UInt8.toNat_ofNat']
    omega
  rw [toDigit, hnat, if_neg (by omega), if_pos (by omega)]
  congr 1
  omega

theorem digitChar_ne_plus {d : Nat} (hd : d < 36) : digitChar d ≠ 43 := by
  intro h
  have hdig : toDigit 36 (digitChar d) = some d := toDigit_digitChar (le_refl 36) hd
  rw [h] at hdig
  cases hdig

theorem readDigits_append (n : Nat) (bytes bytes' : List UInt8) :
    readDigits radix n (bytes ++ bytes') = (readDigits radix n bytes).bind fun m => readDigits radix m bytes' := by
  induction bytes generalizing n with
  | nil => rfl
  | cons b bytes ih =>
    rw [cons_append, readDigits, readDigits]
    cases toDigit radix b with
    | none => rfl
    | some d => exact ih _

theorem readDigits_zeros (hrad : 0 < radix) (k : Nat) : readDigits radix 0 (List.replicate k 48) = some 0 := by
  induction k with
  | zero => rfl
  | succ k ih =>
    have hz : toDigit radix 48 = some 0 := if_pos ⟨by decide, by decide, hrad⟩
    rw [replicate_succ, readDigits, hz]
    show readDigits radix (0 * radix + 0) _ = _
    rw [zero_mul, add_zero, ih]

theorem readDigits_digits (hrad : radix ≤ 36) {ds : List Nat} (hds : ∀ d ∈ ds, d < radix) (n : Nat) :
    readDigits radix n (ds.reverse.map digitChar) = some (n * radix ^ ds.length + ofDigits radix ds) := by
  induction ds with
  | nil =>
    rw [length_nil, pow_zero, mul_one, ofDigits_nil, add_zero]
    rfl
  | cons d ds ih =>
    rw [reverse_cons, map_append, readDigits_append, ih fun e he => hds e (mem_cons_of_mem d he)]
    show readDigits radix _ [digitChar d] = _
    rw [readDigits, toDigit_digitChar hrad (hds d mem_cons_self), ofDigits_cons, length_cons]
    show some _ = some _
    congr 1
    ring

theorem readDigits_numeral (hone : 1 < radix) (hrad : radix ≤ 36) (n : Nat) :
    readDigits radix 0 (numeral radix n) = some n := by
  rw [numeral]
  split
  · next hn =>
      rw [hn]
      exact readDigits_zeros (zero_lt_of_lt hone) 1
  · rw [readDigits_digits hrad fun d hd => digits_lt_base hone hd, zero_mul, zero_add,
      ofDigits_digits]

theorem numeral_ne_nil (n : Nat) : numeral radix n ≠ [] := by
  rw [numeral]
  split
  · exact cons_ne_nil _ _
  · next hn =>
      rw [Ne, map_eq_nil_iff, reverse_eq_nil_iff, digits_eq_nil_iff_eq_zero]
      exact hn

theorem plus_notMem_numeral (hone : 1 < radix) (hrad : radix ≤ 36) (n : Nat) : 43 ∉ numeral radix n := by
  rw [numeral]
  split
  · decide
  intro h
  obtain ⟨d, hd, heq⟩ := mem_map.1 h
  have hlt := digits_lt_base hone (mem_reverse.1 hd)
  exact digitChar_ne_plus (lt_of_lt_of_le hlt hrad) heq

theorem length_numeral_le (hone : 1 < radix) {width n : Nat} (hwid : 0 < width) (hn : n < radix ^ width) :
    (numeral radix n).length ≤ width := by
  rw [numeral]
  split
  · exact hwid
  · rw [length_map, length_reverse]
    exact (digits_length_le_iff hone n).2 hn

theorem length_padded (hone : 1 < radix) {width n : Nat} (hwid : 0 < width) (hn : n < radix ^ width) :
    (padded radix width n).length = width := by
  have hle := length_numeral_le hone hwid hn
  rw [padded, length_append, length_replicate]
  omega

variable {bytes : List UInt8}

theorem fromStrRadix_of_notMem (hne : bytes ≠ []) (hplus : 43 ∉ bytes) (limit : Nat) :
    fromStrRadix radix limit bytes = (readDigits radix 0 bytes).filter (· < limit) := by
  cases bytes with
  | nil => exact absurd rfl hne
  | cons b rest =>
    have hb : ¬ (b = 43 ∧ rest ≠ []) := fun h => hplus (h.1 ▸ mem_cons_self)
    rw [fromStrRadix, if_neg hb]

theorem fromStrRadix_padded (hone : 1 < radix) (hrad : radix ≤ 36) (width : Nat) {n limit : Nat} (hn : n < limit) :
    fromStrRadix radix limit (padded radix width n) = some n := by
  have hplus : 43 ∉ padded radix width n := by
    rw [padded, mem_append, not_or]
    refine ⟨fun h => ?_, plus_notMem_numeral hone hrad n⟩
    exact absurd (eq_of_mem_replicate h) (by decide)
  have hne : padded radix width n ≠ [] := append_ne_nil_of_right_ne_nil _ (numeral_ne_nil n)
  rw [fromStrRadix_of_notMem hne hplus, padded, readDigits_append, readDigits_zeros (zero_lt_of_lt hone)]
  show (readDigits radix 0 (numeral radix n)).filter _ = _
  rw [readDigits_numeral hone hrad, filter_some, if_pos (decide_eq_true hn)]

theorem toDigit_lt {b : UInt8} {d : Nat} (h : toDigit radix b = some d) : d < radix := by
  rw [toDigit] at h
  split at h
  · next hb => exact some.inj h ▸ hb.2.2
  split at h
  · next hb => exact some.inj h ▸ hb.2.2
  split at h
  · next hb => exact some.inj h ▸ hb.2.2
  · cases h

theorem readDigits_lt : ∀ {n m : Nat}, readDigits radix n bytes = some m → m < (n + 1) * radix ^ bytes.length := by
  induction bytes with
  | nil =>
    intro n m h
    rw [← some.inj h, length_nil, pow_zero, mul_one]
    exact lt_succ_self n
  | cons b bytes ih =>
    intro n m h
    rw [readDigits] at h
    split at h
    · next d hd =>
        have hdig := toDigit_lt hd
        calc m < (n * radix + d + 1) * radix ^ bytes.length := ih h
          _ ≤ (n + 1) * radix * radix ^ bytes.length := mul_le_mul_right _ (by rw [add_mul]; omega)
          _ = (n + 1) * radix ^ (bytes.length + 1) := by rw [pow_succ]; ring
    · cases h

theorem notMem_of_readDigits {c : UInt8} (hc : toDigit radix c = none) : ∀ {n m : Nat},
    readDigits radix n bytes = some m → c ∉ bytes := by
  induction bytes with
  | nil => exact fun _ => not_mem_nil
  | cons b bytes ih =>
    intro n m h hmem
    rw [readDigits] at h
    split at h
    · next d hd =>
        rcases mem_cons.1 hmem with rfl | hmem
        · rw [hc] at hd
          cases hd
        · exact ih h hmem
    · cases h

theorem fromStrRadix_lt (hrad : 0 < radix) {limit n : Nat}
    (h : fromStrRadix radix limit bytes = some n) : n < radix ^ bytes.length := by
  cases bytes with
  | nil => cases h
  | cons b rest =>
    obtain ⟨hrd, -⟩ := filter_eq_some_iff.1 h
    have hlt := readDigits_lt hrd
    rw [Nat.zero_add, Nat.one_mul] at hlt
    refine Nat.lt_of_lt_of_le hlt (Nat.pow_le_pow_right hrad ?_)
    split
    · exact Nat.le_succ rest.length
    · exact Nat.le_refl _

end KaiT2en.Lib.Numeral
