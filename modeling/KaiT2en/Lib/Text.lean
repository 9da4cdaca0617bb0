import KaiT2en.Lib.Utf8
import Mathlib.Data.List.DropRight

/-!
# Lines of text

The functions of `str` that a parser of lines uses, on lists of characters, and what they give for a line that was put
together from parts. Text in ASCII has one byte for each character (`utf8_ascii`).
-/

namespace KaiT2en.Lib.Text

open KaiT2en.Lib.Utf8 List

variable (c : Char) (text : List Char)

def isWhitespace : Bool :=
  let n := c.toNat
  (9 ≤ n && n ≤ 13) || n == 0x20 || n == 0x85 || n == 0xA0 || n == 0x1680 || (0x2000 ≤ n && n ≤ 0x200A) ||
    n == 0x2028 || n == 0x2029 || n == 0x202F || n == 0x205F || n == 0x3000

/-- `split_whitespace`. -/
def words : List (List Char) := (text.splitOnP isWhitespace).filter (· ≠ [])

def trimEnd : List Char := text.rdropWhile isWhitespace

def trim : List Char := trimEnd (text.dropWhile isWhitespace)

/-- The part before the first `c`, the whole text if there is none. -/
def before : List Char := text.takeWhile (· ≠ c)

def splitOnce : Option (List Char × List Char) :=
  if c ∈ text then some (before c text, text.drop ((before c text).length + 1)) else none

/-- `to_ascii_lowercase` of a character. -/
def toAsciiLower : Char := if 'A' ≤ c ∧ c ≤ 'Z' then Char.ofNat (c.toNat + 32) else c

def eqIgnoreAsciiCase (a b : List Char) : Bool := a.map toAsciiLower = b.map toAsciiLower

def CRLF : List Char := ['\r', '\n']

variable {text : List Char}

theorem forall_mem_of_all {p : Char → Prop} [DecidablePred p]
    (h : text.all (fun c => decide (p c))) : ∀ c ∈ text, p c :=
  fun c hc => of_decide_eq_true (all_eq_true.1 h c hc)

theorem words_cons {word : List Char} (hne : word ≠ []) (hword : ∀ c ∈ word, isWhitespace c = false) {space : Char}
    (hspace : isWhitespace space) (rest : List Char) : words (word ++ space :: rest) = word :: words rest := by
  rw [words, splitOnP_append_cons_of_forall_mem hword space hspace]
  exact filter_cons_of_pos (decide_eq_true hne)

theorem words_line {word : List Char} (hne : word ≠ []) (hword : ∀ c ∈ word, isWhitespace c = false)
    (rest : List Char) : ∃ tail others, words (word ++ (rest ++ CRLF)) = (word ++ tail) :: others := by
  have hend : (rest ++ CRLF).dropWhile (fun c => !isWhitespace c) ≠ [] := by
    rw [Ne, dropWhile_eq_nil_iff]
    exact fun h => absurd (h '\r' (mem_append_right rest mem_cons_self)) (by decide)
  obtain ⟨space, others, hspl⟩ := exists_cons_of_ne_nil hend
  have hspace : isWhitespace space := by
    have hnot := head_dropWhile_not (fun c => !isWhitespace c) hend
    simpa only [hspl, head_cons, Bool.not_eq_false'] using hnot
  refine ⟨(rest ++ CRLF).takeWhile fun c => !isWhitespace c, words others, ?_⟩
  have hline : word ++ (rest ++ CRLF) =
      (word ++ (rest ++ CRLF).takeWhile fun c => !isWhitespace c) ++ space :: others := by
    rw [append_assoc, ← hspl, takeWhile_append_dropWhile]
  rw [hline]
  refine words_cons (append_ne_nil_of_left_ne_nil hne _) (fun c hc => ?_) hspace others
  rcases mem_append.1 hc with hc | hc
  · exact hword c hc
  · have hnot := mem_takeWhile_imp hc
    rwa [Bool.not_eq_true'] at hnot

variable {c : Char}

theorem trimEnd_of_last (hc : isWhitespace c = false) : trimEnd (text ++ [c]) = text ++ [c] :=
  rdropWhile_concat_neg _ _ _ (by rw [hc]; exact Bool.false_ne_true)

theorem trimEnd_append {text space : List Char} (hspace : ∀ c ∈ space, isWhitespace c) :
    trimEnd (text ++ space) = trimEnd text := by
  induction space using List.reverseRecOn with
  | nil => rw [append_nil]
  | append_singleton space c ih =>
    rw [← append_assoc]
    refine (rdropWhile_concat_pos _ _ _ (hspace c (by simp))).trans ?_
    exact ih fun d hd => hspace d (mem_append_left _ hd)

theorem trimEnd_crlf (text : List Char) : trimEnd (text ++ CRLF) = trimEnd text :=
  trimEnd_append (all_eq_true.1 (by decide))

theorem trimEnd_append_cons (hc : isWhitespace c = false) (text rest : List Char) :
    trimEnd (text ++ c :: rest) = text ++ c :: trimEnd rest := by
  induction rest using List.reverseRecOn with
  | nil => exact trimEnd_of_last hc
  | append_singleton rest d ih =>
    rw [← cons_append, ← append_assoc]
    cases hd : isWhitespace d with
    | true =>
      have hdr : ∀ l, trimEnd (l ++ [d]) = trimEnd l := fun l => rdropWhile_concat_pos _ _ _ hd
      rw [hdr, hdr, ih]
    | false =>
      rw [trimEnd_of_last hd, trimEnd_of_last hd, append_assoc]
      rfl

theorem dropWhile_trimEnd (text : List Char) :
    trimEnd ((trimEnd text).dropWhile isWhitespace) = trimEnd (text.dropWhile isWhitespace) := by
  induction text using List.reverseRecOn with
  | nil => rfl
  | append_singleton text c ih =>
    cases hc : isWhitespace c with
    | false => rw [trimEnd_of_last hc]
    | true =>
      have hdr : ∀ l, trimEnd (l ++ [c]) = trimEnd l := fun l => rdropWhile_concat_pos _ _ _ hc
      rw [hdr, ih, dropWhile_append]
      split
      · next hemp =>
          have hnil : text.dropWhile isWhitespace = [] := List.isEmpty_iff.1 hemp
          rw [hnil, dropWhile_cons_of_pos hc]
          rfl
      · rw [hdr]

theorem trim_trimEnd (text : List Char) : trim (trimEnd text) = trim text := dropWhile_trimEnd text

theorem before_append (hc : c ∉ text) (rest : List Char) : before c (text ++ c :: rest) = text := by
  rw [before, takeWhile_append_of_pos, takeWhile_cons_of_neg, append_nil]
  · exact fun h => absurd rfl (of_decide_eq_true h)
  · exact fun d hd => decide_eq_true fun heq => hc (heq ▸ hd)

theorem before_of_notMem (hc : c ∉ text) : before c text = text := by
  rw [before, takeWhile_eq_self_iff]
  exact fun d hd => decide_eq_true fun heq => hc (heq ▸ hd)

theorem splitOnce_append (hc : c ∉ text) (rest : List Char) : splitOnce c (text ++ c :: rest) = some (text, rest) := by
  rw [splitOnce, if_pos (mem_append_right _ mem_cons_self), before_append hc]
  have hlen : text.length + 1 = (text ++ [c]).length := by rw [length_append, length_singleton]
  rw [hlen, show text ++ c :: rest = (text ++ [c]) ++ rest by rw [append_assoc]; rfl, drop_left]

theorem utf8_ascii (h : ∀ c ∈ text, c.toNat < 128) : utf8 text = text.map fun c => c.toNat.toUInt8 := by
  induction text with
  | nil => rfl
  | cons c text ih =>
    obtain ⟨hc, htx⟩ := forall_mem_cons.1 h
    have hsz : c.utf8Size = 1 := by
      rw [Char.utf8Size_eq_one_iff, UInt32.le_iff_toNat_le]
      exact Nat.le_of_lt_succ hc
    rw [utf8_cons, ih htx, String.utf8EncodeChar_eq_singleton hsz]
    rfl

theorem notMem_utf8 (h : ∀ c ∈ text, c.toNat < 128) (hc : c.toNat < 128)
    (hmem : c ∉ text) : c.toNat.toUInt8 ∉ utf8 text := by
  rw [utf8_ascii h, mem_map]
  rintro ⟨d, hd, heq⟩
  have hsm := h d hd
  have hnat : d.toNat = c.toNat := by
    have hbs := congrArg UInt8.toNat heq
    simp only [Nat.toUInt8, UInt8.toNat_ofNat'] at hbs
    omega
  exact hmem (Char.toNat_inj.1 hnat ▸ hd)

theorem notMem_of_mem_splitOn {α : Type} [DecidableEq α] {x : α} {text part : List α} (h : part ∈ text.splitOn x) :
    x ∉ part := by
  induction text generalizing part with
  | nil => simp_all
  | cons c text ih =>
    rw [splitOn_cons_eq_if_modifyHead] at h
    cases hs : text.splitOn x with
    | nil => exact absurd hs (splitOn_ne_nil _ _)
    | cons first rest => grind [modifyHead_cons]

end KaiT2en.Lib.Text
