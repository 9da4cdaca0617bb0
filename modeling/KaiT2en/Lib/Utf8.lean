import Mathlib.Data.List.Basic

/-!
# Text and its bytes

`utf8` is the encoding of a text. `lossy` decodes any bytes: a part that is not the encoding of a character becomes a
replacement character. Which part that is follows the recommended practice of the Unicode standard, as does
`from_utf8_lossy`: the longest beginning of an encoding, or one byte. Text is decoded as it was encoded (`lossy_utf8`).
-/

namespace KaiT2en.Lib.Utf8

variable (c : Char) (text : List Char)

def utf8 : List UInt8 := text.flatMap String.utf8EncodeChar

/-- The character whose encoding the bytes begin with. -/
def decodeChar? (bytes : List UInt8) : Option Char := bytes.toByteArray.utf8DecodeChar? 0

def isContinuation (b : UInt8) : Bool := 0x80 ≤ b && b ≤ 0xBF

/-- The byte `b` can follow `first` in an encoding of three or four bytes. -/
def isSecond (first b : UInt8) : Bool :=
  if first = 0xE0 then 0xA0 ≤ b && b ≤ 0xBF
  else if first = 0xED then 0x80 ≤ b && b ≤ 0x9F
  else if first = 0xF0 then 0x90 ≤ b && b ≤ 0xBF
  else if first = 0xF4 then 0x80 ≤ b && b ≤ 0x8F
  else 0xE1 ≤ first && first ≤ 0xF3 && isContinuation b

/-- The number of bytes that one replacement character stands for, where no encoding begins. -/
def invalidLength : List UInt8 → Nat
  | first :: b :: c :: _ => if isSecond first b then if 0xF0 ≤ first && isContinuation c then 3 else 2 else 1
  | [first, b] => if isSecond first b then 2 else 1
  | _ => 1

/-- Decode at most `fuel` characters. -/
def lossyUpTo : Nat → List UInt8 → List Char
  | 0, _ => []
  | _ + 1, [] => []
  | fuel + 1, b :: bytes =>
    match decodeChar? (b :: bytes) with
    | some c => c :: lossyUpTo fuel ((b :: bytes).drop c.utf8Size)
    | none => Char.ofNat 0xFFFD :: lossyUpTo fuel ((b :: bytes).drop (invalidLength (b :: bytes)))

/-- `String::from_utf8_lossy`. -/
def lossy (bytes : List UInt8) : List Char := lossyUpTo bytes.length bytes

@[simp] theorem utf8_nil : utf8 [] = [] := rfl

@[simp] theorem utf8_cons : utf8 (c :: text) = String.utf8EncodeChar c ++ utf8 text := List.flatMap_cons

@[simp] theorem utf8_append (text text' : List Char) : utf8 (text ++ text') = utf8 text ++ utf8 text' :=
  List.flatMap_append

theorem length_utf8EncodeChar_pos : 0 < (String.utf8EncodeChar c).length := by
  rw [String.length_utf8EncodeChar]
  exact Char.utf8Size_pos c

theorem decodeChar?_utf8EncodeChar (bytes : List UInt8) :
    decodeChar? (String.utf8EncodeChar c ++ bytes) = some c := by
  rw [decodeChar?, List.toByteArray_append]
  exact ByteArray.utf8DecodeChar?_utf8EncodeChar_append

theorem lossyUpTo_utf8 : ∀ fuel, (utf8 text).length ≤ fuel → lossyUpTo fuel (utf8 text) = text := by
  induction text with
  | nil =>
    intro fuel _
    cases fuel with
    | zero | succ _ => rfl
  | cons c text ih =>
    intro fuel hfu
    have hpos := length_utf8EncodeChar_pos c
    rw [utf8_cons, List.length_append] at hfu
    obtain ⟨fuel, rfl⟩ : ∃ n, fuel = n + 1 := ⟨fuel - 1, by omega⟩
    obtain ⟨b, bytes, hbs⟩ := List.exists_cons_of_length_pos hpos
    have hdec := decodeChar?_utf8EncodeChar c (utf8 text)
    have hdr : (String.utf8EncodeChar c ++ utf8 text).drop c.utf8Size = utf8 text := by
      rw [← String.length_utf8EncodeChar c, List.drop_left]
    rw [utf8_cons]
    rw [hbs, List.cons_append] at hdec hdr ⊢
    rw [lossyUpTo, hdec]
    show c :: lossyUpTo fuel _ = _
    rw [hdr, ih fuel (by omega)]

theorem lossy_utf8 : lossy (utf8 text) = text := lossyUpTo_utf8 text _ (Nat.le_refl _)

end KaiT2en.Lib.Utf8
