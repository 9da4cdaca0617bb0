import KaiT2en.Lib.Bytes

/-!
# Codecs for messages

A codec encodes messages as byte strings; a faithful one reads every message back. `Delimited` is a codec
whose encodings show where they end, so that they can be put one behind the other. It is built up from
bytes, numbers of four bytes, pairs, lists and one-to-one maps, and every `Delimited` is a faithful codec.
-/

namespace KaiT2en.Lib.Encoding

open KaiT2en.Lib.Bytes Option List

/-- An encoding of messages. -/
structure Codec (α : Type) where
  encode : α → List UInt8
  decode : List UInt8 → Option α

/-- Every message is read back. -/
def Codec.Faithful {α : Type} (codec : Codec α) : Prop := ∀ message, codec.decode (codec.encode message) = some message

/-- An encoding that is read back with anything behind it. -/
structure Delimited (α : Type) where
  put : α → List UInt8
  get : List UInt8 → Option (α × List UInt8)
  get_put : ∀ a rest, get (put a ++ rest) = some (a, rest)

namespace Delimited

variable {α β : Type}

variable (d : Delimited α)

/-- The codec for byte strings that hold one message and nothing else. -/
def codec : Codec α where
  encode := d.put
  decode bytes :=
    match d.get bytes with
    | some (a, []) => some a
    | _ => none

theorem codec_faithful : d.codec.Faithful := by
  intro a
  have hget := d.get_put a []
  rw [append_nil] at hget
  simp only [codec, hget]

/-- A single byte. -/
def byte : Delimited UInt8 where
  put b := [b]
  get
    | b :: rest => some (b, rest)
    | [] => none
  get_put _ _ := rfl

/-- Values that are one-to-one with others. -/
def map (d : Delimited α) (f : β → α) (g : α → β) (h : ∀ b, g (f b) = b) : Delimited β where
  put b := d.put (f b)
  get bytes := (d.get bytes).map fun r => (g r.1, r.2)
  get_put b rest := by rw [d.get_put, map_some, h]

/-- One value behind the other. -/
def pair (e : Delimited β) : Delimited (α × β) where
  put p := d.put p.1 ++ e.put p.2
  get bytes := (d.get bytes).bind fun r => (e.get r.2).map fun q => ((r.1, q.1), q.2)
  get_put p rest := by rw [append_assoc, d.get_put, bind_some, e.get_put, map_some]

/-- The number that four bytes stand for. -/
def word (f : α → Nat) (g : Nat → α) (hlt : ∀ a, f a < 256 ^ 4) (h : ∀ a, g (f a) = a) : Delimited α where
  put a := beBytes 4 (f a)
  get
    | b0 :: b1 :: b2 :: b3 :: rest => some (g (ofBe [b0, b1, b2, b3]), rest)
    | _ => none
  get_put a rest := by
    have hvalue := ofBe_beBytes (hlt a)
    simp only [beBytes, cons_append, nil_append] at hvalue ⊢
    rw [hvalue, h]

/-- A list has a one in front of every element and a zero behind the last. -/
def putList (d : Delimited α) : List α → List UInt8
  | [] => [0]
  | a :: as => 1 :: (d.put a ++ putList d as)

/-- Read a list of less than `fuel` elements. -/
def getList (d : Delimited α) : Nat → List UInt8 → Option (List α × List UInt8)
  | 0, _ => none
  | _ + 1, [] => none
  | fuel + 1, b :: rest =>
    if b = 0 then some ([], rest)
    else (d.get rest).bind fun r => (getList d fuel r.2).map fun q => (r.1 :: q.1, q.2)

theorem length_lt_putList (as : List α) : as.length < (putList d as).length := by
  induction as with
  | nil => exact Nat.zero_lt_one
  | cons a as ih =>
    rw [putList, length_cons, length_cons, length_append]
    omega

theorem getList_putList (as : List α) (rest : List UInt8) {fuel : Nat}
    (hfu : as.length < fuel) : getList d fuel (putList d as ++ rest) = some (as, rest) := by
  induction as generalizing fuel with
  | nil =>
    obtain ⟨fuel, rfl⟩ : ∃ k, fuel = k + 1 := ⟨fuel - 1, by omega⟩
    rfl
  | cons a as ih =>
    obtain ⟨fuel, rfl⟩ : ∃ k, fuel = k + 1 := ⟨fuel - 1, by omega⟩
    have hrs := ih (Nat.lt_of_succ_lt_succ hfu)
    rw [putList, cons_append, getList, if_neg (by decide), append_assoc, d.get_put, bind_some, hrs, map_some]

def list : Delimited (List α) where
  put := putList d
  get bytes := getList d bytes.length bytes
  get_put as rest := by
    apply getList_putList
    have hlt := length_lt_putList d as
    rw [length_append]
    omega

/-- A value that may be absent, as a list of at most one. -/
def option : Delimited (Option α) := d.list.map Option.toList head? (by intro b; cases b <;> rfl)

end Delimited

end KaiT2en.Lib.Encoding
