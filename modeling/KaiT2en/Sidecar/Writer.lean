import KaiT2en.Lib.Bytes
import KaiT2en.Sidecar.Reader

/-!
# Writing property lists

The writer of `t2bce_sidecar/bplist.c` produces one flat dictionary: object 0 is the dictionary, the keys follow as
objects `1..n` and the values as objects `n + 1..2n`, then the table of the object offsets and the trailer. A write
that does not fit is left out but still counted, and `t2sc_bpw_dict` then returns `-ENOSPC`.

`property_list_round_trip` reads a written dictionary back. The writer appends to a list of objects (`Laid`), and the
reader finds object `i` by its entry in the table (`object_short`, `object_long`).
-/

namespace KaiT2en.Sidecar

open KaiT2en.Kernel KaiT2en.Lib.Trace KaiT2en.Lib.Bytes List Traced Nat

/-! ## The dictionary of the caller -/

def T2SC_BPW_MAX_ENTRIES : Nat := 12

/-- `enum t2sc_bpw_type`. -/
inductive BpwType where
  | bool
  | int
  | emptyDict
  deriving DecidableEq

/-- `struct t2sc_bpw_entry`; the value is an `s64`. -/
structure BpwEntry where
  key : CString
  type : BpwType
  value : Int
  range : -2 ^ 63 ≤ value ∧ value < 2 ^ 63

/-- `struct t2sc_bpw`, with the entries in use. -/
structure Bpw where
  entries : List BpwEntry
  le : entries.length ≤ T2SC_BPW_MAX_ENTRIES

def bpwInit : Bpw := ⟨[], zero_le _⟩

/-- `t2sc_bpw_add`; an entry too many is ignored. -/
def Bpw.add (w : Bpw) (e : BpwEntry) : Bpw :=
  if h : w.entries.length ≥ T2SC_BPW_MAX_ENTRIES then w
  else ⟨w.entries ++ [e], by rw [length_append]; exact Nat.lt_of_not_le h⟩

/-! ## The writer -/

/-- `struct bp_out`, with the memory `buf` points to; `objects` is the number of offsets. -/
structure BpOut where
  buf : Memory
  size : Nat
  pos : Nat
  offsets : List Nat

/-- `memcpy` to the position `pos`. -/
def memcpy (buf : Memory) (pos : Nat) (data : List UInt8) : Memory :=
  fun p => if h : pos ≤ p ∧ p - pos < data.length then data.get ⟨p - pos, h.2⟩ else buf p

variable (o : BpOut)

/-- `bp_put`; the lengths of a call of the writer add up to far less than `2 ^ 64`. -/
def bpPut (data : List UInt8) : BpOut :=
  { o with
    buf := if o.pos + data.length ≤ o.size then memcpy o.buf o.pos data else o.buf
    pos := o.pos + data.length }

def bpPutU8 (value : Nat) : BpOut := bpPut o [UInt8.ofNat value]

/-- `bp_begin_object`; the offsets are `u16`. -/
def bpBeginObject : BpOut := { o with offsets := o.offsets ++ [o.pos % 2 ^ 16] }

def bpPutAscii (str : CString) : BpOut :=
  let len := str.strlen
  let o := bpBeginObject o
  let o :=
    if len < 15 then bpPutU8 o (0x50 ||| len)
    else bpPutU8 (bpPutU8 (bpPutU8 o 0x5f) 0x10) len
  bpPut o str.bytes

/-- The trailer of `bp_finish`. -/
def bpTrailer (objects table : Nat) : List UInt8 :=
  List.replicate 6 0 ++ [2, 1] ++ beBytes 8 objects ++ beBytes 8 0 ++ beBytes 8 table

/-- `bp_finish`: the value it returns and the output. -/
def bpFinish : Int × BpOut :=
  let table := o.pos
  let objects := o.offsets.length
  let o := o.offsets.foldl (fun o off => bpPut o (beBytes 2 off)) o
  let o := bpPut o (bpTrailer objects table)
  if o.pos > o.size ∨ o.pos > 0xffff then (-ENOSPC, o) else (o.pos, o)

/-- The value of an entry in the loop of `t2sc_bpw_dict`. -/
def bpPutValue (e : BpwEntry) : BpOut :=
  let o := bpBeginObject o
  match e.type with
  | .bool => bpPutU8 o (if e.value ≠ 0 then 0x09 else 0x08)
  | .int => bpPut (bpPutU8 o 0x13) (beBytes 8 (e.value % 2 ^ 64).toNat)
  | .emptyDict => bpPutU8 o 0xd0

/-- `t2sc_bpw_dict`: the value it returns and the memory of `out` afterwards. -/
def bpwDict (w : Bpw) (out : Memory) (size : Nat) : Int × Memory :=
  let n := w.entries.length
  let o : BpOut := ⟨out, size, 0, []⟩
  let o := bpPut o bpHeader
  let o := bpPutU8 (bpBeginObject o) (0xd0 ||| n)
  let o := (List.range n).foldl (fun o i => bpPutU8 o (1 + i)) o
  let o := (List.range n).foldl (fun o i => bpPutU8 o (1 + n + i)) o
  let o := w.entries.foldl (fun o e => bpPutAscii o e.key) o
  let o := w.entries.foldl bpPutValue o
  let (ret, o) := bpFinish o
  (ret, o.buf)

/-! ## What the writer has written -/

/-- The output `o` of `size` bytes has got `bytes`: they stand in the buffer if they fit, and nothing behind it has
changed. -/
structure Written (start : Memory) (size : Nat) (o : BpOut) (bytes : List UInt8) : Prop where
  room : o.size = size
  pos : o.pos = bytes.length
  inside : bytes.length ≤ size → ∀ i, i < bytes.length → bytes[i]? = some (o.buf i)
  behind : ∀ p, size ≤ p → o.buf p = start p

variable {start : Memory} {size : Nat} {o : BpOut} {bytes : List UInt8}

theorem memcpy_inside {buf : Memory} {pos i : Nat} {data : List UInt8} (hi : i < data.length) :
    data[i]? = some (memcpy buf pos data (pos + i)) := by
  unfold memcpy
  rw [dif_pos ⟨Nat.le_add_right _ _, by omega⟩, getElem?_eq_getElem hi]
  simp [get_eq_getElem]

theorem memcpy_outside {buf : Memory} {pos p : Nat} {data : List UInt8}
    (h : p < pos ∨ pos + data.length ≤ p) : memcpy buf pos data p = buf p := by
  unfold memcpy
  rw [dif_neg]
  omega

theorem Written.put (h : Written start size o bytes) (data : List UInt8) :
    Written start size (bpPut o data) (bytes ++ data) := by
  obtain ⟨hsz, hpos, hins, hbeh⟩ := h
  refine ⟨hsz, ?_, ?_, ?_⟩
  · rw [length_append, ← hpos]
    rfl
  · intro hft i hi
    rw [length_append] at hft hi
    have hrm : o.pos + data.length ≤ o.size := by rw [hpos, hsz]; exact hft
    have hbuf : (bpPut o data).buf = memcpy o.buf o.pos data := if_pos hrm
    rw [hbuf]
    by_cases hold : i < bytes.length
    · grind [memcpy_outside]
    · obtain ⟨k, rfl⟩ : ∃ k, i = bytes.length + k := ⟨i - bytes.length, by omega⟩
      rw [getElem?_append_right (by omega), Nat.add_sub_cancel_left, ← hpos]
      exact memcpy_inside (by omega)
  · intro p hp
    show (if o.pos + data.length ≤ o.size then memcpy o.buf o.pos data else o.buf) p = start p
    split
    · rw [memcpy_outside (by omega)]
      exact hbeh p hp
    · exact hbeh p hp

/-- A loop whose rounds append `f a` appends all of them. -/
theorem Written.foldl {α : Type} {step : BpOut → α → BpOut} {f : α → List UInt8}
    (hsp : ∀ o bytes a, Written start size o bytes → Written start size (step o a) (bytes ++ f a))
    (l : List α) : ∀ {o : BpOut} {bytes : List UInt8}, Written start size o bytes →
      Written start size (l.foldl step o) (bytes ++ l.flatMap f) := by
  induction l with
  | nil =>
    intro o bytes h
    rw [flatMap_nil, append_nil]
    exact h
  | cons a l ih => grind

/-! ## Objects one after the other -/

/-- The offsets of consecutive objects, the first at `p`. -/
def starts : Nat → List (List UInt8) → List Nat
  | _, [] => []
  | p, obj :: objs => p % 2 ^ 16 :: starts (p + obj.length) objs

variable (objs : List (List UInt8))

theorem starts_append (obj : List UInt8) :
    ∀ p, starts p (objs ++ [obj]) = starts p objs ++ [(p + objs.flatten.length) % 2 ^ 16] := by
  induction objs with
  | nil =>
    intro p
    rfl
  | cons first objs ih => grind [starts]

theorem length_starts : ∀ p, (starts p objs).length = objs.length := by
  induction objs with
  | nil =>
    intro p
    rfl
  | cons first objs ih =>
    intro p
    rw [starts, length_cons, length_cons, ih]

theorem getElem?_starts : ∀ (p i : Nat), i < objs.length →
    (starts p objs)[i]? = some ((p + (objs.take i).flatten.length) % 2 ^ 16) := by
  induction objs with
  | nil =>
    intro p i hi
    cases hi
  | cons first objs ih =>
    intro p i hi
    cases i with
    | zero => rfl
    | succ i => grind [starts]

/-- The header and the objects `objs` are written, and the offsets are theirs. -/
structure Laid (start : Memory) (size : Nat) (o : BpOut) (objs : List (List UInt8)) : Prop where
  written : Written start size o (bpHeader ++ objs.flatten)
  offsets : o.offsets = starts 8 objs

theorem Written.begin (h : Written start size o bytes) : Written start size (bpBeginObject o) bytes := { h with }

theorem Laid.object {o' : BpOut} {objs : List (List UInt8)} {obj : List UInt8} (h : Laid start size o objs)
    (hput : ∀ bytes, Written start size (bpBeginObject o) bytes → Written start size o' (bytes ++ obj))
    (hoff : o'.offsets = (bpBeginObject o).offsets) : Laid start size o' (objs ++ [obj]) := by
  refine ⟨?_, ?_⟩
  · rw [flatten_append, flatten_singleton, ← append_assoc]
    exact hput _ h.written.begin
  · rw [hoff, starts_append, ← h.offsets]
    have hpos : o.pos = 8 + objs.flatten.length := by
      rw [h.written.pos, length_append]
      rfl
    show o.offsets ++ [o.pos % 2 ^ 16] = _
    rw [hpos]

theorem Laid.foldl {α : Type} {step : BpOut → α → BpOut} {f : α → List UInt8}
    (hsp : ∀ o objs a, Laid start size o objs → Laid start size (step o a) (objs ++ [f a]))
    (l : List α) : ∀ {o : BpOut} {objs : List (List UInt8)}, Laid start size o objs →
      Laid start size (l.foldl step o) (objs ++ l.map f) := by
  induction l with
  | nil =>
    intro o objs h
    rw [map_nil, append_nil]
    exact h
  | cons a l ih => grind

/-- The bytes of the dictionary object of `n` entries. -/
def dictObject (n : Nat) : List UInt8 :=
  [UInt8.ofNat (0xd0 ||| n)] ++ (List.range n).flatMap (fun i => [UInt8.ofNat (1 + i)]) ++
    (List.range n).flatMap (fun i => [UInt8.ofNat (1 + n + i)])

def asciiObject (str : CString) : List UInt8 :=
  (if str.strlen < 15 then [UInt8.ofNat (0x50 ||| str.strlen)]
    else [0x5f, 0x10, UInt8.ofNat str.strlen]) ++ str.bytes

def valueObject (e : BpwEntry) : List UInt8 :=
  match e.type with
  | .bool => [if e.value ≠ 0 then 0x09 else 0x08]
  | .int => 0x13 :: beBytes 8 (e.value % 2 ^ 64).toNat
  | .emptyDict => [0xd0]

/-- The objects of a dictionary in their order. -/
def Bpw.objects (w : Bpw) : List (List UInt8) :=
  [dictObject w.entries.length] ++ w.entries.map (fun e => asciiObject e.key) ++
    w.entries.map valueObject

theorem Laid.ascii {objs : List (List UInt8)} (h : Laid start size o objs) (str : CString) :
    Laid start size (bpPutAscii o str) (objs ++ [asciiObject str]) := by
  apply h.object
  · intro bytes hbs
    unfold asciiObject
    rw [← append_assoc]
    apply Written.put
    by_cases hsh : str.strlen < 15
    · rw [if_pos hsh, if_pos hsh]
      exact hbs.put _
    rw [if_neg hsh, if_neg hsh]
    have hthr := ((hbs.put [0x5f]).put [0x10]).put [UInt8.ofNat str.strlen]
    rw [append_assoc, append_assoc] at hthr
    exact hthr
  · by_cases hsh : str.strlen < 15
    · simp only [bpPutAscii, if_pos hsh]
      rfl
    · simp only [bpPutAscii, if_neg hsh]
      rfl

theorem Laid.value {objs : List (List UInt8)} (h : Laid start size o objs) (e : BpwEntry) :
    Laid start size (bpPutValue o e) (objs ++ [valueObject e]) := by
  apply h.object
  · intro bytes hbs
    unfold bpPutValue valueObject
    cases e.type with
    | bool =>
      by_cases hvalue : e.value ≠ 0
      · rw [if_pos hvalue, if_pos hvalue]
        exact hbs.put _
      · rw [if_neg hvalue, if_neg hvalue]
        exact hbs.put _
    | int =>
      have htwo := (hbs.put [0x13]).put (beBytes 8 (e.value % 2 ^ 64).toNat)
      rw [append_assoc] at htwo
      exact htwo
    | emptyDict => exact hbs.put _
  · unfold bpPutValue
    cases e.type with
    | bool | int | emptyDict => rfl

/-- The bytes of a property list of the objects `objs`. -/
def encodeObjects : List UInt8 :=
  bpHeader ++ objs.flatten ++ (starts 8 objs).flatMap (beBytes 2) ++ bpTrailer objs.length (8 + objs.flatten.length)

theorem length_bpTrailer (objects table : Nat) : (bpTrailer objects table).length = 32 := by simp [bpTrailer]

theorem length_flatMap_beBytes (l : List Nat) : (l.flatMap (beBytes 2)).length = 2 * l.length := by
  induction l with
  | nil => rfl
  | cons v l ih =>
    rw [flatMap_cons, length_append, length_beBytes, ih, length_cons]
    omega

theorem length_encodeObjects :
    (encodeObjects objs).length = 8 + objs.flatten.length + 2 * objs.length + 32 := by
  simp only [encodeObjects, length_append, length_bpTrailer, length_flatMap_beBytes, length_starts]
  rfl

/-- `bp_finish` adds the table and the trailer, and fails when the bytes do not fit. -/
theorem Laid.finish {objs : List (List UInt8)} (h : Laid start size o objs) :
    Written start size (bpFinish o).2 (encodeObjects objs) ∧ (bpFinish o).1 = if (encodeObjects objs).length > size ∨
        (encodeObjects objs).length > 0xffff then -ENOSPC else ((encodeObjects objs).length : Int) := by
  have hpos : o.pos = 8 + objs.flatten.length := by
    rw [h.written.pos, length_append]
    rfl
  have hln : o.offsets.length = objs.length := by rw [h.offsets, length_starts]
  have htab := Written.foldl (f := beBytes 2) (fun o bytes off hw => hw.put (beBytes 2 off)) o.offsets h.written
  obtain ⟨t, ht⟩ : ∃ t, t = bpPut (o.offsets.foldl (fun o off => bpPut o (beBytes 2 off)) o)
      (bpTrailer o.offsets.length o.pos) := ⟨_, rfl⟩
  have hall : Written start size t (encodeObjects objs) := by
    have hput := htab.put (bpTrailer o.offsets.length o.pos)
    rw [← ht, hln, hpos, h.offsets] at hput
    exact hput
  have hfin : bpFinish o = if t.pos > t.size ∨ t.pos > 0xffff then (-ENOSPC, t) else ((t.pos : Int), t) := by
    rw [ht]
    rfl
  rw [hfin, hall.pos, hall.room]
  split
  · exact ⟨hall, rfl⟩
  · exact ⟨hall, rfl⟩

/-- The dictionary object is laid out by the first two loops of `t2sc_bpw_dict`. -/
theorem laid_dictObject (out : Memory) (size n : Nat) :
    let o := bpPutU8 (bpBeginObject (bpPut ⟨out, size, 0, []⟩ bpHeader)) (0xd0 ||| n)
    let o := (List.range n).foldl (fun o i => bpPutU8 o (1 + i)) o
    let o := (List.range n).foldl (fun o i => bpPutU8 o (1 + n + i)) o
    Laid out size o [dictObject n] := by
  have hemp : Written out size ⟨out, size, 0, []⟩ [] :=
    ⟨rfl, rfl, fun _ i hi => absurd hi (not_lt_zero i), fun _ _ => rfl⟩
  have hhd : Laid out size (bpPut ⟨out, size, 0, []⟩ bpHeader) [] := ⟨hemp.put bpHeader, rfl⟩
  refine hhd.object ?_ ?_
  · intro bytes hbs
    have hmar := hbs.put [UInt8.ofNat (0xd0 ||| n)]
    have hkeys := Written.foldl (fun o bytes i hw => hw.put [UInt8.ofNat (1 + i)]) (List.range n) hmar
    have hvals := Written.foldl (fun o bytes i hw => hw.put [UInt8.ofNat (1 + n + i)]) (List.range n) hkeys
    rw [append_assoc, append_assoc] at hvals
    unfold dictObject
    exact hvals
  · have hlp : ∀ (c : Nat) (l : List Nat) (o : BpOut),
        (l.foldl (fun o i => bpPutU8 o (c + i)) o).offsets = o.offsets := by
      intro c l
      induction l with
      | nil =>
        intro o
        rfl
      | cons i l ih =>
        intro o
        rw [foldl_cons, ih]
        rfl
    rw [hlp, hlp]
    rfl

theorem bpwDict_spec (w : Bpw) (out : Memory) (size : Nat) : (∀ p, size ≤ p → (bpwDict w out size).2 p = out p) ∧
      ((encodeObjects w.objects).length ≤ size → ∀ i, i < (encodeObjects w.objects).length →
          (encodeObjects w.objects)[i]? = some ((bpwDict w out size).2 i)) ∧
      (bpwDict w out size).1 = if (encodeObjects w.objects).length > size ∨
        (encodeObjects w.objects).length > 0xffff then -ENOSPC
        else ((encodeObjects w.objects).length : Int) := by
  have hdict := laid_dictObject out size w.entries.length
  have hkeys := Laid.foldl (f := fun e => asciiObject e.key) (fun o objs e hl => hl.ascii e.key) w.entries hdict
  have hvals := Laid.foldl (f := valueObject) (fun o objs e hl => hl.value e) w.entries hkeys
  obtain ⟨hwrn, hret⟩ := hvals.finish
  exact ⟨hwrn.behind, hwrn.inside, hret⟩

/-! ## Bytes in a buffer -/

/-- The bytes `bs` stand in `l` from the position `p` on. -/
def StandsAt (l : List UInt8) (p : Nat) (bs : List UInt8) : Prop :=
  ∃ before after, l = before ++ bs ++ after ∧ before.length = p

namespace StandsAt

variable {l bs cs : List UInt8} {p : Nat}

theorem left (h : StandsAt l p (bs ++ cs)) : StandsAt l p bs := by
  obtain ⟨before, after, rfl, hp⟩ := h
  exact ⟨before, cs ++ after, by simp, hp⟩

theorem right (h : StandsAt l p (bs ++ cs)) : StandsAt l (p + bs.length) cs := by
  obtain ⟨before, after, rfl, hp⟩ := h
  exact ⟨before ++ bs, after, by simp, by rw [length_append, hp]⟩

theorem head {b : UInt8} (h : StandsAt l p (b :: bs)) : l[p]? = some b := by
  obtain ⟨before, after, rfl, rfl⟩ := h
  rw [append_assoc, getElem?_append_right (Nat.le_refl _), Nat.sub_self]
  rfl

theorem tail {b : UInt8} (h : StandsAt l p (b :: bs)) : StandsAt l (p + 1) bs := @right _ [b] _ _ h

theorem le (h : StandsAt l p bs) : p + bs.length ≤ l.length := by
  obtain ⟨before, after, rfl, rfl⟩ := h
  simp only [length_append]
  omega

theorem flatten {ls : List (List UInt8)} {i : Nat} : ∀ {p : Nat}, StandsAt l p ls.flatten →
    ls[i]? = some bs → StandsAt l (p + (ls.take i).flatten.length) bs := by
  induction i generalizing ls with
  | zero =>
    intro p h hi
    cases ls with
    | nil => cases hi
    | cons first ls =>
      cases hi
      exact h.left
  | succ i ih =>
    intro p h hi
    cases ls with
    | nil => cases hi
    | cons first ls =>
      rw [take_succ_cons, flatten_cons, length_append, ← add_assoc]
      exact ih h.right hi

theorem nth {i : Nat} {b : UInt8} (h : StandsAt l p bs) (hi : bs[i]? = some b) : StandsAt l (p + i) [b] := by
  obtain ⟨hlt, hget⟩ := List.getElem?_eq_some_iff.1 hi
  have hspl : bs = bs.take i ++ ([b] ++ bs.drop (i + 1)) := by
    rw [singleton_append, ← hget, getElem_cons_drop, take_append_drop]
  rw [hspl] at h
  have hrs := h.right.left
  rw [length_take, min_eq_left (le_of_lt hlt)] at hrs
  exact hrs

end StandsAt

section Reading

variable {data : Buffer} {outside : Memory} {p : Nat} {bs : List UInt8}

theorem value_readByte {b : UInt8} (h : StandsAt data.bytes p (b :: bs)) :
    (readByte (data.memory outside) p).value = b.toNat := by
  have hlen := data.lt
  have hle := h.le
  have hp : p < data.bytes.length := by
    rw [length_cons] at hle
    omega
  have hget := h.head
  rw [getElem?_eq_getElem hp] at hget
  show (data.memory outside (p % 2 ^ 64)).toNat = b.toNat
  rw [mod_eq_of_lt (by omega), Buffer.memory, dif_pos hp, get_eq_getElem, Option.some.inj hget]

variable (outside) in
theorem value_bpBeLoop : ∀ {p : Nat} (v : Nat), StandsAt data.bytes p bs → (v + 1) * 256 ^ bs.length ≤ 2 ^ 64 →
    (bpBeLoop (data.memory outside) p bs.length v).value = ofBeFrom v bs := by
  induction bs with
  | nil =>
    intro p v _ _
    rfl
  | cons b bs ih =>
    intro p v h hft
    have hbt : b.toNat < 2 ^ 8 := b.toNat_lt
    rw [length_cons] at hft ⊢
    have hone : 1 ≤ 256 ^ bs.length := one_le_pow _ _ (by decide)
    have hnx : (v * 256 + b.toNat + 1) * 256 ^ bs.length ≤ 2 ^ 64 := by
      calc (v * 256 + b.toNat + 1) * 256 ^ bs.length
          ≤ ((v + 1) * 256) * 256 ^ bs.length := mul_le_mul_right _ (by omega)
        _ = (v + 1) * 256 ^ (bs.length + 1) := by rw [pow_succ]; ring
        _ ≤ 2 ^ 64 := hft
    have hsm : v * 256 + b.toNat < 2 ^ 64 :=
      Nat.lt_of_lt_of_le (Nat.lt_succ_self _) (Nat.le_trans (Nat.le_mul_of_pos_right _ hone) hnx)
    rw [bpBeLoop, value_bind, value_readByte h,
      ← shiftLeft_add_eq_or_of_lt hbt, shiftLeft_eq, mod_eq_of_lt hsm, ofBeFrom]
    exact ih _ h.tail hnx

variable (outside) in
theorem value_bpBe {k v : Nat} (hk : k ≤ 8) (hv : v < 256 ^ k)
    (h : StandsAt data.bytes p (beBytes k v)) : (bpBe (data.memory outside) p k).value = v := by
  have hlp := value_bpBeLoop outside 0 h (by
    rw [length_beBytes, zero_add, one_mul]
    exact Nat.pow_le_pow_right (by decide) hk)
  rw [length_beBytes] at hlp
  exact hlp.trans (ofBe_beBytes hv)

theorem value_bytesEqual : ∀ {p : Nat} {cs : List UInt8}, StandsAt data.bytes p bs → bs.length = cs.length →
    ((bytesEqual (data.memory outside) p cs).value ↔ bs = cs) := by
  induction bs with
  | nil =>
    intro p cs _ hlen
    cases cs with
    | nil => exact iff_of_true rfl rfl
    | cons c cs => cases hlen
  | cons b bs ih =>
    intro p cs h hlen
    cases cs with
    | nil => cases hlen
    | cons c cs =>
      have hrs := ih h.tail (succ.inj hlen)
      rw [bytesEqual, value_bind, value_bind, value_pure, value_readByte h,
        Bool.and_eq_true, beq_iff_eq, UInt8.toNat_inj, hrs, List.cons.injEq]

end Reading

/-! ## Reading a list of objects -/

/-- The offset of object `i`. -/
def objectPos (objs : List (List UInt8)) (i : Nat) : Nat := 8 + (objs.take i).flatten.length

/-- The reader of a property list of the objects `objs`. -/
def flatReader (data : Buffer) (outside : Memory) (objs : List (List UInt8)) : Bpr where
  mem := data.memory outside
  len := data.len
  table := 8 + objs.flatten.length
  offsetSize := 2
  refSize := 1
  numObjects := objs.length
  top := 0

/-- The buffer holds a property list of the objects `objs` and nothing else. -/
structure Flat (data : Buffer) (objs : List (List UInt8)) : Prop where
  bytes : data.bytes = encodeObjects objs
  small : data.len ≤ 0xffff
  nonempty : objs ≠ []

section Flat

variable {data : Buffer} {outside : Memory} {objs : List (List UInt8)}

section

variable (h : Flat data objs)
include h

theorem Flat.len_eq : data.len = 8 + objs.flatten.length + 2 * objs.length + 32 := by
  rw [Buffer.len, h.bytes, length_encodeObjects]

theorem Flat.header : StandsAt data.bytes 0 bpHeader :=
  ⟨[], _, by rw [h.bytes, encodeObjects, nil_append, append_assoc, append_assoc], rfl⟩

theorem Flat.objects : StandsAt data.bytes 8 objs.flatten :=
  ⟨bpHeader, _, by rw [h.bytes, encodeObjects, append_assoc _ _ (bpTrailer _ _)], rfl⟩

theorem Flat.offsets : StandsAt data.bytes (8 + objs.flatten.length) ((starts 8 objs).map (beBytes 2)).flatten :=
  ⟨bpHeader ++ objs.flatten, _, by rw [h.bytes, encodeObjects, flatMap_def],
    by rw [length_append]; rfl⟩

theorem Flat.trailer : StandsAt data.bytes (8 + objs.flatten.length + 2 * objs.length)
      (bpTrailer objs.length (8 + objs.flatten.length)) :=
  ⟨_, [], by rw [h.bytes, encodeObjects, append_nil], by
    simp only [length_append, length_flatMap_beBytes, length_starts]
    rfl⟩

/-- `t2sc_bpr_open` accepts the property list. -/
theorem Flat.open_eq : (bprOpen data outside).value = .ok (flatReader data outside objs) := by
  have hlen := h.len_eq
  have hsm := h.small
  have hsome : 0 < objs.length := length_pos_iff.2 h.nonempty
  have ht : data.len - BP_TRAILER_LEN = 8 + objs.flatten.length + 2 * objs.length := by
    rw [hlen]
    rfl
  have htrail := h.trailer
  rw [← ht] at htrail
  unfold bpTrailer at htrail
  have htab := htrail.right
  have htop := htrail.left.right
  have hobjec := htrail.left.left.right
  have hsiz := htrail.left.left.left.right
  have hhdr : (bytesEqual (data.memory outside) 0 _).value := (value_bytesEqual h.header rfl).2 rfl
  obtain ⟨t, htdef⟩ : ∃ t, t = data.len - BP_TRAILER_LEN := ⟨_, rfl⟩
  rw [← htdef] at htab htop hobjec hsiz ht
  have hoffs : (readByte (data.memory outside) (t + 6)).value = 2 := value_readByte hsiz
  have hrefS : (readByte (data.memory outside) (t + 7)).value = 1 := value_readByte hsiz.tail
  have hnum : (bpBe (data.memory outside) (t + 8) 8).value = objs.length :=
    value_bpBe outside (by decide) (by omega) hobjec
  have htopV : (bpBe (data.memory outside) (t + 16) 8).value = 0 := value_bpBe outside (by decide) (by decide) htop
  have htabl : (bpBe (data.memory outside) (t + 24) 8).value = 8 + objs.flatten.length :=
    value_bpBe outside (by decide) (by omega) htab
  have hlg : ¬data.len < 8 + BP_TRAILER_LEN := by
    have htraile : BP_TRAILER_LEN = 32 := rfl
    omega
  have hacc : ¬(0 ≥ objs.length ∨ 8 + objs.flatten.length < 8 ∨ 8 + objs.flatten.length ≥ t ∨
      objs.length > (t - (8 + objs.flatten.length)) / 2) := by
    omega
  simp only [bprOpen, if_neg hlg, value_bind, hhdr, ← htdef]
  rw [if_neg (by decide)]
  simp only [value_bind, hoffs, hrefS, hnum, htopV, htabl]
  rw [if_neg (by decide), if_neg hacc]
  rfl

end

variable (outside) in
theorem Flat.entry (h : Flat data objs) {i : Nat} {obj : List UInt8} (hi : objs[i]? = some obj) :
    (bpBe (data.memory outside) (8 + objs.flatten.length + i * 2) 2).value = objectPos objs i := by
  have hlt : i < objs.length := (List.getElem?_eq_some_iff.1 hi).1
  have hobj := h.objects.flatten hi
  have hle := hobj.le
  have hsm := h.small
  have hlen : data.bytes.length = data.len := rfl
  have hpos : (8 + (objs.take i).flatten.length) % 2 ^ 16 = objectPos objs i := mod_eq_of_lt (by omega)
  have hstr : (starts 8 objs)[i]? = some (objectPos objs i) := by rw [getElem?_starts objs 8 i hlt, hpos]
  have hent := h.offsets.flatten (i := i) (by rw [getElem?_map, hstr]; rfl)
  have hoffset : (((starts 8 objs).map (beBytes 2)).take i).flatten.length = i * 2 := by
    rw [← map_take, ← flatMap_def, length_flatMap_beBytes, length_take, length_starts]
    omega
  rw [hoffset] at hent
  exact value_bpBe outside (by decide) (by unfold objectPos; omega) hent

theorem objectPos_le {i : Nat} {obj : List UInt8} (hi : objs[i]? = some obj) :
    objectPos objs i + obj.length ≤ 8 + objs.flatten.length := by
  have hall : StandsAt objs.flatten 0 objs.flatten := ⟨[], [], by simp, rfl⟩
  have hle := (hall.flatten hi).le
  unfold objectPos
  omega

theorem Flat.object_head (h : Flat data objs) {i : Nat} {m : UInt8} {rest : List UInt8}
    (hi : objs[i]? = some (m :: rest)) :
    ((flatReader data outside objs).object i).value =
      (if m.toNat &&& 0xf0 ≠ 0x00 ∧ m.toNat &&& 0xf0 ≠ 0x10 ∧ m.toNat &&& 0x0f = 0x0f then
        (flatReader data outside objs).longCount m.toNat (objectPos objs i + 1)
      else pure (.ok ⟨m.toNat, m.toNat &&& 0x0f, objectPos objs i + 1⟩)).value := by
  have hlt : i < objs.length := (List.getElem?_eq_some_iff.1 hi).1
  have hpos := objectPos_le hi
  rw [length_cons] at hpos
  have hent := h.entry outside hi
  have hmar : (readByte (data.memory outside) (objectPos objs i)).value = m.toNat :=
    value_readByte (h.objects.flatten hi)
  unfold Bpr.object
  rw [if_neg (by simp only [flatReader]; omega), value_bind]
  simp only [flatReader, Int.toNat_natCast, hent]
  rw [if_neg (by unfold objectPos at hpos ⊢; omega), value_bind, hmar]

variable (outside) in
theorem Flat.object_short (h : Flat data objs) {i : Nat} {m : UInt8} {rest : List UInt8}
    (hi : objs[i]? = some (m :: rest))
    (hsh : ¬(m.toNat &&& 0xf0 ≠ 0x00 ∧ m.toNat &&& 0xf0 ≠ 0x10 ∧ m.toNat &&& 0x0f = 0x0f)) :
    ((flatReader data outside objs).object i).value = .ok ⟨m.toNat, m.toNat &&& 0x0f, objectPos objs i + 1⟩ := by
  rw [h.object_head hi, if_neg hsh]
  rfl

variable (outside) in
theorem Flat.object_long (h : Flat data objs) {i : Nat} {m count : UInt8} {rest : List UInt8}
    (hi : objs[i]? = some (m :: 0x10 :: count :: rest))
    (hlong : m.toNat &&& 0xf0 ≠ 0x00 ∧ m.toNat &&& 0xf0 ≠ 0x10 ∧ m.toNat &&& 0x0f = 0x0f) :
    ((flatReader data outside objs).object i).value = .ok ⟨m.toNat, count.toNat, objectPos objs i + 3⟩ := by
  have hpos := objectPos_le hi
  simp only [length_cons] at hpos
  have hbs := h.objects.flatten hi
  have hki : (readByte (data.memory outside) (objectPos objs i + 1)).value = 0x10 := value_readByte hbs.tail
  have hcnt : (bpBe (data.memory outside) (objectPos objs i + 1 + 1) 1).value = count.toNat := by
    have hrd : (readByte (data.memory outside) (objectPos objs i + 1 + 1)).value = count.toNat :=
      value_readByte hbs.tail.tail
    have hbt : count.toNat < 2 ^ 8 := count.toNat_lt
    rw [bpBe, bpBeLoop, value_bind, hrd, bpBeLoop, value_pure, zero_shiftLeft,
      zero_or, mod_eq_of_lt (by omega)]
  rw [h.object_head hi, if_pos hlong]
  unfold Bpr.longCount
  rw [if_neg (by simp only [flatReader]; omega), value_bind]
  simp only [flatReader, hki]
  rw [if_neg (by decide), value_bind]
  simp only [hki]
  rw [if_neg, value_bind]
  · simp only [show 1 <<< (16 &&& 15) = 1 from rfl, hcnt]
    rfl
  · grind

variable (outside) in
theorem Flat.ref_eq (h : Flat data objs) {p : Nat} {b : UInt8} (hb : StandsAt data.bytes p [b])
    (hp : p + 1 ≤ 8 + objs.flatten.length) :
    ((flatReader data outside objs).ref p).value = b.toNat := by
  have hsm := h.small
  have hlen := h.len_eq
  have hbt : b.toNat < 2 ^ 8 := b.toNat_lt
  have hrd : (readByte (data.memory outside) p).value = b.toNat := value_readByte hb
  unfold Bpr.ref
  rw [if_neg (by simp only [flatReader]; rw [mod_eq_of_lt (by omega)]; omega)]
  simp only [flatReader, bpBe, bpBeLoop, value_bind, value_pure, hrd, zero_shiftLeft, zero_or]
  rw [mod_eq_of_lt (by omega), toS64, if_pos (by omega)]

theorem Flat.keyEquals_iff (h : Flat data objs) {k m pos : Nat} {str key : CString}
    (hobj : ((flatReader data outside objs).object k).value = .ok ⟨m, str.strlen, pos⟩) (hm : m &&& 0xf0 = 0x50)
    (hbs : StandsAt data.bytes pos str.bytes) (hpos : pos + str.strlen ≤ 8 + objs.flatten.length) :
    ((flatReader data outside objs).keyEquals k key).value ↔ str.bytes = key.bytes := by
  have hsm := h.small
  have hlen := h.len_eq
  unfold Bpr.keyEquals
  rw [value_bind, hobj]
  simp only [hm, ne_eq, not_true_eq_false, if_false]
  by_cases hsa : str.strlen = key.strlen
  · rw [if_pos]
    · exact value_bytesEqual hbs hsa
    · refine ⟨hsa, ?_⟩
      rw [← hsa, mod_eq_of_lt (by omega)]
      exact hpos
  · rw [if_neg (fun hand => hsa hand.1)]
    refine iff_of_false Bool.false_ne_true ?_
    intro heq
    exact hsa (congrArg List.length heq)

end Flat

/-! ## Reading a dictionary back -/

theorem bpwObjects_dict (w : Bpw) : w.objects[0]? = some (dictObject w.entries.length) := rfl

theorem bpwObjects_key {w : Bpw} {i : Nat} {e : BpwEntry} (hi : w.entries[i]? = some e) :
    w.objects[1 + i]? = some (asciiObject e.key) := by
  have hlt := (List.getElem?_eq_some_iff.1 hi).1
  unfold Bpw.objects
  rw [getElem?_append_left (by simp; omega), getElem?_append_right (le_add_right 1 i), length_singleton,
    Nat.add_sub_cancel_left, getElem?_map, hi]
  rfl

theorem bpwObjects_value {w : Bpw} {i : Nat} {e : BpwEntry} (hi : w.entries[i]? = some e) :
    w.objects[1 + w.entries.length + i]? = some (valueObject e) := by
  unfold Bpw.objects
  have hlen : ([dictObject w.entries.length] ++
      w.entries.map fun e => asciiObject e.key).length = 1 + w.entries.length := by
    rw [length_append, length_map, length_singleton]
  rw [getElem?_append_right (by rw [hlen]; exact Nat.le_add_right _ _), hlen, Nat.add_sub_cancel_left, getElem?_map, hi]
  rfl

theorem dictObject_eq (n : Nat) :
    dictObject n = UInt8.ofNat (0xd0 ||| n) :: (List.range (n + n)).map fun i => UInt8.ofNat (1 + i) := by
  rw [dictObject, ← map_eq_flatMap, ← map_eq_flatMap, range_add, map_append, map_map, append_assoc, singleton_append]
  simp only [Function.comp_def, add_assoc]

theorem length_dictObject (n : Nat) : (dictObject n).length = 1 + n + n := by
  rw [dictObject_eq, length_cons, length_map, length_range]
  omega

theorem dictObject_le (w : Bpw) : 8 + (1 + w.entries.length + w.entries.length) ≤ 8 + w.objects.flatten.length := by
  have hle := objectPos_le (bpwObjects_dict w)
  rw [length_dictObject] at hle
  exact hle

/-- The marker of a dictionary with at most twelve entries holds its count. -/
theorem dictMarker : ∀ n, n ≤ 12 → (UInt8.ofNat (0xd0 ||| n)).toNat &&& 0xf0 = 0xd0 ∧
    (UInt8.ofNat (0xd0 ||| n)).toNat &&& 0x0f = n := by
  decide

/-- The marker of a short string holds its length. -/
theorem asciiMarker : ∀ n, n < 15 → (UInt8.ofNat (0x50 ||| n)).toNat &&& 0xf0 = 0x50 ∧
    (UInt8.ofNat (0x50 ||| n)).toNat &&& 0x0f = n := by
  decide

section Dictionary

variable {w : Bpw} {data : Buffer} {outside : Memory} {key : CString}

theorem object_root (h : Flat data w.objects) : ((flatReader data outside w.objects).object 0).value =
      .ok ⟨(UInt8.ofNat (0xd0 ||| w.entries.length)).toNat, w.entries.length, 9⟩ := by
  obtain ⟨hki, hcnt⟩ := dictMarker w.entries.length w.le
  have hle : w.entries.length ≤ 12 := w.le
  have hsh := h.object_short outside (bpwObjects_dict w) (by rw [hcnt]; omega)
  rw [hcnt] at hsh
  exact hsh

variable (outside key) in
theorem keyEquals_entry (h : Flat data w.objects) {i : Nat} {e : BpwEntry}
    (hi : w.entries[i]? = some e) (hsh : e.key.strlen < 256) :
    ((flatReader data outside w.objects).keyEquals (1 + i : Nat) key).value ↔ e.key.bytes = key.bytes := by
  have hobj := bpwObjects_key hi
  have hpos := objectPos_le hobj
  have hbs := h.objects.flatten hobj
  unfold asciiObject at hobj hpos hbs
  by_cases hlen : e.key.strlen < 15
  · rw [if_pos hlen] at hobj hpos hbs
    obtain ⟨hki, hcnt⟩ := asciiMarker e.key.strlen hlen
    have hobje := h.object_short outside hobj (by rw [hcnt]; omega)
    rw [hcnt] at hobje
    exact h.keyEquals_iff hobje hki hbs.right (by
      simp only [length_append, length_singleton] at hpos
      exact (add_assoc _ _ _).trans_le hpos)
  rw [if_neg hlen] at hobj hpos hbs
  have hcnt : (UInt8.ofNat e.key.strlen).toNat = e.key.strlen := UInt8.toNat_ofNat'.trans (mod_eq_of_lt hsh)
  have hobje := h.object_long outside hobj (by decide)
  rw [hcnt] at hobje
  exact h.keyEquals_iff hobje (by decide) hbs.right (by
    simp only [length_append, length_cons, length_nil] at hpos
    exact (add_assoc _ _ _).trans_le hpos)

variable (outside) in
theorem ref_entry (h : Flat data w.objects) {k : Nat} (hk : k < w.entries.length + w.entries.length) :
    ((flatReader data outside w.objects).ref (9 + k)).value = (1 + k : Nat) := by
  have hle : w.entries.length ≤ 12 := w.le
  have hend := dictObject_le w
  have hdict : StandsAt data.bytes 8 (dictObject w.entries.length) := h.objects.flatten (bpwObjects_dict w)
  have hget : (dictObject w.entries.length)[k + 1]? = some (UInt8.ofNat (1 + k)) := by
    rw [dictObject_eq, getElem?_cons_succ, getElem?_map, getElem?_range hk]
    rfl
  have href := h.ref_eq outside (hdict.nth hget) (by omega)
  have hvalue : (UInt8.ofNat (1 + k)).toNat = 1 + k := UInt8.toNat_ofNat'.trans (mod_eq_of_lt (by omega))
  rw [hvalue] at href
  rw [show 9 + k = 8 + (k + 1) by omega]
  exact href

/-- One round of the loop of `t2sc_bpr_dict_get`. -/
theorem dictLoop_entry (h : Flat data w.objects) {m fuel i : Nat} {e : BpwEntry}
    (hi : w.entries[i]? = some e) (hsh : e.key.strlen < 256) :
    ((flatReader data outside w.objects).dictLoop ⟨m, w.entries.length, 9⟩ key (fuel + 1) i).value =
      if e.key.bytes = key.bytes then some ((1 + w.entries.length + i : Nat) : Int)
      else ((flatReader data outside w.objects).dictLoop ⟨m, w.entries.length, 9⟩ key fuel (i + 1)).value := by
  have hlt : i < w.entries.length := (List.getElem?_eq_some_iff.1 hi).1
  have hle : w.entries.length ≤ 12 := w.le
  have hkey := ref_entry outside h (k := i) (by omega)
  have hval := ref_entry outside h (k := w.entries.length + i) (by omega)
  rw [← add_assoc 1] at hval
  have hequals := keyEquals_entry outside key h hi hsh
  have hrefS : (flatReader data outside w.objects).refSize = 1 := rfl
  rw [Bpr.dictLoop]
  simp only [hrefS, mul_one]
  rw [if_pos hlt, mod_eq_of_lt (by omega), mod_eq_of_lt (by omega), value_bind, hkey,
    if_neg (by omega), value_bind]
  by_cases hsa : e.key.bytes = key.bytes
  · rw [hequals.2 hsa, if_pos rfl, if_pos hsa, value_bind, hval]
    rfl
  · grind

variable (outside key) in
theorem dictLoop_eq (h : Flat data w.objects) (hsh : ∀ e ∈ w.entries, e.key.strlen < 256) (m fuel : Nat) :
    ∀ {i : Nat}, i ≤ w.entries.length → w.entries.length < fuel + i →
    ((flatReader data outside w.objects).dictLoop ⟨m, w.entries.length, 9⟩ key fuel i).value =
      some (((w.entries.drop i).findIdx? fun e => e.key.bytes = key.bytes).elim (-ENOENT)
        fun j => ((1 + w.entries.length + (i + j) : Nat) : Int)) := by
  induction fuel with
  | zero =>
    omega
  | succ fuel ih =>
    intro i hi hfu
    rcases lt_or_ge i w.entries.length with hlt | hge
    · rw [dictLoop_entry h (getElem?_eq_getElem hlt) (hsh _ (getElem_mem hlt)),
        drop_eq_getElem_cons hlt, findIdx?_cons, ih hlt (by omega)]
      by_cases hsa : w.entries[i].key.bytes = key.bytes
      · simp [hsa]
      simp only [hsa, if_false, decide_false, Bool.false_eq_true]
      cases (w.entries.drop (i + 1)).findIdx? fun e => e.key.bytes = key.bytes with
      | none => rfl
      | some j =>
        simp only [Option.map_some, Option.elim_some, Option.some.injEq]
        omega
    · rw [Bpr.dictLoop, if_neg (not_lt.2 hge), drop_of_length_le hge]
      rfl

theorem dictGet_root (h : Flat data w.objects) (hsh : ∀ e ∈ w.entries, e.key.strlen < 256) :
    ((flatReader data outside w.objects).dictGet 0 key).value =
      some ((w.entries.findIdx? fun e => e.key.bytes = key.bytes).elim (-ENOENT)
        fun j => ((1 + w.entries.length + j : Nat) : Int)) := by
  have hend := dictObject_le w
  have hlp := dictLoop_eq outside key h hsh (UInt8.ofNat (0xd0 ||| w.entries.length)).toNat
    (8 + w.objects.flatten.length + 1) (zero_le _) (by omega)
  simp only [drop_zero, zero_add] at hlp
  unfold Bpr.dictGet
  rw [value_bind, object_root h]
  simp only [(dictMarker w.entries.length w.le).1, ne_eq, not_true_eq_false, if_false]
  exact hlp

/-- The object `obj` reads back as the value of the entry. -/
def ReadsBack (r : Bpr) (obj : Int) (e : BpwEntry) : Prop :=
  match e.type with
  | .bool => (r.bool obj).value = .ok (decide (e.value ≠ 0))
  | .int => (r.int obj).value = .ok e.value
  | .emptyDict => ∃ o, (r.object obj).value = .ok o ∧ o.marker &&& 0xf0 = 0xd0 ∧ o.count = 0

theorem toS64_emod {v : Int} (h : -2 ^ 63 ≤ v ∧ v < 2 ^ 63) : toS64 (v % 2 ^ 64).toNat = v := by
  unfold toS64
  omega

theorem readsBack_value (h : Flat data w.objects) {i : Nat} {e : BpwEntry} (hi : w.entries[i]? = some e) :
    ReadsBack (flatReader data outside w.objects) (1 + w.entries.length + i : Nat) e := by
  have hobj := bpwObjects_value hi
  have hpos := objectPos_le hobj
  have hbs := h.objects.flatten hobj
  unfold ReadsBack
  unfold valueObject at hobj hpos hbs
  cases hty : e.type with
  | bool =>
    simp only [hty] at hobj ⊢
    by_cases hvalue : e.value ≠ 0
    · rw [if_pos hvalue] at hobj
      have hobje := h.object_short outside hobj (by decide)
      simp only [Bpr.bool, value_bind, hobje, decide_eq_true hvalue]
      rfl
    · rw [if_neg hvalue] at hobj
      have hobje := h.object_short outside hobj (by decide)
      simp only [Bpr.bool, value_bind, hobje, decide_eq_false hvalue]
      rfl
  | int =>
    simp only [hty] at hobj hpos hbs ⊢
    have hobje := h.object_short outside hobj (by decide)
    rw [length_cons, length_beBytes] at hpos
    have hsm := h.small
    have hlen := h.len_eq
    have hrd := value_bpBe outside (by decide) (by omega) hbs.tail
    have hft : ¬(8 > 8 ∨ (objectPos w.objects (1 + w.entries.length + i) + 1 + 8) % 2 ^ 64 >
        8 + w.objects.flatten.length) := by
      rw [mod_eq_of_lt (by omega)]
      omega
    simp only [Bpr.int, value_bind, hobje]
    rw [if_neg (by decide)]
    simp only [show 1 <<< ((0x13 : UInt8).toNat &&& 15) = 8 from rfl, flatReader]
    rw [if_neg hft, value_bind]
    rw [show objectPos w.objects (1 + w.entries.length + i) + 1 =
      8 + (w.objects.take (1 + w.entries.length + i)).flatten.length + 1 from rfl, hrd,
      toS64_emod e.range]
    rfl
  | emptyDict =>
    simp only [hty] at hobj ⊢
    have hobje := h.object_short outside hobj (by decide)
    have hmar : (0xd0 : UInt8).toNat &&& 0xf0 = 0xd0 ∧ (0xd0 : UInt8).toNat &&& 0x0f = 0 := by decide
    exact ⟨_, hobje, hmar⟩

end Dictionary

/-- The reader accepts what `t2sc_bpw_dict` writes, the root is a dictionary, every entry is found under its key and
no other key is. In any case the memory from `size` on is as before. -/
theorem property_list_round_trip {w : Bpw} {out : Memory} {size : Nat}
    (hdistinct : (w.entries.map fun e => e.key.bytes).Nodup) (hshort : ∀ e ∈ w.entries, e.key.strlen < 256) :
    (∀ p, size ≤ p → (bpwDict w out size).2 p = out p) ∧
      (0 < (bpwDict w out size).1 → ∃ data : Buffer, data.len = (bpwDict w out size).1 ∧
        (∀ p, p < data.len → data.bytes[p]? = some ((bpwDict w out size).2 p)) ∧
        ∀ outside, ∃ r, (bprOpen data outside).value = .ok r ∧
          (∃ o, (r.object r.root).value = .ok o ∧ o.marker &&& 0xf0 = 0xd0) ∧
          (∀ e ∈ w.entries, ∃ obj, 0 ≤ obj ∧ (r.dictGet r.root e.key).value = some obj ∧ ReadsBack r obj e) ∧
          ∀ key : CString, (∀ e ∈ w.entries, e.key.bytes ≠ key.bytes) →
            (r.dictGet r.root key).value = some (-ENOENT)) := by
  obtain ⟨hbeh, hins, hret⟩ := bpwDict_spec w out size
  refine ⟨hbeh, ?_⟩
  intro hposi
  have hft : ¬((encodeObjects w.objects).length > size ∨ (encodeObjects w.objects).length > 0xffff) := by
    intro hlg
    rw [hret, if_pos hlg] at hposi
    exact absurd hposi (by decide)
  rw [if_neg hft] at hret
  push Not at hft
  let data : Buffer := ⟨encodeObjects w.objects, lt_of_le_of_lt hft.2 (by decide)⟩
  have hflat : Flat data w.objects := ⟨rfl, hft.2, cons_ne_nil _ _⟩
  refine ⟨data, hret.symm, hins hft.1, ?_⟩
  intro outside
  refine ⟨flatReader data outside w.objects, hflat.open_eq,
    ⟨_, object_root hflat, (dictMarker w.entries.length w.le).1⟩, ?_, ?_⟩
  · intro e he
    obtain ⟨j, hj, hget⟩ := mem_iff_getElem.1 he
    have hfd : (w.entries.findIdx? fun e' => e'.key.bytes = e.key.bytes) = some j := by
      refine findIdx?_eq_some_iff_getElem.2 ⟨hj, by simp [hget], fun k hk => ?_⟩
      have hne := pairwise_iff_getElem.1 hdistinct k j (by simp; omega) (by simpa) hk
      simpa [hget] using hne
    refine ⟨_, ?_, (dictGet_root hflat hshort).trans (by rw [hfd, Option.elim_some]), ?_⟩
    · exact Int.natCast_nonneg _
    · exact readsBack_value hflat (hget ▸ getElem?_eq_getElem hj)
  · intro key hoth
    have hfd : (w.entries.findIdx? fun e => e.key.bytes = key.bytes) = none :=
      findIdx?_eq_none_iff.2 fun e he => decide_eq_false (hoth e he)
    exact (dictGet_root hflat hshort).trans (by rw [hfd, Option.elim_none])

/-- A dictionary with a value of each kind, one under a key of fifteen letters. -/
def threeEntries : Bpw :=
  ((bpwInit.add ⟨keyA, .bool, 1, by decide⟩).add
    ⟨⟨List.replicate 15 98, by decide, by decide⟩, .int, -2, by decide⟩).add
    ⟨⟨[], by decide, by decide⟩, .emptyDict, 0, by decide⟩

/-- The dictionary is written to a buffer of 200 bytes and read back. -/
theorem property_list_round_trip_three :
    (bpwDict threeEntries (fun _ => 0) 200).1 = 93 ∧ ∃ data : Buffer, data.len = 93 ∧
      ∀ outside, ∃ r, (bprOpen data outside).value = .ok r ∧
        ∀ e ∈ threeEntries.entries, ∃ obj, (r.dictGet r.root e.key).value = some obj ∧ ReadsBack r obj e := by
  have hret : (bpwDict threeEntries (fun _ => 0) 200).1 = 93 := by decide +kernel
  obtain ⟨-, hrd⟩ := property_list_round_trip (w := threeEntries) (by decide) (by decide)
  obtain ⟨data, hlen, -, hop⟩ := hrd (by rw [hret]; decide)
  refine ⟨hret, data, Int.ofNat.inj hlen, ?_⟩
  intro outside
  obtain ⟨r, hr, -, hents, -⟩ := hop outside
  refine ⟨r, hr, ?_⟩
  intro e he
  obtain ⟨obj, -, hget, hbk⟩ := hents e he
  exact ⟨obj, hget, hbk⟩

end KaiT2en.Sidecar
