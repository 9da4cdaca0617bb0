import KaiT2en.Kernel.Primitives
import KaiT2en.Lib.Trace

/-!
# Reading property lists

The reader of `t2bce_sidecar/bplist.c` walks binary property lists of the T2 in place: it keeps a pointer to the
buffer and computes positions as 64-bit numbers. The model records the offset of every byte that is read, relative to
the start of the buffer and modulo `2 ^ 64`; what stands outside of the buffer is arbitrary.

Counts may be any 64-bit number. `t2sc_bpr_data` adds one to a position and `t2sc_bpr_dict_get` multiplies one and
adds it, and both compare the wrapped sum with the limit. `reader_inside_iff` says exactly when this goes wrong.
-/

namespace KaiT2en.Sidecar

open KaiT2en.Kernel KaiT2en.Lib.Trace Traced Nat List

/-! ## Buffers and strings -/

/-- A byte string in memory; no object is larger than `PTRDIFF_MAX`. -/
structure Buffer where
  bytes : List UInt8
  lt : bytes.length < 2 ^ 63

def Buffer.len (b : Buffer) : Nat := b.bytes.length

/-- A C string without its NUL. -/
structure CString where
  bytes : List UInt8
  nulFree : (0 : UInt8) ∉ bytes
  lt : bytes.length < 2 ^ 63

def CString.strlen (s : CString) : Nat := s.bytes.length

def bpHeader : List UInt8 := [98, 112, 108, 105, 115, 116, 48, 48]

def BP_TRAILER_LEN : Nat := 32

/-- A `u64` as an `s64`. -/
def toS64 (v : Nat) : Int := if v < 2 ^ 63 then v else (v : Int) - 2 ^ 64

/-! ## Reading memory -/

/-- The memory as the reader sees it, by the offset from the start of its buffer. -/
abbrev Memory := Nat → UInt8

/-- A buffer with something around it. -/
def Buffer.memory (b : Buffer) (outside : Memory) : Memory :=
  fun p => if h : p < b.bytes.length then b.bytes.get ⟨p, h⟩ else outside p

/-- Read the byte at the offset `p`. -/
def readByte (mem : Memory) (p : Nat) : Traced Nat Nat := ⟨(mem (p % 2 ^ 64)).toNat, [p % 2 ^ 64]⟩

/-- The loop of `bp_be`: `n` more bytes from `p` on, after the value `v`. -/
def bpBeLoop (mem : Memory) : Nat → Nat → Nat → Traced Nat Nat
  | _, 0, v => pure v
  | p, n + 1, v => do
    let b ← readByte mem p
    bpBeLoop mem (p + 1) n ((v <<< 8 ||| b) % 2 ^ 64)

def bpBe (mem : Memory) (p size : Nat) : Traced Nat Nat := bpBeLoop mem p size 0

/-- `memcmp` with a string, which reads all bytes from `p` on. -/
def bytesEqual (mem : Memory) : Nat → List UInt8 → Traced Nat Bool
  | _, [] => pure true
  | p, c :: rest => do
    let b ← readByte mem p
    let equal ← bytesEqual mem (p + 1) rest
    pure (b == c.toNat && equal)

/-! ## The reader -/

/-- `struct t2sc_bpr`, with the memory `data` points to. `table` is the offset of `offsets`. -/
structure Bpr where
  mem : Memory
  len : Nat
  table : Nat
  offsetSize : Nat
  refSize : Nat
  numObjects : Nat
  top : Nat

def bprOpen (data : Buffer) (outside : Memory) : Traced Nat (Except Int Bpr) :=
  let mem := data.memory outside
  if data.len < 8 + BP_TRAILER_LEN then pure (.error (-EINVAL))
  else do
    let header ← bytesEqual mem 0 bpHeader
    if header = false then pure (.error (-EINVAL))
    else do
      let t := data.len - BP_TRAILER_LEN
      let offsetSize ← readByte mem (t + 6)
      let refSize ← readByte mem (t + 7)
      let numObjects ← bpBe mem (t + 8) 8
      let top ← bpBe mem (t + 16) 8
      let table ← bpBe mem (t + 24) 8
      if offsetSize = 0 ∨ offsetSize > 8 ∨ refSize = 0 ∨ refSize > 8 then pure (.error (-EINVAL))
      else if top ≥ numObjects ∨ table < 8 ∨ table ≥ data.len - BP_TRAILER_LEN ∨
          numObjects > (data.len - BP_TRAILER_LEN - table) / offsetSize then
        pure (.error (-EINVAL))
      else pure (.ok
        { mem := mem
          len := data.len
          table := table
          offsetSize := offsetSize
          refSize := refSize
          numObjects := numObjects
          top := top })

/-- What `bp_object` finds out about an object: its marker, its count and the position behind them. -/
structure BpObject where
  marker : Nat
  count : Nat
  pos : Nat
  deriving DecidableEq

namespace Bpr

variable (r : Bpr)

/-- `t2sc_bpr_root`. -/
def root : Int := toS64 r.top

/-- The part of `bp_object` for a count that follows the marker. -/
def longCount (m off : Nat) : Traced Nat (Except Int BpObject) :=
  if off ≥ r.table then pure (.error (-EINVAL))
  else do
    let kind ← readByte r.mem off
    if kind &&& 0xf0 ≠ 0x10 then pure (.error (-EINVAL))
    else do
      let d ← readByte r.mem off
      let size := 1 <<< (d &&& 0x0f)
      if size > 8 ∨ (off + 1 + size) % 2 ^ 64 > r.table then pure (.error (-EINVAL))
      else do
        let count ← bpBe r.mem (off + 1) size
        pure (.ok ⟨m, count, off + 1 + size⟩)

variable (obj : Int)

def object : Traced Nat (Except Int BpObject) :=
  if obj < 0 ∨ obj ≥ r.numObjects then pure (.error (-EINVAL))
  else do
    let off ← bpBe r.mem (r.table + obj.toNat * r.offsetSize) r.offsetSize
    if off < 8 ∨ off ≥ r.table then pure (.error (-EINVAL))
    else do
      let m ← readByte r.mem off
      if m &&& 0xf0 ≠ 0x00 ∧ m &&& 0xf0 ≠ 0x10 ∧ m &&& 0x0f = 0x0f then r.longCount m (off + 1)
      else pure (.ok ⟨m, m &&& 0x0f, off + 1⟩)

/-- `bp_ref`. -/
def ref (pos : Nat) : Traced Nat Int :=
  if (pos + r.refSize) % 2 ^ 64 > r.table then pure (-EINVAL)
  else do
    let v ← bpBe r.mem pos r.refSize
    pure (toS64 v)

def keyEquals (key : CString) : Traced Nat Bool := do
  match ← r.object obj with
  | .error _ => pure false
  | .ok o =>
    if o.marker &&& 0xf0 ≠ 0x50 then pure false
    else if o.count = key.strlen ∧ (o.pos + key.strlen) % 2 ^ 64 ≤ r.table then bytesEqual r.mem o.pos key.bytes
    else pure false

/-- The loop of `t2sc_bpr_dict_get` from `i` on, for at most `fuel` rounds. -/
def dictLoop (o : BpObject) (key : CString) : Nat → Nat → Traced Nat (Option Int)
  | 0, _ => pure none
  | fuel + 1, i =>
    if i < o.count then do
      let k ← r.ref ((o.pos + i * r.refSize) % 2 ^ 64)
      if k < 0 then pure (some k)
      else do
        let equal ← r.keyEquals k key
        if equal then do
          let v ← r.ref ((o.pos + (o.count + i) * r.refSize) % 2 ^ 64)
          pure (some v)
        else dictLoop o key fuel (i + 1)
    else pure (some (-ENOENT))

/-- `t2sc_bpr_dict_get`; no result means that the loop has not come to its end. -/
def dictGet (dict : Int) (key : CString) : Traced Nat (Option Int) := do
  match ← r.object dict with
  | .error e => pure (some e)
  | .ok o =>
    if o.marker &&& 0xf0 ≠ 0xd0 then pure (some (-EINVAL))
    else r.dictLoop o key (r.table + 1) 0

/-- `t2sc_bpr_array_get`; the index and its product with the size are 32-bit numbers. -/
def arrayGet (array : Int) (index : Nat) : Traced Nat Int := do
  match ← r.object array with
  | .error e => pure e
  | .ok o =>
    if o.marker &&& 0xf0 ≠ 0xa0 then pure (-EINVAL)
    else if index ≥ o.count then pure (-ENOENT)
    else r.ref ((o.pos + index * r.refSize % 2 ^ 32) % 2 ^ 64)

/-- `t2sc_bpr_int`. -/
def int : Traced Nat (Except Int Int) := do
  match ← r.object obj with
  | .error e => pure (.error e)
  | .ok o =>
    if o.marker &&& 0xf0 ≠ 0x10 then pure (.error (-EINVAL))
    else
      let size := 1 <<< (o.marker &&& 0x0f)
      if size > 8 ∨ (o.pos + size) % 2 ^ 64 > r.table then pure (.error (-EINVAL))
      else do
        let v ← bpBe r.mem o.pos size
        pure (.ok (toS64 v))

/-- `t2sc_bpr_bool`. -/
def bool : Traced Nat (Except Int Bool) := do
  match ← r.object obj with
  | .error e => pure (.error e)
  | .ok o =>
    if o.marker ≠ 0x08 ∧ o.marker ≠ 0x09 then pure (.error (-EINVAL))
    else pure (.ok (o.marker == 0x09))

/-- `t2sc_bpr_data`: the offset of the data and its length. -/
def data : Traced Nat (Except Int (Nat × Nat)) := do
  match ← r.object obj with
  | .error e => pure (.error e)
  | .ok o =>
    if o.marker &&& 0xf0 ≠ 0x40 ∨ (o.pos + o.count) % 2 ^ 64 > r.table then pure (.error (-EINVAL))
    else pure (.ok (o.pos, o.count))

end Bpr

/-! ## Reads inside of the buffer -/

variable {mem : Memory}

theorem all_readByte {p n : Nat} : (readByte mem p).All (· < n) ↔ p % 2 ^ 64 < n := by
  constructor
  · intro h
    exact h _ mem_cons_self
  · intro h e he
    rw [mem_singleton.1 he]
    exact h

theorem all_bpBeLoop {n : Nat} (hn : n < 2 ^ 64) {k : Nat} :
    ∀ {p v : Nat}, p + k ≤ n → (bpBeLoop mem p k v).All (· < n) := by
  induction k with
  | zero =>
    intro p v _
    exact all_pure _
  | succ k ih =>
    intro p v hp
    refine all_bind.2 ⟨?_, ?_⟩
    · apply all_readByte.2
      omega
    · exact ih (by omega)

theorem all_bpBe {n p size : Nat} (hn : n < 2 ^ 64) (hp : p + size ≤ n) :
    (bpBe mem p size).All (· < n) := all_bpBeLoop hn hp

theorem bpBeLoop_lt {k : Nat} : ∀ {p v : Nat}, v < 2 ^ 64 → (bpBeLoop mem p k v).value < 2 ^ 64 := by
  induction k with
  | zero =>
    intro p v hv
    exact hv
  | succ k ih =>
    intro p v _
    exact ih (mod_lt _ (by decide))

theorem all_bytesEqual {n : Nat} (hn : n < 2 ^ 64) {l : List UInt8} :
    ∀ {p : Nat}, p + l.length ≤ n → (bytesEqual mem p l).All (· < n) := by
  induction l with
  | nil =>
    intro p _
    exact all_pure _
  | cons c l ih =>
    intro p hp
    rw [length_cons] at hp
    refine all_bind.2 ⟨?_, ?_⟩
    · apply all_readByte.2
      omega
    · exact all_bind.2 ⟨ih (by omega), all_pure _⟩

/-- What `t2sc_bpr_open` has checked. -/
structure Bpr.Valid (r : Bpr) : Prop where
  len : r.len < 2 ^ 63
  header : 8 ≤ r.table
  table : r.table + BP_TRAILER_LEN < r.len
  refSize : 0 < r.refSize ∧ r.refSize ≤ 8
  offsets : r.table + r.numObjects * r.offsetSize + BP_TRAILER_LEN ≤ r.len

theorem valid_of_open {data : Buffer} {outside : Memory} {r : Bpr}
    (h : (bprOpen data outside).value = .ok r) : r.Valid := by
  unfold bprOpen at h
  by_cases hsh : data.len < 8 + BP_TRAILER_LEN
  · simp only [hsh, if_true] at h
    cases h
  simp only [hsh, if_false, value_bind] at h
  split at h
  · cases h
  simp only [value_bind] at h
  split at h
  · cases h
  rename_i hsiz
  split at h
  · cases h
  rename_i hplace
  cases h
  push Not at hsiz hplace
  obtain ⟨hoffs, -, href, href8⟩ := hsiz
  obtain ⟨-, htab, hend, hobjec⟩ := hplace
  have hfit := (le_div_iff_mul_le (pos_of_ne_zero hoffs)).1 hobjec
  refine ⟨data.lt, htab, ?_, ⟨pos_of_ne_zero href, href8⟩, ?_⟩
  · dsimp only
    omega
  · dsimp only
    omega

/-- `t2sc_bpr_open` itself stays in the buffer. -/
theorem all_bprOpen (data : Buffer) (outside : Memory) : (bprOpen data outside).All (· < data.len) := by
  have hlt : data.len < 2 ^ 64 := lt_trans data.lt (by decide)
  unfold bprOpen
  by_cases hsh : data.len < 8 + BP_TRAILER_LEN
  · simp only [hsh, if_true]
    exact all_pure _
  have hlg : 40 ≤ data.len := Nat.le_of_not_lt hsh
  have htrail : BP_TRAILER_LEN = 32 := rfl
  have hbt : ∀ mem p, p < data.len → (readByte mem p).All (· < data.len) := by
    intro mem p hp
    apply all_readByte.2
    rw [mod_eq_of_lt (by omega)]
    exact hp
  simp only [hsh, if_false]
  refine all_bind.2 ⟨all_bytesEqual hlt (le_trans (by decide) hlg), ?_⟩
  split
  · exact all_pure _
  refine all_bind.2 ⟨hbt _ _ (by omega), ?_⟩
  refine all_bind.2 ⟨hbt _ _ (by omega), ?_⟩
  refine all_bind.2 ⟨all_bpBe hlt (by omega), ?_⟩
  refine all_bind.2 ⟨all_bpBe hlt (by omega), ?_⟩
  refine all_bind.2 ⟨all_bpBe hlt (by omega), ?_⟩
  split
  · exact all_pure _
  split
  · exact all_pure _
  · exact all_pure _

namespace Bpr

variable {r : Bpr}

/-- An object as `bp_object` returns it. -/
structure Placed (r : Bpr) (o : BpObject) : Prop where
  pos : o.pos ≤ r.table
  count : o.count < 2 ^ 64

theorem Valid.lt (h : r.Valid) : r.len < 2 ^ 64 := lt_trans h.len (by decide)

theorem longCount_spec (h : r.Valid) (m off : Nat) : (r.longCount m off).All (· < r.len) ∧
      ∀ o, (r.longCount m off).value = .ok o → r.Placed o := by
  have htab := h.table
  have htrail : BP_TRAILER_LEN = 32 := rfl
  have hlt := h.lt
  unfold longCount
  by_cases hoff : off ≥ r.table
  · rw [if_pos hoff]
    exact ⟨all_pure _, fun o ho => nomatch ho⟩
  rw [if_neg hoff]
  have hbt : (readByte r.mem off).All (· < r.len) := by
    apply all_readByte.2
    omega
  simp only [all_bind, value_bind]
  refine ⟨⟨hbt, ?_⟩, ?_⟩
  · split
    · exact all_pure _
    refine all_bind.2 ⟨hbt, ?_⟩
    split
    · exact all_pure _
    rename_i hsz
    push Not at hsz
    exact all_bind.2 ⟨all_bpBe hlt (by omega), all_pure _⟩
  · intro o ho
    split at ho
    · cases ho
    simp only [value_bind] at ho
    split at ho
    · cases ho
    rename_i hsz
    push Not at hsz
    rw [mod_eq_of_lt (by omega)] at hsz
    cases ho
    exact ⟨hsz.2, bpBeLoop_lt (by decide)⟩

theorem object_spec (h : r.Valid) (obj : Int) :
    (r.object obj).All (· < r.len) ∧ ∀ o, (r.object obj).value = .ok o → r.Placed o := by
  have hlt := h.lt
  unfold object
  by_cases hobj : obj < 0 ∨ obj ≥ r.numObjects
  · rw [if_pos hobj]
    exact ⟨all_pure _, fun o ho => nomatch ho⟩
  rw [if_neg hobj]
  push Not at hobj
  -- the entry of the object in the table
  have hent : r.table + obj.toNat * r.offsetSize + r.offsetSize ≤ r.len := by
    have hidx : obj.toNat + 1 ≤ r.numObjects := by omega
    have hmul := mul_le_mul_right r.offsetSize hidx
    have hoffse := h.offsets
    rw [add_mul, one_mul] at hmul
    omega
  simp only [all_bind, value_bind]
  refine ⟨⟨all_bpBe hlt hent, ?_⟩, ?_⟩
  · split
    · exact all_pure _
    rename_i hoff
    push Not at hoff
    refine all_bind.2 ⟨?_, ?_⟩
    · apply all_readByte.2
      omega
    · split
      · exact (longCount_spec h _ _).1
      · exact all_pure _
  · intro o ho
    split at ho
    · cases ho
    rename_i hoff
    push Not at hoff
    simp only [value_bind] at ho
    split at ho
    · exact (longCount_spec h _ _).2 o ho
    · cases ho
      refine ⟨hoff.2, ?_⟩
      exact lt_of_le_of_lt and_le_right (by decide)

/-- A reference is read inside of the buffer unless its end wraps; then it passes `bp_ref` and starts right before the
buffer. -/
theorem all_ref (h : r.Valid) {p : Nat} (hp : p < 2 ^ 64) : (r.ref p).All (· < r.len) ↔ p + r.refSize < 2 ^ 64 := by
  have hlen := h.len
  have htab := h.table
  have hhdr := h.header
  obtain ⟨hpos, hsz⟩ := h.refSize
  unfold ref
  constructor
  · intro hall
    by_contra hwrap
    rw [if_neg (by omega)] at hall
    have hrd := (all_bind.1 hall).1
    obtain ⟨n, hn⟩ := exists_eq_succ_of_ne_zero (pos_iff_ne_zero.1 hpos)
    rw [hn] at hrd
    have hfst := all_readByte.1 (all_bind.1 hrd).1
    omega
  · intro hfit
    by_cases hcheck : (p + r.refSize) % 2 ^ 64 > r.table
    · rw [if_pos hcheck]
      exact all_pure _
    · rw [if_neg hcheck]
      exact all_bind.2 ⟨all_bpBe h.lt (by omega), all_pure _⟩

theorem ref_fits {p : Nat} (hp : p + r.refSize < 2 ^ 64) (hval : 0 ≤ (r.ref p).value) : p + r.refSize ≤ r.table := by
  by_contra hne
  unfold ref at hval
  rw [mod_eq_of_lt hp, if_pos (by omega)] at hval
  exact absurd hval (by decide)

theorem all_keyEquals (h : r.Valid) (obj : Int) (key : CString) : (r.keyEquals obj key).All (· < r.len) := by
  obtain ⟨hall, hplc⟩ := object_spec h obj
  have htab := h.table
  refine all_bind.2 ⟨hall, ?_⟩
  cases ho : (r.object obj).value with
  | error e => exact all_pure _
  | ok o =>
    have hpos := (hplc o ho).pos
    have hkey := key.lt
    have hlen := h.len
    simp only
    split
    · exact all_pure _
    split
    · have hln : key.strlen = key.bytes.length := rfl
      exact all_bytesEqual h.lt (by omega)
    · exact all_pure _

/-! ## The loop of `t2sc_bpr_dict_get` -/

/-- The key reference that the loop reads in round `i`. -/
def keyRef (r : Bpr) (o : BpObject) (i : Nat) : Int := (r.ref ((o.pos + i * r.refSize) % 2 ^ 64)).value

/-- The position of the value reference that belongs to round `i`. -/
def valuePos (r : Bpr) (o : BpObject) (i : Nat) : Nat := (o.pos + (o.count + i) * r.refSize) % 2 ^ 64

/-- The loop finds the key in round `i`. -/
structure FoundAt (r : Bpr) (o : BpObject) (key : CString) (i : Nat) : Prop where
  lt : i < o.count
  refs : ∀ j, j ≤ i → 0 ≤ r.keyRef o j
  earlier : ∀ j, j < i → (r.keyEquals (r.keyRef o j) key).value = false
  equal : (r.keyEquals (r.keyRef o i) key).value = true

/-- The rounds before `i` have read a reference each and not found the key. -/
structure Passed (r : Bpr) (o : BpObject) (key : CString) (i : Nat) : Prop where
  refs : ∀ j, j < i → 0 ≤ r.keyRef o j
  earlier : ∀ j, j < i → (r.keyEquals (r.keyRef o j) key).value = false
  /-- The references read so far lie before the table. -/
  pos : o.pos + i * r.refSize ≤ r.table

section Loop

variable {o : BpObject} {key : CString} {i : Nat}

theorem Passed.start (ho : r.Placed o) : r.Passed o key 0 := by
  refine ⟨fun j hj => absurd hj (not_lt_zero j), fun j hj => absurd hj (not_lt_zero j), ?_⟩
  rw [zero_mul]
  exact ho.pos

theorem Passed.le (hpass : r.Passed o key i) {k : Nat} (hk : r.FoundAt o key k) : i ≤ k := by
  by_contra hlt
  have hfal := hpass.earlier k (Nat.lt_of_not_le hlt)
  rw [hk.equal] at hfal
  cases hfal

section

variable (h : r.Valid)
include h

theorem Passed.keyPos (hpass : r.Passed o key i) :
    (o.pos + i * r.refSize) % 2 ^ 64 = o.pos + i * r.refSize ∧ o.pos + i * r.refSize + r.refSize < 2 ^ 64 := by
  have hpos := hpass.pos
  have htab := h.table
  have hlen := h.len
  have hsz := h.refSize.2
  constructor
  · exact mod_eq_of_lt (by omega)
  · omega

theorem Passed.succ (hpass : r.Passed o key i) (href : 0 ≤ r.keyRef o i)
    (hne : (r.keyEquals (r.keyRef o i) key).value = false) : r.Passed o key (i + 1) := by
  obtain ⟨hmod, hfit⟩ := hpass.keyPos h
  refine ⟨?_, ?_, ?_⟩
  · intro j hj
    rcases Nat.lt_succ_iff_lt_or_eq.1 hj with hlt | rfl
    · exact hpass.refs j hlt
    · exact href
  · intro j hj
    rcases Nat.lt_succ_iff_lt_or_eq.1 hj with hlt | rfl
    · exact hpass.earlier j hlt
    · exact hne
  · unfold keyRef at href
    rw [hmod] at href
    have hend := ref_fits hfit href
    rw [add_mul, one_mul]
    omega

/-- The loop from round `i` on stays in the buffer unless it finds the key in a round whose value
reference wraps. -/
theorem all_dictLoop {fuel : Nat} : ∀ {i : Nat}, r.Passed o key i → ((r.dictLoop o key fuel i).All (· < r.len) ↔
      ∀ k, r.FoundAt o key k → k < i + fuel → r.valuePos o k + r.refSize < 2 ^ 64) := by
  induction fuel with
  | zero =>
    intro i hpass
    refine ⟨fun _ k hk hlt => ?_, fun _ => all_pure _⟩
    exact absurd (hpass.le hk) (not_le.2 hlt)
  | succ fuel ih =>
    intro i hpass
    rw [dictLoop]
    by_cases hi : i < o.count
    · rw [if_pos hi, all_bind]
      obtain ⟨hmod, hfit⟩ := hpass.keyPos h
      have hkey : (r.ref ((o.pos + i * r.refSize) % 2 ^ 64)).All (· < r.len) := by
        rw [hmod]
        exact (all_ref h (by omega)).2 hfit
      rw [and_iff_right hkey]
      show Traced.All _ (if r.keyRef o i < 0 then _ else _) ↔ _
      by_cases hneg : r.keyRef o i < 0
      · -- the loop returns an error, so it does not find the key
        rw [if_pos hneg]
        refine ⟨fun _ k hk _ => ?_, fun _ => all_pure _⟩
        exact absurd (hk.refs i (hpass.le hk)) (by omega)
      rw [if_neg hneg, all_bind, and_iff_right (all_keyEquals h _ key)]
      have href : 0 ≤ r.keyRef o i := by omega
      show Traced.All _ (if (r.keyEquals (r.keyRef o i) key).value then _ else _) ↔ _
      by_cases hequal : (r.keyEquals (r.keyRef o i) key).value
      · rw [if_pos hequal, all_bind]
        have hfnd : r.FoundAt o key i := by
          refine ⟨hi, ?_, hpass.earlier, hequal⟩
          intro j hj
          rcases lt_or_eq_of_le hj with hlt | rfl
          · exact hpass.refs j hlt
          · exact href
        have hvalue : r.valuePos o i < 2 ^ 64 := mod_lt _ (by decide)
        constructor
        · intro hall k hk _
          -- the key is found once
          have hki : k = i := by
            refine le_antisymm ?_ (hpass.le hk)
            by_contra hlt
            have hfal := hk.earlier i (Nat.lt_of_not_le hlt)
            rw [hequal] at hfal
            cases hfal
          subst hki
          exact (all_ref h hvalue).1 hall.1
        · intro hno
          exact ⟨(all_ref h hvalue).2 (hno i hfnd (by omega)), all_pure _⟩
      · rw [if_neg hequal]
        have hnx := hpass.succ h href (Bool.eq_false_iff.2 hequal)
        rw [ih hnx]
        constructor
        · intro hno k hk hlt
          exact hno k hk (by omega)
        · intro hno k hk hlt
          exact hno k hk (by omega)
    · rw [if_neg hi]
      refine ⟨fun _ k hk _ => ?_, fun _ => all_pure _⟩
      exact absurd hk.lt (Nat.not_lt.2 (Nat.le_trans (Nat.le_of_not_lt hi) (hpass.le hk)))

theorem dictLoop_ne_none (fuel : Nat) :
    ∀ {i : Nat}, r.Passed o key i → r.table < fuel + i → (r.dictLoop o key fuel i).value ≠ none := by
  induction fuel with
  | zero =>
    intro i hpass hfu
    have hpos := hpass.pos
    have hmul := Nat.le_mul_of_pos_right i h.refSize.1
    omega
  | succ fuel ih =>
    intro i hpass hfu
    rw [dictLoop]
    by_cases hi : i < o.count
    · rw [if_pos hi, value_bind]
      show Traced.value (if r.keyRef o i < 0 then _ else _) ≠ none
      by_cases hneg : r.keyRef o i < 0
      · rw [if_pos hneg]
        exact fun heq => nomatch heq
      rw [if_neg hneg, value_bind]
      show Traced.value (if (r.keyEquals (r.keyRef o i) key).value then _ else _) ≠ none
      by_cases hequal : (r.keyEquals (r.keyRef o i) key).value
      · rw [if_pos hequal]
        exact fun heq => nomatch heq
      · rw [if_neg hequal]
        exact ih (hpass.succ h (by omega) (Bool.eq_false_iff.2 hequal)) (by omega)
    · rw [if_neg hi]
      exact fun heq => nomatch heq

theorem FoundAt.lt_table (ho : r.Placed o) {k : Nat} (hk : r.FoundAt o key k) : k < r.table + 1 := by
  have hpas : ∀ j, j ≤ k → r.Passed o key j := by
    intro j
    induction j with
    | zero =>
      intro _
      exact Passed.start ho
    | succ j ih =>
      intro hj
      exact (ih (by omega)).succ h (hk.refs j (by omega)) (hk.earlier j (by omega))
  have hpos := (hpas k (Nat.le_refl k)).pos
  have hmul := Nat.le_mul_of_pos_right k h.refSize.1
  omega

end

end Loop

end Bpr

/-! ## Calls of the reader -/

/-- The calls that look at objects. -/
inductive BprCall where
  | dictGet (dict : Int) (key : CString)
  | arrayGet (array : Int) (index : Nat)
  | int (obj : Int)
  | bool (obj : Int)
  | data (obj : Int)

namespace Bpr

/-- The call reads only bytes of the buffer, it returns, and a range it returns lies in the buffer. -/
def Inside (r : Bpr) : BprCall → Prop
  | .dictGet dict key => (r.dictGet dict key).All (· < r.len) ∧ (r.dictGet dict key).value ≠ none
  | .arrayGet array index => (r.arrayGet array index).All (· < r.len)
  | .int obj => (r.int obj).All (· < r.len)
  | .bool obj => (r.bool obj).All (· < r.len)
  | .data obj => (r.data obj).All (· < r.len) ∧ ∀ p n, (r.data obj).value = .ok (p, n) → p + n ≤ r.len

/-- The end of a data object, or of the value reference of the key that is looked for, wraps. -/
def Wraps (r : Bpr) : BprCall → Prop
  | .dictGet dict key => ∃ o i, (r.object dict).value = .ok o ∧ o.marker &&& 0xf0 = 0xd0 ∧
      r.FoundAt o key i ∧ 2 ^ 64 ≤ r.valuePos o i + r.refSize
  | .data obj => ∃ o, (r.object obj).value = .ok o ∧ o.marker &&& 0xf0 = 0x40 ∧ 2 ^ 64 ≤ o.pos + o.count
  | _ => False

variable {r : Bpr}

section

variable (h : r.Valid)
include h

theorem inside_dictGet (dict : Int) (key : CString) : r.Inside (.dictGet dict key) ↔ ¬r.Wraps (.dictGet dict key) := by
  obtain ⟨hall, hplc⟩ := object_spec h dict
  simp only [Inside, Wraps]
  rw [dictGet, all_bind, and_iff_right hall, value_bind]
  cases ho : (r.object dict).value with
  | error e =>
    refine ⟨fun _ => ?_, fun _ => ⟨all_pure _, fun heq => nomatch heq⟩⟩
    rintro ⟨o, i, hbad, -⟩
    cases hbad
  | ok o =>
    simp only
    by_cases hmar : o.marker &&& 0xf0 ≠ 0xd0
    · rw [if_pos hmar]
      refine ⟨fun _ => ?_, fun _ => ⟨all_pure _, fun heq => nomatch heq⟩⟩
      rintro ⟨o', i, hsa, hdict, -⟩
      cases hsa
      exact hmar hdict
    rw [if_neg hmar]
    push Not at hmar
    have hstr : r.Passed o key 0 := Bpr.Passed.start (hplc o ho)
    have hends := dictLoop_ne_none h (r.table + 1) hstr (by omega)
    rw [all_dictLoop h hstr]
    constructor
    · rintro ⟨hno, -⟩ ⟨o', i, hsa, -, hfnd, hwrap⟩
      cases hsa
      have hlt := hfnd.lt_table h (hplc o ho)
      exact absurd (hno i hfnd (by omega)) (not_lt.2 hwrap)
    · grind

/-- The sum of a position and a wrapped 32-bit product does not wrap. -/
theorem inside_arrayGet (array : Int) (index : Nat) : r.Inside (.arrayGet array index) := by
  obtain ⟨hall, hplc⟩ := object_spec h array
  refine all_bind.2 ⟨hall, ?_⟩
  cases ho : (r.object array).value with
  | error e => exact all_pure _
  | ok o =>
    simp only
    split
    · exact all_pure _
    split
    · exact all_pure _
    have hpos := (hplc o ho).pos
    have htab := h.table
    have hlen := h.len
    have hsz := h.refSize.2
    exact (all_ref h (by omega)).2 (by omega)

theorem inside_int (obj : Int) : r.Inside (.int obj) := by
  obtain ⟨hall, hplc⟩ := object_spec h obj
  refine all_bind.2 ⟨hall, ?_⟩
  cases ho : (r.object obj).value with
  | error e => exact all_pure _
  | ok o =>
    simp only
    split
    · exact all_pure _
    split
    · exact all_pure _
    rename_i hsz
    push Not at hsz
    have hpos := (hplc o ho).pos
    have htab := h.table
    have hlen := h.len
    exact all_bind.2 ⟨all_bpBe h.lt (by omega), all_pure _⟩

theorem inside_bool (obj : Int) : r.Inside (.bool obj) := by
  refine all_bind.2 ⟨(object_spec h obj).1, ?_⟩
  cases (r.object obj).value with
  | error e => exact all_pure _
  | ok o =>
    simp only
    split
    · exact all_pure _
    · exact all_pure _

theorem inside_data (obj : Int) : r.Inside (.data obj) ↔ ¬r.Wraps (.data obj) := by
  obtain ⟨hall, hplc⟩ := object_spec h obj
  have htab := h.table
  have hlen := h.len
  simp only [Inside, Wraps]
  rw [data, all_bind, and_iff_right hall, value_bind]
  cases ho : (r.object obj).value with
  | error e =>
    refine ⟨fun _ => ?_, fun _ => ⟨all_pure _, fun p n heq => nomatch heq⟩⟩
    rintro ⟨o, hbad, -⟩
    cases hbad
  | ok o =>
    obtain ⟨hpos, hcnt⟩ := hplc o ho
    simp only
    by_cases hcheck : o.marker &&& 0xf0 ≠ 0x40 ∨ (o.pos + o.count) % 2 ^ 64 > r.table
    · rw [if_pos hcheck]
      refine ⟨fun _ => ?_, fun _ => ⟨all_pure _, fun p n heq => nomatch heq⟩⟩
      rintro ⟨o', hsa, hda, hwrap⟩
      cases hsa
      -- a sum that wraps is smaller than the position
      rcases hcheck with hkind | hlim
      · exact hkind hda
      · omega
    rw [if_neg hcheck]
    push Not at hcheck
    constructor
    · rintro ⟨-, hrng⟩ ⟨o', hsa, -, hwrap⟩
      cases hsa
      have hend := hrng o.pos o.count rfl
      omega
    · intro hno
      refine ⟨all_pure _, ?_⟩
      intro p n heq
      cases heq
      have hfit : o.pos + o.count < 2 ^ 64 := by grind
      omega

theorem inside_iff (call : BprCall) : r.Inside call ↔ ¬r.Wraps call := by
  cases call with
  | dictGet dict key => exact inside_dictGet h dict key
  | arrayGet array index => exact iff_of_true (inside_arrayGet h array index) id
  | int obj => exact iff_of_true (inside_int h obj) id
  | bool obj => exact iff_of_true (inside_bool h obj) id
  | data obj => exact inside_data h obj

end

end Bpr

/-- On a property list that `t2sc_bpr_open` accepts, a sequence of calls stays in the buffer exactly when no position
of them wraps. `t2sc_bpr_open` itself always does. -/
theorem reader_inside_iff {data : Buffer} {outside : Memory} {r : Bpr}
    (h : (bprOpen data outside).value = .ok r) (calls : List BprCall) :
    (bprOpen data outside).All (· < data.len) ∧ ((∀ call ∈ calls, r.Inside call) ↔ ∀ call ∈ calls, ¬r.Wraps call) := by
  have hvld := valid_of_open h
  refine ⟨all_bprOpen data outside, ?_⟩
  exact forall₂_congr fun call _ => Bpr.inside_iff hvld call

/-- The trailer of a property list with sizes 1 and the root 0. -/
def trailerOf (objects table : UInt8) : List UInt8 :=
  replicate 6 0 ++ [1, 1] ++ (replicate 7 0 ++ [objects]) ++ replicate 8 0 ++
    (replicate 7 0 ++ [table])

/-- The reader of a property list with sizes 1 and the root 0. -/
def readerOf (data : Buffer) (outside : Memory) (objects table : Nat) : Bpr where
  mem := data.memory outside
  len := data.len
  table := table
  offsetSize := 1
  refSize := 1
  numObjects := objects
  top := 0

/-- A key of one letter. -/
def keyA : CString := ⟨[97], by decide, by decide⟩

/-- A dictionary with the key `a` for two bytes of data. -/
def smallList : Buffer := ⟨bpHeader ++ [0xd1, 1, 2, 0x51, 97, 0x42, 7, 8] ++ [8, 11, 13] ++ trailerOf 3 16, by decide⟩

/-- The data of a dictionary is found and read in the buffer. -/
theorem reader_inside_iff_small : (bprOpen smallList fun _ => 0).value = .ok (readerOf smallList (fun _ => 0) 3 16) ∧
      (∀ call ∈ [BprCall.dictGet 0 keyA, .data 2], (readerOf smallList (fun _ => 0) 3 16).Inside call) := by
  have hop : (bprOpen smallList fun _ => 0).value = .ok (readerOf smallList (fun _ => 0) 3 16) := rfl
  refine ⟨hop, (reader_inside_iff hop _).2.2 ?_⟩
  intro call hca
  rcases mem_cons.1 hca with rfl | hca
  · rintro ⟨o, i, ho, -, hfnd, hwrap⟩
    have hobje : ((readerOf smallList (fun _ => 0) 3 16).object 0).value = .ok ⟨0xd1, 1, 9⟩ := rfl
    cases ho
    have hi : i = 0 := lt_one_iff.1 hfnd.lt
    subst hi
    exact absurd hwrap (by decide)
  rw [mem_singleton.1 hca]
  rintro ⟨o, ho, -, hwrap⟩
  have hobje : ((readerOf smallList (fun _ => 0) 3 16).object 2).value = .ok ⟨0x42, 2, 14⟩ := rfl
  rw [hobje] at ho
  cases ho
  exact absurd hwrap (by decide)

/-- A data object with the count `2 ^ 64 - 18`, whose data begins at offset 18. -/
def longData : Buffer :=
  ⟨bpHeader ++ [0x4f, 0x13, 255, 255, 255, 255, 255, 255, 255, 238] ++ [8] ++ trailerOf 1 18, by decide⟩

/-- A dictionary with the count `2 ^ 64 - 19`, whose key references begin at offset 18. -/
def longDict : Buffer :=
  ⟨bpHeader ++ [0xdf, 0x13, 255, 255, 255, 255, 255, 255, 255, 237, 1, 0x51, 97] ++ [8, 19] ++
    trailerOf 2 21, by decide⟩

/-- Both property lists are accepted. With the first `t2sc_bpr_data` returns a range of almost `2 ^ 64` bytes, with
the second `t2sc_bpr_dict_get` reads the byte before the buffer. -/
theorem wrapped_counts_leave_buffer : (bprOpen longData fun _ => 0).value = .ok (readerOf longData (fun _ => 0) 1 18) ∧
      ((readerOf longData (fun _ => 0) 1 18).data 0).value = .ok (18, 2 ^ 64 - 18) ∧
      (bprOpen longDict fun _ => 0).value = .ok (readerOf longDict (fun _ => 0) 2 21) ∧
      2 ^ 64 - 1 ∈ ((readerOf longDict (fun _ => 0) 2 21).dictGet 0 keyA).trace ∧
      ¬(∀ call ∈ [BprCall.data 0], (readerOf longData (fun _ => 0) 1 18).Inside call) ∧
      ¬(∀ call ∈ [BprCall.dictGet 0 keyA], (readerOf longDict (fun _ => 0) 2 21).Inside call) := by
  have hda : ((readerOf longData (fun _ => 0) 1 18).data 0).value = .ok (18, 2 ^ 64 - 18) := rfl
  have hdict : 2 ^ 64 - 1 ∈ ((readerOf longDict (fun _ => 0) 2 21).dictGet 0 keyA).trace := by decide +kernel
  refine ⟨rfl, hda, rfl, hdict, ?_, ?_⟩
  · intro hall
    have hrng := (hall _ mem_cons_self).2 _ _ hda
    exact absurd hrng (by decide)
  · intro hall
    have hrd := (hall _ mem_cons_self).1 _ hdict
    exact absurd hrd (by decide)

end KaiT2en.Sidecar
