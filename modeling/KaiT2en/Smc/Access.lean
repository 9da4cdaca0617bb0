import KaiT2en.Kernel.Primitives
import KaiT2en.Lib.Bytes
import KaiT2en.Lib.Stateful
import KaiT2en.Smc.KeyTable

/-!
# Access to the keys of the SMC

`t2smc_read_key`, `t2smc_write_key` and the functions over them. A lookup has the entry that the key table has for the
name, or fails. A command that fails does nothing, one that succeeds stores what it is sent or returns what is stored.

`writable` and `readable` say when an access succeeds. They depend on the key table and on the commands that fail
only.
-/

namespace KaiT2en.Smc

open KaiT2en.Kernel KaiT2en.Lib.Bytes KaiT2en.Lib.Stateful Function Command

/-- What is asked of the SMC for a key. -/
inductive Op
  | lookup
  | read
  | write
  deriving DecidableEq

/-- The commands that fail during a call. A lookup that has succeeded is cached and does not fail later. -/
abbrev Faults := Op → List UInt8 → Bool

/-- Nothing fails. -/
def noFaults : Faults := fun _ _ => false

/-- An error number, or behaviour that the language does not define. -/
inductive Failure
  | errno (e : Int)
  | undefined
  deriving DecidableEq

/-- What the SMC has stored for the keys. -/
abbrev Values := List UInt8 → List UInt8

abbrev Access := Command Values Failure

/-- The type of single precision numbers. -/
def FLOAT_TYPE : List UInt8 := [102, 108, 116, 32]

def KeyTable.find (t : KeyTable) (key : List UInt8) : Option KeyRecord := t.keys.find? (·.name = key)

variable (t : KeyTable) (faults : Faults)

/-- `t2smc_get_entry_by_key`. -/
def getEntry (key : List UInt8) : Access KeyRecord :=
  if faults .lookup key then Command.fail (.errno (-EIo))
  else
    match t.find key with
    | some entry => pure entry
    | none => Command.fail (.errno (-ENOENT))

def readSmc (key : List UInt8) (len : Nat) : Access (List UInt8) := fun values =>
  if faults .read key then (.error (.errno (-EIo)), values)
  else if (values key).length ≠ len then (.error (.errno (-EINVAL)), values)
  else (.ok (values key), values)

def writeSmc (key buffer : List UInt8) : Access Unit := fun values =>
  if faults .write key then (.error (.errno (-EIo)), values) else (.ok (), update values key buffer)

def readKey (key : List UInt8) (len : Nat) : Access (List UInt8) := do
  let entry ← getEntry t faults key
  if entry.len.toNat ≠ len then Command.fail (.errno (-EINVAL)) else readSmc faults key len

def writeKey (key buffer : List UInt8) : Access Unit := do
  let entry ← getEntry t faults key
  if entry.len.toNat ≠ buffer.length then Command.fail (.errno (-EINVAL)) else writeSmc faults key buffer

def hasKey (key : List UInt8) : Access Bool := fun values =>
  match getEntry t faults key values with
  | (.ok _, values) => (.ok true, values)
  | (.error e, values) => if e = .errno (-ENOENT) then (.ok false, values) else (.error e, values)

def writeUint (key : List UInt8) (val : Nat) : Access Unit := do
  let entry ← getEntry t faults key
  if entry.len = 0 ∨ 4 < entry.len.toNat then Command.fail (.errno (-EINVAL))
  else writeKey t faults key (beBytes entry.len.toNat val)

/-! ## When an access succeeds -/

/-- A write of `len` bytes succeeds. -/
def writable (key : List UInt8) (len : Nat) : Bool :=
  !faults .lookup key && (t.find key).any (·.len.toNat = len) && !faults .write key

/-- A read of `len` bytes succeeds. -/
def readable (key : List UInt8) (len : Nat) : Bool :=
  !faults .lookup key && (t.find key).any (·.len.toNat = len) && !faults .read key

/-- A write of an unsigned integer succeeds. -/
def uintWritable (key : List UInt8) : Bool :=
  !faults .lookup key && (t.find key).any (fun entry => entry.len ≠ 0 ∧ entry.len.toNat ≤ 4) && !faults .write key

variable {t faults} {key buffer : List UInt8} {values : Values}

theorem getEntry_of_find {entry : KeyRecord} (hlk : faults .lookup key = false) (hfd : t.find key = some entry) :
    getEntry t faults key values = (.ok entry, values) := by
  rw [getEntry, hlk, if_neg Bool.false_ne_true, hfd]
  rfl

theorem getEntry_of_none (hlk : faults .lookup key = false) (hfd : t.find key = none) :
    getEntry t faults key values = (.error (.errno (-ENOENT)), values) := by
  rw [getEntry, hlk, if_neg Bool.false_ne_true, hfd]
  rfl

theorem getEntry_of_fault (hlk : faults .lookup key) :
    getEntry t faults key values = (.error (.errno (-EIo)), values) := by
  rw [getEntry, hlk, if_pos rfl]
  rfl

theorem getEntry_cases (t : KeyTable) (faults : Faults) (key : List UInt8) (values : Values) :
    (∃ entry, faults .lookup key = false ∧ t.find key = some entry ∧
      getEntry t faults key values = (.ok entry, values)) ∨
    ((faults .lookup key ∨ t.find key = none) ∧ ∃ e, getEntry t faults key values = (.error (.errno e), values)) := by
  cases hlk : faults .lookup key with
  | true => exact .inr ⟨.inl rfl, _, getEntry_of_fault hlk⟩
  | false =>
    cases hfd : t.find key with
    | none => exact .inr ⟨.inr rfl, _, getEntry_of_none hlk hfd⟩
    | some entry => exact .inl ⟨entry, rfl, rfl, getEntry_of_find hlk hfd⟩

theorem hasKey_cases (t : KeyTable) (faults : Faults) (key : List UInt8) (values : Values) :
    (faults .lookup key = false ∧ hasKey t faults key values = (.ok (t.find key).isSome, values)) ∨
    (faults .lookup key ∧ ∃ e, hasKey t faults key values = (.error (.errno e), values)) := by
  cases hlk : faults .lookup key with
  | true =>
    refine .inr ⟨rfl, -EIo, ?_⟩
    rw [hasKey, getEntry_of_fault hlk]
    rfl
  | false =>
    refine .inl ⟨rfl, ?_⟩
    rw [hasKey]
    cases hfd : t.find key with
    | none =>
      rw [getEntry_of_none hlk hfd]
      rfl
    | some entry =>
      rw [getEntry_of_find hlk hfd]
      rfl

theorem writeSmc_cases (faults : Faults) (key buffer : List UInt8) (values : Values) :
    (faults .write key = false ∧ writeSmc faults key buffer values = (.ok (), update values key buffer)) ∨
    (faults .write key ∧ ∃ e, writeSmc faults key buffer values = (.error (.errno e), values)) := by
  cases hwr : faults .write key with
  | true => exact .inr ⟨rfl, _, if_pos hwr⟩
  | false => exact .inl ⟨rfl, if_neg (by rw [hwr]; exact Bool.false_ne_true)⟩

/-- A write stores the bytes, or fails and changes nothing. -/
theorem writeKey_cases (t : KeyTable) (faults : Faults) (key buffer : List UInt8) (values : Values) :
    (writable t faults key buffer.length ∧ writeKey t faults key buffer values = (.ok (), update values key buffer)) ∨
    (writable t faults key buffer.length = false ∧ ∃ e, writeKey t faults key buffer values = (.error (.errno e), values)) := by
  rw [writable, writeKey]
  rcases getEntry_cases t faults key values with ⟨entry, hlk, hfd, hent⟩ | ⟨hno, e, hent⟩
  · rw [bind_of_ok hent, hlk, hfd]
    by_cases hlen : entry.len.toNat = buffer.length
    · rw [if_neg (not_not_intro hlen)]
      rcases writeSmc_cases faults key buffer values with ⟨hwr, hok⟩ | ⟨hwr, e, herr⟩
      · exact .inl ⟨by simp [hlen, hwr], hok⟩
      · exact .inr ⟨by simp [hwr], e, herr⟩
    · rw [if_pos hlen]
      exact .inr ⟨by simp [hlen], _, rfl⟩
  rw [bind_of_error hent]
  refine .inr ⟨?_, e, rfl⟩
  rcases hno with hlk | hfd
  · rw [hlk]
    rfl
  · rw [hfd, Option.any_none, Bool.and_false, Bool.false_and]

theorem writeUint_cases (t : KeyTable) (faults : Faults) (key : List UInt8) (val : Nat) (values : Values) :
    (uintWritable t faults key ∧ ∃ len, 0 < len ∧ len ≤ 4 ∧
      writeUint t faults key val values = (.ok (), update values key (beBytes len val))) ∨
    (uintWritable t faults key = false ∧ ∃ e, writeUint t faults key val values = (.error (.errno e), values)) := by
  rw [uintWritable, writeUint]
  rcases getEntry_cases t faults key values with ⟨entry, hlk, hfd, hent⟩ | ⟨hno, e, hent⟩
  · rw [bind_of_ok hent, hlk, hfd]
    by_cases hlen : entry.len = 0 ∨ 4 < entry.len.toNat
    · rw [if_pos hlen]
      refine .inr ⟨?_, _, rfl⟩
      rcases hlen with hz | hlg
      · simp [hz]
      · simp [Nat.not_le.2 hlg]
    obtain ⟨hz, hsh⟩ := not_or.1 hlen
    have hpos : 0 < entry.len.toNat := Nat.pos_of_ne_zero fun h => hz (UInt8.toNat_inj.1 h)
    rw [if_neg hlen]
    have hln : (beBytes entry.len.toNat val).length = entry.len.toNat := length_beBytes _ _
    rcases writeKey_cases t faults key (beBytes entry.len.toNat val) values with ⟨hwr, hok⟩ | ⟨hwr, e, herr⟩
    · refine .inl ⟨?_, _, hpos, Nat.not_lt.1 hsh, hok⟩
      simp [writable, hlk] at hwr
      simp [hz, Nat.not_lt.1 hsh, hwr]
    · refine .inr ⟨?_, e, herr⟩
      simp [writable, hlk, hfd, hln] at hwr
      simp [hwr]
  rw [bind_of_error hent]
  refine .inr ⟨?_, e, rfl⟩
  rcases hno with hlk | hfd
  · rw [hlk]
    rfl
  · rw [hfd, Option.any_none, Bool.and_false, Bool.false_and]

theorem readKey_of_find {entry : KeyRecord} (hlk : faults .lookup key = false) (hrd : faults .read key = false)
    (hfd : t.find key = some entry) (hln : (values key).length = entry.len.toNat) :
    readKey t faults key entry.len.toNat values = (.ok (values key), values) := by
  rw [readKey, bind_of_ok (getEntry_of_find hlk hfd), if_neg (not_not_intro rfl), readSmc, hrd,
    if_neg Bool.false_ne_true, if_neg (not_not_intro hln)]

/-- A read of a key whose stored bytes have the length `len` returns them or fails. -/
theorem readKey_cases (t : KeyTable) (faults : Faults) {len : Nat} (hln : (values key).length = len) :
    (readable t faults key len ∧ readKey t faults key len values = (.ok (values key), values)) ∨
    (readable t faults key len = false ∧ ∃ e, readKey t faults key len values = (.error (.errno e), values)) := by
  rw [readable]
  rcases getEntry_cases t faults key values with ⟨entry, hlk, hfd, hok⟩ | ⟨hno, e, herr⟩
  · rw [readKey, bind_of_ok hok, hlk, hfd, Option.any_some]
    by_cases hlen : entry.len.toNat = len
    · rw [if_neg (not_not_intro hlen), readSmc, decide_eq_true hlen]
      cases hrd : faults .read key with
      | true => exact .inr ⟨rfl, _, rfl⟩
      | false =>
        rw [if_neg Bool.false_ne_true, if_neg (not_not_intro hln)]
        exact .inl ⟨rfl, rfl⟩
    · rw [if_pos hlen, decide_eq_false hlen]
      exact .inr ⟨rfl, _, rfl⟩
  rw [readKey, bind_of_error herr]
  refine .inr ⟨?_, e, rfl⟩
  rcases hno with hlk | hfd
  · rw [hlk]
    rfl
  · rw [hfd, Option.any_none, Bool.and_false, Bool.false_and]

/-- A read returns what is stored or fails. -/
theorem readKey_ok_or_errno (t : KeyTable) (faults : Faults) (key : List UInt8) (len : Nat) (values : Values) :
    readKey t faults key len values = (.ok (values key), values) ∨
      ∃ e, readKey t faults key len values = (.error (.errno e), values) := by
  rcases getEntry_cases t faults key values with ⟨entry, -, -, hok⟩ | ⟨-, e, herr⟩
  · rw [readKey, bind_of_ok hok]
    split
    · exact .inr ⟨_, rfl⟩
    rw [readSmc]
    split
    · exact .inr ⟨_, rfl⟩
    split
    · exact .inr ⟨_, rfl⟩
    · exact .inl rfl
  · exact .inr ⟨e, bind_of_error herr⟩

end KaiT2en.Smc
