import KaiT2en.Lib.Bytes
import KaiT2en.Lib.Failure

/-!
# XPC objects and their encoding

The encoder of `t2-bridgexpc/src/xpc.rs`. A value is appended to a buffer; strings and keys are padded to
a multiple of four bytes of the whole buffer, and the length of a dictionary or an array is written in
front of it once it is known. `wrapper` puts the header of the transport in front of the payload.

`bytesOf` is the encoding without a buffer around it, and `encodeValue_eq` says that `encode_value` appends
it to every buffer whose length is a multiple of four.
-/

namespace KaiT2en.Xpc

open KaiT2en.Lib.Bytes KaiT2en.Lib.Failure List Fallible

def WRAPPER_MAGIC : Nat := 0x29b00b92
def XPC_MAGIC : Nat := 0x42133742
def XPC_VERSION : Nat := 5
def DICTIONARY : Nat := 0xf000
def ARRAY : Nat := 0xe000
def STRING : Nat := 0x9000
def BOOL : Nat := 0x2000
def INT64 : Nat := 0x3000
def UINT64 : Nat := 0x4000
def DOUBLE : Nat := 0x5000
def POINTER : Nat := 0x6000
def DATE : Nat := 0x7000
def DATA : Nat := 0x8000
def UUID : Nat := 0xa000
def FD : Nat := 0xb000
def SHMEM : Nat := 0xc000
def FILE_TRANSFER : Nat := 0x1a000

/-- The tag of `Value::Null`, which has no name in the source. -/
def NULL : Nat := 0x1000

/-- The sixteen bytes of a UUID. -/
structure Uuid where
  bytes : List UInt8
  length : bytes.length = 16
  deriving DecidableEq

/-- `enum Value`. -/
inductive Value where
  | dict (entries : List (String × Value))
  | array (entries : List Value)
  | string (value : String)
  | bool (value : Bool)
  | u64 (value : UInt64)
  | i64 (value : Int64)
  | uuid (value : Uuid)
  | fileTransfer (size : UInt64)
  | null

namespace Value

def get : Value → String → Option Value
  | dict entries, key => (entries.find? fun entry => entry.1 == key).map Prod.snd
  | _, _ => none

/-- `Value::as_u64`; a negative integer does not convert. -/
def asU64 : Value → Option UInt64
  | u64 value | fileTransfer value => some value
  | i64 value => if 0 ≤ value.toInt then some value.toUInt64 else none
  | _ => none

def asStr : Value → Option String
  | string value => some value
  | _ => none

end Value

/-- The bytes of a string. -/
def utf8 (s : String) : List UInt8 := s.toByteArray.data.toList

/-- The errors of the decoder, each with its text. -/
inductive XpcError where
  /-- "truncated XPC object" -/
  | truncatedObject
  /-- "unterminated XPC key" -/
  | unterminatedKey
  /-- The error of `String::from_utf8`. -/
  | utf8
  /-- The error of `try_into` for a slice of the wrong length. -/
  | conversion
  /-- "invalid XPC file transfer" -/
  | invalidFileTransfer
  /-- "unsupported XPC type {other:#x}" -/
  | unsupportedType (other : Nat)
  /-- "truncated XPC wrapper" -/
  | truncatedWrapper
  /-- "invalid XPC wrapper magic" -/
  | invalidMagic
  /-- "fragmented XPC wrapper" -/
  | fragmentedWrapper
  /-- "invalid XPC payload" -/
  | invalidPayload
  deriving DecidableEq

/-! ## The encoder -/

variable (out : List UInt8)

def pushU32 (value : Nat) : List UInt8 := out ++ leBytes 4 value

def pushU64 (value : Nat) : List UInt8 := out ++ leBytes 8 value

/-- The loop of `pad` for at most `n` rounds. -/
def padLoop : Nat → List UInt8 → List UInt8
  | 0, out => out
  | n + 1, out => if out.length % 4 ≠ 0 then padLoop n (out ++ [0]) else out

/-- `pad`; three zeros are always enough. -/
def pad : List UInt8 := padLoop 3 out

/-- `copy_from_slice` to `out[at..]`. -/
def patch (pos : Nat) (bytes : List UInt8) : List UInt8 := out.take pos ++ bytes ++ out.drop (pos + bytes.length)

mutual
/-- `encode_value`; a file transfer is `unreachable!`. -/
def encodeValue (out : List UInt8) : Value → Fallible XpcError (List UInt8)
  | .dict entries => do
    let out := pushU32 out DICTIONARY
    let lengthAt := out.length
    let out := pushU32 out 0
    let start := out.length
    let out := pushU32 out entries.length
    let out ← encodeEntries out entries
    pure (patch out lengthAt (leBytes 4 (out.length - start)))
  | .array entries => do
    let out := pushU32 out ARRAY
    let lengthAt := out.length
    let out := pushU32 out 0
    let start := out.length
    let out := pushU32 out entries.length
    let out ← encodeValues out entries
    pure (patch out lengthAt (leBytes 4 (out.length - start)))
  | .string value => pure (pad (pushU32 (pushU32 out STRING) ((utf8 value).length + 1) ++ utf8 value ++ [0]))
  | .bool value => pure (pushU32 (pushU32 out BOOL) value.toNat)
  | .u64 value => pure (pushU64 (pushU32 out UINT64) value.toNat)
  | .i64 value => pure (pushU64 (pushU32 out INT64) value.toUInt64.toNat)
  | .uuid value => pure (pushU32 out UUID ++ value.bytes)
  | .null => pure (pushU32 out NULL)
  | .fileTransfer _ => .panic
/-- The loop over the entries of a dictionary. -/
def encodeEntries (out : List UInt8) : List (String × Value) → Fallible XpcError (List UInt8)
  | [] => pure out
  | entry :: entries => do
    let out ← encodeEntry out entry
    encodeEntries out entries
/-- One entry of a dictionary. -/
def encodeEntry (out : List UInt8) : String × Value → Fallible XpcError (List UInt8)
  | (key, value) => encodeValue (pad (out ++ utf8 key ++ [0])) value
/-- The loop over the elements of an array. -/
def encodeValues (out : List UInt8) : List Value → Fallible XpcError (List UInt8)
  | [] => pure out
  | value :: values => do
    let out ← encodeValue out value
    encodeValues out values
end

def wrapper (value : Option Value) (flags : UInt32) (messageId : UInt64) : Fallible XpcError (List UInt8) := do
  let payload ←
    match value with
    | some value => encodeValue (pushU32 (pushU32 [] XPC_MAGIC) XPC_VERSION) value
    | none => pure []
  let out := pushU32 [] WRAPPER_MAGIC
  let out := pushU32 out flags.toNat
  let out := pushU64 out payload.length
  let out := pushU64 out messageId.toNat
  pure (out ++ payload)

/-! ## The encoding without its buffer -/

/-- Zeros up to a multiple of four. -/
def padding (n : Nat) : List UInt8 := List.replicate ((4 - n % 4) % 4) 0

mutual
/-- The bytes of a value at a position that is a multiple of four. -/
def bytesOf : Value → List UInt8
  | .dict entries =>
    leBytes 4 DICTIONARY ++ leBytes 4 (4 + (entriesBytes entries).length) ++
      (leBytes 4 entries.length ++ entriesBytes entries)
  | .array entries =>
    leBytes 4 ARRAY ++ leBytes 4 (4 + (valuesBytes entries).length) ++ (leBytes 4 entries.length ++ valuesBytes entries)
  | .string value =>
    leBytes 4 STRING ++ leBytes 4 ((utf8 value).length + 1) ++ (utf8 value ++ [0] ++ padding ((utf8 value).length + 1))
  | .bool value => leBytes 4 BOOL ++ leBytes 4 value.toNat
  | .u64 value => leBytes 4 UINT64 ++ leBytes 8 value.toNat
  | .i64 value => leBytes 4 INT64 ++ leBytes 8 value.toUInt64.toNat
  | .uuid value => leBytes 4 UUID ++ value.bytes
  | .null => leBytes 4 NULL
  | .fileTransfer _ => []
def entriesBytes : List (String × Value) → List UInt8
  | [] => []
  | entry :: entries => entryBytes entry ++ entriesBytes entries
def entryBytes : String × Value → List UInt8
  | (key, value) => utf8 key ++ [0] ++ padding ((utf8 key).length + 1) ++ bytesOf value
/-- The bytes of the elements of an array. -/
def valuesBytes : List Value → List UInt8
  | [] => []
  | value :: values => bytesOf value ++ valuesBytes values
end

mutual
/-- The value holds no file transfer, no key with a NUL byte, and no length of `2 ^ 32` or more. -/
def Encodable : Value → Prop
  | .dict entries => entries.length < 2 ^ 32 ∧ 4 + (entriesBytes entries).length < 2 ^ 32 ∧ EntriesEncodable entries
  | .array entries => entries.length < 2 ^ 32 ∧ 4 + (valuesBytes entries).length < 2 ^ 32 ∧ ValuesEncodable entries
  | .string value => (utf8 value).length + 1 < 2 ^ 32
  | .fileTransfer _ => False
  | _ => True
def EntriesEncodable : List (String × Value) → Prop
  | [] => True
  | entry :: entries => EntryEncodable entry ∧ EntriesEncodable entries
/-- The key has no NUL byte and the value is encodable. -/
def EntryEncodable : String × Value → Prop
  | (key, value) => (0 : UInt8) ∉ utf8 key ∧ Encodable value
/-- All elements are encodable. -/
def ValuesEncodable : List Value → Prop
  | [] => True
  | value :: values => Encodable value ∧ ValuesEncodable values
end

theorem length_padding (n : Nat) : (n + (padding n).length) % 4 = 0 := by
  rw [padding, length_replicate]
  omega

theorem padLoop_eq (n : Nat) : ∀ out : List UInt8, (4 - out.length % 4) % 4 ≤ n →
    padLoop n out = out ++ padding out.length := by
  induction n with
  | zero =>
    intro out hout
    rw [padLoop, padding, Nat.le_zero.1 hout, replicate_zero, append_nil]
  | succ n ih =>
    intro out hout
    rw [padLoop]
    split
    · rw [ih _ (by rw [length_append, length_singleton]; omega), append_assoc]
      congr 1
      -- one zero now and the rest from the remaining rounds
      obtain ⟨k, hk⟩ : ∃ k, (4 - out.length % 4) % 4 = k + 1 := ⟨(4 - out.length % 4) % 4 - 1, by omega⟩
      have hrs : (4 - (out ++ [(0 : UInt8)]).length % 4) % 4 = k := by
        rw [length_append, length_singleton]
        omega
      rw [padding, padding, hrs, hk, replicate_succ]
      rfl
    · have hno : (4 - out.length % 4) % 4 = 0 := by omega
      rw [padding, hno, replicate_zero, append_nil]

theorem pad_eq (out : List UInt8) : pad out = out ++ padding out.length := padLoop_eq 3 out (by omega)

/-- Padding behind an aligned buffer depends on what was appended only. -/
theorem pad_append {out : List UInt8} (bytes : List UInt8) (h : out.length % 4 = 0) :
    pad (out ++ bytes) = out ++ bytes ++ padding bytes.length := by
  rw [pad_eq, padding, padding, length_append]
  have hmod : (out.length + bytes.length) % 4 = bytes.length % 4 := by omega
  rw [hmod]

theorem patch_length {out old new rest : List UInt8} (h : old.length = new.length) :
    patch (out ++ old ++ rest) out.length new = out ++ new ++ rest := by
  have hdr : out.length + new.length = (out ++ old).length := by rw [length_append, h]
  rw [patch, hdr, drop_left, append_assoc out old rest, take_left]

theorem patch_body (out tag body : List UInt8) : patch (pushU32 (out ++ tag) 0 ++ body) (out ++ tag).length
      (leBytes 4 ((pushU32 (out ++ tag) 0 ++ body).length - (pushU32 (out ++ tag) 0).length)) =
      out ++ (tag ++ leBytes 4 body.length ++ body) := by
  have hln : (pushU32 (out ++ tag) 0 ++ body).length - (pushU32 (out ++ tag) 0).length =
      body.length := by
    rw [length_append, Nat.add_sub_cancel_left]
  rw [hln, pushU32, patch_length (by simp)]
  simp

mutual
/-- Every encoding is a multiple of four bytes long. -/
theorem length_bytesOf : ∀ value, (bytesOf value).length % 4 = 0
  | .dict entries => by
    have ih := length_entriesBytes entries
    simp only [bytesOf, length_append, length_leBytes]
    omega
  | .array entries => by
    have ih := length_valuesBytes entries
    simp only [bytesOf, length_append, length_leBytes]
    omega
  | .string value => by
    have hpad := length_padding ((utf8 value).length + 1)
    simp only [bytesOf, length_append, length_leBytes, length_singleton]
    omega
  | .bool value => by simp [bytesOf, length_leBytes]
  | .u64 value => by simp [bytesOf, length_leBytes]
  | .i64 value => by simp [bytesOf, length_leBytes]
  | .uuid value => by simp [bytesOf, length_leBytes, value.length]
  | .null => by simp only [bytesOf, length_leBytes]
  | .fileTransfer _ => rfl
theorem length_entriesBytes : ∀ entries, (entriesBytes entries).length % 4 = 0
  | [] => rfl
  | entry :: entries => by
    have hent := length_entryBytes entry
    have hents := length_entriesBytes entries
    simp only [entriesBytes, length_append]
    omega
theorem length_entryBytes : ∀ entry, (entryBytes entry).length % 4 = 0
  | (key, value) => by
    have hpad := length_padding ((utf8 key).length + 1)
    have hvalue := length_bytesOf value
    simp only [entryBytes, length_append, length_singleton]
    omega
theorem length_valuesBytes : ∀ values, (valuesBytes values).length % 4 = 0
  | [] => rfl
  | value :: values => by
    have hvalue := length_bytesOf value
    have hvals := length_valuesBytes values
    simp only [valuesBytes, length_append]
    omega
end

mutual
theorem encodeValue_eq : ∀ (value : Value) (out : List UInt8), Encodable value →
    out.length % 4 = 0 → encodeValue out value = .ok (out ++ bytesOf value)
  | .dict entries, out, h, hout => by
    have hents := encodeEntries_eq entries (pushU32 (pushU32 (pushU32 out DICTIONARY) 0) entries.length) h.2.2
      (by simp only [pushU32, length_append, length_leBytes]; omega)
    simp only [encodeValue, hents, ok_bind, pure_eq]
    congr 1
    have hbo := patch_body out (leBytes 4 DICTIONARY) (leBytes 4 entries.length ++ entriesBytes entries)
    rw [@length_append _ (leBytes 4 entries.length), length_leBytes] at hbo
    rw [bytesOf, ← hbo]
    simp [pushU32]
  | .array entries, out, h, hout => by
    have hvals := encodeValues_eq entries (pushU32 (pushU32 (pushU32 out ARRAY) 0) entries.length) h.2.2
      (by simp only [pushU32, length_append, length_leBytes]; omega)
    simp only [encodeValue, hvals, ok_bind, pure_eq]
    congr 1
    have hbo := patch_body out (leBytes 4 ARRAY) (leBytes 4 entries.length ++ valuesBytes entries)
    rw [@length_append _ (leBytes 4 entries.length), length_leBytes] at hbo
    rw [bytesOf, ← hbo]
    simp [pushU32]
  | .string value, out, _, hout => by
    have hpad := @pad_append (pushU32 (pushU32 out STRING) ((utf8 value).length + 1)) (utf8 value ++ [0])
      (by simp only [pushU32, length_append, length_leBytes]; omega)
    rw [← append_assoc] at hpad
    rw [encodeValue, hpad, bytesOf, length_append, length_singleton]
    simp [pushU32, pure_eq]
  | .bool value, out, _, _ => by simp [encodeValue, bytesOf, pushU32, pure_eq]
  | .u64 value, out, _, _ => by simp [encodeValue, bytesOf, pushU32, pushU64, pure_eq]
  | .i64 value, out, _, _ => by simp [encodeValue, bytesOf, pushU32, pushU64, pure_eq]
  | .uuid value, out, _, _ => by simp [encodeValue, bytesOf, pushU32, pure_eq]
  | .null, out, _, _ => by simp only [encodeValue, bytesOf, pushU32, pure_eq]
  | .fileTransfer _, _, h, _ => h.elim
theorem encodeEntries_eq : ∀ (entries : List (String × Value)) (out : List UInt8),
    EntriesEncodable entries → out.length % 4 = 0 →
    encodeEntries out entries = .ok (out ++ entriesBytes entries)
  | [], out, _, _ => by rw [encodeEntries, entriesBytes, append_nil]; rfl
  | entry :: entries, out, h, hout => by
    have hent := encodeEntry_eq entry out h.1 hout
    have hlen := length_entryBytes entry
    have hents := encodeEntries_eq entries (out ++ entryBytes entry) h.2 (by rw [length_append]; omega)
    rw [encodeEntries, hent, ok_bind, hents, entriesBytes, append_assoc]
theorem encodeEntry_eq : ∀ (entry : String × Value) (out : List UInt8), EntryEncodable entry →
    out.length % 4 = 0 → encodeEntry out entry = .ok (out ++ entryBytes entry)
  | (key, value), out, h, hout => by
    have hpad := pad_append (utf8 key ++ [0]) hout
    have hmod := length_padding ((utf8 key).length + 1)
    rw [← append_assoc, length_append, length_singleton] at hpad
    rw [encodeEntry, hpad, encodeValue_eq value _ h.2
      (by simp only [length_append, length_singleton]; omega), entryBytes]
    simp
theorem encodeValues_eq : ∀ (values : List Value) (out : List UInt8), ValuesEncodable values →
    out.length % 4 = 0 → encodeValues out values = .ok (out ++ valuesBytes values)
  | [], out, _, _ => by rw [encodeValues, valuesBytes, append_nil]; rfl
  | value :: values, out, h, hout => by
    have hvalue := encodeValue_eq value out h.1 hout
    have hlen := length_bytesOf value
    have hvals := encodeValues_eq values (out ++ bytesOf value) h.2 (by rw [length_append]; omega)
    rw [encodeValues, hvalue, ok_bind, hvals, valuesBytes, append_assoc]
end

def wrapperBytes (flags : UInt32) (messageId : UInt64) (payload : List UInt8) : List UInt8 :=
  leBytes 4 WRAPPER_MAGIC ++ leBytes 4 flags.toNat ++ leBytes 8 payload.length ++ leBytes 8 messageId.toNat ++ payload

def payloadBytes (value : Value) : List UInt8 := leBytes 4 XPC_MAGIC ++ leBytes 4 XPC_VERSION ++ bytesOf value

theorem wrapper_some {value : Value} (h : Encodable value) (flags : UInt32) (messageId : UInt64) :
    wrapper (some value) flags messageId = .ok (wrapperBytes flags messageId (payloadBytes value)) := by
  have hvalue := encodeValue_eq value (pushU32 (pushU32 [] XPC_MAGIC) XPC_VERSION) h
    (by simp [pushU32, length_leBytes])
  simp only [wrapper, hvalue, ok_bind]
  rfl

end KaiT2en.Xpc
