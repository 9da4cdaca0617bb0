import KaiT2en.Xpc.Value
import Mathlib.Tactic.Push

/-!
# Decoding XPC objects

The decoder of `t2-bridgexpc/src/xpc.rs`. It consumes a slice from the front; a dictionary or an array is decoded from
a slice of its own. Every point where the Rust code can panic is one in the model: splitting a slice behind its end,
slicing with bounds in the wrong order, and additions that overflow, which panic or wrap depending on the build
profile (`checks`). The recursion is bounded by `depth`; running out of it counts as a panic too.

The lengths of objects are 32-bit numbers and cannot overflow a sum of `usize`; the length in the header is a 64-bit
number and can. `decodeWrapper_total_iff` says exactly when.
-/

namespace KaiT2en.Xpc

open KaiT2en.Lib.Bytes KaiT2en.Lib.Failure KaiT2en.Lib.Failure.Fallible List

/-- A Rust slice, which is not longer than `isize::MAX`. -/
structure Slice where
  bytes : List UInt8
  lt : bytes.length < 2 ^ 63

def Slice.len (s : Slice) : Nat := s.bytes.length

/-! ## The decoder -/

variable (checks : Bool) (data : List UInt8)

def splitAt (mid : Nat) : Fallible XpcError (List UInt8 × List UInt8) :=
  if mid ≤ data.length then .ok (data.take mid, data.drop mid) else .panic

/-- `&data[start..stop]`. -/
def slice (start stop : Nat) : Fallible XpcError (List UInt8) :=
  if start ≤ stop ∧ stop ≤ data.length then .ok ((data.take stop).drop start) else .panic

/-- `a + b` for `usize`. -/
def addUsize (a b : Nat) : Fallible XpcError Nat :=
  if a + b < 2 ^ 64 then .ok (a + b) else if checks then .panic else .ok ((a + b) % 2 ^ 64)

/-- `try_into` for an array of `n` bytes. -/
def tryInto (n : Nat) (bytes : List UInt8) : Fallible XpcError (List UInt8) :=
  if bytes.length = n then .ok bytes else .err .conversion

def fromUtf8 (bytes : List UInt8) : Fallible XpcError String :=
  match String.fromUTF8? ⟨bytes.toArray⟩ with
  | some s => .ok s
  | none => .err .utf8

/-- `take`: the first `count` bytes and the rest. -/
def take (count : Nat) : Fallible XpcError (List UInt8 × List UInt8) := do
  ensure (data.length ≥ count) .truncatedObject
  splitAt data count

/-- `u32le` for four bytes and `u64le` for eight. -/
def uintLe (n : Nat) (data : List UInt8) : Fallible XpcError (Nat × List UInt8) := do
  let (raw, data) ← take data n
  let raw ← tryInto n raw
  pure (ofLe raw, data)

def u32le : Fallible XpcError (Nat × List UInt8) := uintLe 4 data

def u64le : Fallible XpcError (Nat × List UInt8) := uintLe 8 data

/-- `(length + 3) & !3`. -/
def roundUp (length : Nat) : Fallible XpcError Nat := do
  let sum ← addUsize checks length 3
  pure (sum / 4 * 4)

/-- The key of an entry and the bytes behind its padding. -/
def decodeKey (body : List UInt8) : Fallible XpcError (String × List UInt8) :=
  match body.findIdx? (· == 0) with
  | none => .err .unterminatedKey
  | some stop => do
    let (raw, body) ← take body stop
    let key ← fromUtf8 raw
    let (_, body) ← take body 1
    let next ← addUsize checks stop 1
    let (_, body) ← take body ((4 - next % 4) % 4)
    pure (key, body)

/-- The loop over `count` entries of a dictionary, with `decode` for the values. -/
def decodeEntries (checks : Bool) (decode : List UInt8 → Fallible XpcError (Value × List UInt8)) :
    Nat → List UInt8 → Fallible XpcError (List (String × Value))
  | 0, _ => pure []
  | count + 1, body => do
    let (key, body) ← decodeKey checks body
    let (value, body) ← decode body
    let entries ← decodeEntries checks decode count body
    pure ((key, value) :: entries)

/-- The loop over `count` elements of an array. -/
def decodeValues (decode : List UInt8 → Fallible XpcError (Value × List UInt8)) :
    Nat → List UInt8 → Fallible XpcError (List Value)
  | 0, _ => pure []
  | count + 1, body => do
    let (value, body) ← decode body
    let values ← decodeValues decode count body
    pure (value :: values)

/-- Skip `count` bytes of an object that is read as `Value::Null`. -/
def skip (count : Nat) : Fallible XpcError (Value × List UInt8) := do
  let (_, data) ← take data count
  pure (.null, data)

/-- The slice of a dictionary or an array, its count and the rest of the data. -/
def takeBody : Fallible XpcError (Nat × List UInt8 × List UInt8) := do
  let (length, data) ← u32le data
  let (body, data) ← take data length
  let (count, body) ← u32le body
  pure (count, body, data)

/-- `STRING` in `decode_value`. -/
def decodeString : Fallible XpcError (Value × List UInt8) := do
  let (length, data) ← u32le data
  let size ← roundUp checks length
  let (raw, data) ← take data size
  let text ← slice raw 0 (length - 1)
  let value ← fromUtf8 text
  pure (.string value, data)

/-- `FILE_TRANSFER` in `decode_value`. -/
def decodeFileTransfer (decode : List UInt8 → Fallible XpcError (Value × List UInt8))
    (data : List UInt8) : Fallible XpcError (Value × List UInt8) := do
  let (_, data) ← u64le data
  let (value, data) ← decode data
  match (value.get "s").bind Value.asU64 with
  | some size => pure (.fileTransfer size, data)
  | none => .err .invalidFileTransfer

/-- `UUID` in `decode_value`. -/
def decodeUuid : Fallible XpcError (Value × List UInt8) := do
  let (raw, data) ← take data 16
  if h : raw.length = 16 then pure (.uuid ⟨raw, h⟩, data) else .err .conversion

/-- The body of `decode_value` behind the type tag `kind`. -/
def decodeKind (decode : List UInt8 → Fallible XpcError (Value × List UInt8))
    (kind : Nat) (data : List UInt8) : Fallible XpcError (Value × List UInt8) :=
  if kind = DICTIONARY then do
    let (count, body, data) ← takeBody data
    let entries ← decodeEntries checks decode count body
    pure (.dict entries, data)
  else if kind = ARRAY then do
    let (count, body, data) ← takeBody data
    let values ← decodeValues decode count body
    pure (.array values, data)
  else if kind = STRING then decodeString checks data
  else if kind = BOOL then do
    let (value, data) ← u32le data
    pure (.bool (value ≠ 0), data)
  else if kind = UINT64 then do
    let (value, data) ← u64le data
    pure (.u64 (UInt64.ofNat value), data)
  else if kind = INT64 then do
    let (value, data) ← u64le data
    pure (.i64 (Int64.ofUInt64 (UInt64.ofNat value)), data)
  else if kind = DOUBLE ∨ kind = DATE then skip data 8
  else if kind = POINTER then pure (.null, data)
  else if kind = DATA then do
    let (length, data) ← u32le data
    let size ← roundUp checks length
    skip data size
  else if kind = UUID then decodeUuid data
  else if kind = FD then skip data 4
  else if kind = SHMEM then skip data 8
  else if kind = FILE_TRANSFER then decodeFileTransfer decode data
  else if kind = NULL then pure (.null, data)
  else .err (.unsupportedType kind)

/-- `decode_value`: the value and the bytes behind it. -/
def decodeValue (checks : Bool) : Nat → List UInt8 → Fallible XpcError (Value × List UInt8)
  | 0, _ => .panic
  | depth + 1, data => do
    let (kind, data) ← u32le data
    decodeKind checks (decodeValue checks depth) kind data

/-- The part of `decode_wrapper` for a payload that is not empty. -/
def decodePayload (payload : List UInt8) : Fallible XpcError Value := do
  let (magic, payload) ← u32le payload
  ensure (magic = XPC_MAGIC) .invalidPayload
  let (version, payload) ← u32le payload
  ensure (version = XPC_VERSION) .invalidPayload
  let (value, _) ← decodeValue checks (payload.length + 1) payload
  pure value

/-- The result of `decode_wrapper`. -/
structure Wrapped where
  flags : UInt32
  messageId : UInt64
  value : Option Value
  used : Nat

def decodeWrapper : Fallible XpcError Wrapped := do
  ensure (data.length ≥ 24) .truncatedWrapper
  let (magic, header) ← u32le data
  ensure (magic = WRAPPER_MAGIC) .invalidMagic
  let (flags, header) ← u32le header
  let (length, header) ← u64le header
  let (messageId, _) ← u64le header
  let stop ← addUsize checks 24 length
  ensure (data.length ≥ stop) .fragmentedWrapper
  if length = 0 then pure ⟨UInt32.ofNat flags, UInt64.ofNat messageId, none, 24⟩
  else do
    let payload ← slice data 24 stop
    let value ← decodePayload checks payload
    pure ⟨UInt32.ofNat flags, UInt64.ofNat messageId, some value, stop⟩

/-! ## The decoder ends -/

/-- No conversion of a slice to an array has failed. -/
def Converted (e : XpcError) : Prop := e ≠ .conversion

section Total

variable {checks : Bool} {data : List UInt8}

theorem take_ends (count : Nat) : Ends Converted (fun r => r.1.length = count ∧ r.2.length + count = data.length)
      (take data count) := by
  refine ends_bind (ends_ensure (fun h => nomatch h)) ?_
  intro _ hle
  rw [splitAt, if_pos hle]
  refine ⟨?_, ?_⟩
  · rw [length_take]
    omega
  · rw [length_drop]
    omega

theorem uintLe_ends (n : Nat) :
    Ends Converted (fun r => r.1 < 256 ^ n ∧ r.2.length + n = data.length) (uintLe n data) := by
  refine ends_bind (take_ends n) ?_
  rintro ⟨raw, rest⟩ ⟨hraw, hrs⟩
  simp only [tryInto, if_pos hraw, ok_bind]
  refine ⟨?_, hrs⟩
  have hlt := ofLe_lt raw
  rw [hraw] at hlt
  exact hlt

theorem addUsize_eq {a b : Nat} (h : a + b < 2 ^ 64) : addUsize checks a b = .ok (a + b) := if_pos h

theorem roundUp_eq {length : Nat} (h : length < 2 ^ 32) : roundUp checks length = .ok ((length + 3) / 4 * 4) := by
  rw [roundUp, addUsize_eq (by omega)]
  rfl

theorem fromUtf8_ends (bytes : List UInt8) : Ends Converted (fun _ => True) (fromUtf8 bytes) := by
  unfold fromUtf8
  cases String.fromUTF8? ⟨bytes.toArray⟩ with
  | some s => trivial
  | none => exact fun h => nomatch h

theorem skip_ends (count : Nat) : Ends Converted (fun r => r.2.length ≤ data.length) (skip data count) := by
  refine ends_bind (take_ends count) ?_
  rintro ⟨raw, rest⟩ ⟨-, hrs⟩
  have hfst : rest.length + count = data.length := hrs
  show rest.length ≤ data.length
  omega

theorem decodeKey_ends (hda : data.length < 2 ^ 63) :
    Ends Converted (fun r => r.2.length ≤ data.length) (decodeKey checks data) := by
  unfold decodeKey
  cases hso : data.findIdx? (· == 0) with
  | none => exact fun h => nomatch h
  | some stop =>
    refine ends_bind (take_ends stop) ?_
    rintro ⟨raw, rest⟩ ⟨-, hrs⟩
    refine ends_bind (fromUtf8_ends raw) ?_
    intro key _
    refine ends_bind (take_ends 1) ?_
    rintro ⟨nul, rest'⟩ ⟨-, hrs'⟩
    simp only [addUsize_eq (show stop + 1 < 2 ^ 64 by omega), ok_bind]
    refine ends_bind (take_ends _) ?_
    rintro ⟨zeros, rest''⟩ ⟨-, hrs''⟩
    show rest''.length ≤ data.length
    have hfst : rest.length + stop = data.length := hrs
    have hsec : rest'.length + 1 = rest.length := hrs'
    have hthird : rest''.length + _ = rest'.length := hrs''
    omega

variable {decode : List UInt8 → Fallible XpcError (Value × List UInt8)} {n : Nat}

/-- The values of the bodies up to the length `n` decode. -/
def Decodes (decode : List UInt8 → Fallible XpcError (Value × List UInt8)) (n : Nat) : Prop :=
  ∀ body, body.length ≤ n → Ends Converted (fun r => r.2.length ≤ body.length) (decode body)

theorem decodeEntries_ends (hdec : Decodes decode n) (hn : n < 2 ^ 63) (count : Nat) :
    ∀ body : List UInt8, body.length ≤ n → Ends Converted (fun _ => True) (decodeEntries checks decode count body) := by
  induction count with
  | zero =>
    intro body _
    trivial
  | succ count ih =>
    intro body hbo
    refine ends_bind (decodeKey_ends (by omega)) ?_
    rintro ⟨key, rest⟩ hrs
    have hkey : rest.length ≤ body.length := hrs
    refine ends_bind (hdec rest (by omega)) ?_
    rintro ⟨value, rest'⟩ hrs'
    have hvalue : rest'.length ≤ rest.length := hrs'
    refine ends_bind (ih rest' (by omega)) ?_
    intro entries _
    trivial

theorem decodeValues_ends (hdec : Decodes decode n) (count : Nat) : ∀ body : List UInt8, body.length ≤ n →
      Ends Converted (fun _ => True) (decodeValues decode count body) := by
  induction count with
  | zero =>
    intro body _
    trivial
  | succ count ih =>
    intro body hbo
    refine ends_bind (hdec body hbo) ?_
    rintro ⟨value, rest⟩ hrs
    have hvalue : rest.length ≤ body.length := hrs
    refine ends_bind (ih rest (by omega)) ?_
    intro values _
    trivial

theorem takeBody_ends : Ends Converted (fun r => r.2.1.length ≤ data.length ∧ r.2.2.length ≤ data.length)
      (takeBody data) := by
  refine ends_bind (uintLe_ends 4) ?_
  rintro ⟨length, rest⟩ ⟨-, hrs⟩
  refine ends_bind (take_ends length) ?_
  rintro ⟨body, rest'⟩ ⟨hbo, hrs'⟩
  refine ends_bind (uintLe_ends 4) ?_
  rintro ⟨count, body'⟩ ⟨-, hbo'⟩
  have hfst : rest.length + 4 = data.length := hrs
  have hsec : rest'.length + length = rest.length := hrs'
  have hthird : body.length = length := hbo
  have hfour : body'.length + 4 = body.length := hbo'
  show body'.length ≤ data.length ∧ rest'.length ≤ data.length
  omega

theorem decodeString_ends : Ends Converted (fun r => r.2.length ≤ data.length) (decodeString checks data) := by
  refine ends_bind (uintLe_ends 4) ?_
  rintro ⟨length, rest⟩ ⟨hln, hrs⟩
  have hsm : length < 2 ^ 32 := hln
  have hfst : rest.length + 4 = data.length := hrs
  simp only [roundUp_eq hsm, ok_bind]
  refine ends_bind (take_ends _) ?_
  rintro ⟨raw, rest'⟩ ⟨hraw, hrs'⟩
  -- the rounded length is at least the length
  have hsz : raw.length = (length + 3) / 4 * 4 := hraw
  simp only [slice]
  rw [if_pos ⟨Nat.zero_le _, by omega⟩, ok_bind]
  refine ends_bind (fromUtf8_ends _) ?_
  intro value _
  show rest'.length ≤ data.length
  have hsec : rest'.length + (length + 3) / 4 * 4 = rest.length := hrs'
  omega

theorem decodeUuid_ends : Ends Converted (fun r => r.2.length ≤ data.length) (decodeUuid data) := by
  refine ends_bind (take_ends 16) ?_
  rintro ⟨raw, rest⟩ ⟨hraw, hrs⟩
  have hln : raw.length = 16 := hraw
  simp only [dif_pos hln]
  show rest.length ≤ data.length
  have hfst : rest.length + 16 = data.length := hrs
  omega

theorem decodeFileTransfer_ends (hdec : Decodes decode data.length) :
    Ends Converted (fun r => r.2.length ≤ data.length) (decodeFileTransfer decode data) := by
  refine ends_bind (uintLe_ends 8) ?_
  rintro ⟨messageId, rest⟩ ⟨-, hrs⟩
  have hfst : rest.length + 8 = data.length := hrs
  refine ends_bind (hdec rest (by omega)) ?_
  rintro ⟨value, rest'⟩ hrs'
  have hsec : rest'.length ≤ rest.length := hrs'
  show Ends Converted _ (match (value.get "s").bind Value.asU64 with
    | some size => .ok (Value.fileTransfer size, rest')
    | none => .err .invalidFileTransfer)
  cases (value.get "s").bind Value.asU64 with
  | some size =>
    show rest'.length ≤ data.length
    omega
  | none => exact fun h => nomatch h

variable (checks data) in
theorem decodeKind_ends (hdec : Decodes decode data.length) (hda : data.length < 2 ^ 63) (kind : Nat) :
    Ends Converted (fun r => r.2.length ≤ data.length) (decodeKind checks decode kind data) := by
  refine ends_ite (fun _ => ?_) fun _ => ?_
  · refine ends_bind takeBody_ends ?_
    rintro ⟨count, body, rest⟩ ⟨hbo, hrs⟩
    refine ends_bind (decodeEntries_ends hdec hda count body hbo) ?_
    intro entries _
    exact hrs
  refine ends_ite (fun _ => ?_) fun _ => ?_
  · refine ends_bind takeBody_ends ?_
    rintro ⟨count, body, rest⟩ ⟨hbo, hrs⟩
    refine ends_bind (decodeValues_ends hdec count body hbo) ?_
    intro values _
    exact hrs
  refine ends_ite (fun _ => ?_) fun _ => ?_
  · exact decodeString_ends
  refine ends_ite (fun _ => ?_) fun _ => ?_
  · refine ends_bind (uintLe_ends 4) ?_
    rintro ⟨value, rest⟩ ⟨-, hrs⟩
    have hfst : rest.length + 4 = data.length := hrs
    show rest.length ≤ data.length
    omega
  refine ends_ite (fun _ => ?_) fun _ => ?_
  · refine ends_bind (uintLe_ends 8) ?_
    rintro ⟨value, rest⟩ ⟨-, hrs⟩
    have hfst : rest.length + 8 = data.length := hrs
    show rest.length ≤ data.length
    omega
  refine ends_ite (fun _ => ?_) fun _ => ?_
  · refine ends_bind (uintLe_ends 8) ?_
    rintro ⟨value, rest⟩ ⟨-, hrs⟩
    have hfst : rest.length + 8 = data.length := hrs
    show rest.length ≤ data.length
    omega
  refine ends_ite (fun _ => ?_) fun _ => ?_
  · exact skip_ends 8
  refine ends_ite (fun _ => ?_) fun _ => ?_
  · exact Nat.le_refl data.length
  refine ends_ite (fun _ => ?_) fun _ => ?_
  · refine ends_bind (uintLe_ends 4) ?_
    rintro ⟨length, rest⟩ ⟨hln, hrs⟩
    have hsm : length < 2 ^ 32 := hln
    have hfst : rest.length + 4 = data.length := hrs
    simp only [roundUp_eq hsm, ok_bind]
    refine ends_bind (take_ends _) ?_
    rintro ⟨raw, rest'⟩ ⟨-, hrs'⟩
    have hsec : rest'.length + (length + 3) / 4 * 4 = rest.length := hrs'
    show rest'.length ≤ data.length
    omega
  refine ends_ite (fun _ => ?_) fun _ => ?_
  · exact decodeUuid_ends
  refine ends_ite (fun _ => ?_) fun _ => ?_
  · exact skip_ends 4
  refine ends_ite (fun _ => ?_) fun _ => ?_
  · exact skip_ends 8
  refine ends_ite (fun _ => ?_) fun _ => ?_
  · exact decodeFileTransfer_ends hdec
  refine ends_ite (fun _ => ?_) fun _ => ?_
  · exact Nat.le_refl data.length
  · exact fun h => nomatch h

/-- `decode_value` ends on every slice; every level of nesting has used up four bytes. -/
theorem decodeValue_ends (depth : Nat) : ∀ data : List UInt8, data.length < depth → data.length < 2 ^ 63 →
    Ends Converted (fun r => r.2.length ≤ data.length) (decodeValue checks depth data) := by
  induction depth with
  | zero =>
    intro data hdep _
    omega
  | succ depth ih =>
    intro data hdep hda
    refine ends_bind (uintLe_ends 4) ?_
    rintro ⟨kind, rest⟩ ⟨-, hrs⟩
    have hfst : rest.length + 4 = data.length := hrs
    have hki := decodeKind_ends checks rest (fun body hbo => ih body (by omega) (by omega)) (by omega) kind
    -- the bound on the rest is inherited from the shorter slice
    cases hres : decodeKind checks (decodeValue checks depth) kind rest with
    | ok r =>
      have hle := hki.of_ok hres
      simp only [hres]
      show r.2.length ≤ data.length
      omega
    | err e =>
      simp only [hres]
      exact hki.of_err hres
    | panic => exact absurd hres hki.ne_panic

theorem decodePayload_ends (hda : data.length < 2 ^ 63) :
    Ends Converted (fun _ => True) (decodePayload checks data) := by
  refine ends_bind (uintLe_ends 4) ?_
  rintro ⟨magic, rest⟩ ⟨-, hrs⟩
  have hfst : rest.length + 4 = data.length := hrs
  refine ends_bind (ends_ensure (fun h => nomatch h)) ?_
  intro _ _
  refine ends_bind (uintLe_ends 4) ?_
  rintro ⟨version, rest'⟩ ⟨-, hrs'⟩
  have hsec : rest'.length + 4 = rest.length := hrs'
  refine ends_bind (ends_ensure (fun h => nomatch h)) ?_
  intro _ _
  refine ends_bind (decodeValue_ends _ rest' (Nat.lt_succ_self _) (by omega)) ?_
  intro _ _
  trivial

/-! ## Wrappers -/

def headerLength (data : List UInt8) : Nat := ofLe ((data.drop 8).take 8)

/-- The header is complete and begins with the magic. -/
def HasHeader (data : List UInt8) : Prop := 24 ≤ data.length ∧ ofLe (data.take 4) = WRAPPER_MAGIC

theorem uintLe_eq {n : Nat} (h : n ≤ data.length) : uintLe n data = .ok (ofLe (data.take n), data.drop n) := by
  simp only [uintLe, take, splitAt, tryInto]
  rw [ensure_pos h, ok_bind, if_pos h, ok_bind, if_pos (by rw [length_take]; omega), ok_bind]
  rfl

/-- The part of `decode_wrapper` behind the header. -/
def decodeRest (checks : Bool) (data : List UInt8) (flags length messageId : Nat) :
    Fallible XpcError Wrapped := do
  let stop ← addUsize checks 24 length
  ensure (data.length ≥ stop) .fragmentedWrapper
  if length = 0 then pure ⟨UInt32.ofNat flags, UInt64.ofNat messageId, none, 24⟩
  else do
    let payload ← slice data 24 stop
    let value ← decodePayload checks payload
    pure ⟨UInt32.ofNat flags, UInt64.ofNat messageId, some value, stop⟩

theorem decodeWrapper_eq (h : HasHeader data) :
    decodeWrapper checks data = decodeRest checks data (ofLe ((data.drop 4).take 4))
      (headerLength data) (ofLe ((data.drop 16).take 8)) := by
  obtain ⟨hlen, hmag⟩ := h
  unfold decodeWrapper u32le u64le
  rw [ensure_pos hlen, ok_bind, uintLe_eq (by omega), ok_bind]
  simp only
  rw [ensure_pos hmag, ok_bind, uintLe_eq (by rw [length_drop]; omega), ok_bind]
  simp only [drop_drop]
  rw [uintLe_eq (by rw [length_drop]; omega), ok_bind]
  simp only [drop_drop]
  rw [uintLe_eq (by rw [length_drop]; omega), ok_bind]
  rfl

theorem decodeWrapper_err (h : ¬HasHeader data) : decodeWrapper checks data = .err .truncatedWrapper ∨
      decodeWrapper checks data = .err .invalidMagic := by
  unfold decodeWrapper u32le
  by_cases hlen : data.length ≥ 24
  · refine .inr ?_
    have hmag : ¬ofLe (data.take 4) = WRAPPER_MAGIC := fun heq => h ⟨hlen, heq⟩
    rw [ensure_pos hlen, ok_bind, uintLe_eq (by omega), ok_bind]
    simp only
    rw [ensure_neg hmag, err_bind]
  · refine .inl ?_
    rw [ensure_neg hlen, err_bind]

/-- The wrapper decodes without a panic or a failed conversion, and uses the bytes it is given. -/
def Total (checks : Bool) (data : Slice) : Prop :=
  Ends Converted (fun r => 24 ≤ r.used ∧ r.used ≤ data.len) (decodeWrapper checks data.bytes)

theorem decodeRest_ends {flags length messageId : Nat} (hda : data.length < 2 ^ 63)
    (hlen : 24 ≤ data.length) (hsum : 24 + length < 2 ^ 64) :
    Ends Converted (fun r => 24 ≤ r.used ∧ r.used ≤ data.length)
      (decodeRest checks data flags length messageId) := by
  unfold decodeRest
  rw [addUsize_eq hsum, ok_bind]
  refine ends_bind (ends_ensure (fun h => nomatch h)) ?_
  intro _ hso
  split
  · exact ⟨Nat.le_refl 24, hlen⟩
  rw [slice, if_pos ⟨Nat.le_add_right 24 length, hso⟩, ok_bind]
  refine ends_bind (decodePayload_ends ?_) ?_
  · rw [length_drop, length_take]
    omega
  · intro value _
    exact ⟨Nat.le_add_right 24 length, hso⟩

/-- An overflow of the length panics, at once or at the slice. -/
theorem decodeRest_panic {flags length messageId : Nat} (hlen : 24 ≤ data.length)
    (hln : length < 2 ^ 64) (hsum : 2 ^ 64 ≤ 24 + length) :
    decodeRest checks data flags length messageId = .panic := by
  unfold decodeRest addUsize
  rw [if_neg (Nat.not_lt.2 hsum)]
  cases checks with
  | true => rfl
  | false =>
    -- the sum wraps to less than 24, which is no valid end of the slice
    have hwrap : (24 + length) % 2 ^ 64 = 24 + length - 2 ^ 64 := by
      rw [Nat.mod_eq_sub_mod hsum, Nat.mod_eq_of_lt (by omega)]
    simp only [Bool.false_eq_true, if_false, ok_bind]
    rw [hwrap, ensure_pos (show data.length ≥ _ by omega), ok_bind, if_neg (by omega), slice,
      if_neg (by omega), panic_bind]

end Total

/-- `decode_wrapper` returns `Ok` or `Err`, with the length it has used, exactly when a header it accepts has a length
field below `2 ^ 64 - 24`; otherwise it panics. -/
theorem decodeWrapper_total_iff (checks : Bool) (data : Slice) :
    Total checks data ↔ (HasHeader data.bytes → 24 + headerLength data.bytes < 2 ^ 64) := by
  constructor
  · intro htot hhdr
    by_contra hsum
    have hln : headerLength data.bytes < 2 ^ 64 := by
      have hlt := ofLe_lt ((data.bytes.drop 8).take 8)
      have hlen := hhdr.1
      rw [length_take, length_drop, Nat.min_eq_left (by omega)] at hlt
      exact hlt
    apply htot.ne_panic
    rw [decodeWrapper_eq hhdr]
    exact decodeRest_panic hhdr.1 hln (Nat.le_of_not_lt hsum)
  · intro hsum
    unfold Total
    by_cases hhdr : HasHeader data.bytes
    · rw [decodeWrapper_eq hhdr]
      exact decodeRest_ends data.lt hhdr.1 (hsum hhdr)
    rcases decodeWrapper_err hhdr with herr | herr
    · rw [herr]
      exact fun h => nomatch h
    · rw [herr]
      exact fun h => nomatch h

/-- A header whose length field is `2 ^ 64 - 1`. -/
def hugeHeader : Slice :=
  ⟨[0x92, 0x0b, 0xb0, 0x29, 1, 0, 0, 0] ++ List.replicate 8 255 ++ List.replicate 8 0, by decide⟩

/-- The header panics in both build profiles. -/
theorem decodeWrapper_hugeHeader : decodeWrapper true hugeHeader.bytes = .panic ∧
    decodeWrapper false hugeHeader.bytes = .panic ∧ ¬Total true hugeHeader ∧
    ¬Total false hugeHeader := by
  have hhdr : HasHeader hugeHeader.bytes := by refine ⟨by decide, by decide⟩
  have hpan : ∀ checks, decodeWrapper checks hugeHeader.bytes = .panic := by
    intro checks
    exact decodeRest_panic (by decide) (by decide) (by decide)
  exact ⟨hpan true, hpan false, fun h => h.ne_panic (hpan true),
    fun h => h.ne_panic (hpan false)⟩

end KaiT2en.Xpc
