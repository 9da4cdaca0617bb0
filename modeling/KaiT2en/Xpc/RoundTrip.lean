import KaiT2en.Xpc.Decode

/-!
# XPC objects round-trip

What `encode_value` appends to an aligned buffer, `decode_value` reads back, by induction on the value with
a case for each of the mutually recursive parts: a value, the entries of a dictionary, one entry, the elements
of an array. `wrapper_round_trips` is the round trip of a whole wrapper with any bytes behind it.
-/

namespace KaiT2en.Xpc

open KaiT2en.Lib.Bytes KaiT2en.Lib.Failure KaiT2en.Lib.Failure.Fallible List

variable {checks : Bool}

/-! ## Parts of the decoder -/

theorem take_append (bytes rest : List UInt8) : take (bytes ++ rest) bytes.length = .ok (bytes, rest) := by
  have hle : (bytes ++ rest).length ≥ bytes.length := by
    rw [length_append]
    omega
  rw [take, ensure_pos hle, ok_bind, splitAt, if_pos hle, take_left, drop_left]

theorem take_append_of_length {bytes rest : List UInt8} {n : Nat} (h : bytes.length = n) :
    take (bytes ++ rest) n = .ok (bytes, rest) := h ▸ take_append bytes rest

theorem uintLe_leBytes {n v : Nat} (h : v < 256 ^ n) (rest : List UInt8) :
    uintLe n (leBytes n v ++ rest) = .ok (v, rest) := by
  rw [uintLe, take_append_of_length (length_leBytes n v), ok_bind]
  simp only [tryInto, if_pos (length_leBytes n v), ok_bind, ofLe_leBytes h]
  rfl

theorem fromUtf8_utf8 (s : String) : fromUtf8 (utf8 s) = .ok s := by
  have hbs : (⟨(utf8 s).toArray⟩ : ByteArray) = s.toByteArray := by rw [utf8, Array.toArray_toList]
  rw [fromUtf8, hbs, String.fromUTF8?, dif_pos s.isValidUTF8]
  rfl

theorem findIdx?_nul {bytes rest : List UInt8} (h : (0 : UInt8) ∉ bytes) :
    (bytes ++ 0 :: rest).findIdx? (· == 0) = some bytes.length := by
  induction bytes with
  | nil => rfl
  | cons b bytes ih =>
    have hb : (b == 0) = false := beq_false_of_ne (fun heq => h (heq ▸ mem_cons_self))
    have hrs := ih (fun hmem => h (mem_cons_of_mem b hmem))
    rw [cons_append, findIdx?_cons, hb, hrs]
    rfl

/-- A key is read back with its NUL and its padding. -/
theorem decodeKey_eq {key : String} (hnul : (0 : UInt8) ∉ utf8 key)
    (hlen : (utf8 key).length + 1 < 2 ^ 64) (rest : List UInt8) :
    decodeKey checks (utf8 key ++ [0] ++ padding ((utf8 key).length + 1) ++ rest) = .ok (key, rest) := by
  have hass : utf8 key ++ [0] ++ padding ((utf8 key).length + 1) ++ rest =
      utf8 key ++ 0 :: (padding ((utf8 key).length + 1) ++ rest) := by
    simp
  have hnulB : take (0 :: (padding ((utf8 key).length + 1) ++ rest)) 1 =
      .ok ([0], padding ((utf8 key).length + 1) ++ rest) := take_append [0] _
  have hpad : (padding ((utf8 key).length + 1)).length = (4 - ((utf8 key).length + 1) % 4) % 4 := length_replicate
  rw [hass, decodeKey, findIdx?_nul hnul]
  simp only
  rw [take_append, ok_bind]
  rw [fromUtf8_utf8, ok_bind, hnulB, ok_bind, addUsize_eq hlen, ok_bind, take_append_of_length hpad, ok_bind]
  rfl

theorem decodeString_eq {value : String} (hlen : (utf8 value).length + 1 < 2 ^ 32) (rest : List UInt8) :
    decodeString checks (leBytes 4 ((utf8 value).length + 1) ++
      (utf8 value ++ [0] ++ padding ((utf8 value).length + 1)) ++ rest) =
      .ok (.string value, rest) := by
  have hsz : (utf8 value ++ [0] ++ padding ((utf8 value).length + 1)).length =
      ((utf8 value).length + 1 + 3) / 4 * 4 := by
    simp only [length_append, length_singleton, padding, length_replicate]
    omega
  unfold decodeString u32le
  rw [append_assoc, uintLe_leBytes hlen, ok_bind]
  simp only [roundUp_eq hlen, ok_bind]
  rw [take_append_of_length hsz, ok_bind]
  simp only [slice]
  rw [if_pos ⟨Nat.zero_le _, by omega⟩, ok_bind, Nat.add_sub_cancel, drop_zero,
    append_assoc (utf8 value), take_left, fromUtf8_utf8, ok_bind]
  rfl

theorem decodeUuid_eq (value : Uuid) (rest : List UInt8) :
    decodeUuid (value.bytes ++ rest) = .ok (.uuid value, rest) := by
  rw [decodeUuid, take_append_of_length value.length, ok_bind]
  simp only [dif_pos value.length]
  rfl

theorem takeBody_eq {count : Nat} {body : List UInt8} (hcnt : count < 2 ^ 32)
    (hbo : 4 + body.length < 2 ^ 32) (rest : List UInt8) :
    takeBody (leBytes 4 (4 + body.length) ++ (leBytes 4 count ++ body) ++ rest) = .ok (count, body, rest) := by
  have hlen : (leBytes 4 count ++ body).length = 4 + body.length := by rw [length_append, length_leBytes]
  unfold takeBody u32le
  rw [append_assoc, uintLe_leBytes hbo, ok_bind]
  simp only
  rw [take_append_of_length hlen, ok_bind]
  rw [uintLe_leBytes hcnt, ok_bind]
  rfl

theorem decodeValue_tag {depth tag : Nat} (htag : tag < 2 ^ 32) (rest : List UInt8) :
    decodeValue checks (depth + 1) (leBytes 4 tag ++ rest) = decodeKind checks (decodeValue checks depth) tag rest := by
  rw [decodeValue, u32le, uintLe_leBytes htag, ok_bind]

/-! ## Values -/

mutual
/-- A value is read back from its encoding, whatever follows. -/
theorem decodeValue_bytesOf : ∀ (value : Value) (rest : List UInt8) (depth : Nat), Encodable value →
    (bytesOf value ++ rest).length < depth →
    decodeValue checks depth (bytesOf value ++ rest) = .ok (value, rest)
  | _, _, 0, _, hdep => absurd hdep (Nat.not_lt_zero _)
  | .dict entries, rest, depth + 1, h, hdep => by
    simp only [bytesOf, length_append, length_leBytes] at hdep
    have hents := decodeEntries_entriesBytes entries depth h.2.2 (by omega) (by have := h.2.1; omega)
    rw [bytesOf, append_assoc, append_assoc, decodeValue_tag (by decide), decodeKind,
      if_pos rfl, ← append_assoc, takeBody_eq h.1 h.2.1, ok_bind]
    simp only
    rw [hents, ok_bind]
    rfl
  | .array entries, rest, depth + 1, h, hdep => by
    simp only [bytesOf, length_append, length_leBytes] at hdep
    have hvals := decodeValues_valuesBytes entries depth h.2.2 (by omega)
    rw [bytesOf, append_assoc, append_assoc, decodeValue_tag (by decide), decodeKind,
      if_neg (by decide), if_pos rfl, ← append_assoc, takeBody_eq h.1 h.2.1, ok_bind]
    simp only
    rw [hvals, ok_bind]
    rfl
  | .string value, rest, depth + 1, h, _ => by
    rw [bytesOf, append_assoc, append_assoc, decodeValue_tag (by decide), ← append_assoc]
    exact decodeString_eq h ..
  | .bool value, rest, depth + 1, _, _ => by
    rw [bytesOf, append_assoc, decodeValue_tag (by decide), decodeKind, if_neg (by decide),
      if_neg (by decide), if_neg (by decide), if_pos rfl, u32le,
      uintLe_leBytes (by cases value <;> decide), ok_bind]
    cases value with
    | true | false => rfl
  | .u64 value, rest, depth + 1, _, _ => by
    rw [bytesOf, append_assoc, decodeValue_tag (by decide), decodeKind, if_neg (by decide),
      if_neg (by decide), if_neg (by decide), if_neg (by decide), if_pos rfl, u64le,
      uintLe_leBytes value.toNat_lt, ok_bind]
    simp only [UInt64.ofNat_toNat]
    rfl
  | .i64 value, rest, depth + 1, _, _ => by
    rw [bytesOf, append_assoc, decodeValue_tag (by decide), decodeKind, if_neg (by decide),
      if_neg (by decide), if_neg (by decide), if_neg (by decide), if_neg (by decide), if_pos rfl,
      u64le, uintLe_leBytes value.toUInt64.toNat_lt, ok_bind]
    simp only [UInt64.ofNat_toNat]
    rfl
  | .uuid value, rest, depth + 1, _, _ => by
    rw [bytesOf, append_assoc, decodeValue_tag (by decide)]
    exact decodeUuid_eq ..
  | .null, rest, depth + 1, _, _ => by
    rw [bytesOf, decodeValue_tag (by decide)]
    unfold decodeKind
    rfl
  | .fileTransfer _, _, _ + 1, h, _ => h.elim
/-- The loop over the entries reads them back. -/
theorem decodeEntries_entriesBytes : ∀ (entries : List (String × Value)) (depth : Nat),
    EntriesEncodable entries → (entriesBytes entries).length < depth →
    (entriesBytes entries).length < 2 ^ 32 →
    decodeEntries checks (decodeValue checks depth) entries.length (entriesBytes entries) = .ok entries
  | [], _, _, _, _ => rfl
  | (key, value) :: entries, depth, h, hdep, hlen => by
    simp only [entriesBytes, entryBytes, length_append, length_singleton] at hdep hlen
    have hents := decodeEntries_entriesBytes entries depth h.2 (by omega) (by omega)
    have hvalue := decodeValue_bytesOf value (entriesBytes entries) depth h.1.2 (by rw [length_append]; omega)
    rw [length_cons, entriesBytes, entryBytes, decodeEntries, append_assoc, decodeKey_eq h.1.1 (by omega), ok_bind]
    simp only
    rw [hvalue, ok_bind]
    simp only
    rw [hents, ok_bind]
    rfl
/-- The loop over the elements reads them back. -/
theorem decodeValues_valuesBytes : ∀ (values : List Value) (depth : Nat),
    ValuesEncodable values → (valuesBytes values).length < depth →
    decodeValues (decodeValue checks depth) values.length (valuesBytes values) = .ok values
  | [], _, _, _ => rfl
  | value :: values, depth, h, hdep => by
    simp only [valuesBytes, length_append] at hdep
    have hvals := decodeValues_valuesBytes values depth h.2 (by omega)
    have hvalue := decodeValue_bytesOf value (valuesBytes values) depth h.1 (by rw [length_append]; omega)
    rw [length_cons, valuesBytes, decodeValues, hvalue, ok_bind]
    simp only
    rw [hvals, ok_bind]
    rfl
end

/-! ## Wrappers -/

theorem decodePayload_payloadBytes {value : Value} (h : Encodable value) :
    decodePayload checks (payloadBytes value) = .ok value := by
  have hvalue := @decodeValue_bytesOf checks value [] ((bytesOf value).length + 1) h
    (by rw [append_nil]; exact Nat.lt_succ_self _)
  rw [append_nil] at hvalue
  unfold decodePayload payloadBytes u32le
  rw [append_assoc, uintLe_leBytes (by decide), ok_bind]
  simp only
  rw [ensure_pos trivial, ok_bind, uintLe_leBytes (by decide), ok_bind]
  simp only
  rw [ensure_pos trivial, ok_bind, hvalue, ok_bind]
  rfl

/-- An encodable value takes up little more than `2 ^ 32` bytes. -/
theorem length_bytesOf_lt {value : Value} (h : Encodable value) : (bytesOf value).length < 2 ^ 32 + 16 := by
  cases value with
  | dict _ | array _ =>
    have hlen := h.2.1
    simp only [bytesOf, length_append, length_leBytes]
    omega
  | string value =>
    have hlen : (utf8 value).length + 1 < 2 ^ 32 := h
    simp only [bytesOf, length_append, length_leBytes, length_singleton, padding, length_replicate]
    omega
  | bool _ | u64 _ | i64 _ | null => simp [bytesOf]
  | uuid value =>
    have hlen := value.length
    simp only [bytesOf, length_append, length_leBytes]
    omega
  | fileTransfer size => exact h.elim

theorem length_wrapperBytes (flags : UInt32) (messageId : UInt64) (payload : List UInt8) :
    (wrapperBytes flags messageId payload).length = 24 + payload.length := by
  simp only [wrapperBytes, length_append, length_leBytes]

/-- The header of a wrapper is read back, and the payload is left. -/
theorem decodeWrapper_wrapperBytes (flags : UInt32) (messageId : UInt64) {payload : List UInt8}
    (hpay : 24 + payload.length < 2 ^ 64) (trailing : List UInt8) :
    decodeWrapper checks (wrapperBytes flags messageId payload ++ trailing) =
      if payload.length = 0 then .ok ⟨flags, messageId, none, 24⟩
      else (do
        let value ← decodePayload checks payload
        pure ⟨flags, messageId, some value, 24 + payload.length⟩) := by
  have hlen : (wrapperBytes flags messageId payload ++ trailing).length ≥ 24 + payload.length := by
    rw [length_append, length_wrapperBytes]
    omega
  have hslice : slice (wrapperBytes flags messageId payload ++ trailing) 24 (24 + payload.length) =
      .ok payload := by
    have hhd : (leBytes 4 WRAPPER_MAGIC ++ leBytes 4 flags.toNat ++ leBytes 8 payload.length ++
        leBytes 8 messageId.toNat).length = 24 := by
      simp [length_leBytes]
    rw [slice, if_pos ⟨Nat.le_add_right _ _, hlen⟩, ← length_wrapperBytes flags messageId payload,
      take_left, wrapperBytes, ← hhd, drop_left]
  have hhdr : wrapperBytes flags messageId payload ++ trailing =
      leBytes 4 WRAPPER_MAGIC ++ (leBytes 4 flags.toNat ++ (leBytes 8 payload.length ++
        (leBytes 8 messageId.toNat ++ (payload ++ trailing)))) := by
    simp [wrapperBytes]
  rw [decodeWrapper, ensure_pos (by omega), ok_bind]
  have hmag : u32le (wrapperBytes flags messageId payload ++ trailing) =
      .ok (WRAPPER_MAGIC, leBytes 4 flags.toNat ++ (leBytes 8 payload.length ++
        (leBytes 8 messageId.toNat ++ (payload ++ trailing)))) := by
    exact uintLe_leBytes (by decide) _
  rw [hmag, ok_bind]
  simp only
  rw [ensure_pos trivial, ok_bind, u32le, uintLe_leBytes flags.toNat_lt, ok_bind]
  rw [u64le, uintLe_leBytes (by omega), ok_bind]
  rw [u64le, uintLe_leBytes messageId.toNat_lt, ok_bind]
  simp only [UInt32.ofNat_toNat, UInt64.ofNat_toNat]
  rw [addUsize_eq hpay, ok_bind, ensure_pos hlen, ok_bind, hslice]
  rfl

theorem decodeWrapper_some {value : Value} (h : Encodable value) (flags : UInt32)
    (messageId : UInt64) (trailing : List UInt8) :
    decodeWrapper checks (wrapperBytes flags messageId (payloadBytes value) ++ trailing) =
      .ok ⟨flags, messageId, some value, 24 + (payloadBytes value).length⟩ := by
  have hlen := length_bytesOf_lt h
  have hpay : (payloadBytes value).length = 8 + (bytesOf value).length := by
    simp only [payloadBytes, length_append, length_leBytes]
  rw [decodeWrapper_wrapperBytes flags messageId (by omega), if_neg (by omega), decodePayload_payloadBytes h, ok_bind]
  rfl

/-- A wrapper with a value or without one is read back from any bytes that begin with it. -/
theorem wrapper_round_trips (checks : Bool) (value : Option Value) (flags : UInt32)
    (messageId : UInt64) (trailing : List UInt8) (h : ∀ v ∈ value, Encodable v) :
    ∃ bytes, wrapper value flags messageId = .ok bytes ∧
      decodeWrapper checks (bytes ++ trailing) = .ok ⟨flags, messageId, value, bytes.length⟩ := by
  cases value with
  | none =>
    refine ⟨wrapperBytes flags messageId [], rfl, ?_⟩
    rw [decodeWrapper_wrapperBytes flags messageId (by decide), if_pos length_nil, length_wrapperBytes]
    rfl
  | some value =>
    have hvalue : Encodable value := h value rfl
    refine ⟨_, wrapper_some hvalue flags messageId, ?_⟩
    rw [decodeWrapper_some hvalue, length_wrapperBytes]

/-- A dictionary with a nested array, a string and an integer. -/
def sampleValue : Value := .dict [("name", .string "bridgeOS"), ("list", .array [.bool true, .null]), ("n", .i64 (-7))]

theorem wrapper_round_trips_sampleValue : ∃ bytes, wrapper (some sampleValue) 0x101 7 = .ok bytes ∧
    decodeWrapper true (bytes ++ [1, 2, 3]) = .ok ⟨0x101, 7, some sampleValue, bytes.length⟩ := by
  apply wrapper_round_trips true (some sampleValue) 0x101 7 [1, 2, 3]
  intro v hv
  cases hv
  have hna : Encodable (.string "bridgeOS") := by
    show (utf8 "bridgeOS").length + 1 < 2 ^ 32
    decide
  have hls : Encodable (.array [.bool true, .null]) := ⟨by decide, by decide, trivial, trivial, trivial⟩
  exact ⟨by decide, by decide, ⟨by decide, hna⟩, ⟨by decide, hls⟩, ⟨by decide, trivial⟩, trivial⟩

end KaiT2en.Xpc
