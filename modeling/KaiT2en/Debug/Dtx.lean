import KaiT2en.Lib.Bytes
import KaiT2en.Lib.Failure

/-!
# DTX messages

`apps/t2-debug/src/dtx.rs`: `Dtx::recv` puts fragments together and `parse_body` cuts a body into its auxiliary block and
its payload, by lengths that the peer sends. The length of the block is clipped only where the block is cut out.
`dtx_message_iff` says which messages panic. The archive reader is a parameter.
-/

namespace KaiT2en.Debug

open KaiT2en.Lib.Bytes KaiT2en.Lib.Failure Fallible List

inductive DtxError where
  | magic
  | bodyTooShort
  /-- The connection was closed or silent for too long. -/
  | closed
  deriving DecidableEq

/-- `archive::decode` and the objects that `decode_aux` makes itself. -/
structure Archive (Obj : Type) where
  decode : List UInt8 → Option Obj
  null : Obj
  uint : Nat → Obj

inductive Payload (Obj : Type) where
  | none
  | obj (object : Obj)
  | raw (bytes : List UInt8)

structure Message (Obj : Type) where
  ident : Nat
  conversation : Nat
  channel : Nat
  flags : Nat
  aux : List Obj
  payload : Payload Obj

/-- A sum in an integer type of `bits` bits. -/
def sum (bits n : Nat) : Fallible DtxError Nat := if n < 2 ^ bits then ok n else panic

/-- `data[start..stop]`. -/
def slice (data : List UInt8) (start stop : Nat) : Fallible DtxError (List UInt8) :=
  if start ≤ stop ∧ stop ≤ data.length then ok ((data.take stop).drop start) else panic

/-- `from_le_bytes` of `k` bytes. -/
def number (data : List UInt8) (start k : Nat) : Fallible DtxError Nat := do
  let bytes ← slice data start (start + k)
  pure (ofLe bytes)

variable {Obj : Type} (archive : Archive Obj)

/-- The loop of `decode_aux`. -/
def decodeAux (data : List UInt8) (offset : Nat) (out : List Obj) : Fallible DtxError (List Obj) :=
  if _h : data.length < offset + 8 then ok out
  else do
    let kind ← number data (offset + 4) 4
    if kind = 2 then
      if data.length < offset + 12 then ok out
      else do
        let len ← number data (offset + 8) 4
        let stop ← sum 64 (offset + 12 + len)
        if data.length < stop then ok out
        else do
          let bytes ← slice data (offset + 12) stop
          decodeAux data (offset + 12 + len) (out ++ [(archive.decode bytes).getD archive.null])
    else if kind = 3 then
      if data.length < offset + 12 then ok out
      else do
        let value ← number data (offset + 8) 4
        decodeAux data (offset + 12) (out ++ [archive.uint value])
    else if kind = 4 then
      if data.length < offset + 16 then ok out
      else do
        let value ← number data (offset + 8) 8
        decodeAux data (offset + 16) (out ++ [archive.uint value])
    else ok out
termination_by data.length - offset

variable (data : List UInt8)

/-- A little-endian field of a header. -/
def field (start k : Nat) : Nat := ofLe ((data.take (start + k)).drop start)

/-- The end of the auxiliary block, which begins at 16. -/
def auxEnd : Nat := 16 + min (field data 4 4) (data.length - 16)

def payloadStart : Nat := 16 + field data 4 4

def payloadEnd : Nat := min (16 + field data 8 8) data.length

def parseBody (ident conversation channel : Nat) (data : List UInt8) : Fallible DtxError (Message Obj) := do
  ensure (16 ≤ data.length) .bodyTooShort
  let flags ← number data 0 4
  let auxLen ← number data 4 4
  let total ← number data 8 8
  let auxBytes ← slice data 16 (16 + min auxLen (data.length - 16))
  let aux ← decodeAux archive auxBytes 16 []
  let start ← sum 64 (16 + auxLen)
  let stop ← sum 64 (16 + total)
  let bytes ← slice data start (min stop data.length)
  let payload := if bytes = [] then .none else ((archive.decode bytes).map Payload.obj).getD (.raw bytes)
  pure ⟨ident, conversation, channel, flags, aux, payload⟩

def MAGIC : Nat := 0x1f3d5b79

/-- How a round of `Dtx::recv` ends: with the fragments kept so far and what is left to read, or with the result. -/
inductive Round (Obj : Type) where
  | again (parts : Nat → List UInt8) (stream : List UInt8)
  | message (message : Message Obj)

/-- A round of the loop of `Dtx::recv`, with the bytes that will arrive. -/
def recvRound (parts : Nat → List UInt8) (stream : List UInt8) : Fallible DtxError (Round Obj) :=
  let index := field stream 8 2
  let count := field stream 10 2
  let length := field stream 12 4
  let ident := field stream 16 4
  let parse data := parseBody archive ident (field stream 20 4) (field stream 24 4) data >>= fun m => ok (.message m)
  if stream.length < 32 then err .closed
  else if field stream 0 4 ≠ MAGIC then err .magic
  else if count > 1 ∧ index = 0 then ok (.again parts (stream.drop 32))
  else if stream.length < 32 + length then err .closed
  else
    let chunk := (stream.drop 32).take length
    if count ≤ 1 then parse chunk
    else do
      let buffer := parts ident ++ chunk
      let next ← sum 16 (index + 1)
      if next ≠ count then ok (.again (fun i => if i = ident then buffer else parts i) (stream.drop (32 + length)))
      else parse buffer

/-- The payload begins before it ends, and its end does not overflow. -/
def Clean : Prop :=
  16 ≤ data.length → 16 + field data 8 8 < 2 ^ 64 ∧ payloadStart data ≤ payloadEnd data
  deriving Decidable

def Harmless (parts : Nat → List UInt8) (stream : List UInt8) : Prop :=
  let index := field stream 8 2
  let count := field stream 10 2
  let chunk := (stream.drop 32).take (field stream 12 4)
  32 + field stream 12 4 ≤ stream.length → field stream 0 4 = MAGIC → (count ≤ 1 → Clean chunk) ∧
    (1 < count → index ≠ 0 → index ≠ 65535 ∧ (index + 1 = count → Clean (parts (field stream 16 4) ++ chunk)))

section

variable {archive} {data : List UInt8} {start k ident conversation channel : Nat}

theorem number_eq (h : start + k ≤ data.length) : number data start k = ok (field data start k) := by
  rw [number, slice, if_pos ⟨Nat.le_add_right .., h⟩]
  rfl

theorem field_lt (data : List UInt8) (start k : Nat) : field data start k < 256 ^ k := by
  refine (ofLe_lt _).trans_le (Nat.pow_le_pow_right (by decide) ?_)
  rw [length_drop, length_take]
  omega

/-- `decode_aux` returns for every block: what it does not understand ends it. -/
theorem decodeAux_ok (hlen : data.length < 2 ^ 63) (offset : Nat) (out : List Obj) :
    ∃ objects, decodeAux archive data offset out = ok objects := by
  induction hn : data.length - offset using Nat.strong_induction_on generalizing offset out with
  | _ n ih =>
    rw [decodeAux]
    split
    · exact ⟨_, rfl⟩
    rw [number_eq (by omega), ok_bind]
    split
    · split
      · exact ⟨_, rfl⟩
      have hlt := field_lt data (offset + 8) 4
      rw [number_eq (by omega), ok_bind, sum, if_pos (by omega), ok_bind]
      split
      · exact ⟨_, rfl⟩
      rw [slice, if_pos (by omega), ok_bind]
      exact ih _ (by omega) _ _ rfl
    split
    · split
      · exact ⟨_, rfl⟩
      rw [number_eq (by omega), ok_bind]
      exact ih _ (by omega) _ _ rfl
    split
    · split
      · exact ⟨_, rfl⟩
      rw [number_eq (by omega), ok_bind]
      exact ih _ (by omega) _ _ rfl
    · exact ⟨_, rfl⟩

theorem parseBody_ne_panic_iff (hlen : data.length < 2 ^ 63) :
    parseBody archive ident conversation channel data ≠ panic ↔ Clean data := by
  by_cases hlg : 16 ≤ data.length
  · have hlt := field_lt data 4 4
    obtain ⟨aux, haux⟩ := @decodeAux_ok _ archive
      ((data.take (16 + min (field data 4 4) (data.length - 16))).drop 16) (by rw [length_drop, length_take]; omega) 16 []
    rw [parseBody, ensure_pos hlg, ok_bind, number_eq (by omega), ok_bind, number_eq (by omega), ok_bind,
      number_eq (by omega), ok_bind, slice, if_pos (by omega), ok_bind, haux, ok_bind, sum, if_pos (by omega), ok_bind,
      sum]
    by_cases htot : 16 + field data 8 8 < 2 ^ 64
    · rw [if_pos htot, ok_bind, slice]
      by_cases hle : payloadStart data ≤ payloadEnd data
      · rw [if_pos ⟨hle, Nat.min_le_right ..⟩]
        exact ⟨fun _ _ => ⟨htot, hle⟩, fun _ => nofun⟩
      · rw [if_neg fun h => hle h.1]
        exact ⟨fun h => absurd rfl h, fun h => absurd (h hlg).2 hle⟩
    · rw [if_neg htot]
      exact ⟨fun h => absurd rfl h, fun h => absurd (h hlg).1 htot⟩
  · rw [parseBody, ensure_neg hlg]
    exact ⟨fun _ h => absurd h hlg, fun _ => nofun⟩

theorem bind_ok_ne_panic_iff {α β : Type} {x : Fallible DtxError α} {f : α → β} :
    (x >>= fun a => ok (f a)) ≠ panic ↔ x ≠ panic := by
  cases x <;> simp

theorem recvRound_ne_panic_iff {parts : Nat → List UInt8} (hparts : ∀ i, (parts i).length + 2 ^ 32 ≤ 2 ^ 63)
    (stream : List UInt8) : recvRound archive parts stream ≠ panic ↔ Harmless parts stream := by
  have hindex := field_lt stream 8 2
  have hchunk : ((stream.drop 32).take (field stream 12 4)).length < 2 ^ 32 :=
    (length_take_le ..).trans_lt (field_lt stream 12 4)
  simp only [recvRound, Harmless]
  by_cases hlen : 32 + field stream 12 4 ≤ stream.length
  · rw [if_neg (by omega)]
    by_cases hmagic : field stream 0 4 = MAGIC
    · rw [if_neg (not_not.2 hmagic)]
      by_cases hone : field stream 10 2 ≤ 1
      · rw [if_neg (by omega), if_neg (by omega), if_pos hone, bind_ok_ne_panic_iff, parseBody_ne_panic_iff (by omega)]
        exact ⟨fun h _ _ => ⟨fun _ => h, fun hmany => absurd hone (by omega)⟩, fun h => (h hlen hmagic).1 hone⟩
      by_cases hz : field stream 8 2 = 0
      · rw [if_pos ⟨by omega, hz⟩]
        exact ⟨fun _ _ _ => ⟨fun h => absurd h hone, fun _ h => absurd hz h⟩, fun _ => nofun⟩
      rw [if_neg (by omega), if_neg (by omega), if_neg hone, sum]
      by_cases hla : field stream 8 2 = 65535
      · rw [if_neg (by omega)]
        exact ⟨fun h => absurd rfl h, fun h => absurd hla ((h hlen hmagic).2 (by omega) hz).1⟩
      rw [if_pos (by omega), ok_bind]
      by_cases hnx : field stream 8 2 + 1 = field stream 10 2
      · rw [if_neg (not_not.2 hnx), bind_ok_ne_panic_iff,
          parseBody_ne_panic_iff (by have := hparts (field stream 16 4); rw [length_append]; omega)]
        exact ⟨fun h _ _ => ⟨fun h => absurd h hone, fun _ _ => ⟨hla, fun _ => h⟩⟩,
          fun h => ((h hlen hmagic).2 (by omega) hz).2 hnx⟩
      · rw [if_pos hnx]
        exact ⟨fun _ _ _ => ⟨fun h => absurd h hone, fun _ _ => ⟨hla, fun h => absurd h hnx⟩⟩, fun _ => nofun⟩
    · rw [if_pos hmagic]
      exact ⟨fun _ _ h => absurd h hmagic, fun _ => nofun⟩
  · refine ⟨fun _ h => absurd h hlen, fun _ => ?_⟩
    split_ifs <;> first | omega | nofun

end

/-- The bodies and fragments that do not panic. In a parsed body the auxiliary block ends before the payload begins. -/
theorem dtx_message_iff {archive : Archive Obj} {data : List UInt8} (hlen : data.length < 2 ^ 63)
    (ident conversation channel : Nat) :
    (parseBody archive ident conversation channel data ≠ panic ↔ Clean data) ∧
    (∀ m, parseBody archive ident conversation channel data = ok m → 16 ≤ auxEnd data ∧
      auxEnd data ≤ payloadStart data ∧ payloadStart data ≤ payloadEnd data ∧ payloadEnd data ≤ data.length) ∧
    ∀ parts stream, (∀ i, (parts i).length + 2 ^ 32 ≤ 2 ^ 63) →
      (recvRound archive parts stream ≠ panic ↔ Harmless parts stream) := by
  have hclean := @parseBody_ne_panic_iff _ archive data ident conversation channel hlen
  refine ⟨hclean, fun m hm => ?_, fun parts stream hparts => recvRound_ne_panic_iff hparts stream⟩
  have hlg : 16 ≤ data.length := by
    by_contra hlg
    rw [parseBody, ensure_neg hlg] at hm
    cases hm
  refine ⟨Nat.le_add_right .., Nat.add_le_add_left (Nat.min_le_left ..) 16, ?_, Nat.min_le_right ..⟩
  exact (hclean.1 (by rw [hm]; nofun) hlg).2

def noArchive : Archive Unit := ⟨fun _ => none, (), fun _ => ()⟩

theorem dtx_message_iff_empty : Clean (replicate 16 0) ∧ parseBody noArchive 1 0 0 (replicate 16 0) ≠ panic :=
  ⟨by decide, (dtx_message_iff (by decide) 1 0 0).1.2 (by decide)⟩

/-- An auxiliary block of one byte in a body that ends behind its header. -/
theorem aux_past_body : parseBody noArchive 1 0 0 [0, 0, 0, 0, 1, 0, 0, 0, 0, 0, 0, 0, 0, 0, 0, 0] = panic := by
  by_contra hne
  exact absurd ((parseBody_ne_panic_iff (by decide)).1 hne) (by decide)

end KaiT2en.Debug
