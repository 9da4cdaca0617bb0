import KaiT2en.Lib.Encoding
import KaiT2en.Lib.Transition
import Mathlib.Data.List.AList

/-!
# The payload layer

`apps/t2-airshare/src/link.rs`: the offline frames of a connection after the handshake, the sharing frames
that bytes payloads carry, and how these are cut into chunks and put together again. A frame is what its
accessors return. The codec of the sharing frames is not part of the repository and a parameter.
-/

namespace KaiT2en.Airshare

open KaiT2en.Lib.Encoding KaiT2en.Lib.Transition Machine Option AList List

def MAX_BYTES_PAYLOAD : Int := 5 * 1024 * 1024

/-! ## Sharing frames -/

structure FileMetadata where
  name : String
  payloadId : Int
  size : Int
  deriving DecidableEq

structure TextMetadata where
  textTitle : String
  payloadId : Int
  deriving DecidableEq

structure IntroductionFrame where
  fileMetadata : List FileMetadata
  textMetadata : List TextMetadata
  deriving DecidableEq

inductive ResponseStatus where
  | unknown
  | accept
  | reject
  | notEnoughSpace
  | unsupportedAttachmentType
  | timedOut
  deriving DecidableEq

/-- The sharing frames by their type. -/
inductive SharingV1 where
  | unknown
  | introduction (frame : IntroductionFrame)
  | response (status : ResponseStatus)
  | pairedKeyEncryption
  | pairedKeyResult
  | certificateInfo
  | cancel
  deriving DecidableEq

/-- A sharing frame, which may lack its content. -/
abbrev SharingFrame := Option SharingV1

/-! ## Offline frames -/

inductive PayloadType where
  | unknown
  | bytes
  | file
  | stream
  deriving DecidableEq

structure PayloadHeader where
  id : Int
  payloadType : PayloadType
  totalSize : Int
  deriving DecidableEq

structure PayloadChunk where
  flags : Int32
  offset : Int
  body : List UInt8
  deriving DecidableEq

def PayloadChunk.last (chunk : PayloadChunk) : Bool := chunk.flags &&& 1 != 0

theorem PayloadChunk.last_zero (offset : Int) (body : List UInt8) : PayloadChunk.last ⟨0, offset, body⟩ = false := by
  simp only [PayloadChunk.last]
  decide

theorem PayloadChunk.last_one (offset : Int) (body : List UInt8) : PayloadChunk.last ⟨1, offset, body⟩ := by
  simp only [PayloadChunk.last]
  decide

/-- The events of a bandwidth upgrade. -/
inductive EventType where
  | unknown
  | upgradePathAvailable
  | lastWriteToPriorChannel
  | safeToClosePriorChannel
  | clientIntroduction
  | upgradeFailure
  | clientIntroductionAck
  deriving DecidableEq

/-- The offline frames by their type; `other` are those that are of no account after the handshake. -/
inductive V1Frame where
  | payloadTransfer (header : PayloadHeader) (chunk : PayloadChunk)
  | bandwidthUpgradeNegotiation (event : EventType)
  | keepAlive
  | disconnection
  | other
  deriving DecidableEq

/-- An offline frame, which may lack its content. -/
abbrev OfflineFrame := Option V1Frame

/-! ## Sending -/

/-- `Link::send_chunk`. -/
def chunkFrame (header : PayloadHeader) (offset : Int) (last : Bool) (body : List UInt8) : V1Frame :=
  .payloadTransfer header ⟨if last then 1 else 0, offset, body⟩

/-- `Link::send_sharing`: one chunk with the data, one empty chunk with the last chunk flag. -/
def sharingFrames (codec : Codec SharingFrame) (id : Int) (v1 : SharingV1) : List V1Frame :=
  let data := codec.encode (some v1)
  let header : PayloadHeader := ⟨id, .bytes, data.length⟩
  [chunkFrame header 0 false data, chunkFrame header data.length true []]

/-! ## Receiving -/

/-- Errors of a connection, with what their texts tell. -/
inductive LinkError where
  /-- The connection was closed or silent for too long, or a message could not be opened. -/
  | lost
  /-- A frame could not be written. -/
  | write
  | bytesPayloadSize (totalSize : Int)
  | bytesChunk (offset : Int) (length : Nat)
  | sharingFrame
  | notAnnounced (id : Int)
  | fileChunk (offset written : Int)
  | growsPastSize (path : String)
  | unsupportedPayload (payloadType : PayloadType)
  | createFile (path : String)
  | writeFile (path : String)
  | syncFile (path : String)
  deriving DecidableEq

/-- `BytesPayloads`: the chunks of each payload so far. -/
abbrev BytesPayloads := AList fun _ : Int => List UInt8

namespace BytesPayloads

variable (buffers : BytesPayloads)

/-- The bytes of a payload so far. -/
def buffer (id : Int) : List UInt8 := (buffers.lookup id).getD []

/-- `BytesPayloads::add`: the payload once the last chunk is in. -/
def add (header : PayloadHeader) (chunk : PayloadChunk) :
    Except LinkError (BytesPayloads × Option (Int × List UInt8)) :=
  if header.totalSize > MAX_BYTES_PAYLOAD then .error (.bytesPayloadSize header.totalSize)
  else
    let buffer := buffers.buffer header.id
    if chunk.offset ≠ buffer.length then .error (.bytesChunk chunk.offset buffer.length)
    else if chunk.last then .ok (buffers.erase header.id, some (header.id, buffer ++ chunk.body))
    else .ok (buffers.insert header.id (buffer ++ chunk.body), none)

/-- The chunk is not too large and begins where the last one has ended. -/
def Fits (header : PayloadHeader) (chunk : PayloadChunk) : Prop :=
  header.totalSize ≤ MAX_BYTES_PAYLOAD ∧ chunk.offset = (buffers.buffer header.id).length
  deriving Decidable

variable {buffers : BytesPayloads} {header : PayloadHeader} {chunk : PayloadChunk}

theorem add_eq (h : buffers.Fits header chunk) : buffers.add header chunk = if chunk.last then
        .ok (buffers.erase header.id, some (header.id, buffers.buffer header.id ++ chunk.body))
      else .ok (buffers.insert header.id (buffers.buffer header.id ++ chunk.body), none) := by
  obtain ⟨hsz, hoff⟩ := h
  rw [add, if_neg (not_lt.2 hsz)]
  simp [hoff]

theorem add_error (h : ¬buffers.Fits header chunk) : ∃ e, buffers.add header chunk = .error e := by
  unfold add
  by_cases hsz : header.totalSize > MAX_BYTES_PAYLOAD
  · exact ⟨_, if_pos hsz⟩
  rw [if_neg hsz]
  refine ⟨_, if_pos ?_⟩
  intro hoff
  exact h ⟨not_lt.1 hsz, hoff⟩

/-- What is there of a sharing frame between its two chunks, and nothing at other times. -/
def Buffered (buffers : BytesPayloads) (part : Option (Int × List UInt8)) : Prop :=
  ∀ id, buffers.lookup id = part.bind fun p => if id = p.1 then some p.2 else none

theorem buffered_empty : Buffered ∅ none := fun _ => lookup_empty _

theorem add_data (id : Int) {data : List UInt8} (h : buffers.Buffered none)
    (hsz : (data.length : Int) ≤ MAX_BYTES_PAYLOAD) :
    ∃ buffers', BytesPayloads.add buffers ⟨id, .bytes, data.length⟩ ⟨0, 0, data⟩ =
      .ok (buffers', none) ∧ buffers'.Buffered (some (id, data)) := by
  have hbuf : buffers.buffer id = [] := by
    rw [buffer, h id]
    rfl
  have hft : buffers.Fits ⟨id, .bytes, data.length⟩ ⟨0, 0, data⟩ := by
    refine ⟨hsz, ?_⟩
    rw [hbuf]
    rfl
  refine ⟨buffers.insert id data, ?_, ?_⟩
  · rw [add_eq hft, PayloadChunk.last_zero, if_neg Bool.false_ne_true, hbuf, nil_append]
  · intro other
    by_cases hid : other = id
    · subst hid
      rw [lookup_insert, bind_some, if_pos rfl]
    · rw [lookup_insert_ne hid, h other, bind_some, if_neg hid]
      rfl

theorem add_last {id : Int} {data : List UInt8} (h : buffers.Buffered (some (id, data)))
    (hsz : (data.length : Int) ≤ MAX_BYTES_PAYLOAD) :
    ∃ buffers', BytesPayloads.add buffers ⟨id, .bytes, data.length⟩ ⟨1, data.length, []⟩ =
      .ok (buffers', some (id, data)) ∧ buffers'.Buffered none := by
  have hbuf : buffers.buffer id = data := by rw [buffer, h id, bind_some, if_pos rfl, getD_some]
  have hft : buffers.Fits ⟨id, .bytes, data.length⟩ ⟨1, data.length, []⟩ := by
    refine ⟨hsz, ?_⟩
    rw [hbuf]
  refine ⟨buffers.erase id, ?_, ?_⟩
  · rw [add_eq hft, PayloadChunk.last_one, if_pos rfl, hbuf, append_nil]
  · intro other
    by_cases hid : other = id
    · subst hid
      rw [lookup_erase]
      rfl
    · rw [lookup_erase_ne hid, h other, bind_some, if_neg hid]
      rfl

/-! ## Runs of `add` -/

/-- The calls of `add` that return no error, with all that was added. -/
def addMachine : Machine (BytesPayloads × List (PayloadHeader × PayloadChunk)) (PayloadHeader × PayloadChunk) where
  init s := s = (∅, [])
  next s a :=
    match s.1.add a.1 a.2 with
    | .ok (buffers, _) => some (buffers, s.2 ++ [a])
    | .error _ => none

/-- What a chunk does to the bytes of a payload. -/
def fill (id : Int) (data : List UInt8) (a : PayloadHeader × PayloadChunk) : List UInt8 :=
  if a.1.id ≠ id then data else if a.2.last then [] else data ++ a.2.body

/-- The bodies added for a payload since it was last complete. -/
def since (id : Int) (added : List (PayloadHeader × PayloadChunk)) : List UInt8 := added.foldl (fill id) []

/-- The chunk ends within the limit. `add` compares only the announced size with it. -/
def Short (chunk : PayloadChunk) : Prop := chunk.offset + chunk.body.length ≤ MAX_BYTES_PAYLOAD

variable {s t : BytesPayloads × List (PayloadHeader × PayloadChunk)} {a : PayloadHeader × PayloadChunk}

theorem addMachine_next (h : addMachine.next s a = some t) : s.1.Fits a.1 a.2 ∧ t.2 = s.2 ++ [a] ∧
    ∀ id, t.1.buffer id = fill id (s.1.buffer id) a := by
  by_cases hft : s.1.Fits a.1 a.2
  · simp only [addMachine, add_eq hft] at h
    cases hla : a.2.last
    all_goals
      simp only [hla, if_true, Bool.false_eq_true, if_false] at h
      cases h
      refine ⟨hft, rfl, fun id => ?_⟩
      by_cases hid : a.1.id = id
      · subst hid
        simp_all [buffer, fill]
      · simp [buffer, fill, hid, lookup_erase_ne (Ne.symm hid), lookup_insert_ne (Ne.symm hid)]
  · obtain ⟨e, herr⟩ := add_error hft
    simp [addMachine, herr] at h

theorem buffer_eq_since (h : addMachine.Reachable s) (id : Int) : s.1.buffer id = since id s.2 := by
  refine Reach.invariant (I := fun s => ∀ id, s.1.buffer id = since id s.2) ?_ ?_ h id
  · exact fun _ hin id => hin ▸ rfl
  · intro s a t _ _ hs hnx id
    obtain ⟨-, hadded, hbuf⟩ := addMachine_next hnx
    rw [hbuf, hs, hadded, since, since, foldl_append]
    rfl

theorem length_buffer_le (h : addMachine.Reach (fun _ a => Short a.2) s) (id : Int) :
    ((s.1.buffer id).length : Int) ≤ MAX_BYTES_PAYLOAD := by
  refine Reach.invariant (I := fun s => ∀ id, ((s.1.buffer id).length : Int) ≤ _) ?_ ?_ h id
  · exact fun _ hin id => hin ▸ (by decide : (0 : Int) ≤ MAX_BYTES_PAYLOAD)
  · intro s a t _ hsh hs hnx id
    obtain ⟨⟨-, hoff⟩, -, hbuf⟩ := addMachine_next hnx
    rw [hbuf, fill]
    split
    · exact hs id
    · rename_i hid
      split
      · exact (by decide : (0 : Int) ≤ MAX_BYTES_PAYLOAD)
      · rw [← not_not.1 hid, length_append, Nat.cast_add, ← hoff]
        exact hsh

/-- A complete payload is what was added for it, and the buffers stay within the limit while every chunk
ends within it. -/
theorem bytes_payloads_bounded (h : addMachine.Reachable s) :
    (∀ header chunk buffers id data, s.1.add header chunk = .ok (buffers, some (id, data)) → id = header.id ∧
      data = since id s.2 ++ chunk.body ∧ (Short chunk → (data.length : Int) ≤ MAX_BYTES_PAYLOAD)) ∧
    (addMachine.Reach (fun _ a => Short a.2) s → ∀ id, ((s.1.buffer id).length : Int) ≤ MAX_BYTES_PAYLOAD) := by
  refine ⟨fun header chunk buffers id data hadd => ?_, fun hsh id => length_buffer_le hsh id⟩
  by_cases hft : s.1.Fits header chunk
  · rw [add_eq hft] at hadd
    split at hadd
    · cases hadd
      refine ⟨rfl, by rw [buffer_eq_since h], fun hsh => ?_⟩
      rw [length_append, Nat.cast_add, ← hft.2]
      exact hsh
    · cases hadd
  · obtain ⟨e, herr⟩ := add_error hft
    rw [herr] at hadd
    cases hadd

/-- The second of two chunks completes the payload. -/
theorem bytes_payloads_bounded_two : ∃ s, addMachine.Reachable s ∧
    s.1.add ⟨1, .bytes, 3⟩ ⟨1, 2, [7]⟩ = .ok (s.1.erase 1, some (1, [5, 6, 7])) ∧ [5, 6, 7] = since 1 s.2 ++ [7] := by
  obtain ⟨s, hs, hbuf⟩ := exists_of_run (M := addMachine) (P := fun s => s.1.buffer 1 = [5, 6])
    [(⟨1, .bytes, 3⟩, ⟨0, 0, [5, 6]⟩)] rfl (by decide)
  have hadd : s.1.add ⟨1, .bytes, 3⟩ ⟨1, 2, [7]⟩ = .ok (s.1.erase 1, some (1, [5, 6, 7])) := by
    rw [add_eq ⟨by decide, by rw [hbuf]; rfl⟩, hbuf, PayloadChunk.last_one, if_pos rfl]
    rfl
  exact ⟨s, hs, hadd, ((bytes_payloads_bounded hs).1 _ _ _ _ _ hadd).2.1⟩

/-- A payload announced as empty brings more than the limit in one chunk. -/
theorem body_past_limit : ∃ s, addMachine.Reachable s ∧ MAX_BYTES_PAYLOAD < (s.1.buffer 1).length := by
  have hadd (body : List UInt8) : add ∅ ⟨1, .bytes, 0⟩ ⟨0, 0, body⟩ = .ok (insert 1 body ∅, none) := by
    rw [add_eq ⟨by decide, rfl⟩, PayloadChunk.last_zero]
    rfl
  refine ⟨_, .step (a := (⟨1, .bytes, 0⟩, ⟨0, 0, replicate (5 * 1024 * 1024 + 1) 0⟩)) (.init rfl) trivial
    (by simp only [addMachine, hadd]; rfl), ?_⟩
  rw [buffer, lookup_insert, getD_some, length_replicate]
  decide

end BytesPayloads

end KaiT2en.Airshare
