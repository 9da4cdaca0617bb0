import KaiT2en.Airshare.Framing
import KaiT2en.Airshare.Link

/-!
# The sending side of a Quick Share transfer

`apps/t2-airshare/src/send.rs` from the paired key exchange on: the loop of `send` until the answer is there,
`send_files`, the disconnection and the wait for the receiver to close the connection. `Phase.react` says what the
sender does at each point where it waits or writes.

A file is its name and its bytes. It does not change while it is sent.
-/

namespace KaiT2en.Airshare.Send

open KaiT2en.Lib.Encoding

/-- Chunk size for file payloads. -/
def CHUNK : Nat := 512 * 1024

structure OutgoingFile where
  name : String
  payloadId : Int
  content : List UInt8
  deriving DecidableEq

/-- The metadata of the introduction. -/
def OutgoingFile.metadata (file : OutgoingFile) : FileMetadata := ⟨file.name, file.payloadId, file.content.length⟩

/-- The header of the chunks. -/
def OutgoingFile.header (file : OutgoingFile) : PayloadHeader := ⟨file.payloadId, .file, file.content.length⟩

def introduction (files : List OutgoingFile) : SharingV1 := .introduction ⟨files.map OutgoingFile.metadata, []⟩

inductive SendOutcome where
  | sent
  | declined (status : ResponseStatus)
  /-- Declined before the paired key exchange. -/
  | connectionDeclined (status : ConnectionStatus)
  deriving DecidableEq

inductive SendError where
  | noAnswer
  | closedByReceiver
  | cancelledByReceiver
  | sharingFrame
  | link (error : LinkError)
  | handshake (error : HandshakeError)
  deriving DecidableEq

/-- Where `send` is. -/
inductive Phase where
  /-- Before the paired key exchange. -/
  | connecting
  /-- In the loop, with the chunks of bytes payloads so far. -/
  | waiting (bytes : BytesPayloads)
  /-- In `send_files`, with the files that are left and the offset in the first of them. -/
  | sending (files : List OutgoingFile) (offset : Nat)
  /-- Behind the disconnection. -/
  | draining
  | returned (result : Except SendError SendOutcome)

def Phase.Returned : Phase → Bool
  | .returned _ => true
  | _ => false

/-- What the sender gets to see. The numbers are random payload ids. -/
inductive Input where
  | connected (id : Int)
  | frame (frame : OfflineFrame) (id : Int)
  | tick
  | deadline
  /-- There is no next frame. -/
  | lost
  /-- A read from the file returns so many bytes. -/
  | read (n : Nat)
  | finishFile
  | disconnect
  /-- The ten seconds for the receiver are over. -/
  | drained

variable (codec : Codec SharingFrame) (files : List OutgoingFile)

def onSharing (bytes : BytesPayloads) (id : Int) :
    SharingV1 → Phase × List V1Frame
  | .pairedKeyEncryption => (.waiting bytes, sharingFrames codec id .pairedKeyResult)
  | .pairedKeyResult => (.waiting bytes, sharingFrames codec id (introduction files))
  | .response status =>
    if status ≠ .accept then (.returned (.ok (.declined status)), [.disconnection])
    else (.sending files 0, [])
  | .cancel => (.returned (.error .cancelledByReceiver), [])
  | _ => (.waiting bytes, [])

/-- One frame in the loop of `send`. -/
def onFrame (bytes : BytesPayloads) (id : Int) :
    OfflineFrame → Phase × List V1Frame
  | some .disconnection => (.returned (.error .closedByReceiver), [])
  | some (.payloadTransfer header chunk) =>
    match bytes.add header chunk with
    | .error e => (.returned (.error (.link e)), [])
    | .ok (bytes, none) => (.waiting bytes, [])
    | .ok (bytes, some (_, data)) =>
      match codec.decode data with
      | none => (.returned (.error .sharingFrame), [])
      | some none => (.waiting bytes, [])
      | some (some v1) => onSharing codec files bytes id v1
  | _ => (.waiting bytes, [])

/-- The next point where `send` waits or writes, and what it writes. -/
def Phase.react : Phase → Input → Option (Phase × List V1Frame)
  | .connecting, .connected id => some (.waiting ∅, sharingFrames codec id .pairedKeyEncryption)
  | .waiting bytes, .frame frame id => some (onFrame codec files bytes id frame)
  | .waiting bytes, .tick => some (.waiting bytes, [.keepAlive])
  | .waiting _, .deadline => some (.returned (.error .noAnswer), [])
  | .waiting _, .lost => some (.returned (.error (.link .lost)), [])
  | .sending (file :: rest) offset, .read n =>
    if 0 < n ∧ n ≤ CHUNK ∧ offset + n ≤ file.content.length then
      some (.sending (file :: rest) (offset + n),
        [chunkFrame file.header offset false ((file.content.drop offset).take n)])
    else none
  | .sending (file :: rest) offset, .finishFile =>
    if offset < file.content.length then none
    else some (.sending rest 0, [chunkFrame file.header file.content.length true []])
  | .sending [] _, .disconnect => some (.draining, [.disconnection])
  | .draining, .frame _ _ => some (.draining, [])
  | .draining, .lost => some (.returned (.ok .sent), [])
  | .draining, .drained => some (.returned (.ok .sent), [])
  | _, _ => none

inductive Reacts (codec : Codec SharingFrame) (files : List OutgoingFile) :
    Phase → Input → Phase → List V1Frame → Prop
  | connected (id : Int) : Reacts codec files .connecting (.connected id) (.waiting ∅)
      (sharingFrames codec id .pairedKeyEncryption)
  | frame {bytes : BytesPayloads} {frame : OfflineFrame} {id : Int} {phase : Phase} {frames : List V1Frame} :
      onFrame codec files bytes id frame = (phase, frames) →
      Reacts codec files (.waiting bytes) (.frame frame id) phase frames
  | tick (bytes : BytesPayloads) : Reacts codec files (.waiting bytes) .tick (.waiting bytes) [.keepAlive]
  | deadline (bytes : BytesPayloads) : Reacts codec files (.waiting bytes) .deadline (.returned (.error .noAnswer)) []
  | lost (bytes : BytesPayloads) : Reacts codec files (.waiting bytes) .lost (.returned (.error (.link .lost))) []
  | read {file : OutgoingFile} {rest : List OutgoingFile} {offset n : Nat} :
      0 < n → n ≤ CHUNK → offset + n ≤ file.content.length →
      Reacts codec files (.sending (file :: rest) offset) (.read n) (.sending (file :: rest) (offset + n))
        [chunkFrame file.header offset false ((file.content.drop offset).take n)]
  | finishFile {file : OutgoingFile} {rest : List OutgoingFile} {offset : Nat} : file.content.length ≤ offset →
      Reacts codec files (.sending (file :: rest) offset) .finishFile (.sending rest 0)
        [chunkFrame file.header file.content.length true []]
  | disconnect (offset : Nat) : Reacts codec files (.sending [] offset) .disconnect .draining [.disconnection]
  | skip (frame : OfflineFrame) (id : Int) : Reacts codec files .draining (.frame frame id) .draining []
  | closed : Reacts codec files .draining .lost (.returned (.ok .sent)) []
  | drained : Reacts codec files .draining .drained (.returned (.ok .sent)) []

theorem reacts_of_react {codec : Codec SharingFrame} {files : List OutgoingFile} {phase phase' : Phase}
    {input : Input} {frames : List V1Frame} (h : phase.react codec files input = some (phase', frames)) :
    Reacts codec files phase input phase' frames := by
  unfold Phase.react at h
  split at h
  all_goals first | (cases h; done) | (cases h; constructor) | skip
  · exact .frame (Option.some.inj h)
  · split at h
    · cases h
      exact .read (by omega) (by omega) (by omega)
    · exact nomatch h
  · split at h
    · exact nomatch h
    · cases h
      exact .finishFile (by omega)

end KaiT2en.Airshare.Send
