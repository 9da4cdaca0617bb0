import KaiT2en.Airshare.Ukey2

/-!
# Frames on the wire

The lower half of `apps/t2-airshare/src/link.rs`: `write_frame` puts the length of a frame in front of it, and
`read_frames` cuts the stream of bytes at these lengths, up to a frame that is too long (`readFrame_writeFrame`). Then
the frames that are not encrypted, the connection request and the connection responses, with the endpoint info of
`apps/t2-airshare/src/endpoint.rs` (`parseEndpointInfo_endpointInfo`).
-/

namespace KaiT2en.Airshare

open KaiT2en.Lib.Encoding KaiT2en.Lib.Bytes List

/-! ## Cutting the stream -/

/-- Largest frame accepted from the wire. -/
def MAX_FRAME : Nat := 5 * 1024 * 1024

/-- The bytes that `write_frame` writes. -/
def writeFrame (data : Bytes) : Bytes := beBytes 4 data.length ++ data

/-- What `read_frames` does with the bytes that have arrived. -/
inductive Read where
  /-- It waits for more. -/
  | pending
  /-- The frame is too long, and nothing more is read. -/
  | dropped
  | frame (data rest : Bytes)
  deriving DecidableEq

/-- One turn of `read_frames`. -/
def readFrame (stream : Bytes) : Read :=
  if stream.length < 4 then .pending
  else
    let len := ofBe (stream.take 4)
    let rest := stream.drop 4
    if MAX_FRAME < len then .dropped
    else if rest.length < len then .pending
    else .frame (rest.take len) (rest.drop len)

theorem readFrame_nil : readFrame [] = .pending := rfl

theorem readFrame_writeFrame {data : Bytes} (h : data.length ≤ MAX_FRAME) (rest : Bytes) :
    readFrame (writeFrame data ++ rest) = .frame data rest := by
  have hhd : (beBytes 4 data.length).length = 4 := length_beBytes 4 data.length
  have hstr : writeFrame data ++ rest = beBytes 4 data.length ++ (data ++ rest) := append_assoc _ _ _
  have hlen : ofBe (beBytes 4 data.length) = data.length := by
    apply ofBe_beBytes
    apply Nat.lt_of_le_of_lt h
    decide
  have htk : (beBytes 4 data.length ++ (data ++ rest)).take 4 = beBytes 4 data.length := take_left' hhd
  have hdr : (beBytes 4 data.length ++ (data ++ rest)).drop 4 = data ++ rest := drop_left' hhd
  have hlg : ¬(beBytes 4 data.length ++ (data ++ rest)).length < 4 := by
    rw [length_append, hhd]
    omega
  have hwh : ¬(data ++ rest).length < data.length := by
    rw [length_append]
    omega
  rw [hstr, readFrame, if_neg hlg]
  simp only [htk, hdr, hlen]
  rw [if_neg (Nat.not_lt.2 h), if_neg hwh, take_left, drop_left]

/-- The frames one behind the other. -/
def stream (raws : List Bytes) : Bytes := raws.flatMap writeFrame

@[simp] theorem stream_nil : stream [] = [] := rfl

theorem stream_cons (raw : Bytes) (raws : List Bytes) : stream (raw :: raws) = writeFrame raw ++ stream raws := rfl

theorem stream_append (raws raws' : List Bytes) : stream (raws ++ raws') = stream raws ++ stream raws' := flatMap_append

theorem readFrame_stream {raw : Bytes} (h : raw.length ≤ MAX_FRAME) (raws : List Bytes) :
    readFrame (stream (raw :: raws)) = .frame raw (stream raws) :=
  readFrame_writeFrame h (stream raws)

/-! ## Endpoint info -/

inductive DeviceType where
  | unknown
  | phone
  | tablet
  | laptop
  deriving DecidableEq

def DeviceType.toBits : DeviceType → UInt8
  | .unknown => 0
  | .phone => 1
  | .tablet => 2
  | .laptop => 3

def DeviceType.fromBits (bits : UInt8) : DeviceType :=
  if bits = 1 then .phone else if bits = 2 then .tablet else if bits = 3 then .laptop else .unknown

def utf8 (text : List Char) : Bytes := text.flatMap String.utf8EncodeChar

/-- `truncate_utf8`: the characters that fit into so many bytes. -/
def truncateUtf8 : List Char → Nat → List Char
  | [], _ => []
  | c :: text, max => if c.utf8Size ≤ max then c :: truncateUtf8 text (max - c.utf8Size) else []

variable (deviceType : DeviceType) (codec : Codec ConnectionFrame)

/-- `endpoint_info`, with its sixteen random bytes. -/
def endpointInfo (random : Bytes) (name : List Char) : Bytes :=
  let name := utf8 (truncateUtf8 name 255)
  [deviceType.toBits <<< 1] ++ random ++ [UInt8.ofNat name.length] ++ name

/-- `parse_endpoint_info`. The name is as it stands in the info, before it is made a text. -/
def parseEndpointInfo (info : Bytes) : Option (DeviceType × Option Bytes) :=
  match info with
  | [] => none
  | first :: _ =>
    let deviceType := DeviceType.fromBits ((first >>> 1) &&& 0x07)
    if first &&& 0x10 ≠ 0 ∨ info.length < 18 then some (deviceType, none)
    else
      let len := (info.getD 17 0).toNat
      some (deviceType, if info.length < 18 + len then none else some ((info.drop 18).take len))

theorem length_utf8_truncateUtf8 (text : List Char) (max : Nat) : (utf8 (truncateUtf8 text max)).length ≤ max := by
  induction text generalizing max with
  | nil => exact Nat.zero_le _
  | cons c text ih =>
    rw [truncateUtf8]
    split
    · have hrs := ih (max - c.utf8Size)
      rw [utf8, flatMap_cons, length_append, String.length_utf8EncodeChar]
      rw [utf8] at hrs
      omega
    · exact Nat.zero_le _

theorem fromBits_toBits :
    DeviceType.fromBits ((deviceType.toBits <<< 1) >>> 1 &&& 0x07) = deviceType ∧
      (deviceType.toBits <<< 1) &&& 0x10 = 0 := by
  cases deviceType <;> decide

/-- The peer sees the device type and as much of the name as fits. -/
theorem parseEndpointInfo_endpointInfo {random : Bytes} (h : random.length = 16) (name : List Char) :
    parseEndpointInfo (endpointInfo deviceType random name) =
      some (deviceType, some (utf8 (truncateUtf8 name 255))) := by
  have hmax := length_utf8_truncateUtf8 name 255
  obtain ⟨hty, hvis⟩ := fromBits_toBits deviceType
  rw [endpointInfo]
  generalize utf8 (truncateUtf8 name 255) = bytes at hmax
  have hlen : (UInt8.ofNat bytes.length).toNat = bytes.length := by
    rw [UInt8.toNat_ofNat']
    omega
  have hhd : ((deviceType.toBits <<< 1) :: random).length = 17 := by rw [length_cons, h]
  have hbt : ((deviceType.toBits <<< 1) :: (random ++ UInt8.ofNat bytes.length :: bytes)).getD 17 0 =
      UInt8.ofNat bytes.length := by
    rw [getD_eq_getElem?_getD, ← cons_append, getElem?_append_right (Nat.le_of_eq hhd), hhd]
    rfl
  have hdr : ((deviceType.toBits <<< 1) :: (random ++ UInt8.ofNat bytes.length :: bytes)).drop 18 =
      bytes := by
    rw [← cons_append, append_cons]
    apply drop_left'
    rw [length_append, hhd]
    rfl
  have hln : ((deviceType.toBits <<< 1) :: (random ++ UInt8.ofNat bytes.length :: bytes)).length =
      18 + bytes.length := by
    rw [length_cons, length_append, h, length_cons]
    omega
  simp only [cons_append, nil_append, append_assoc, parseEndpointInfo, hbt, hdr, hln, hlen, hty, hvis]
  rw [if_neg (by simp), if_neg (Nat.lt_irrefl _), take_length]

/-! ## Frames before the encryption -/

inductive FrameType where
  | unknown
  | connectionRequest
  | connectionResponse
  | payloadTransfer
  | bandwidthUpgradeNegotiation
  | keepAlive
  | disconnection
  | pairedKeyEncryption
  deriving DecidableEq

inductive ConnectionStatus where
  | unknown
  | accept
  | reject
  deriving DecidableEq

/-- The frames of a connection before it is encrypted. -/
structure ConnectionV1 where
  frameType : FrameType
  /-- The endpoint info of the connection request. -/
  connectionRequest : Option Bytes
  connectionResponse : Option ConnectionStatus
  deriving DecidableEq

abbrev ConnectionFrame := Option ConnectionV1

/-- The request that `send` starts with. -/
def connectionRequest (info : Bytes) : ConnectionFrame := some ⟨.connectionRequest, some info, none⟩

def connectionAccept : ConnectionFrame := some ⟨.connectionResponse, none, some .accept⟩

inductive ConnectError where
  | offlineFrame
  | withoutV1
  | expected (expected got : FrameType)
  | requestWithoutBody
  | requestWithoutEndpointInfo
  deriving DecidableEq

/-- Errors before the connection is encrypted. -/
inductive HandshakeError where
  /-- There is no next frame. -/
  | lost
  | write
  | connect (error : ConnectError)
  | secure (error : SecureError)
  deriving DecidableEq

/-- `Frames::expect` on the frame that was read. -/
def expectFrame (expected : FrameType) (raw : Bytes) :
    Except ConnectError ConnectionV1 :=
  match codec.decode raw with
  | none => .error .offlineFrame
  | some none => .error .withoutV1
  | some (some v1) => if v1.frameType ≠ expected then .error (.expected expected v1.frameType) else .ok v1

/-- What `run` does with the connection request. -/
def acceptRequest (raw : Bytes) : Except ConnectError (DeviceType × Option Bytes) :=
  match expectFrame codec .connectionRequest raw with
  | .error e => .error e
  | .ok v1 =>
    match v1.connectionRequest with
    | none => .error .requestWithoutBody
    | some info =>
      match parseEndpointInfo info with
      | none => .error .requestWithoutEndpointInfo
      | some peer => .ok peer

/-- What `send` does with the connection response: its status. -/
def responseStatus (raw : Bytes) : Except ConnectError ConnectionStatus :=
  match expectFrame codec .connectionResponse raw with
  | .error e => .error e
  | .ok v1 => .ok (v1.connectionResponse.getD .unknown)

variable {codec : Codec ConnectionFrame}

theorem expectFrame_encode (h : codec.Faithful) (v1 : ConnectionV1) :
    expectFrame codec v1.frameType (codec.encode (some v1)) = .ok v1 := by
  rw [expectFrame, h]
  exact if_neg (not_not.2 rfl)

theorem acceptRequest_encode (h : codec.Faithful) (deviceType : DeviceType)
    {random : Bytes} (hran : random.length = 16) (name : List Char) :
    acceptRequest codec (codec.encode (connectionRequest (endpointInfo deviceType random name))) =
      .ok (deviceType, some (utf8 (truncateUtf8 name 255))) := by
  have hexp := expectFrame_encode h ⟨.connectionRequest, some (endpointInfo deviceType random name), none⟩
  rw [acceptRequest, connectionRequest, hexp]
  simp only [parseEndpointInfo_endpointInfo deviceType hran]

theorem responseStatus_accept (h : codec.Faithful) :
    responseStatus codec (codec.encode connectionAccept) = .ok .accept := by
  have hexp := expectFrame_encode h ⟨.connectionResponse, none, some .accept⟩
  rw [responseStatus, connectionAccept, hexp]
  rfl

end KaiT2en.Airshare
