import KaiT2en.Airshare.Refinement

/-!
# From end to end

`send` against `run` over a connection that delivers every byte in order. In every run in which no timer runs
out, the user accepts, the file system works and no frame is too long, both sides return what they should,
and they do return (`send_delivers`). The sender gives the user of the receiver two minutes to answer; when
the answer comes later, `send` has failed (`late_answer_unsent`). The connection refines the exchange of
whole frames (`connection_refines_loopback`).
-/

namespace KaiT2en.Airshare.Connection

open KaiT2en.Lib.Encoding KaiT2en.Lib.Transition List Loopback
open Send Receive
open Loopback (Setting Delivered)

section

variable {P : Primitives OfflineFrame} {peers : Peers P}

/-- The connection carries the frames of a state of `Loopback` with the invariant, and so much is left to
do. -/
def Left (peers : Peers P) (s : State P) (w : Nat) : Prop :=
  ∃ a n rp sp sq rq, Sim peers s a n ∧ Loopback.Inv peers.codec peers.files a rp sp sq rq ∧
    w = n + weight peers.files a sp rq

theorem Left.init : Left peers ⟨.greeting, .connecting, .request, none, [], []⟩
    (2 * (peers.files.map fun file => file.content.length + 1).sum + 38) := by
  refine ⟨_, 5, _, _, _, _, Sim.init, Loopback.Inv.init, ?_⟩
  simp only [weight, left_begin, offers, answers, total,
    senderWeight, receiverWeight, length_cons, length_nil, map_nil,
    sum_nil]
  omega

theorem scripts (hset : Setting peers.codec peers.files) {a : Loopback.State} {rp sp sq rq : Loopback.Pos}
    (h : Loopback.Inv peers.codec peers.files a rp sp sq rq) : Scripts peers a := by
  intro action a' hsmo hsp
  obtain ⟨rp', sp', sq', rq', hinv, -⟩ := h.step hset hsmo hsp
  exact hinv.scripted

theorem Left.step (hlw : P.Lawful) (hpl : peers.plain.Faithful) (hset : Setting peers.codec peers.files)
    (hcpt : peers.Compact) {s t : State P} {w : Nat} (h : Left peers s w) {action : Action}
    (hsmo : Smooth peers action) (hnx : (connectionMachine peers).next s action = some t) :
    ∃ w', Left peers t w' ∧ w' + 1 ≤ w + if Tick action then 2 else 0 := by
  obtain ⟨a, n, rp, sp, sq, rq, hsim, hinv, rfl⟩ := h
  rcases hsim.step hlw hpl hcpt (scripts hset hinv) hsmo hnx with
    ⟨m, rfl, htc, hsim'⟩ | ⟨action', a', hsmo', htc, hsp, hsim'⟩
  · exact ⟨_, ⟨a, m, rp, sp, sq, rq, hsim', hinv, rfl⟩, by omega⟩
  · obtain ⟨rp', sp', sq', rq', hinv', hless⟩ := hinv.step hset hsmo' hsp
    rw [htc] at hless
    exact ⟨_, ⟨a', n, rp', sp', sq', rq', hsim', hinv', rfl⟩, by omega⟩

/-- In every run in which nothing goes wrong, `send` returns only `Sent` and the receiver only `Received` with the
files in order and as they are; until both have returned, something other than a keep-alive can happen, and only so
often. -/
theorem send_delivers (hlaws : P.Lawful) (hplain : peers.plain.Faithful)
    (hset : Setting peers.codec peers.files) (hcompact : peers.Compact) :
    (∀ s, (connectionMachine peers).Reach (fun _ action => Smooth peers action) s →
      (∀ result, s.sender = .returned result → result = .ok .sent) ∧
      (∀ run result, s.receiver = some run → run.ended = some result →
        ∃ paths, result = .ok (.received paths []) ∧ Delivered peers.files run.session paths) ∧
      (∀ error, s.receiverStage ≠ .failed error) ∧
      (s.sender.Returned = true ∧ s.receiverReturned = true ∨ Enabled peers s)) ∧
    ∀ s t l, (connectionMachine peers).init s →
      ((connectionMachine peers).guarded fun _ action => Smooth peers action).run s l = some t →
      l.length ≤ 2 * (peers.files.map fun file => file.content.length + 1).sum + 38 + 2 * l.countP Tick := by
  constructor
  · intro s hs
    have hlf : ∃ w, Left peers s w := by
      apply hs.invariant (I := fun s => ∃ w, Left peers s w)
      · rintro _ rfl
        exact ⟨_, Left.init⟩
      · rintro s action t - hsmo ⟨w, hlf⟩ hnx
        obtain ⟨w', hlf', -⟩ := hlf.step hlaws hplain hset hcompact hsmo hnx
        exact ⟨w', hlf'⟩
    obtain ⟨w, a, n, rp, sp, sq, rq, hsim, hinv, -⟩ := hlf
    obtain ⟨hsd, hrcvr⟩ := hinv.safe
    rw [hsim.sender] at hsd
    rw [hsim.receiver] at hrcvr
    refine ⟨hsd, hrcvr, hsim.not_failed, ?_⟩
    rw [hsim.receiverReturned, ← hsim.sender]
    by_cases hret : a.sender.Returned = true ∧ a.receiverEnded = true
    · exact .inl hret
    · right
      exact hsim.progress hlaws hplain hcompact (scripts hset hinv) (hinv.progress peers.upgrade hret)
  · rintro s t l rfl hrun
    apply Machine.length_le_of_run (R := Left peers) _ Left.init hrun
    intro s action t w hlf hnx
    simp only [Machine.guarded, Option.ite_none_right_eq_some] at hnx
    exact hlf.step hlaws hplain hset hcompact hnx.1 hnx.2

end

/-! ## One small file -/

namespace Sample

open Delimited Airshare.Sample Lib.Bytes

def natBytes (n : Nat) : Bytes := beBytes (n.log2 / 8 + 1) n

theorem ofBe_natBytes (n : Nat) : ofBe (natBytes n) = n := by
  apply ofBe_beBytes
  rcases Nat.eq_zero_or_pos n with rfl | hpos
  · decide
  have hlog : n < 2 ^ (n.log2 + 1) := Nat.lt_log2_self
  apply Nat.lt_of_lt_of_le hlog
  rw [show (256 : Nat) = 2 ^ 8 from rfl, ← Nat.pow_mul]
  apply Nat.pow_le_pow_right (by decide)
  omega

/-- A sign and the bytes of the absolute value. -/
def intCodec : Delimited Int :=
  (byte.pair bytesCodec).map (fun i => (if 0 ≤ i then 0 else 1, natBytes i.natAbs))
    (fun p => if p.1 = 0 then (ofBe p.2 : Int) else -(ofBe p.2 : Int)) (by
      intro i
      simp only [ofBe_natBytes]
      split
      · rw [if_pos rfl]
        omega
      · rw [if_neg (by decide)]
        omega)

def payloadTypeCodec : Delimited PayloadType :=
  enumCodec (fun | .unknown => 0 | .bytes => 1 | .file => 2 | .stream => 3)
    (fun b => if b = 1 then .bytes else if b = 2 then .file else if b = 3 then .stream else .unknown)
    (by intro a; cases a <;> rfl)

/-- The frames without content. -/
def plainFrame (tag : UInt8) : V1Frame :=
  if tag = 1 then .bandwidthUpgradeNegotiation .unknown
  else if tag = 2 then .bandwidthUpgradeNegotiation .upgradePathAvailable
  else if tag = 3 then .bandwidthUpgradeNegotiation .lastWriteToPriorChannel
  else if tag = 4 then .bandwidthUpgradeNegotiation .safeToClosePriorChannel
  else if tag = 5 then .bandwidthUpgradeNegotiation .clientIntroduction
  else if tag = 6 then .bandwidthUpgradeNegotiation .upgradeFailure
  else if tag = 7 then .bandwidthUpgradeNegotiation .clientIntroductionAck
  else if tag = 8 then .keepAlive
  else if tag = 9 then .disconnection
  else .other

def frameTag : V1Frame → UInt8
  | .payloadTransfer _ _ => 0
  | .bandwidthUpgradeNegotiation .unknown => 1
  | .bandwidthUpgradeNegotiation .upgradePathAvailable => 2
  | .bandwidthUpgradeNegotiation .lastWriteToPriorChannel => 3
  | .bandwidthUpgradeNegotiation .safeToClosePriorChannel => 4
  | .bandwidthUpgradeNegotiation .clientIntroduction => 5
  | .bandwidthUpgradeNegotiation .upgradeFailure => 6
  | .bandwidthUpgradeNegotiation .clientIntroductionAck => 7
  | .keepAlive => 8
  | .disconnection => 9
  | .other => 10

def payload : V1Frame → PayloadHeader × PayloadChunk
  | .payloadTransfer header chunk => (header, chunk)
  | _ => (⟨0, .unknown, 0⟩, ⟨0, 0, []⟩)

def headerCodec : Delimited PayloadHeader :=
  (intCodec.pair (payloadTypeCodec.pair intCodec)).map (fun h => (h.id, h.payloadType, h.totalSize))
    (fun p => ⟨p.1, p.2.1, p.2.2⟩) (fun _ => rfl)

def chunkCodec : Delimited PayloadChunk :=
  (int32Codec.pair (intCodec.pair bytesCodec)).map (fun c => (c.flags, c.offset, c.body))
    (fun p => ⟨p.1, p.2.1, p.2.2⟩) (fun _ => rfl)

def frameCodec : Delimited V1Frame :=
  (byte.pair (headerCodec.pair chunkCodec)).map (fun frame => (frameTag frame, payload frame))
    (fun p => if p.1 = 0 then .payloadTransfer p.2.1 p.2.2 else plainFrame p.1) (by
      intro frame
      cases frame with
      | bandwidthUpgradeNegotiation event => cases event <;> rfl
      | _ => rfl)

def statusCodec : Delimited ResponseStatus :=
  enumCodec
    (fun | .unknown => 0 | .accept => 1 | .reject => 2 | .notEnoughSpace => 3
         | .unsupportedAttachmentType => 4 | .timedOut => 5)
    (fun b => if b = 1 then .accept else if b = 2 then .reject else if b = 3 then .notEnoughSpace
      else if b = 4 then .unsupportedAttachmentType else if b = 5 then .timedOut else .unknown)
    (by intro a; cases a <;> rfl)

def introductionCodec : Delimited IntroductionFrame :=
  ((stringCodec.pair (intCodec.pair intCodec)).map
      (fun m : FileMetadata => (m.name, m.payloadId, m.size)) (fun p => ⟨p.1, p.2.1, p.2.2⟩)
      (fun _ => rfl)).list.pair
    ((stringCodec.pair intCodec).map (fun m : TextMetadata => (m.textTitle, m.payloadId))
      (fun p => ⟨p.1, p.2⟩) (fun _ => rfl)).list |>.map
    (fun f => (f.fileMetadata, f.textMetadata)) (fun p => ⟨p.1, p.2⟩) (fun _ => rfl)

def sharingTag : SharingV1 → UInt8
  | .unknown => 0
  | .introduction _ => 1
  | .response _ => 2
  | .pairedKeyEncryption => 3
  | .pairedKeyResult => 4
  | .certificateInfo => 5
  | .cancel => 6

def sharingOf (tag : UInt8) (status : ResponseStatus) (frame : IntroductionFrame) : SharingV1 :=
  if tag = 1 then .introduction frame else if tag = 2 then .response status
  else if tag = 3 then .pairedKeyEncryption else if tag = 4 then .pairedKeyResult
  else if tag = 5 then .certificateInfo else if tag = 6 then .cancel else .unknown

def sharingStatus : SharingV1 → ResponseStatus
  | .response status => status
  | _ => .unknown

def sharingIntroduction : SharingV1 → IntroductionFrame
  | .introduction frame => frame
  | _ => ⟨[], []⟩

def sharingCodec : Delimited SharingV1 :=
  (byte.pair (statusCodec.pair introductionCodec)).map
    (fun v1 => (sharingTag v1, sharingStatus v1, sharingIntroduction v1))
    (fun p => sharingOf p.1 p.2.1 p.2.2) (by intro v1; cases v1 <;> rfl)

def frameTypeCodec : Delimited FrameType :=
  enumCodec
    (fun | .unknown => 0 | .connectionRequest => 1 | .connectionResponse => 2 | .payloadTransfer => 3
         | .bandwidthUpgradeNegotiation => 4 | .keepAlive => 5 | .disconnection => 6
         | .pairedKeyEncryption => 7)
    (fun b => if b = 1 then .connectionRequest else if b = 2 then .connectionResponse
      else if b = 3 then .payloadTransfer else if b = 4 then .bandwidthUpgradeNegotiation
      else if b = 5 then .keepAlive else if b = 6 then .disconnection
      else if b = 7 then .pairedKeyEncryption else .unknown)
    (by intro a; cases a <;> rfl)

def connectionStatusCodec : Delimited ConnectionStatus :=
  enumCodec (fun | .unknown => 0 | .accept => 1 | .reject => 2)
    (fun b => if b = 1 then .accept else if b = 2 then .reject else .unknown)
    (by intro a; cases a <;> rfl)

def connectionCodec : Delimited ConnectionV1 :=
  (frameTypeCodec.pair (bytesCodec.option.pair connectionStatusCodec.option)).map
    (fun f => (f.frameType, f.connectionRequest, f.connectionResponse))
    (fun p => ⟨p.1, p.2.1, p.2.2⟩) (fun _ => rfl)

/-- The simple primitives, for offline frames. The messages are short without encryption. -/
def framePrimitives : Primitives OfflineFrame where
  Secret := primitives.Secret
  Public := primitives.Public
  publicKey := primitives.publicKey
  x := primitives.x
  y := primitives.y
  fromEncodedPoint := primitives.fromEncodedPoint
  diffieHellman := primitives.diffieHellman
  sha256 := primitives.sha256
  sha512 := primitives.sha512
  hkdf := primitives.hkdf
  hmac key _ := key
  encrypt _ _ text := text
  decrypt _ _ text := some text
  ukey2Message := primitives.ukey2Message
  ukey2ClientInit := primitives.ukey2ClientInit
  ukey2ServerInit := primitives.ukey2ServerInit
  ukey2ClientFinished := primitives.ukey2ClientFinished
  genericPublicKey := primitives.genericPublicKey
  gcmMetadata := primitives.gcmMetadata
  headerAndBody := primitives.headerAndBody
  secureMessage := primitives.secureMessage
  deviceToDeviceMessage := primitives.deviceToDeviceMessage
  offlineFrame := frameCodec.option.codec

theorem framePrimitives_lawful : framePrimitives.Lawful :=
  { primitives_lawful with
    decrypt_encrypt := fun _ _ _ _ _ => rfl
    offlineFrame := codec_faithful _ }

/-- A file of two bytes. -/
def file : OutgoingFile := ⟨"a", 7, [1, 2]⟩

def peers : Peers framePrimitives where
  codec := sharingCodec.option.codec
  plain := connectionCodec.option.codec
  handshake := ⟨(3 : UInt8), (5 : UInt8), handshake.clientRandom, handshake.serverRandom,
    handshake.length_clientRandom, handshake.length_serverRandom⟩
  name := ['L']
  random := iv.bytes
  length_random := iv.length
  files := [file]
  upgrade := false

/-! ### Lengths -/

theorem length_put_bytes (bs : Bytes) : (bytesCodec.put bs).length = 2 * bs.length + 1 := by
  induction bs with
  | nil => rfl
  | cons b bs ih =>
    have hcn : bytesCodec.put (b :: bs) = 1 :: b :: bytesCodec.put bs := rfl
    rw [hcn, length_cons, length_cons, ih, length_cons]
    omega

theorem length_put_int {i : Int} (h : Loopback.Ranged i) : (intCodec.put i).length ≤ 18 := by
  have hint : intCodec.put i = (if 0 ≤ i then 0 else 1) :: bytesCodec.put (natBytes i.natAbs) := rfl
  have hlog : i.natAbs.log2 ≤ 63 := by
    rcases Nat.eq_zero_or_pos i.natAbs with hz | hpos
    · rw [hz]
      decide
    have hpow : 2 ^ i.natAbs.log2 ≤ 2 ^ 63 := by
      apply Nat.le_trans (Nat.log2_self_le (by omega))
      have hrng := h
      unfold Loopback.Ranged at hrng
      omega
    exact (Nat.pow_le_pow_iff_right (by decide)).1 hpow
  rw [hint, length_cons, length_put_bytes, natBytes, length_beBytes]
  omega

theorem length_message {mac : Bytes} (hmac : mac.length = 32) (key : Bytes) (seq : Int32) (iv : Iv)
    (frame : V1Frame) :
    (message framePrimitives key mac seq iv frame).length =
      8 * (frameCodec.option.put (some frame)).length + 192 := by
  let text := headerAndBodyBytes framePrimitives key seq iv (some frame)
  have htx : text.length = 4 * (frameCodec.option.put (some frame)).length + 63 := by
    let inner := int32Codec.put seq ++ bytesCodec.put (frameCodec.option.put (some frame))
    let metadata := framePrimitives.gcmMetadata.encode ⟨DEVICE_TO_DEVICE_MESSAGE, 1⟩
    have hpar : text = [1] ++ ([2] ++ (bytesCodec.put iv.bytes ++ (bytesCodec.put metadata ++
        bytesCodec.put inner))) := rfl
    have hmet : metadata.length = 8 := rfl
    have hseq : (int32Codec.put seq).length = 4 := rfl
    simp only [hpar, inner, length_append, length_put_bytes, length_singleton, hmet, hseq,
      iv.length]
    omega
  have hmsg : message framePrimitives key mac seq iv frame = bytesCodec.put text ++ bytesCodec.put mac := rfl
  rw [hmsg, length_append, length_put_bytes, length_put_bytes, hmac, htx]
  omega

theorem length_put_chunk {header : PayloadHeader} {offset : Int} {last : Bool} {body : Bytes}
    (hid : Loopback.Ranged header.id) (hsz : Loopback.Ranged header.totalSize) (hoff : Loopback.Ranged offset) :
    (frameCodec.option.put (some (chunkFrame header offset last body))).length ≤ 2 * body.length + 63 := by
  have hpar : frameCodec.option.put (some (chunkFrame header offset last body)) = [1] ++ (([0] ++
      ((intCodec.put header.id ++ (payloadTypeCodec.put header.payloadType ++ intCodec.put header.totalSize)) ++
      (int32Codec.put (if last then 1 else 0) ++ (intCodec.put offset ++ bytesCodec.put body)))) ++ [0]) := rfl
  have hty : (payloadTypeCodec.put header.payloadType).length = 1 := rfl
  have hfl : (int32Codec.put (if last then 1 else 0)).length = 4 := rfl
  have hid' := length_put_int hid
  have hsz' := length_put_int hsz
  have hoff' := length_put_int hoff
  simp only [hpar, length_append, length_put_bytes, length_singleton, hty, hfl]
  omega

theorem length_sharing {v1 : SharingV1} (h : v1 ∈ offers peers.files ++ answers) :
    (peers.codec.encode (some v1)).length ≤ 100 := by
  revert v1
  decide

theorem length_scripted {frame : V1Frame} (h : Loopback.Scripted peers.codec peers.files frame) :
    (frameCodec.option.put (some frame)).length ≤ 300 := by
  cases h with
  | idle h =>
    rcases h with rfl | rfl
    · decide
    · decide
  | @sharing v1 id _ hv1 hid hfr =>
    have hlen := length_sharing hv1
    have hran : Loopback.Ranged (peers.codec.encode (some v1)).length := by constructor <;> omega
    rcases mem_pair.1 hfr with rfl | rfl
    · exact Nat.le_trans (length_put_chunk hid hran ranged_zero) (by omega)
    · exact Nat.le_trans (length_put_chunk hid hran hran) (by decide)
  | @chunk _ offset n hfi _ hle =>
    obtain rfl := mem_singleton.1 hfi
    have hcont : file.content.length = 2 := rfl
    have hbo : ((file.content.drop offset).take n).length ≤ 2 := by
      rw [length_take, length_drop]
      omega
    have hoff : Loopback.Ranged offset := by constructor <;> omega
    have hsz : Loopback.Ranged file.header.totalSize := by decide
    exact Nat.le_trans (length_put_chunk (by decide) hsz hoff) (by omega)
  | lastChunk hfi =>
    obtain rfl := mem_singleton.1 hfi
    decide
  | bye => decide

theorem compact : peers.Compact where
  request := by decide
  clientInit := by decide +kernel
  serverInit := by decide +kernel
  clientFinish := by decide +kernel
  accept := by decide
  sealed frame hfr key mac seq iv _ hmac := by
    rw [length_message hmac]
    have hlen := length_scripted hfr
    unfold MAX_FRAME
    omega

theorem setting : Setting peers.codec peers.files where
  faithful := codec_faithful _
  nonempty := cons_ne_nil _ _
  distinct := nodup_singleton _
  fits v1 hv1 := by
    have hlen := length_sharing hv1
    unfold MAX_BYTES_PAYLOAD
    omega

def sends (action : Loopback.SenderAction) : Action := .sender action false fun _ => iv

def receives (action : Loopback.ReceiverAction) : Action := .receiver action 0 fun _ => iv

/-- The connection is there, and the receiver has asked the user. -/
def asking : List Action :=
  [sends (.connected 0), receives (.frame .calm), receives (.frame .calm), sends (.frame 0),
    receives (.frame .calm), receives (.frame .calm), sends (.frame 0)] ++
  (List.replicate 2 (receives (.frame .calm))) ++ List.replicate 2 (sends (.frame 0)) ++
  (List.replicate 2 (receives (.frame .calm))) ++ List.replicate 2 (sends (.frame 0)) ++
  (List.replicate 2 (receives (.frame .calm)))

/-- The user accepts, the file gets over, and both sides say goodbye. -/
def transfer : List Action :=
  asking ++ [receives (.answer true .calm), sends (.frame 0), sends (.frame 0), sends (.read 2), sends .finishFile,
    sends .disconnect, receives (.frame .calm), receives (.frame .calm), sends (.frame 0), sends .closed]

/-- Two minutes without an answer. -/
def Deadline : Action → Bool
  | .sender .deadline false _ => true
  | _ => false

/-- `send` has failed for want of an answer. -/
def unanswered : Phase → Bool
  | .returned (.error .noAnswer) => true
  | _ => false

end Sample

theorem send_delivers_transfer :
    ∃ s run, (connectionMachine Sample.peers).Reach (fun _ action => Smooth Sample.peers action) s ∧
      s.sender.Returned = true ∧ s.receiver = some run ∧ run.ended.isSome = true ∧
      s.sender = .returned (.ok .sent) ∧
      ∃ paths, run.ended = some (.ok (.received paths [])) ∧ Delivered Sample.peers.files run.session paths := by
  obtain ⟨s, hre, hp⟩ := Machine.exists_of_guarded_run (M := connectionMachine Sample.peers)
    (P := fun s => s.sender.Returned && s.receiver.any fun run => run.ended.isSome)
    (fun _ action => Smooth Sample.peers action) Sample.transfer rfl (by decide +kernel)
  obtain ⟨hsd, hrcvr, -, -⟩ := (send_delivers Sample.framePrimitives_lawful
    (Delimited.codec_faithful _) Sample.setting Sample.compact).1 s hre
  rw [Bool.and_eq_true, Option.any_eq_true] at hp
  obtain ⟨hret, run, hrun, hend⟩ := hp
  obtain ⟨result, hres⟩ := Option.isSome_iff_exists.1 hend
  obtain ⟨paths, rfl, hdel⟩ := hrcvr run result hrun hres
  refine ⟨s, run, hre, hret, hrun, hend, ?_, paths, hres, hdel⟩
  cases hphase : s.sender with
  | returned outcome => rw [hsd outcome hphase]
  | _ =>
    rw [hphase] at hret
    exact nomatch hret

/-- The user takes more than two minutes to accept, and nothing else goes wrong: `send` fails. -/
theorem late_answer_unsent :
    ∃ s run, (connectionMachine Sample.peers).Reach
        (fun _ action => Smooth Sample.peers action ∨ Sample.Deadline action = true) s ∧
      s.sender = .returned (.error .noAnswer) ∧ s.receiver = some run ∧ run.accepted = true := by
  obtain ⟨s, hs, hp⟩ := Machine.exists_of_guarded_run (M := connectionMachine Sample.peers)
    (P := fun s => Sample.unanswered s.sender && s.receiver.any fun run => run.accepted)
    (fun _ action => Smooth Sample.peers action ∨ Sample.Deadline action = true)
    (Sample.asking ++ [Sample.sends .deadline, Sample.receives (.answer true .calm)])
    rfl (by decide +kernel)
  rw [Bool.and_eq_true, Option.any_eq_true] at hp
  obtain ⟨hunan, run, hrun, hacc⟩ := hp
  refine ⟨s, run, hs, ?_, hrun, hacc⟩
  unfold Sample.unanswered at hunan
  split at hunan
  · assumption
  · exact nomatch hunan

end KaiT2en.Airshare.Connection
