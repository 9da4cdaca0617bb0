import KaiT2en.Lib.Encoding
import Mathlib.Data.String.Basic

/-!
# The UKEY2 handshake

The first half of `apps/t2-airshare/src/secure.rs`: both roles of the handshake, the derivation of the keys
of the D2D channel and the PIN that both sides show. The primitives and the protobuf codec are not part of
the repository. They are fields of `Primitives`, and what the code relies on is `Primitives.Lawful`.

A message is what its accessors return, with the default in place of an absent field. Keys and random bytes
are arguments.

When the messages are delivered unmodified, the handshake succeeds (`Handshake.run_eq`), both sides have the
same PIN, and each sends with the keys the other receives with (`Handshake.mirrored`).
-/

namespace KaiT2en.Airshare

open KaiT2en.Lib.Encoding List

abbrev Bytes := List UInt8

/-! ## Messages -/

inductive Ukey2MessageType where
  | unknownDoNotUse
  | alert
  | clientInit
  | serverInit
  | clientFinish
  deriving DecidableEq

structure Ukey2Message where
  messageType : Ukey2MessageType
  messageData : Bytes

inductive Ukey2HandshakeCipher where
  | reserved
  | p256Sha512
  | curve25519Sha512
  deriving DecidableEq

structure CipherCommitment where
  handshakeCipher : Ukey2HandshakeCipher
  commitment : Bytes

structure Ukey2ClientInit where
  version : Int32
  random : Bytes
  cipherCommitments : List CipherCommitment
  nextProtocol : String

structure Ukey2ServerInit where
  version : Int32
  random : Bytes
  handshakeCipher : Ukey2HandshakeCipher
  publicKey : Bytes

structure Ukey2ClientFinished where
  publicKey : Bytes

structure EcP256PublicKey where
  x : Bytes
  y : Bytes

inductive PublicKeyType where
  | ecP256
  | rsa2048
  | dh2048Modp
  deriving DecidableEq

structure GenericPublicKey where
  keyType : PublicKeyType
  ecP256PublicKey : Option EcP256PublicKey

inductive SigScheme where
  | hmacSha256
  | ecdsaP256Sha256
  | rsa2048Sha256
  deriving DecidableEq

inductive EncScheme where
  | none
  | aes256Cbc
  deriving DecidableEq

/-- The type of a message between devices, among those of a GCM message. -/
def DEVICE_TO_DEVICE_MESSAGE : Int32 := 13

structure GcmMetadata where
  messageType : Int32
  version : Int32

structure Header where
  signatureScheme : SigScheme
  encryptionScheme : EncScheme
  iv : Bytes
  publicMetadata : Bytes

structure HeaderAndBody where
  header : Header
  body : Bytes

structure SecureMessage where
  headerAndBody : Bytes
  signature : Bytes

structure DeviceToDeviceMessage where
  sequenceNumber : Int32
  message : Bytes

/-! ## Primitives -/

/-- The primitives, for frames of the type `F`. A point is given by its two coordinates. -/
structure Primitives (F : Type) where
  Secret : Type
  Public : Type
  publicKey : Secret → Public
  x : Public → Bytes
  y : Public → Bytes
  fromEncodedPoint : Bytes → Option Public
  diffieHellman : Secret → Public → Bytes
  sha256 : Bytes → Bytes
  sha512 : Bytes → Bytes
  /-- By salt, input and info. -/
  hkdf : Bytes → Bytes → Bytes → Bytes
  hmac : Bytes → Bytes → Bytes
  /-- By key, IV and text, with the padding. -/
  encrypt : Bytes → Bytes → Bytes → Bytes
  decrypt : Bytes → Bytes → Bytes → Option Bytes
  ukey2Message : Codec Ukey2Message
  ukey2ClientInit : Codec Ukey2ClientInit
  ukey2ServerInit : Codec Ukey2ServerInit
  ukey2ClientFinished : Codec Ukey2ClientFinished
  genericPublicKey : Codec GenericPublicKey
  gcmMetadata : Codec GcmMetadata
  headerAndBody : Codec HeaderAndBody
  secureMessage : Codec SecureMessage
  deviceToDeviceMessage : Codec DeviceToDeviceMessage
  offlineFrame : Codec F

def NEXT_PROTOCOL : String := "AES_256_CBC-HMAC_SHA256"

def label (text : String) : Bytes := text.toList.map fun c => UInt8.ofNat c.toNat

def hexDigit (c : Char) : Nat := if c.isDigit then c.toNat - '0'.toNat else c.toNat - 'a'.toNat + 10

/-- `hex32`. -/
def hexBytes : List Char → Bytes
  | high :: low :: rest => UInt8.ofNat (hexDigit high * 16 + hexDigit low) :: hexBytes rest
  | _ => []

/-- SHA256("D2D") -/
def D2D_SALT : Bytes := hexBytes "82aa55a0d397f88346ca1cee8d3909b95f13fa7deb1d4ab38376b8256da85510".toList
/-- SHA256("SecureMessage") -/
def SECUREMESSAGE_SALT : Bytes := hexBytes "bf9d2a53c63616d75db0a7165b91c1ef73e537f2427405fa23610a4be657642e".toList

namespace Primitives

variable {F : Type}

/-- The laws of key agreement and of encryption, HMAC keys that differ for the two directions, and faithful codecs. -/
structure Lawful (P : Primitives F) : Prop where
  length_x : ∀ key, (P.x key).length = 32
  length_y : ∀ key, (P.y key).length = 32
  fromEncodedPoint_point : ∀ key, P.fromEncodedPoint (0x04 :: (P.x key ++ P.y key)) = some key
  diffieHellman_comm : ∀ a b, P.diffieHellman a (P.publicKey b) = P.diffieHellman b (P.publicKey a)
  length_hkdf : ∀ salt input info, (P.hkdf salt input info).length = 32
  decrypt_encrypt : ∀ key iv text, key.length = 32 → iv.length = 16 →
    P.decrypt key iv (P.encrypt key iv text) = some text
  hkdf_separates : ∀ next, P.hkdf SECUREMESSAGE_SALT (P.hkdf D2D_SALT next (label "client")) (label "SIG:1") ≠
      P.hkdf SECUREMESSAGE_SALT (P.hkdf D2D_SALT next (label "server")) (label "SIG:1")
  ukey2Message : P.ukey2Message.Faithful
  ukey2ClientInit : P.ukey2ClientInit.Faithful
  ukey2ServerInit : P.ukey2ServerInit.Faithful
  ukey2ClientFinished : P.ukey2ClientFinished.Faithful
  genericPublicKey : P.genericPublicKey.Faithful
  headerAndBody : P.headerAndBody.Faithful
  secureMessage : P.secureMessage.Faithful
  deviceToDeviceMessage : P.deviceToDeviceMessage.Faithful
  offlineFrame : P.offlineFrame.Faithful

end Primitives

/-! ## Errors -/

inductive SecureError where
  | ukey2Message
  | expectedClientInit
  | clientInit
  | clientInitVersion (version : Int32)
  | clientInitRandom (length : Nat)
  | nextProtocol (name : String)
  | noCommitment
  | commitmentMismatch
  | expectedClientFinish
  | clientFinished
  | expectedServerInit
  | serverInit
  | serverInitVersion (version : Int32)
  | serverInitRandom (length : Nat)
  | handshakeCipher
  | peerPublicKey
  | notP256
  | coordinate (length : Nat)
  | notOnCurve
  | secureMessage
  | signatureMismatch
  | headerAndBody
  | ivLength
  | padding
  | deviceToDeviceMessage
  | sequenceNumber (got expected : Int32)
  | overflow
  | offlineFrame
  deriving DecidableEq

/-- `ok_or` and `context`. -/
def orErr {α : Type} (value : Option α) (error : SecureError) : Except SecureError α :=
  match value with
  | some a => .ok a
  | none => .error error

/-- `if wrong { bail!(..) }`. -/
def bailIf (wrong : Prop) [Decidable wrong] (error : SecureError) : Except SecureError Unit :=
  if wrong then .error error else .ok ()

/-! ## Coordinates -/

/-- `signed_be`: a leading zero byte when the top bit is set. -/
def signedBe (unsigned : Bytes) : Bytes := if 0x80 ≤ unsigned.headD 0 then 0 :: unsigned else unsigned

/-- `unsigned_32`: the 32 bytes of a coordinate from a signed integer, which may have a leading zero or be shorter. -/
def unsigned32 (signed : Bytes) : Except SecureError Bytes := do
  let trimmed := signed.dropWhile (· == 0)
  bailIf (32 < trimmed.length) (.coordinate trimmed.length)
  pure (replicate (32 - trimmed.length) 0 ++ trimmed)

/-! ## Keys -/

section Handshake

variable {F : Type} (P : Primitives F)

variable (secret : P.Secret) (random : Bytes)

/-- The public key that `new_key` returns for a secret. -/
def newKey : GenericPublicKey :=
  { keyType := .ecP256
    ecP256PublicKey := some ⟨signedBe (P.x (P.publicKey secret)), signedBe (P.y (P.publicKey secret))⟩ }

def peerKey (raw : Bytes) : Except SecureError P.Public := do
  let key ← orErr (P.genericPublicKey.decode raw) .peerPublicKey
  let key ← orErr key.ecP256PublicKey .notP256
  let x ← unsigned32 key.x
  let y ← unsigned32 key.y
  orErr (P.fromEncodedPoint (0x04 :: (x ++ y))) .notOnCurve

/-- The keys and the sequence numbers of a channel. -/
structure SecureChannel where
  decryptKey : Bytes
  recvHmacKey : Bytes
  encryptKey : Bytes
  sendHmacKey : Bytes
  sendSeq : Int32
  recvSeq : Int32

inductive Role where
  | client
  | server
  deriving DecidableEq

/-- One step of `pin_code`: the hash and the factor so far. -/
def pinStep (state : Int × Int) (byte : UInt8) : Int × Int :=
  ((state.1 + byte.toInt8.toInt * state.2).tmod 9973, (state.2 * 31).tmod 9973)

/-- `pin_code`: four digits from the UKEY2 auth string. -/
def pinCode (auth : Bytes) : String :=
  let digits := toString (auth.foldl pinStep (0, 1)).1.natAbs
  String.ofList (replicate (4 - digits.length) '0') ++ digits

/-- `derive`: the client uses the server's keys for receiving and its own for sending, the server the other
way round. -/
def derive (role : Role) (secret : P.Secret) (peer : P.Public) (clientInit serverInit : Bytes) :
    SecureChannel × String :=
  let derived := P.sha256 (P.diffieHellman secret peer)
  let info := clientInit ++ serverInit
  let auth := P.hkdf (label "UKEY2 v1 auth") derived info
  let next := P.hkdf (label "UKEY2 v1 next") derived info
  let d2dClient := P.hkdf D2D_SALT next (label "client")
  let d2dServer := P.hkdf D2D_SALT next (label "server")
  let (receiveFrom, sendWith) := match role with
    | .server => (d2dClient, d2dServer)
    | .client => (d2dServer, d2dClient)
  ({ decryptKey := P.hkdf SECUREMESSAGE_SALT receiveFrom (label "ENC:2")
     recvHmacKey := P.hkdf SECUREMESSAGE_SALT receiveFrom (label "SIG:1")
     encryptKey := P.hkdf SECUREMESSAGE_SALT sendWith (label "ENC:2")
     sendHmacKey := P.hkdf SECUREMESSAGE_SALT sendWith (label "SIG:1")
     sendSeq := 0
     recvSeq := 0 }, pinCode auth)

/-! ## The messages of the handshake -/

def clientFinishBytes : Bytes :=
  P.ukey2Message.encode
    { messageType := .clientFinish
      messageData := P.ukey2ClientFinished.encode
        { publicKey := P.genericPublicKey.encode (newKey P secret) } }

/-- ClientInit, which commits to the hash of ClientFinished. -/
def clientInitBytes : Bytes :=
  P.ukey2Message.encode
    { messageType := .clientInit
      messageData := P.ukey2ClientInit.encode
        { version := 1
          random := random
          cipherCommitments := [⟨.p256Sha512, P.sha512 (clientFinishBytes P secret)⟩]
          nextProtocol := NEXT_PROTOCOL } }

def serverInitBytes : Bytes :=
  P.ukey2Message.encode
    { messageType := .serverInit
      messageData := P.ukey2ServerInit.encode
        { version := 1
          random := random
          handshakeCipher := .p256Sha512
          publicKey := P.genericPublicKey.encode (newKey P secret) } }

/-! ## The server -/

structure ServerHandshake where
  secret : P.Secret
  clientInit : Bytes
  serverInit : Bytes
  commitment : Bytes

def ServerHandshake.accept (random clientInitRaw : Bytes) :
    Except SecureError (ServerHandshake P × Bytes) := do
  let msg ← orErr (P.ukey2Message.decode clientInitRaw) .ukey2Message
  bailIf (msg.messageType ≠ .clientInit) .expectedClientInit
  let init ← orErr (P.ukey2ClientInit.decode msg.messageData) .clientInit
  bailIf (init.version ≠ 1) (.clientInitVersion init.version)
  bailIf (init.random.length ≠ 32) (.clientInitRandom init.random.length)
  bailIf (init.nextProtocol ≠ NEXT_PROTOCOL) (.nextProtocol init.nextProtocol)
  let commitment ← orErr
    (init.cipherCommitments.find? fun c => decide (c.handshakeCipher = .p256Sha512)) .noCommitment
  let serverInit := serverInitBytes P secret random
  pure ({ secret := secret
          clientInit := clientInitRaw
          serverInit := serverInit
          commitment := commitment.commitment }, serverInit)

/-- `ServerHandshake::finish`: ClientFinished has to match the commitment. -/
def ServerHandshake.finish (self : ServerHandshake P) (clientFinishRaw : Bytes) :
    Except SecureError (SecureChannel × String) := do
  bailIf (P.sha512 clientFinishRaw ≠ self.commitment) .commitmentMismatch
  let msg ← orErr (P.ukey2Message.decode clientFinishRaw) .ukey2Message
  bailIf (msg.messageType ≠ .clientFinish) .expectedClientFinish
  let finish ← orErr (P.ukey2ClientFinished.decode msg.messageData) .clientFinished
  let peer ← peerKey P finish.publicKey
  pure (derive P .server self.secret peer self.clientInit self.serverInit)

/-! ## The client -/

structure ClientHandshake where
  secret : P.Secret
  clientInit : Bytes
  clientFinish : Bytes

/-- `ClientHandshake::start`. ClientFinished is built up front. -/
def ClientHandshake.start : ClientHandshake P × Bytes :=
  let clientInit := clientInitBytes P secret random
  (⟨secret, clientInit, clientFinishBytes P secret⟩, clientInit)

def ClientHandshake.finish (self : ClientHandshake P) (serverInitRaw : Bytes) :
    Except SecureError (SecureChannel × String × Bytes) := do
  let msg ← orErr (P.ukey2Message.decode serverInitRaw) .ukey2Message
  bailIf (msg.messageType ≠ .serverInit) .expectedServerInit
  let init ← orErr (P.ukey2ServerInit.decode msg.messageData) .serverInit
  bailIf (init.version ≠ 1) (.serverInitVersion init.version)
  bailIf (init.random.length ≠ 32) (.serverInitRandom init.random.length)
  bailIf (init.handshakeCipher ≠ .p256Sha512) .handshakeCipher
  let peer ← peerKey P init.publicKey
  let (channel, pin) := derive P .client self.secret peer self.clientInit serverInitRaw
  pure (channel, pin, self.clientFinish)

end Handshake

/-! ## Agreement -/

theorem orErr_some {α : Type} (a : α) (error : SecureError) : orErr (some a) error = .ok a := rfl

theorem bailIf_neg {wrong : Prop} [Decidable wrong] (h : ¬wrong) (error : SecureError) :
    bailIf wrong error = .ok () := if_neg h

@[simp] theorem ok_bind {α β : Type} (a : α) (f : α → Except SecureError β) : (Except.ok a >>= f) = f a := rfl

/-- Trimming the zeros of a byte string and padding it again changes nothing. -/
theorem replicate_append_dropWhile (bytes : Bytes) :
    replicate (bytes.length - (bytes.dropWhile (· == 0)).length) 0 ++ bytes.dropWhile (· == 0) = bytes := by
  induction bytes with
  | nil => rfl
  | cons b bytes ih =>
    by_cases hb : b = 0
    · subst hb
      have hle := (dropWhile_sublist (l := bytes) (· == 0)).length_le
      rw [dropWhile_cons_of_pos (by decide), length_cons,
        Nat.sub_add_comm hle, replicate_succ, cons_append, ih]
    · rw [dropWhile_cons_of_neg (by simpa using hb), Nat.sub_self]
      rfl

/-- A coordinate is read back from the integer it is written as. -/
theorem unsigned32_signedBe {bytes : Bytes} (h : bytes.length = 32) : unsigned32 (signedBe bytes) = .ok bytes := by
  have hdr : (signedBe bytes).dropWhile (· == 0) = bytes.dropWhile (· == 0) := by
    unfold signedBe
    split
    · exact dropWhile_cons_of_pos (by decide)
    · rfl
  have hle := (dropWhile_sublist (l := bytes) (· == 0)).length_le
  unfold unsigned32
  simp only [hdr]
  rw [bailIf_neg (by omega), ok_bind, ← h, replicate_append_dropWhile]
  rfl

section Agreement

variable {F : Type} {P : Primitives F}

section

variable (h : P.Lawful)
include h

theorem peerKey_newKey (secret : P.Secret) :
    peerKey P (P.genericPublicKey.encode (newKey P secret)) = .ok (P.publicKey secret) := by
  unfold peerKey
  rw [h.genericPublicKey, orErr_some, ok_bind]
  simp only [newKey, orErr_some, ok_bind]
  rw [unsigned32_signedBe (h.length_x _), ok_bind, unsigned32_signedBe (h.length_y _), ok_bind,
    h.fromEncodedPoint_point, orErr_some]

/-- The two channels of a handshake: what one side sends with, the other receives with. -/
def Mirrored (a b : SecureChannel) : Prop :=
  a.encryptKey = b.decryptKey ∧ a.sendHmacKey = b.recvHmacKey ∧
    b.encryptKey = a.decryptKey ∧ b.sendHmacKey = a.recvHmacKey

/-- A handshake whose messages are delivered as they are sent, by the keys and random bytes of the two sides. -/
structure Handshake (P : Primitives F) where
  clientSecret : P.Secret
  serverSecret : P.Secret
  clientRandom : Bytes
  serverRandom : Bytes
  length_clientRandom : clientRandom.length = 32
  length_serverRandom : serverRandom.length = 32

/-- The messages of the handshake in order, and what the two sides return in the end. -/
def Handshake.run (handshake : Handshake P) :
    Except SecureError ((SecureChannel × String) × (SecureChannel × String)) := do
  let (client, clientInit) := ClientHandshake.start P handshake.clientSecret handshake.clientRandom
  let (server, serverInit) ←
    ServerHandshake.accept P handshake.serverSecret handshake.serverRandom clientInit
  let (clientChannel, clientPin, clientFinish) ← client.finish P serverInit
  let (serverChannel, serverPin) ← server.finish P clientFinish
  pure ((clientChannel, clientPin), (serverChannel, serverPin))

theorem derive_mirrored (a b : P.Secret) (clientInit serverInit : Bytes) :
    Mirrored (derive P .client a (P.publicKey b) clientInit serverInit).1
        (derive P .server b (P.publicKey a) clientInit serverInit).1 ∧
      (derive P .client a (P.publicKey b) clientInit serverInit).2 =
        (derive P .server b (P.publicKey a) clientInit serverInit).2 := by
  have hkeys : ∀ role, derive P role a (P.publicKey b) clientInit serverInit =
        derive P role b (P.publicKey a) clientInit serverInit := by
    intro role
    unfold derive
    rw [h.diffieHellman_comm a b]
  rw [hkeys]
  exact ⟨⟨rfl, rfl, rfl, rfl⟩, rfl⟩

/-- The channels and PINs of the two sides, by the keys of the handshake. -/
def Handshake.client (handshake : Handshake P) : SecureChannel × String :=
  derive P .client handshake.clientSecret (P.publicKey handshake.serverSecret)
    (clientInitBytes P handshake.clientSecret handshake.clientRandom)
    (serverInitBytes P handshake.serverSecret handshake.serverRandom)

def Handshake.server (handshake : Handshake P) : SecureChannel × String :=
  derive P .server handshake.serverSecret (P.publicKey handshake.clientSecret)
    (clientInitBytes P handshake.clientSecret handshake.clientRandom)
    (serverInitBytes P handshake.serverSecret handshake.serverRandom)

section

variable (handshake : Handshake P)
include handshake

theorem accept_clientInit : ServerHandshake.accept P handshake.serverSecret handshake.serverRandom
        (clientInitBytes P handshake.clientSecret handshake.clientRandom) =
      .ok (⟨handshake.serverSecret, clientInitBytes P handshake.clientSecret handshake.clientRandom,
          serverInitBytes P handshake.serverSecret handshake.serverRandom,
          P.sha512 (clientFinishBytes P handshake.clientSecret)⟩,
        serverInitBytes P handshake.serverSecret handshake.serverRandom) := by
  have hmsg : P.ukey2Message.decode (clientInitBytes P handshake.clientSecret handshake.clientRandom) = some _ :=
    h.ukey2Message _
  unfold ServerHandshake.accept
  rw [hmsg, orErr_some, ok_bind]
  rw [bailIf_neg (by simp), ok_bind, h.ukey2ClientInit, orErr_some, ok_bind]
  rw [bailIf_neg (by simp), ok_bind, bailIf_neg (by simp [handshake.length_clientRandom]), ok_bind,
    bailIf_neg (by simp), ok_bind]
  rfl

theorem finish_serverInit : ClientHandshake.finish P ⟨handshake.clientSecret,
        clientInitBytes P handshake.clientSecret handshake.clientRandom,
        clientFinishBytes P handshake.clientSecret⟩
        (serverInitBytes P handshake.serverSecret handshake.serverRandom) =
      .ok (handshake.client.1, handshake.client.2, clientFinishBytes P handshake.clientSecret) := by
  have hmsg : P.ukey2Message.decode (serverInitBytes P handshake.serverSecret handshake.serverRandom) = some _ :=
    h.ukey2Message _
  unfold ClientHandshake.finish
  rw [hmsg, orErr_some, ok_bind]
  rw [bailIf_neg (by simp), ok_bind, h.ukey2ServerInit, orErr_some, ok_bind]
  rw [bailIf_neg (by simp), ok_bind, bailIf_neg (by simp [handshake.length_serverRandom]), ok_bind,
    bailIf_neg (by simp), ok_bind, peerKey_newKey h, ok_bind]
  rfl

theorem finish_clientFinish : ServerHandshake.finish P ⟨handshake.serverSecret,
        clientInitBytes P handshake.clientSecret handshake.clientRandom,
        serverInitBytes P handshake.serverSecret handshake.serverRandom,
        P.sha512 (clientFinishBytes P handshake.clientSecret)⟩
        (clientFinishBytes P handshake.clientSecret) = .ok handshake.server := by
  have hmsg : P.ukey2Message.decode (clientFinishBytes P handshake.clientSecret) = some _ := h.ukey2Message _
  unfold ServerHandshake.finish
  rw [bailIf_neg (by simp), ok_bind, hmsg, orErr_some, ok_bind]
  rw [bailIf_neg (by simp), ok_bind, h.ukey2ClientFinished, orErr_some, ok_bind, peerKey_newKey h, ok_bind]
  rfl

/-- The handshake succeeds on both sides, with the keys of the two roles. -/
theorem Handshake.run_eq : handshake.run = .ok (handshake.client, handshake.server) := by
  unfold Handshake.run ClientHandshake.start
  simp only
  rw [accept_clientInit h, ok_bind]
  rw [finish_serverInit h, ok_bind]
  rw [finish_clientFinish h, ok_bind]
  rfl

theorem Handshake.mirrored : Mirrored handshake.client.1 handshake.server.1 ∧ handshake.client.2 = handshake.server.2 :=
  derive_mirrored h _ _ _ _

end

end

end Agreement

end KaiT2en.Airshare
