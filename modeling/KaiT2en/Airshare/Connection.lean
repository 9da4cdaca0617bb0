import KaiT2en.Airshare.SecureChannel
import KaiT2en.Airshare.Transfer

/-!
# A connection between the two sides

`send` and `run` from the first byte on, over a stream of bytes in each direction: the connection request, the UKEY2
handshake, the connection responses, and then the frames of the transfer (`Loopback`), sealed with the channel of the
handshake.

The primitives, the codecs and the random numbers are parameters. The package is a release build, so that the sequence
numbers wrap around.
-/

namespace KaiT2en.Airshare.Connection

open KaiT2en.Lib.Encoding KaiT2en.Lib.Transition
open Send Receive
open Loopback (SenderAction ReceiverAction)

/-! ## Both sides -/

/-- Where `send` is before the paired key exchange, and the channel behind it. -/
inductive SenderStage (P : Primitives OfflineFrame) where
  | greeting
  | serverInit (handshake : ClientHandshake P)
  | response (channel : SecureChannel)
  | linked (channel : SecureChannel)

/-- Where `run` is before its loop, and the channel in it. -/
inductive ReceiverStage (P : Primitives OfflineFrame) where
  | request
  | clientInit
  | clientFinish (handshake : ServerHandshake P)
  | response (channel : SecureChannel)
  | linked (channel : SecureChannel)
  | failed (error : HandshakeError)

/-- What the two sides start with. -/
structure Peers (P : Primitives OfflineFrame) where
  codec : Codec SharingFrame
  /-- The codec of the frames before the encryption. -/
  plain : Codec ConnectionFrame
  handshake : Handshake P
  /-- The name of the sender, and the random bytes of its endpoint info. -/
  name : List Char
  random : Bytes
  length_random : random.length = 16
  files : List OutgoingFile
  upgrade : Bool

structure State (P : Primitives OfflineFrame) where
  senderStage : SenderStage P
  sender : Phase
  receiverStage : ReceiverStage P
  /-- The receiver from its loop on. -/
  receiver : Option Run
  toReceiver : Bytes
  toSender : Bytes

/-- The random numbers for sealing frames. -/
abbrev Ivs := Nat → Iv

inductive Action where
  | sender (action : SenderAction) (fails : Bool) (ivs : Ivs)
  /-- The number is a random payload id. -/
  | receiver (action : ReceiverAction) (id : Int) (ivs : Ivs)

/-- What a side does next: where it is then, the bytes that are left to read and the frames it writes. -/
structure Turn (Stage Side : Type) where
  stage : Stage
  side : Side
  rest : Bytes
  raws : List Bytes

section Machine

variable {P : Primitives OfflineFrame}

/-- The receiver has returned and closed the connection. -/
def State.receiverReturned (s : State P) : Bool :=
  match s.receiverStage with
  | .failed _ => true
  | _ => s.receiver.any fun run => run.ended.isSome

/-- `send_offline` for frames in order. -/
def sealFrames (P : Primitives OfflineFrame) (channel : SecureChannel) (ivs : Ivs) :
    List V1Frame → Except SecureError (SecureChannel × List Bytes)
  | [] => .ok (channel, [])
  | frame :: frames => do
    let (channel, _, raw) ← channel.seal P false (ivs 0) (some frame)
    let (channel, raws) ← sealFrames P channel (fun n => ivs (n + 1)) frames
    pure (channel, raw :: raws)

/-- No frame has arrived as a whole. -/
def quiet (stream : Bytes) : Bool := readFrame stream == .pending

/-! ## The sender -/

/-- While `send` waits for the receiver to close the connection, it does not open the frames. -/
def opens : Phase → Bool
  | .draining => false
  | .returned _ => false
  | _ => true

/-- What the sender gets to see of the next frame, if it is there. -/
def openForSender (s : State P) (channel : SecureChannel) (id : Int) : Option (Input × SecureChannel × Bytes) :=
  match readFrame s.toSender with
  | .pending => none
  | .dropped => some (.lost, channel, s.toSender)
  | .frame raw rest =>
    if opens s.sender then
      match channel.openMessage P false raw with
      | (channel, .ok frame) => some (.frame frame id, channel, rest)
      | (channel, .error _) => some (.lost, channel, rest)
    else some (.frame none id, channel, rest)

/-- What the sender gets to see after the handshake. -/
def senderInput (s : State P) (channel : SecureChannel) : SenderAction → Option (Input × SecureChannel × Bytes)
  | .connected _ => none
  | .frame id => openForSender s channel id
  | .tick => some (.tick, channel, s.toSender)
  | .deadline => some (.deadline, channel, s.toSender)
  | .silent => some (.lost, channel, s.toSender)
  | .closed => if s.receiverReturned && quiet s.toSender then some (.lost, channel, s.toSender) else none
  | .read n => some (.read n, channel, s.toSender)
  | .finishFile => some (.finishFile, channel, s.toSender)
  | .disconnect => some (.disconnect, channel, s.toSender)
  | .drained => some (.drained, channel, s.toSender)

variable (peers : Peers P)

/-- The first frame of a connection. -/
def Peers.request : Bytes := peers.plain.encode (connectionRequest (endpointInfo .laptop peers.random peers.name))

/-- The frame that accepts the connection. -/
def Peers.accept : Bytes := peers.plain.encode connectionAccept

/-- The sender reacts, and seals what it writes. -/
def reactSealed (channel : SecureChannel) (phase : Phase) (input : Input) (rest : Bytes) (ivs : Ivs) :
    Option (Turn (SenderStage P) Phase) :=
  match phase.react peers.codec peers.files input with
  | none => none
  | some (phase, frames) =>
    match sealFrames P channel ivs frames with
    | .error _ => none
    | .ok (channel, raws) => some ⟨.linked channel, phase, rest, raws⟩

variable (s : State P) (action : ReceiverAction)

/-- `send` takes the next frame of the handshake. -/
def senderHandshake (id : Int) (ivs : Ivs) (raw rest : Bytes) : Option (Turn (SenderStage P) Phase) :=
  let bail (error : HandshakeError) : Turn (SenderStage P) Phase :=
    ⟨s.senderStage, .returned (.error (.handshake error)), rest, []⟩
  match s.senderStage with
  | .serverInit handshake =>
    match handshake.finish P raw with
    | .error e => some (bail (.secure e))
    | .ok (channel, _, clientFinish) => some ⟨.response channel, s.sender, rest, [clientFinish, peers.accept]⟩
  | .response channel =>
    match responseStatus peers.plain raw with
    | .error e => some (bail (.connect e))
    | .ok status =>
      if status ≠ .accept then some ⟨s.senderStage, .returned (.ok (.connectionDeclined status)), rest, []⟩
      else reactSealed peers channel s.sender (.connected id) rest ivs
  | _ => none

/-- What the sender does in the handshake. -/
def senderConnects (action : SenderAction) (ivs : Ivs) : Option (Turn (SenderStage P) Phase) :=
  let lost : Turn (SenderStage P) Phase := ⟨s.senderStage, .returned (.error (.handshake .lost)), s.toSender, []⟩
  match s.senderStage, action with
  | .greeting, .connected _ =>
    let (handshake, clientInit) := ClientHandshake.start P peers.handshake.clientSecret peers.handshake.clientRandom
    some ⟨.serverInit handshake, s.sender, s.toSender, [peers.request, clientInit]⟩
  | .greeting, _ => none
  | _, .frame id =>
    match readFrame s.toSender with
    | .pending => none
    | .dropped => some lost
    | .frame raw rest => senderHandshake peers s id ivs raw rest
  | _, .silent => some lost
  | _, .closed => if s.receiverReturned && quiet s.toSender then some lost else none
  | _, _ => none

def senderTurn (action : SenderAction) (ivs : Ivs) : Option (Turn (SenderStage P) Phase) :=
  match s.senderStage with
  | .linked channel =>
    match senderInput s channel action with
    | none => none
    | some (input, channel, rest) => reactSealed peers channel s.sender input rest ivs
  | _ => if s.sender.Returned then none else senderConnects peers s action ivs

def senderStep (action : SenderAction) (fails : Bool) (ivs : Ivs) : Option (State P) :=
  match senderTurn peers s action ivs with
  | none => none
  | some turn =>
    if fails then
      if s.receiverReturned && !turn.raws.isEmpty then
        some { s with sender := .returned (.error (.link .write)), toSender := turn.rest }
      else none
    else
      some { s with
        senderStage := turn.stage
        sender := turn.side
        toSender := turn.rest
        toReceiver := s.toReceiver ++ stream turn.raws }

/-! ## The receiver -/

/-- What the loop of the receiver gets to see. -/
def receiverEvent (channel : SecureChannel) : ReceiverAction → Option (Event × SecureChannel × Bytes)
  | .frame env =>
    match readFrame s.toReceiver with
    | .pending => none
    | .dropped => some (.lost, channel, s.toReceiver)
    | .frame raw rest =>
      match channel.openMessage P false raw with
      | (channel, .ok frame) => some (.frame frame env, channel, rest)
      | (channel, .error _) => some (.lost, channel, rest)
  | .silent => some (.lost, channel, s.toReceiver)
  | .closed => if s.sender.Returned && quiet s.toReceiver then some (.lost, channel, s.toReceiver) else none
  | .answer yes env => some (.answer yes env, channel, s.toReceiver)
  | .prepared ok env => some (.prepared ok env, channel, s.toReceiver)
  | .unconnected env => some (.connected false env, channel, s.toReceiver)
  | .tick env => some (.keepAlive env, channel, s.toReceiver)

/-- `run` takes the next frame of the handshake: where it is then, and what it writes. -/
def receiverHandshake (stage : ReceiverStage P) (id : Int) (ivs : Ivs) (raw : Bytes) :
    Except HandshakeError (ReceiverStage P × Option Run × List Bytes) :=
  match stage with
  | .request =>
    match acceptRequest peers.plain raw with
    | .error e => .error (.connect e)
    | .ok _ => .ok (.clientInit, none, [])
  | .clientInit =>
    match ServerHandshake.accept P peers.handshake.serverSecret peers.handshake.serverRandom raw with
    | .error e => .error (.secure e)
    | .ok (handshake, serverInit) => .ok (.clientFinish handshake, none, [serverInit])
  | .clientFinish handshake =>
    match handshake.finish P raw with
    | .error e => .error (.secure e)
    | .ok (channel, _) => .ok (.response channel, none, [])
  | .response channel =>
    match expectFrame peers.plain .connectionResponse raw with
    | .error e => .error (.connect e)
    | .ok _ =>
      match sealFrames P channel ivs (sharingFrames peers.codec id .pairedKeyEncryption) with
      | .error e => .error (.secure e)
      | .ok (channel, raws) => .ok (.linked channel, some (Run.start peers.upgrade), peers.accept :: raws)
  | _ => .error .lost

/-- What the receiver does in the handshake. -/
def receiverConnects (id : Int) (ivs : Ivs) :
    Option (Turn (ReceiverStage P) (Option Run)) :=
  let bail (error : HandshakeError) (rest : Bytes) : Turn (ReceiverStage P) (Option Run) :=
    ⟨.failed error, s.receiver, rest, []⟩
  match action with
  | .frame env =>
    match readFrame s.toReceiver with
    | .pending => none
    | .dropped => some (bail .lost s.toReceiver)
    | .frame raw rest =>
      match receiverHandshake peers s.receiverStage id ivs raw with
      | .error e => some (bail e rest)
      | .ok (stage, receiver, raws) =>
        if env.link 0 && !raws.isEmpty then if s.sender.Returned then some (bail .write rest) else none
        else some ⟨stage, receiver, rest, raws⟩
  | .silent => some (bail .lost s.toReceiver)
  | .closed => if s.sender.Returned && quiet s.toReceiver then some (bail .lost s.toReceiver) else none
  | _ => none

def receiverTurn (id : Int) (ivs : Ivs) :
    Option (Turn (ReceiverStage P) (Option Run)) :=
  match s.receiverStage with
  | .failed _ => none
  | .linked channel =>
    match receiverEvent s channel action, s.receiver with
    | some (event, channel, rest), some run =>
      if Loopback.linkFails event && !s.sender.Returned then none
      else
        match (receiveMachine peers.codec).next run event with
        | none => none
        | some run' =>
          match sealFrames P channel ivs (Loopback.written run run') with
          | .error _ => none
          | .ok (channel, raws) => some ⟨.linked channel, some run', rest, raws⟩
    | _, _ => none
  | _ => receiverConnects peers s action id ivs

def receiverStep (id : Int) (ivs : Ivs) : Option (State P) :=
  match receiverTurn peers s action id ivs with
  | none => none
  | some turn =>
    some { s with
      receiverStage := turn.stage
      receiver := turn.side
      toReceiver := turn.rest
      toSender := s.toSender ++ stream turn.raws }

def connectionMachine : Machine (State P) Action where
  init s := s = ⟨.greeting, .connecting, .request, none, [], []⟩
  next s
    | .sender action fails ivs => senderStep peers s action fails ivs
    | .receiver action id ivs => receiverStep peers s action id ivs

/-! ## What may go wrong -/

/-- No timer runs out, no write fails, the user accepts, and the file system works. -/
def Smooth : Action → Prop
  | .sender action fails _ => Loopback.Smooth peers.files (.sender action fails)
  | .receiver action id _ => Loopback.Smooth peers.files (.receiver action) ∧ Loopback.Ranged id

instance : DecidablePred (Smooth peers)
  | .sender action fails _ => inferInstanceAs (Decidable (Loopback.Smooth peers.files (.sender action fails)))
  | .receiver _ _ _ => inferInstanceAs (Decidable (_ ∧ _))

/-- A keep-alive. -/
def Tick : Action → Bool
  | .sender action fails _ => Loopback.Tick (.sender action fails)
  | .receiver action _ _ => Loopback.Tick (.receiver action)

end Machine

end KaiT2en.Airshare.Connection
