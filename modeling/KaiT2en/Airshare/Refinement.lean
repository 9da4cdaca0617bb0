import KaiT2en.Airshare.Connection

/-!
# The frames get through

The bytes under way in a direction are the frames of the handshake that are not read yet, followed by sealed
frames whose sequence numbers lead from what the reader has counted to what the writer has counted
(`Carried`). `Sim` relates a connection to the frames of `Loopback`: the steps of the handshake change nothing
there, and every other step is a step of `Loopback` (`Sim.step`); where `Loopback` can go on, the connection
can (`Sim.progress`).
-/

namespace KaiT2en.Airshare.Connection

open KaiT2en.Lib.Encoding KaiT2en.Lib.Transition KaiT2en.Lib.Fifo List Loopback Prod Peers Connection State
open Send Receive
open Loopback (SenderAction ReceiverAction Setting Delivered)

/-! ## Sealed frames under way -/

section Sealed

variable {P : Primitives OfflineFrame} {reader writer : SecureChannel} {l : List (Bytes × V1Frame)}

/-- The message that `seal` returns. -/
def message (P : Primitives OfflineFrame) (key mac : Bytes) (seq : Int32) (iv : Iv) (frame : V1Frame) : Bytes :=
  let text := headerAndBodyBytes P key seq iv (some frame)
  P.secureMessage.encode ⟨text, P.hmac mac text⟩

theorem succSeq_unchecked (seq : Int32) : succSeq false seq = .ok (seq + 1) := rfl

theorem openMessage_message (hlw : P.Lawful) (hkey : reader.decryptKey.length = 32) (iv : Iv) (frame : V1Frame) :
    reader.openMessage P false (message P reader.decryptKey reader.recvHmacKey (reader.recvSeq + 1) iv frame) =
      ({ reader with recvSeq := reader.recvSeq + 1 }, .ok (some frame)) := by
  have hver : reader.verify P (message P reader.decryptKey reader.recvHmacKey (reader.recvSeq + 1) iv frame) =
      .ok ⟨reader.recvSeq + 1, P.offlineFrame.encode (some frame)⟩ :=
    verify_sealed hlw hkey (hlw.secureMessage ⟨_, _⟩) rfl rfl
  simp [SecureChannel.openMessage, hver, succSeq_unchecked, hlw.offlineFrame (some frame), orErr_some]

/-- The keys that a channel writes with. -/
def Sized (channel : SecureChannel) : Prop := channel.encryptKey.length = 32 ∧ channel.sendHmacKey.length = 32

/-- Messages and the frames in them. -/
def Holds (P : Primitives OfflineFrame) (channel : SecureChannel) (l : List (Bytes × V1Frame)) : Prop :=
  ∀ m ∈ l, ∃ seq iv, m.1 = message P channel.encryptKey channel.sendHmacKey seq iv m.2

/-- A frame with the next sequence number, and its message. -/
def Sealed (P : Primitives OfflineFrame) (key mac : Bytes) (seq : Int32) (carried : Bytes × V1Frame)
    (seq' : Int32) : Prop :=
  seq' = seq + 1 ∧ carried.1.length ≤ MAX_FRAME ∧ ∃ iv, carried.1 = message P key mac seq' iv carried.2

/-- The frames and messages between a reader and a writer. -/
structure Carried (P : Primitives OfflineFrame) (reader writer : SecureChannel) (l : List (Bytes × V1Frame)) :
    Prop where
  key : reader.decryptKey = writer.encryptKey
  mac : reader.recvHmacKey = writer.sendHmacKey
  length : reader.decryptKey.length = 32
  path : Path (Sealed P writer.encryptKey writer.sendHmacKey) reader.recvSeq l writer.sendSeq

theorem Carried.short (h : Carried P reader writer l) : ∀ m ∈ l, m.1.length ≤ MAX_FRAME := by
  intro m hm
  apply h.path.forall_mem (I := fun _ => True) (T := fun m => m.1.length ≤ MAX_FRAME) _ trivial m hm
  exact fun _ _ _ _ hsealed => ⟨hsealed.2.1, trivial⟩

theorem Carried.opened (hlw : P.Lawful) {raw : Bytes} {frame : V1Frame}
    (h : Carried P reader writer ((raw, frame) :: l)) :
    reader.openMessage P false raw = ({ reader with recvSeq := reader.recvSeq + 1 }, .ok (some frame)) ∧
      Carried P { reader with recvSeq := reader.recvSeq + 1 } writer l := by
  obtain ⟨seq, ⟨rfl, -, iv, hraw⟩, hpa⟩ := h.path.exists_of_cons
  refine ⟨?_, h.key, h.mac, h.length, hpa⟩
  simp only at hraw
  rw [hraw, ← h.key, ← h.mac]
  exact openMessage_message hlw h.length iv frame

theorem sealFrames_eq (frames : List V1Frame) (channel : SecureChannel) (ivs : Ivs) :
    ∃ (seq : Int32) (l : List (Bytes × V1Frame)),
      sealFrames P channel ivs frames = .ok ({ channel with sendSeq := seq }, l.map fst) ∧
        l.map snd = frames ∧ Holds P channel l ∧
        ((∀ raw ∈ l.map fst, raw.length ≤ MAX_FRAME) →
          Path (Sealed P channel.encryptKey channel.sendHmacKey) channel.sendSeq l seq) := by
  induction frames generalizing channel ivs with
  | nil => exact ⟨channel.sendSeq, [], rfl, rfl, (fun _ hm => nomatch hm), fun _ => .nil _⟩
  | cons frame frames ih =>
    obtain ⟨seq, l, hseal, hfrs, hho, hpa⟩ := ih { channel with sendSeq := channel.sendSeq + 1 } fun n => ivs (n + 1)
    have hfst : channel.seal P false (ivs 0) (some frame) = .ok ({ channel with sendSeq := channel.sendSeq + 1 },
          headerAndBodyBytes P channel.encryptKey (channel.sendSeq + 1) (ivs 0) (some frame),
          message P channel.encryptKey channel.sendHmacKey (channel.sendSeq + 1) (ivs 0) frame) := rfl
    refine ⟨seq, (message P channel.encryptKey channel.sendHmacKey (channel.sendSeq + 1) (ivs 0) frame,
      frame) :: l, ?_, ?_, ?_, ?_⟩
    · rw [sealFrames, hfst]
      simp only [ok_bind, hseal]
      rfl
    · rw [map_cons, hfrs]
    · exact forall_mem_cons.2 ⟨⟨_, ivs 0, rfl⟩, hho⟩
    · intro hsh
      rw [map_cons, forall_mem_cons] at hsh
      exact .cons ⟨rfl, hsh.1, ivs 0, rfl⟩ (hpa hsh.2)

section

variable (h : Carried P reader writer l)
include h

theorem Carried.reader_seals (seq : Int32) : Carried P { reader with sendSeq := seq } writer l := { h with }

theorem Carried.writer_opens (seq : Int32) : Carried P reader { writer with recvSeq := seq } l := { h with }

theorem Carried.append {l' : List (Bytes × V1Frame)} {seq : Int32}
    (hpa : Path (Sealed P writer.encryptKey writer.sendHmacKey) writer.sendSeq l' seq) :
    Carried P reader { writer with sendSeq := seq } (l ++ l') :=
  ⟨h.key, h.mac, h.length, h.path.append hpa⟩

end

theorem quiet_stream (h : ∀ m ∈ l, m.1.length ≤ MAX_FRAME) :
    quiet (stream (l.map fst)) = (l.map snd).isEmpty := by
  cases l with
  | nil => rfl
  | cons m l =>
    rw [map_cons, quiet, readFrame_stream (h m mem_cons_self)]
    rfl

end Sealed

/-! ## Both channels -/

section Joined

variable {P : Primitives OfflineFrame} {peers : Peers P}

/-- What is under way between the two sides. A sender that waits for the end does not count the frames any more. -/
structure Joined (P : Primitives OfflineFrame) (cs cr : SecureChannel) (phase : Phase)
    (forth back : List (Bytes × V1Frame)) : Prop where
  toReceiver : Carried P cr cs forth
  toSender : opens phase = true → Carried P cs cr back
  short : ∀ m ∈ back, m.1.length ≤ MAX_FRAME
  sender : Sized cs
  receiver : Sized cr

section React

variable {codec : Codec SharingFrame} {files : List OutgoingFile} {bytes : BytesPayloads} {id : Int}
  {phase phase' : Phase} {input : Input} {frames : List V1Frame}

theorem opens_of_react (h : phase.react codec files input = some (phase', frames))
    (hopens : opens phase') : opens phase := by
  cases reacts_of_react h with
  | skip | closed | drained => exact nomatch hopens
  | _ => rfl

theorem onSharing_ne_connecting (v1 : SharingV1) : (onSharing codec files bytes id v1).1 ≠ .connecting := by
  cases v1 with
  | response status =>
    rw [onSharing]
    split
    · nofun
    · nofun
  | _ => nofun

theorem onFrame_ne_connecting (frame : OfflineFrame) : (onFrame codec files bytes id frame).1 ≠ .connecting := by
  unfold onFrame
  split
  · nofun
  · grind [onSharing_ne_connecting]
  · nofun

/-- The sender does not go back before the paired key exchange. -/
theorem ne_connecting_of_react (h : phase.react codec files input = some (phase', frames)) : phase' ≠ .connecting := by
  cases reacts_of_react h with
  | frame hfr =>
    intro hconn
    exact onFrame_ne_connecting _ ((congrArg fst hfr).trans hconn)
  | _ => nofun

theorem react_unopened (h : opens phase = false) (frame frame' : OfflineFrame) (id : Int) :
    phase.react codec files (.frame frame id) = phase.react codec files (.frame frame' id) := by
  cases phase with
  | draining | returned => rfl
  | connecting | waiting | sending => exact nomatch h

theorem react_connected (h : phase ≠ .connecting) (id : Int) : phase.react codec files (.connected id) = none := by
  cases phase with
  | connecting => exact absurd rfl h
  | waiting | draining | returned => rfl
  | sending todo offset => cases todo <;> rfl

end React

/-- A connection with both channels, and its frames in `Loopback`. -/
structure Pair (P : Primitives OfflineFrame) (s : State P) (a : Loopback.State) (cs cr : SecureChannel)
    (forth back : List (Bytes × V1Frame)) : Prop where
  sender : a.sender = s.sender
  receiver : a.receiver = s.receiver
  receiverStage : s.receiverStage = .linked cr
  bytesForth : s.toReceiver = stream (forth.map fst)
  framesForth : a.toReceiver = forth.map snd
  framesBack : a.toSender = back.map snd
  joined : Joined P cs cr s.sender forth back

variable {s : State P} {a : Loopback.State} {cs cr : SecureChannel} {forth back : List (Bytes × V1Frame)}

theorem Pair.receiverReturned (h : Pair P s a cs cr forth back) : s.receiverReturned = a.receiverEnded := by
  rw [State.receiverReturned, h.receiverStage, Loopback.State.receiverEnded, h.receiver]

/-! ### The receiver -/

/-- The receiver sees the same in both. -/
def SeesEvent (s : State P) (a : Loopback.State) (cs cr : SecureChannel) (forth : List (Bytes × V1Frame))
    (action : ReceiverAction) : Prop :=
  ∃ event seq rest, rest <:+ forth ∧ Loopback.receiverEvent a action = some (event, rest.map snd) ∧
    receiverEvent s cr action = some (event, { cr with recvSeq := seq }, stream (rest.map fst)) ∧
    Carried P { cr with recvSeq := seq } cs rest

theorem Pair.seesEvent (h : Pair P s a cs cr forth back) {action : ReceiverAction} {event : Event}
    (ha : Loopback.receiverEvent a action = some (event, a.toReceiver))
    (hs : receiverEvent s cr action = some (event, cr, s.toReceiver)) :
    SeesEvent s a cs cr forth action := by
  rw [h.framesForth] at ha
  rw [h.bytesForth] at hs
  exact ⟨event, cr.recvSeq, forth, suffix_rfl, ha, hs, h.joined.toReceiver⟩

theorem Pair.event (hlw : P.Lawful) (h : Pair P s a cs cr forth back) (action : ReceiverAction) :
    Loopback.receiverEvent a action = none ∧ receiverEvent s cr action = none ∨ SeesEvent s a cs cr forth action := by
  have hcar := h.joined.toReceiver
  cases action with
  | frame env =>
    cases forth with
    | nil =>
      left
      simp only [Loopback.receiverEvent, receiverEvent, h.framesForth, h.bytesForth, map_nil, stream_nil, readFrame_nil]
      exact ⟨trivial, trivial⟩
    | cons m rest =>
      obtain ⟨raw, frame⟩ := m
      have hsh := hcar.short _ mem_cons_self
      obtain ⟨hop, hrs⟩ := hcar.opened hlw
      refine .inr ⟨.frame (some frame) env, _, rest, suffix_cons _ _, ?_, ?_, hrs⟩
      · simp [Loopback.receiverEvent, h.framesForth]
      · simp [receiverEvent, h.bytesForth, readFrame_stream hsh, hop]
  | closed =>
    have hqu : quiet s.toReceiver = a.toReceiver.isEmpty := by
      rw [h.bytesForth, h.framesForth, quiet_stream hcar.short]
    by_cases hcl : (s.sender.Returned && a.toReceiver.isEmpty)
    · apply Or.inr
      apply h.seesEvent
      · rw [Loopback.receiverEvent, h.sender, if_pos hcl]
      · rw [receiverEvent, hqu, if_pos hcl]
    · left
      rw [Loopback.receiverEvent, receiverEvent, h.sender, hqu, if_neg hcl, if_neg hcl]
      exact ⟨rfl, rfl⟩
  | silent | answer | prepared | unconnected | tick => exact .inr (h.seesEvent rfl rfl)

theorem Pair.receiver_turn (hlw : P.Lawful) (h : Pair P s a cs cr forth back) (action : ReceiverAction)
    (id : Int) (ivs : Ivs) :
    Loopback.receiverStep peers.codec a action = none ∧ receiverTurn peers s action id ivs = none ∨
      ∃ cr' run' forth' l, forth' <:+ forth ∧ Loopback.receiverStep peers.codec a action = some { a with
            receiver := some run'
            toReceiver := forth'.map snd
            toSender := (back ++ l).map snd } ∧
        receiverTurn peers s action id ivs = some ⟨.linked cr', some run', stream (forth'.map fst), l.map fst⟩ ∧
        Holds P cr l ∧
        ((∀ raw ∈ l.map fst, raw.length ≤ MAX_FRAME) → Joined P cs cr' s.sender forth' (back ++ l)) := by
  simp only [Loopback.receiverStep, receiverTurn, h.receiverStage, h.receiver, h.sender]
  rcases h.event hlw action with ⟨hno, hno'⟩ | ⟨event, seq, rest, hsuf, hev, hev', hcar⟩
  · simp only [hno, hno']
    exact .inl ⟨trivial, trivial⟩
  simp only [hev, hev']
  cases hrun : s.receiver with
  | none => exact .inl ⟨rfl, rfl⟩
  | some run =>
    by_cases hfa : (Loopback.linkFails event && !s.sender.Returned)
    · simp only [if_pos hfa]
      exact .inl ⟨trivial, trivial⟩
    simp only [if_neg hfa]
    cases hnx : (receiveMachine peers.codec).next run event with
    | none => exact .inl ⟨rfl, rfl⟩
    | some run' =>
      obtain ⟨seq', l, hseal, hfrs, hho, hpa⟩ := sealFrames_eq (P := P)
        (Loopback.written run run') { cr with recvSeq := seq } ivs
      simp only [hseal]
      refine .inr ⟨_, run', rest, l, hsuf, ?_, rfl, hho, ?_⟩
      · rw [map_append, hfrs, h.framesBack]
      · intro hsh
        refine ⟨hcar.reader_seals seq', ?_, ?_, h.joined.sender, h.joined.receiver⟩
        · intro hopens
          exact ((h.joined.toSender hopens).writer_opens seq).append (hpa hsh)
        · intro m hm
          rcases mem_append.1 hm with hm | hm
          · exact h.joined.short m hm
          · exact hsh m.1 (mem_map_of_mem hm)

/-! ### The sender -/

/-- The sender sees the same in both, up to the frames it does not open. -/
def SeesInput (peers : Peers P) (s : State P) (a : Loopback.State) (cs cr : SecureChannel)
    (action : SenderAction) : Prop :=
  ∃ input input' seq rest, Loopback.senderInput a action = some (input, rest.map snd) ∧
    senderInput s cs action = some (input', { cs with recvSeq := seq }, stream (rest.map fst)) ∧
    s.sender.react peers.codec peers.files input' = s.sender.react peers.codec peers.files input ∧
    (opens s.sender = true → Carried P { cs with recvSeq := seq } cr rest) ∧
    ∀ m ∈ rest, m.1.length ≤ MAX_FRAME

theorem Pair.seesInput (h : Pair P s a cs cr forth back) (hbk : s.toSender = stream (back.map fst))
    {action : SenderAction} {input : Input} (ha : Loopback.senderInput a action = some (input, a.toSender))
    (hs : senderInput s cs action = some (input, cs, s.toSender)) : SeesInput peers s a cs cr action := by
  rw [h.framesBack] at ha
  rw [hbk] at hs
  exact ⟨input, input, cs.recvSeq, back, ha, hs, rfl, h.joined.toSender, h.joined.short⟩

variable (peers) in
theorem Pair.input (hlw : P.Lawful) (h : Pair P s a cs cr forth back) (hbk : s.toSender = stream (back.map fst))
    (hbeg : s.sender ≠ .connecting) (action : SenderAction) :
    (∀ input rest, Loopback.senderInput a action = some (input, rest) →
        s.sender.react peers.codec peers.files input = none) ∧ senderInput s cs action = none ∨
      SeesInput peers s a cs cr action := by
  cases action with
  | connected id =>
    refine .inl ⟨?_, rfl⟩
    intro input rest hinp
    simp only [Loopback.senderInput, Option.ite_none_right_eq_some] at hinp
    cases hinp.2
    exact react_connected hbeg id
  | frame id =>
    cases back with
    | nil =>
      left
      simp only [Loopback.senderInput, senderInput, openForSender, h.framesBack, hbk, map_nil,
        stream_nil, readFrame_nil]
      refine ⟨?_, trivial⟩
      intro input rest hinp
      cases hinp
    | cons m rest =>
      obtain ⟨raw, frame⟩ := m
      have hsh := h.joined.short
      rw [forall_mem_cons] at hsh
      have hfr : Loopback.senderInput a (.frame id) = some (.frame (some frame) id, rest.map snd) := by
        simp [Loopback.senderInput, h.framesBack]
      cases hopens : opens s.sender with
      | true =>
        obtain ⟨hop, hrs⟩ := (h.joined.toSender hopens).opened hlw
        refine .inr ⟨_, .frame (some frame) id, _, rest, hfr, ?_, rfl, fun _ => hrs, hsh.2⟩
        simp [senderInput, openForSender, hbk, readFrame_stream hsh.1, hopens, hop]
      | false =>
        refine .inr ⟨_, .frame none id, cs.recvSeq, rest, hfr, ?_, react_unopened hopens _ _ _, ?_, hsh.2⟩
        · simp [senderInput, openForSender, hbk, readFrame_stream hsh.1, hopens]
        · grind
  | closed =>
    have hqu : quiet s.toSender = a.toSender.isEmpty := by rw [hbk, h.framesBack, quiet_stream h.joined.short]
    by_cases hcl : (a.receiverEnded && a.toSender.isEmpty)
    · apply Or.inr
      apply h.seesInput hbk
      · rw [Loopback.senderInput, if_pos hcl]
      · rw [senderInput, h.receiverReturned, hqu, if_pos hcl]
    left
    rw [Loopback.senderInput, senderInput, h.receiverReturned, hqu, if_neg hcl, if_neg hcl]
    refine ⟨?_, rfl⟩
    intro input rest hinp
    cases hinp
  | tick | deadline | silent | read | finishFile | disconnect | drained => exact .inr (h.seesInput hbk rfl rfl)

theorem reactSealed_eq {phase : Phase} {channel : SecureChannel} (input : Input) {rest : Bytes} (ivs : Ivs) :
    phase.react peers.codec peers.files input = none ∧ reactSealed peers channel phase input rest ivs = none ∨
      ∃ phase' seq l, phase.react peers.codec peers.files input = some (phase', l.map snd) ∧
        reactSealed peers channel phase input rest ivs =
          some ⟨.linked { channel with sendSeq := seq }, phase', rest, l.map fst⟩ ∧
        Holds P channel l ∧
        ((∀ raw ∈ l.map fst, raw.length ≤ MAX_FRAME) →
          Path (Sealed P channel.encryptKey channel.sendHmacKey) channel.sendSeq l seq) := by
  rw [reactSealed]
  cases hrea : phase.react peers.codec peers.files input with
  | none => exact .inl ⟨rfl, rfl⟩
  | some result =>
    obtain ⟨phase', frames⟩ := result
    obtain ⟨seq, l, hseal, rfl, hho, hpa⟩ := sealFrames_eq (P := P) frames channel ivs
    refine .inr ⟨phase', seq, l, rfl, ?_, hho, hpa⟩
    simp only [hseal]

theorem Pair.sender_turn (hlw : P.Lawful) (h : Pair P s a cs cr forth back) (hst : s.senderStage = .linked cs)
    (hbk : s.toSender = stream (back.map fst)) (hbeg : s.sender ≠ .connecting) (action : SenderAction) (ivs : Ivs) :
    Loopback.senderStep peers.codec peers.files a action false = none ∧ senderTurn peers s action ivs = none ∨
      ∃ cs' phase' back' l, Loopback.senderStep peers.codec peers.files a action false = some { a with
            sender := phase'
            toSender := back'.map snd
            toReceiver := (forth ++ l).map snd } ∧
        senderTurn peers s action ivs = some ⟨.linked cs', phase', stream (back'.map fst), l.map fst⟩ ∧
        phase' ≠ .connecting ∧ Holds P cs l ∧
        ((∀ raw ∈ l.map fst, raw.length ≤ MAX_FRAME) → Joined P cs' cr phase' (forth ++ l) back') := by
  simp only [senderTurn, hst]
  rcases h.input peers hlw hbk hbeg action with
    ⟨hno, hno'⟩ | ⟨input, input', seq, rest, hinp, hinput', hsa, hcar, hsh⟩
  · left
    simp only [hno']
    refine ⟨?_, trivial⟩
    rw [Loopback.senderStep]
    cases hinp : Loopback.senderInput a action with
    | none => rfl
    | some pair => simp only [h.sender, hno pair.1 pair.2 hinp]
  simp only [hinput']
  rcases reactSealed_eq input' ivs with
    ⟨hrea, htu⟩ | ⟨phase', seq', l, hrea, htu, hho, hpa⟩
  · left
    rw [hsa] at hrea
    simp only [Loopback.senderStep, hinp, h.sender, hrea]
    exact ⟨trivial, htu⟩
  right
  rw [hsa] at hrea
  refine ⟨_, phase', rest, l, ?_, htu, ne_connecting_of_react hrea, hho, ?_⟩
  · simp [Loopback.senderStep, hinp, h.sender, hrea, h.framesForth]
  · intro hft
    refine ⟨(h.joined.toReceiver.writer_opens seq).append (hpa hft), ?_, hsh, h.joined.sender, h.joined.receiver⟩
    intro hopens
    exact (hcar (opens_of_react hrea hopens)).reader_seals seq'

end Joined

/-! ## The handshake -/

section Handshake

variable {P : Primitives OfflineFrame} (peers : Peers P)

def Peers.clientInit : Bytes := clientInitBytes P peers.handshake.clientSecret peers.handshake.clientRandom

def Peers.serverInit : Bytes := serverInitBytes P peers.handshake.serverSecret peers.handshake.serverRandom

def Peers.clientFinish : Bytes := clientFinishBytes P peers.handshake.clientSecret

def Peers.client : ClientHandshake P := ⟨peers.handshake.clientSecret, peers.clientInit, peers.clientFinish⟩

def Peers.server : ServerHandshake P :=
  ⟨peers.handshake.serverSecret, peers.clientInit, peers.serverInit, P.sha512 peers.clientFinish⟩

/-- No frame is too long, of the handshake or of the script with any keys of the right length. -/
structure Peers.Compact : Prop where
  request : peers.request.length ≤ MAX_FRAME
  clientInit : peers.clientInit.length ≤ MAX_FRAME
  serverInit : peers.serverInit.length ≤ MAX_FRAME
  clientFinish : peers.clientFinish.length ≤ MAX_FRAME
  accept : peers.accept.length ≤ MAX_FRAME
  sealed : ∀ frame, Loopback.Scripted peers.codec peers.files frame → ∀ key mac seq iv, key.length = 32 →
    mac.length = 32 → (message P key mac seq iv frame).length ≤ MAX_FRAME

/-- `Loopback` goes on with frames of the script. -/
def Scripts (a : Loopback.State) : Prop :=
  ∀ action a', Loopback.Smooth peers.files action →
    (loopbackMachine peers.codec peers.files peers.upgrade).next a action = some a' →
    ∀ frame ∈ a'.toReceiver ++ a'.toSender, Loopback.Scripted peers.codec peers.files frame

/-- Where the two sides are in the handshake, with the frames under way and the steps left before the last one. -/
inductive Stages : SenderStage P → ReceiverStage P → List Bytes → List Bytes → Nat → Prop
  | greeting : Stages .greeting .request [] [] 5
  | request : Stages (.serverInit peers.client) .request [peers.request, peers.clientInit] [] 4
  | clientInit : Stages (.serverInit peers.client) .clientInit [peers.clientInit] [] 3
  | serverInit : Stages (.serverInit peers.client) (.clientFinish peers.server) [] [peers.serverInit] 2
  | clientFinish : Stages (.response peers.handshake.client.1) (.clientFinish peers.server)
      [peers.clientFinish, peers.accept] [] 1
  | response : Stages (.response peers.handshake.client.1) (.response peers.handshake.server.1) [peers.accept] [] 0

/-- A connection in the handshake. -/
def shaking (ss : SenderStage P) (rs : ReceiverStage P) (forth back : List Bytes) : State P :=
  ⟨ss, .connecting, rs, none, stream forth, stream back⟩

variable {peers} {s : State P}

theorem frame_of_senderConnects {action : SenderAction} {ivs : Ivs} {turn : Turn (SenderStage P) Phase}
    (h : senderConnects peers s action ivs = some turn) (hst : s.senderStage ≠ .greeting)
    (hop : (s.receiverReturned && quiet s.toSender) = false) (hsmo : action ≠ .silent) :
    ∃ id, action = .frame id := by
  cases hss : s.senderStage with
  | greeting => exact absurd hss hst
  | _ =>
    cases action with
    | frame id => exact ⟨id, rfl⟩
    | silent => exact absurd rfl hsmo
    | closed => simp only [senderConnects, hss, hop, Bool.false_eq_true, if_false, reduceCtorEq] at h
    | _ => simp only [senderConnects, hss, reduceCtorEq] at h

theorem senderConnects_frame {raw rest : Bytes} (hst : s.senderStage ≠ .greeting)
    (hrd : readFrame s.toSender = .frame raw rest) (id : Int) (ivs : Ivs) :
    senderConnects peers s (.frame id) ivs = senderHandshake peers s id ivs raw rest := by
  cases hss : s.senderStage with
  | greeting => exact absurd hss hst
  | _ => simp only [senderConnects, hss, hrd]

theorem senderConnects_pending (hrd : readFrame s.toSender = .pending) (id : Int) (ivs : Ivs) :
    senderConnects peers s (.frame id) ivs = none := by
  cases hss : s.senderStage with
  | greeting => simp only [senderConnects, hss]
  | _ => simp only [senderConnects, hss, hrd]

theorem frame_of_receiverConnects {action : ReceiverAction} {id : Int} {ivs : Ivs}
    {turn : Turn (ReceiverStage P) (Option Run)} (hop : s.sender.Returned = false)
    (hsmo : action ≠ .silent) (h : receiverConnects peers s action id ivs = some turn) :
    ∃ env, action = .frame env := by
  cases action with
  | frame env => exact ⟨env, rfl⟩
  | silent => exact absurd rfl hsmo
  | closed => simp only [receiverConnects, hop, Bool.false_and, Bool.false_eq_true, if_false, reduceCtorEq] at h
  | _ => exact nomatch h

theorem receiverConnects_frame {raw rest : Bytes} {id : Int} {ivs : Ivs} {stage : ReceiverStage P}
    {receiver : Option Run} {raws : List Bytes} (hrd : readFrame s.toReceiver = .frame raw rest)
    (hshake : receiverHandshake peers s.receiverStage id ivs raw = .ok (stage, receiver, raws)) (env : Env) :
    receiverConnects peers s (.frame env) id ivs = if env.link 0 && !raws.isEmpty then
        if s.sender.Returned then some ⟨.failed .write, s.receiver, rest, []⟩ else none
      else some ⟨stage, receiver, rest, raws⟩ := by
  simp only [receiverConnects, hrd, hshake]

theorem receiverConnects_pending (hrd : readFrame s.toReceiver = .pending) (env : Env) (id : Int)
    (ivs : Ivs) : receiverConnects peers s (.frame env) id ivs = none := by
  simp only [receiverConnects, hrd]

theorem Peers.Compact.fits (h : peers.Compact) {channel : SecureChannel} {l : List (Bytes × V1Frame)}
    (hsiz : Sized channel) (hho : Holds P channel l)
    (hscri : ∀ frame ∈ l.map snd, Loopback.Scripted peers.codec peers.files frame) :
    ∀ raw ∈ l.map fst, raw.length ≤ MAX_FRAME := by
  intro raw hraw
  obtain ⟨m, hm, rfl⟩ := mem_map.1 hraw
  obtain ⟨seq, iv, hmsg⟩ := hho m hm
  rw [hmsg]
  exact h.sealed _ (hscri _ (mem_map_of_mem hm)) _ _ _ _ hsiz.1 hsiz.2

theorem sized_handshake (hlw : P.Lawful) (handshake : Handshake P) :
    Sized handshake.client.1 ∧ Sized handshake.server.1 :=
  ⟨⟨hlw.length_hkdf _ _ _, hlw.length_hkdf _ _ _⟩, hlw.length_hkdf _ _ _, hlw.length_hkdf _ _ _⟩

/-- The channels of the handshake fit together, and nothing is under way. -/
theorem carried_handshake (hlw : P.Lawful) (handshake : Handshake P) :
    Carried P handshake.server.1 handshake.client.1 [] ∧ Carried P handshake.client.1 handshake.server.1 [] := by
  obtain ⟨⟨henc, hmac, henc', hmac'⟩, -⟩ := handshake.mirrored hlw
  exact ⟨⟨henc.symm, hmac.symm, hlw.length_hkdf _ _ _, .nil 0⟩, ⟨henc'.symm, hmac'.symm, hlw.length_hkdf _ _ _, .nil 0⟩⟩

end Handshake

/-! ## The simulation -/

section Simulation

variable {P : Primitives OfflineFrame}

/-- A connection, its frames in `Loopback`, and the number of steps of the handshake that are left. -/
inductive Sim (peers : Peers P) : State P → Loopback.State → Nat → Prop
  | shaking {ss : SenderStage P} {rs : ReceiverStage P} {forth back : List Bytes} {n : Nat} :
      Stages peers ss rs forth back n → (∀ raw ∈ forth ++ back, raw.length ≤ MAX_FRAME) →
      Sim peers (shaking ss rs forth back) ⟨.connecting, none, [], []⟩ n
  /-- The receiver is in its loop, the sender has not read its response. -/
  | started {s : State P} {a : Loopback.State} {cr : SecureChannel} {run : Run}
      {back : List (Bytes × V1Frame)} : Pair P s a peers.handshake.client.1 cr [] back →
      s.senderStage = .response peers.handshake.client.1 → s.sender = .connecting →
      s.receiver = some run → s.toSender = stream (peers.accept :: back.map fst) →
      peers.accept.length ≤ MAX_FRAME → Sim peers s a 0
  | linked {s : State P} {a : Loopback.State} {cs cr : SecureChannel} {run : Run}
      {forth back : List (Bytes × V1Frame)} : Pair P s a cs cr forth back →
      s.senderStage = .linked cs → s.sender ≠ .connecting → s.receiver = some run →
      s.toSender = stream (back.map fst) → Sim peers s a 0

/-- A state that follows: after a step of the handshake, or after a step of `Loopback`. -/
def Answers (peers : Peers P) (a : Loopback.State) (n : Nat) (tick : Bool) (t : State P) : Prop :=
  (∃ m, n = m + 1 ∧ tick = false ∧ Sim peers t a m) ∨
    ∃ action a', Loopback.Smooth peers.files action ∧ Loopback.Tick action = tick ∧
      (loopbackMachine peers.codec peers.files peers.upgrade).next a action = some a' ∧
      Sim peers t a' n

variable {peers : Peers P} {s : State P} {a : Loopback.State} {n : Nat} {ss : SenderStage P}
  {rs rs' : ReceiverStage P} {id : Int} {ivs : Ivs}

theorem Sim.init : Sim peers ⟨.greeting, .connecting, .request, none, [], []⟩ ⟨.connecting, none, [], []⟩ 5 :=
  .shaking .greeting nofun

/-! ### Steps of the sender -/

def State.sends (s : State P) (turn : Turn (SenderStage P) Phase) : State P :=
  { s with
    senderStage := turn.stage
    sender := turn.side
    toSender := turn.rest
    toReceiver := s.toReceiver ++ stream turn.raws }

def State.receives (s : State P) (turn : Turn (ReceiverStage P) (Option Run)) : State P :=
  { s with
    receiverStage := turn.stage
    receiver := turn.side
    toReceiver := turn.rest
    toSender := s.toSender ++ stream turn.raws }

theorem not_senderConnects {forth : List Bytes} {action : SenderAction} {turn : Turn (SenderStage P) Phase}
    (h : senderConnects peers (shaking ss rs forth []) action ivs = some turn) (hst : ss ≠ .greeting)
    (hop : (shaking ss rs forth []).receiverReturned = false) (hsmo : action ≠ .silent) : False := by
  have hcl : ((shaking ss rs forth []).receiverReturned && quiet (shaking ss rs forth []).toSender) =
      false := by
    rw [hop, Bool.false_and]
  obtain ⟨id, rfl⟩ := frame_of_senderConnects h hst hcl hsmo
  exact nomatch (senderConnects_pending readFrame_nil id ivs).symm.trans h

theorem senderConnects_serverInit (hlw : P.Lawful) (hsh : peers.serverInit.length ≤ MAX_FRAME) (id : Int) (ivs : Ivs) :
    senderConnects peers (shaking (.serverInit peers.client) (.clientFinish peers.server) [] [peers.serverInit])
        (.frame id) ivs =
      some ⟨.response peers.handshake.client.1, .connecting, [], [peers.clientFinish, peers.accept]⟩ := by
  have hne : (shaking (.serverInit peers.client) (.clientFinish peers.server) []
      [peers.serverInit]).senderStage ≠ .greeting := nofun
  have hfin := finish_serverInit hlw peers.handshake
  rw [senderConnects_frame hne (readFrame_stream hsh [])]
  simp only [senderHandshake, shaking, client, clientInit, clientFinish, serverInit,
    hfin, stream_nil]

variable {forth back : List Bytes}

theorem Stages.sender_step (hlw : P.Lawful) (hcpt : peers.Compact) {n : Nat} (h : Stages peers ss rs forth back n)
    (hsh : ∀ raw ∈ forth ++ back, raw.length ≤ MAX_FRAME) {action : SenderAction} {turn : Turn (SenderStage P) Phase}
    (hsmo : action ≠ .silent) (htu : senderTurn peers (shaking ss rs forth back) action ivs = some turn) :
    ∃ m, n = m + 1 ∧ Loopback.Tick (.sender action false) = false ∧
      Sim peers ((shaking ss rs forth back).sends turn) ⟨.connecting, none, [], []⟩ m := by
  have hcon : senderConnects peers (shaking ss rs forth back) action ivs = some turn := by cases h <;> exact htu
  cases h with
  | greeting =>
    cases action with
    | connected id =>
      cases hcon
      refine ⟨4, rfl, rfl, .shaking .request ?_⟩
      exact forall_mem_cons.2 ⟨hcpt.request, forall_mem_singleton.2 hcpt.clientInit⟩
    | _ => exact nomatch hcon
  | serverInit =>
    have hraw : peers.serverInit.length ≤ MAX_FRAME := hsh _ mem_cons_self
    obtain ⟨id, rfl⟩ := frame_of_senderConnects hcon nofun rfl hsmo
    cases hcon.symm.trans (senderConnects_serverInit hlw hraw id ivs)
    refine ⟨1, rfl, rfl, .shaking .clientFinish ?_⟩
    exact forall_mem_cons.2 ⟨hcpt.clientFinish, forall_mem_singleton.2 hcpt.accept⟩
  -- in the other stages it is the receiver's turn
  | request | clientInit | clientFinish | response => exact (not_senderConnects hcon nofun rfl hsmo).elim

/-- The sender reads the connection response and starts the paired key exchange. -/
theorem Sim.sender_starts {cr : SecureChannel} {run : Run} {back : List (Bytes × V1Frame)} (hcpt : peers.Compact)
    (hscr : Scripts peers a) (hpl : peers.plain.Faithful) (hpi : Pair P s a peers.handshake.client.1 cr [] back)
    (hst : s.senderStage = .response peers.handshake.client.1) (hsd : s.sender = .connecting)
    (hrun : s.receiver = some run) (hbk : s.toSender = stream (peers.accept :: back.map fst))
    (hsh : peers.accept.length ≤ MAX_FRAME) (hid : Loopback.Ranged id) (ivs : Ivs) :
    ∃ turn a', senderTurn peers s (.frame id) ivs = some turn ∧
      Loopback.senderStep peers.codec peers.files a (.connected id) false = some a' ∧
      Sim peers (s.sends turn) a' 0 := by
  have hrd : readFrame s.toSender = .frame peers.accept (stream (back.map fst)) := by
    rw [hbk]
    exact readFrame_stream hsh _
  have hne : s.senderStage ≠ .greeting := by
    rw [hst]
    intro heq
    cases heq
  have hstat : responseStatus peers.plain peers.accept = .ok .accept := responseStatus_accept hpl
  obtain ⟨seq, l, hseal, hfrs, hho, hpa⟩ := sealFrames_eq (P := P)
    (sharingFrames peers.codec id .pairedKeyEncryption) peers.handshake.client.1 ivs
  have htu : senderTurn peers s (.frame id) ivs =
      some ⟨.linked { peers.handshake.client.1 with sendSeq := seq }, .waiting ∅, stream (back.map fst),
        l.map fst⟩ := by
    have hcon : senderTurn peers s (.frame id) ivs = senderConnects peers s (.frame id) ivs := by
      simp [senderTurn, hst, hsd, Phase.Returned]
    rw [hcon, senderConnects_frame hne hrd, senderHandshake]
    simp [hst, hstat, hsd, reactSealed, Phase.react, hseal]
  have hsp : Loopback.senderStep peers.codec peers.files a (.connected id) false = some { a with
        sender := .waiting ∅, toSender := a.toSender, toReceiver := a.toReceiver ++ l.map snd } := by
    simp [Loopback.senderStep, Loopback.senderInput, hpi.receiver, hrun, hpi.sender, hsd, Phase.react, hfrs]
  have hft : ∀ raw ∈ l.map fst, raw.length ≤ MAX_FRAME := by
    apply hcpt.fits hpi.joined.sender hho
    intro frame hfr
    have hsmo : Loopback.Smooth peers.files (.sender (.connected id) false) := Loopback.smooth_connected hid
    exact hscr _ _ hsmo hsp frame (mem_append_left _ (mem_append_right _ hfr))
  refine ⟨_, _, htu, hsp, ?_⟩
  · refine @Sim.linked _ _ _ _ _ cr _ l back ⟨rfl, hpi.receiver, hpi.receiverStage, ?_, ?_,
      hpi.framesBack, ?_⟩ rfl Phase.noConfusion hrun rfl
    · simp [sends, hpi.bytesForth, stream_nil]
    · rw [hpi.framesForth]
      rfl
    · have htoS := hpi.joined.toSender (by rw [hsd]; rfl)
      exact ⟨hpi.joined.toReceiver.append (hpa hft), fun _ => htoS.reader_seals seq,
        hpi.joined.short, hpi.joined.sender, hpi.joined.receiver⟩

theorem Sim.sender_step (hlw : P.Lawful) (hpl : peers.plain.Faithful) (hcpt : peers.Compact) (h : Sim peers s a n)
    (hscr : Scripts peers a) {action : SenderAction} {turn : Turn (SenderStage P) Phase}
    (hsmo : Loopback.Smooth peers.files (.sender action false)) (htu : senderTurn peers s action ivs = some turn) :
    Answers peers a n (Loopback.Tick (.sender action false)) (s.sends turn) := by
  cases h with
  | shaking hstag hsh =>
    obtain ⟨m, hm, htc, hsim⟩ := hstag.sender_step hlw hcpt hsh hsmo.2.2.1 htu
    exact .inl ⟨m, hm, htc, hsim⟩
  | started hpi hst hsd hrun hbk hsh =>
    have hcon : senderConnects peers s action ivs = some turn := by
      simpa only [senderTurn, hst, hsd, Phase.Returned, Bool.false_eq_true, if_false] using htu
    have hqu : quiet s.toSender = false := by
      rw [hbk, quiet, readFrame_stream hsh]
      rfl
    obtain ⟨id, rfl⟩ := frame_of_senderConnects hcon (by rw [hst]; nofun) (by rw [hqu, Bool.and_false]) hsmo.2.2.1
    obtain ⟨other, a', hoth, hsp, hsim⟩ := Sim.sender_starts hcpt hscr hpl hpi hst hsd hrun hbk hsh hsmo.2.2.2.2 ivs
    cases htu.symm.trans hoth
    exact .inr ⟨.sender (.connected id) false, a', Loopback.smooth_connected hsmo.2.2.2.2, rfl, hsp, hsim⟩
  | linked hpi hst hbeg hrun hbk =>
    rcases hpi.sender_turn hlw hst hbk hbeg action ivs with
      ⟨-, hno⟩ | ⟨cs', phase', back', l, hsp, hsome, hbegun', hho, hjoin⟩
    · exact nomatch hno.symm.trans htu
    cases htu.symm.trans hsome
    have hft : ∀ raw ∈ l.map fst, raw.length ≤ MAX_FRAME := by
      apply hcpt.fits hpi.joined.sender hho
      intro frame hfr
      apply hscr _ _ hsmo hsp
      rw [map_append]
      exact mem_append_left _ (mem_append_right _ hfr)
    refine .inr ⟨.sender action false, _, hsmo, rfl, hsp, ?_⟩
    refine .linked ⟨rfl, hpi.receiver, hpi.receiverStage, ?_, rfl, rfl, hjoin hft⟩ rfl hbegun' hrun rfl
    simp [sends, hpi.bytesForth, stream_append]

/-! ### Turns of the receiver -/

variable {turn : Turn (ReceiverStage P) (Option Run)} {action : ReceiverAction}

theorem receiverConnects_eq {raw : Bytes} {forth back raws : List Bytes} {receiver : Option Run}
    (h : receiverConnects peers (shaking ss rs (raw :: forth) back) action id ivs = some turn)
    (hsmo : action ≠ .silent) (hsh : raw.length ≤ MAX_FRAME)
    (hshake : receiverHandshake peers rs id ivs raw = .ok (rs', receiver, raws)) :
    (∃ env, action = .frame env) ∧ turn = ⟨rs', receiver, stream forth, raws⟩ := by
  obtain ⟨env, rfl⟩ := frame_of_receiverConnects rfl hsmo h
  refine ⟨⟨env, rfl⟩, ?_⟩
  rw [receiverConnects_frame (readFrame_stream hsh forth) hshake] at h
  by_cases hli : (env.link 0 && !raws.isEmpty)
  · rw [if_pos hli] at h
    exact nomatch h
  · rw [if_neg hli] at h
    exact (Option.some.inj h).symm

theorem not_receiverConnects {back : List Bytes}
    (h : receiverConnects peers (shaking ss rs [] back) action id ivs = some turn)
    (hsmo : action ≠ .silent) : False := by
  obtain ⟨env, rfl⟩ := frame_of_receiverConnects rfl hsmo h
  exact nomatch (receiverConnects_pending readFrame_nil env id ivs).symm.trans h

theorem receiverHandshake_request (hpl : peers.plain.Faithful) (id : Int) (ivs : Ivs) :
    receiverHandshake peers .request id ivs peers.request = .ok (.clientInit, none, []) := by
  have hacc := acceptRequest_encode hpl .laptop peers.length_random peers.name
  simp only [receiverHandshake, request, hacc]

section

variable (hlw : P.Lawful)
include hlw

theorem receiverHandshake_clientInit (id : Int) (ivs : Ivs) :
    receiverHandshake peers .clientInit id ivs peers.clientInit =
      .ok (.clientFinish peers.server, none, [peers.serverInit]) := by
  have hacc := accept_clientInit hlw peers.handshake
  simp only [receiverHandshake, clientInit, hacc]
  rfl

theorem receiverHandshake_clientFinish (id : Int) (ivs : Ivs) :
    receiverHandshake peers (.clientFinish peers.server) id ivs peers.clientFinish =
      .ok (.response peers.handshake.server.1, none, []) := by
  have hfin := finish_clientFinish hlw peers.handshake
  simp only [receiverHandshake, server, clientInit, serverInit, clientFinish, hfin]

section

variable (hpl : peers.plain.Faithful)
include hpl

theorem receiverHandshake_response (id : Int) (ivs : Ivs) :
    ∃ seq l, receiverHandshake peers (.response peers.handshake.server.1) id ivs peers.accept =
        .ok (.linked { peers.handshake.server.1 with sendSeq := seq }, some (Run.start peers.upgrade),
          peers.accept :: l.map fst) ∧
      l.map snd = sharingFrames peers.codec id .pairedKeyEncryption ∧
      Holds P peers.handshake.server.1 l ∧
      ((∀ raw ∈ l.map fst, raw.length ≤ MAX_FRAME) →
        Joined P peers.handshake.client.1 { peers.handshake.server.1 with sendSeq := seq } .connecting [] l) := by
  have hexp := expectFrame_encode hpl ⟨.connectionResponse, none, some .accept⟩
  obtain ⟨seq, l, hseal, hfrs, hho, hpa⟩ := sealFrames_eq (P := P)
    (sharingFrames peers.codec id .pairedKeyEncryption) peers.handshake.server.1 ivs
  obtain ⟨hclient, hser⟩ := sized_handshake hlw peers.handshake
  refine ⟨seq, l, ?_, hfrs, hho, ?_⟩
  · simp only [receiverHandshake, accept, connectionAccept, hexp, hseal]
  · intro hft
    obtain ⟨hfor, hbk⟩ := carried_handshake hlw peers.handshake
    refine ⟨hfor.reader_seals seq, fun _ => hbk.append (hpa hft), ?_, hclient, hser⟩
    intro m hm
    exact hft m.1 (mem_map_of_mem hm)

theorem Stages.receiver_step (hcpt : peers.Compact)
    (hscr : Scripts peers ⟨.connecting, none, [], []⟩) {n : Nat} (h : Stages peers ss rs forth back n)
    (hsh : ∀ raw ∈ forth ++ back, raw.length ≤ MAX_FRAME) (hsmo : action ≠ .silent) (hid : Loopback.Ranged id)
    (htu : receiverTurn peers (shaking ss rs forth back) action id ivs = some turn) :
    Answers peers ⟨.connecting, none, [], []⟩ n (Loopback.Tick (.receiver action))
      ((shaking ss rs forth back).receives turn) := by
  have hcon : receiverConnects peers (shaking ss rs forth back) action id ivs = some turn := by cases h <;> exact htu
  cases h with
  | greeting | serverInit => exact (not_receiverConnects hcon hsmo).elim
  | request =>
    rw [append_nil, forall_mem_cons] at hsh
    obtain ⟨⟨env, rfl⟩, rfl⟩ := receiverConnects_eq hcon hsmo hsh.1 (receiverHandshake_request hpl id ivs)
    exact .inl ⟨3, rfl, rfl, .shaking .clientInit hsh.2⟩
  | clientInit =>
    obtain ⟨⟨env, rfl⟩, rfl⟩ := receiverConnects_eq hcon hsmo (hsh _ mem_cons_self)
      (receiverHandshake_clientInit hlw id ivs)
    exact .inl ⟨2, rfl, rfl, .shaking .serverInit (forall_mem_singleton.2 hcpt.serverInit)⟩
  | clientFinish =>
    rw [append_nil, forall_mem_cons] at hsh
    obtain ⟨⟨env, rfl⟩, rfl⟩ := receiverConnects_eq hcon hsmo hsh.1 (receiverHandshake_clientFinish hlw id ivs)
    exact .inl ⟨0, rfl, rfl, .shaking .response hsh.2⟩
  | response =>
    obtain ⟨seq, l, hshake, hfrs, hho, hjoin⟩ := receiverHandshake_response hlw hpl id ivs
    obtain ⟨⟨env, rfl⟩, rfl⟩ := receiverConnects_eq hcon hsmo (hsh _ mem_cons_self) hshake
    have hsp : (loopbackMachine peers.codec peers.files peers.upgrade).next
        ⟨.connecting, none, [], []⟩ (.start id) =
        some ⟨.connecting, some (Run.start peers.upgrade), [], l.map snd⟩ := by
      rw [hfrs]
      rfl
    have hft : ∀ raw ∈ l.map fst, raw.length ≤ MAX_FRAME := by
      apply hcpt.fits (sized_handshake hlw peers.handshake).2 hho
      exact hscr (.start id) _ hid hsp
    refine .inr ⟨.start id, _, hid, rfl, hsp, ?_⟩
    exact .started ⟨rfl, rfl, rfl, rfl, rfl, rfl, hjoin hft⟩ rfl rfl rfl rfl hcpt.accept

theorem Sim.receiver_step (hcpt : peers.Compact) (h : Sim peers s a n) (hscr : Scripts peers a)
    (hsmo : Loopback.Smooth peers.files (.receiver action)) (hid : Loopback.Ranged id)
    (htu : receiverTurn peers s action id ivs = some turn) :
    Answers peers a n (Loopback.Tick (.receiver action)) (s.receives turn) := by
  have hwrn : ∀ {run' : Run} {forth' : List V1Frame} {back l : List (Bytes × V1Frame)},
      Loopback.receiverStep peers.codec a action = some { a with
        receiver := some run'
        toReceiver := forth'
        toSender := (back ++ l).map snd } →
      ∀ frame ∈ l.map snd, Loopback.Scripted peers.codec peers.files frame := by
    intro run' forth' back l hsp frame hfr
    apply hscr _ _ hsmo hsp
    rw [map_append]
    exact mem_append_right _ (mem_append_right _ hfr)
  cases h with
  | shaking hstag hsh =>
    have hloud : action ≠ .silent := by
      rintro rfl
      exact hsmo
    exact hstag.receiver_step hlw hpl hcpt hscr hsh hloud hid htu
  | started hpi hst hsd hrun hbk hsh =>
    rcases hpi.receiver_turn hlw action id ivs with
      ⟨-, hno⟩ | ⟨cr', run', forth', l, hsuf, hsp, hsome, hho, hjoin⟩
    · exact nomatch hno.symm.trans htu
    cases htu.symm.trans hsome
    cases suffix_nil.1 hsuf
    have hft := hcpt.fits hpi.joined.receiver hho (hwrn hsp)
    refine .inr ⟨.receiver action, _, hsmo, rfl, hsp, ?_⟩
    refine .started ⟨hpi.sender, rfl, rfl, rfl, rfl, rfl, hjoin hft⟩ hst hsd rfl ?_ hsh
    simp [receives, hbk, stream_cons, stream_append]
  | linked hpi hst hbeg hrun hbk =>
    rcases hpi.receiver_turn hlw action id ivs with
      ⟨-, hno⟩ | ⟨cr', run', forth', l, -, hsp, hsome, hho, hjoin⟩
    · exact nomatch hno.symm.trans htu
    cases htu.symm.trans hsome
    have hft := hcpt.fits hpi.joined.receiver hho (hwrn hsp)
    refine .inr ⟨.receiver action, _, hsmo, rfl, hsp, ?_⟩
    refine .linked ⟨hpi.sender, rfl, rfl, rfl, rfl, rfl, hjoin hft⟩ hst hbeg rfl ?_
    simp [receives, hbk, stream_append]

end

end

/-! ### Whole steps -/

theorem senderStep_eq {action : SenderAction} {turn : Turn (SenderStage P) Phase}
    (h : senderTurn peers s action ivs = some turn) :
    senderStep peers s action false ivs = some (s.sends turn) := by
  simp [senderStep, h, sends]

theorem receiverStep_eq (h : receiverTurn peers s action id ivs = some turn) :
    receiverStep peers s action id ivs = some (s.receives turn) := by
  simp only [receiverStep, h, receives]

/-- A smooth step of the connection is a step of the handshake or one of `Loopback`. -/
theorem Sim.step (hlw : P.Lawful) (hpl : peers.plain.Faithful) (hcpt : peers.Compact) {s t : State P}
    (h : Sim peers s a n) (hscr : Scripts peers a) {action : Action}
    (hsmo : Smooth peers action) (hnx : (connectionMachine peers).next s action = some t) :
    Answers peers a n (Tick action) t := by
  cases action with
  | sender action fails ivs =>
    obtain rfl : fails = false := hsmo.1
    cases htu : senderTurn peers s action ivs with
    | none => simp only [connectionMachine, senderStep, htu, reduceCtorEq] at hnx
    | some turn =>
      cases hnx.symm.trans (senderStep_eq htu)
      exact h.sender_step hlw hpl hcpt hscr hsmo htu
  | receiver action id ivs =>
    cases htu : receiverTurn peers s action id ivs with
    | none => simp only [connectionMachine, receiverStep, htu, reduceCtorEq] at hnx
    | some turn =>
      cases hnx.symm.trans (receiverStep_eq htu)
      exact h.receiver_step hlw hpl hcpt hscr hsmo.1 hsmo.2 htu

def Enabled (peers : Peers P) (s : State P) : Prop :=
  ∃ action t, Smooth peers action ∧ Tick action = false ∧ (connectionMachine peers).next s action = some t

theorem enabled_of_sender (action : SenderAction) (ivs : Ivs) {turn : Turn (SenderStage P) Phase}
    (hsmo : Loopback.Smooth peers.files (.sender action false)) (htc : Loopback.Tick (.sender action false) = false)
    (h : senderTurn peers s action ivs = some turn) : Enabled peers s :=
  ⟨.sender action false ivs, s.sends turn, hsmo, htc, senderStep_eq h⟩

theorem enabled_of_receiver (hsmo : Loopback.Smooth peers.files (.receiver action))
    (htc : Loopback.Tick (.receiver action) = false)
    (h : receiverTurn peers s action 0 ivs = some turn) : Enabled peers s :=
  ⟨.receiver action 0 ivs, s.receives turn, ⟨hsmo, ranged_zero⟩, htc, receiverStep_eq h⟩

/-- Any random numbers. -/
def someIvs : Ivs := fun _ => ⟨List.replicate 16 0, length_replicate⟩

theorem sound_calm (files : List OutgoingFile) : Loopback.Smooth files (.receiver (.frame .calm)) :=
  ⟨⟨fun _ _ => rfl, rfl, rfl⟩, ranged_zero⟩

theorem receiverConnects_calm {raw : Bytes} {forth back raws : List Bytes} {receiver : Option Run}
    (hsh : raw.length ≤ MAX_FRAME) (hshake : receiverHandshake peers rs 0 someIvs raw = .ok (rs', receiver, raws)) :
    receiverConnects peers (shaking ss rs (raw :: forth) back) (.frame .calm) 0 someIvs =
      some ⟨rs', receiver, stream forth, raws⟩ := by
  rw [receiverConnects_frame (readFrame_stream hsh forth) hshake]
  rfl

theorem Stages.enabled (hlw : P.Lawful) (hpl : peers.plain.Faithful) {n : Nat} (h : Stages peers ss rs forth back n)
    (hsh : ∀ raw ∈ forth ++ back, raw.length ≤ MAX_FRAME) :
    Enabled peers (shaking ss rs forth back) := by
  cases h with
  | greeting => exact enabled_of_sender (.connected 0) someIvs (smooth_connected ranged_zero) rfl rfl
  | serverInit =>
    have hraw : peers.serverInit.length ≤ MAX_FRAME := hsh _ mem_cons_self
    exact enabled_of_sender (.frame 0) someIvs (smooth_frame ranged_zero) rfl
      (senderConnects_serverInit hlw hraw 0 someIvs)
  | request =>
    exact enabled_of_receiver (sound_calm _) rfl
      (receiverConnects_calm (hsh _ mem_cons_self) (receiverHandshake_request hpl 0 someIvs))
  | clientInit =>
    exact enabled_of_receiver (sound_calm _) rfl
      (receiverConnects_calm (hsh _ mem_cons_self) (receiverHandshake_clientInit hlw 0 someIvs))
  | clientFinish =>
    exact enabled_of_receiver (sound_calm _) rfl
      (receiverConnects_calm (hsh _ mem_cons_self) (receiverHandshake_clientFinish hlw 0 someIvs))
  | response =>
    obtain ⟨seq, l, hshake, -, -, -⟩ := receiverHandshake_response hlw hpl 0 someIvs
    exact enabled_of_receiver (sound_calm _) rfl (receiverConnects_calm (hsh _ mem_cons_self) hshake)

/-- Where `Loopback` can go on, the connection can. -/
theorem Sim.progress (hlw : P.Lawful) (hpl : peers.plain.Faithful) (hcpt : peers.Compact) (h : Sim peers s a n)
    (hscr : Scripts peers a) (henab : Loopback.Enabled peers.codec peers.files peers.upgrade a) :
    Enabled peers s := by
  cases h with
  | shaking hstag hsh => exact hstag.enabled hlw hpl hsh
  | started hpi hst hsd hrun hbk hsh =>
    obtain ⟨turn, a', htu, -, -⟩ :=
      Sim.sender_starts hcpt hscr hpl hpi hst hsd hrun hbk hsh Loopback.ranged_zero someIvs
    exact enabled_of_sender (.frame 0) someIvs (Loopback.smooth_frame Loopback.ranged_zero) rfl htu
  | linked hpi hst hbeg hrun hbk =>
    obtain ⟨action, a', hsmo, htc, hnx⟩ := henab
    cases action with
    | sender action fails =>
      obtain rfl : fails = false := hsmo.1
      rcases hpi.sender_turn hlw hst hbk hbeg action someIvs with
        ⟨hno, -⟩ | ⟨cs', phase', back', l, -, hsome, -, -⟩
      · exact nomatch hno.symm.trans hnx
      · exact enabled_of_sender action someIvs hsmo htc hsome
    | start id => simp only [Loopback.loopbackMachine, hpi.receiver, hrun, reduceCtorEq] at hnx
    | receiver action =>
      rcases hpi.receiver_turn hlw action 0 someIvs with
        ⟨hno, -⟩ | ⟨cr', run', forth', l, -, -, hsome, -⟩
      · exact nomatch hno.symm.trans hnx
      · exact enabled_of_receiver hsmo htc hsome

/-! ### Both sides have returned -/

section

variable (h : Sim peers s a n)
include h

theorem Sim.receiverReturned : s.receiverReturned = a.receiverEnded := by
  cases h with
  | shaking hstag => cases hstag <;> rfl
  | started hpi | linked hpi => exact hpi.receiverReturned

theorem Sim.sender : a.sender = s.sender := by
  cases h with
  | shaking => rfl
  | started hpi | linked hpi => exact hpi.sender

theorem Sim.receiver : a.receiver = s.receiver := by
  cases h with
  | shaking => rfl
  | started hpi | linked hpi => exact hpi.receiver

theorem Sim.not_failed (error : HandshakeError) : s.receiverStage ≠ .failed error := by
  cases h with
  | shaking hstag => cases hstag <;> nofun
  | started hpi | linked hpi =>
    rw [hpi.receiverStage]
    nofun

end

end Simulation

end KaiT2en.Airshare.Connection
