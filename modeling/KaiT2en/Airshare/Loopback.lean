import KaiT2en.Airshare.Delivery
import KaiT2en.Lib.Fifo

/-!
# Sending to our own receiver

`send` and `run` at the two ends of a connection. `loopbackMachine` has the sender and the receiver with the frames
that are under way in both directions, from the paired key exchange on. Any side may act at any time: take the next
frame, let a timer run out, write the next chunk, ask the user. A write fails only when the other side has closed the
connection.

`Smooth` says that no timer runs out and no write fails, that the user accepts and that the file system works. In a
smooth run the queue in each direction leads from what its reader has seen to what its writer has written, along the
script of `Move`.
-/

namespace KaiT2en.Airshare.Loopback

open KaiT2en.Lib.Encoding KaiT2en.Lib.Transition KaiT2en.Lib.Fifo List BytesPayloads
open Send Receive

/-! ## Both sides -/

structure State where
  sender : Phase
  /-- The receiver from the paired key exchange on. -/
  receiver : Option Run
  toReceiver : List V1Frame
  toSender : List V1Frame

/-- The receiver has returned and closed the connection. -/
def State.receiverEnded (s : State) : Bool := s.receiver.any fun run => run.ended.isSome

inductive SenderAction where
  | connected (id : Int)
  | frame (id : Int)
  | tick
  | deadline
  | silent
  | closed
  | read (n : Nat)
  | finishFile
  | disconnect
  | drained
  deriving DecidableEq

inductive ReceiverAction where
  | frame (env : Env)
  | silent
  | closed
  | answer (yes : Bool) (env : Env)
  | prepared (ok : Bool) (env : Env)
  /-- Nobody connects to the hotspot. -/
  | unconnected (env : Env)
  | tick (env : Env)

inductive Action where
  | sender (action : SenderAction) (fails : Bool)
  | start (id : Int)
  | receiver (action : ReceiverAction)

/-- What the sender gets to see, and the frames that are left. -/
def senderInput (s : State) : SenderAction → Option (Input × List V1Frame)
  | .connected id => if s.receiver.isSome then some (.connected id, s.toSender) else none
  | .frame id =>
    match s.toSender with
    | frame :: rest => some (.frame (some frame) id, rest)
    | [] => none
  | .tick => some (.tick, s.toSender)
  | .deadline => some (.deadline, s.toSender)
  | .silent => some (.lost, s.toSender)
  | .closed => if s.receiverEnded && s.toSender.isEmpty then some (.lost, s.toSender) else none
  | .read n => some (.read n, s.toSender)
  | .finishFile => some (.finishFile, s.toSender)
  | .disconnect => some (.disconnect, s.toSender)
  | .drained => some (.drained, s.toSender)

/-- What the loop of the receiver gets to see, and the frames that are left. -/
def receiverEvent (s : State) : ReceiverAction → Option (Event × List V1Frame)
  | .frame env =>
    match s.toReceiver with
    | frame :: rest => some (.frame (some frame) env, rest)
    | [] => none
  | .silent => some (.lost, s.toReceiver)
  | .closed => if s.sender.Returned && s.toReceiver.isEmpty then some (.lost, s.toReceiver) else none
  | .answer yes env => some (.answer yes env, s.toReceiver)
  | .prepared ok env => some (.prepared ok env, s.toReceiver)
  | .unconnected env => some (.connected false env, s.toReceiver)
  | .tick env => some (.keepAlive env, s.toReceiver)

/-- A write of this turn would fail. -/
def linkFails : Event → Bool
  | .lost => false
  | .frame _ env | .answer _ env | .prepared _ env | .connected _ env | .keepAlive env => env.link 0 || env.link 1

def sealedFrames (log : List LogEntry) : List V1Frame :=
  log.filterMap fun entry =>
    match entry.what with
    | .sealed frame => some frame
    | .plainDisconnection => none

/-- What a turn of the receiver has written. -/
def written (run run' : Run) : List V1Frame := sealedFrames (run'.log.drop run.log.length)

section Machine

variable (codec : Codec SharingFrame) (files : List OutgoingFile)

def senderStep (s : State) (action : SenderAction) (fails : Bool) : Option State :=
  match senderInput s action with
  | none => none
  | some (input, rest) =>
    match s.sender.react codec files input with
    | none => none
    | some (phase, frames) =>
      if fails then
        if s.receiverEnded && !frames.isEmpty then
          some { s with sender := .returned (.error (.link .write)), toSender := rest }
        else none
      else some { s with sender := phase, toSender := rest, toReceiver := s.toReceiver ++ frames }

/-- A turn of the receiver. -/
def receiverStep (s : State) (action : ReceiverAction) : Option State :=
  match receiverEvent s action, s.receiver with
  | some (event, rest), some run =>
    if linkFails event && !s.sender.Returned then none
    else
      match (receiveMachine codec).next run event with
      | none => none
      | some run' =>
        some { s with
          receiver := some run'
          toReceiver := rest
          toSender := s.toSender ++ written run run' }
  | _, _ => none

def loopbackMachine (upgrade : Bool) : Machine State Action where
  init s := s = ⟨.connecting, none, [], []⟩
  next s
    | .sender action fails => senderStep codec files s action fails
    | .start id =>
      match s.receiver with
      | some _ => none
      | none =>
        some { s with
          receiver := some (Run.start upgrade)
          toSender := s.toSender ++ sharingFrames codec id .pairedKeyEncryption }
    | .receiver action => receiverStep codec s action

end Machine

variable (files : List OutgoingFile)

/-- Creating, writing and syncing files works. -/
def Sound (env : Env) : Prop := (∀ n < files.length, env.create n = false) ∧ env.write = none ∧ env.sync = false

instance (env : Env) : Decidable (Sound files env) := inferInstanceAs (Decidable (_ ∧ _ ∧ _))

/-- Payload ids are numbers of 64 bits. -/
def Ranged (id : Int) : Prop := -2 ^ 63 ≤ id ∧ id < 2 ^ 63

instance : DecidablePred Ranged := fun _ => inferInstanceAs (Decidable (_ ∧ _))

def SenderAction.Ranged : SenderAction → Prop
  | .connected id | .frame id => Loopback.Ranged id
  | _ => True

instance : DecidablePred SenderAction.Ranged
  | .connected id | .frame id => inferInstanceAs (Decidable (Loopback.Ranged id))
  | .tick | .deadline | .silent | .closed | .read _ | .finishFile | .disconnect | .drained =>
    inferInstanceAs (Decidable True)

/-- No timer runs out, no write fails, the user accepts, and the file system works. -/
def Smooth : Action → Prop
  | .sender action fails => fails = false ∧ action ≠ .deadline ∧ action ≠ .silent ∧ action ≠ .drained ∧ action.Ranged
  | .start id => Ranged id
  | .receiver (.frame env) => Sound files env ∧ Ranged env.payloadId
  | .receiver .silent => False
  | .receiver (.answer yes env) => yes = true ∧ Ranged env.payloadId
  | .receiver _ => True

instance : DecidablePred (Smooth files)
  | .sender _ _ => inferInstanceAs (Decidable (_ ∧ _ ∧ _ ∧ _ ∧ _))
  | .start id => inferInstanceAs (Decidable (Ranged id))
  | .receiver (.frame _) => inferInstanceAs (Decidable (_ ∧ _))
  | .receiver .silent => inferInstanceAs (Decidable False)
  | .receiver (.answer _ _) => inferInstanceAs (Decidable (_ ∧ _))
  | .receiver .closed | .receiver (.prepared _ _) | .receiver (.unconnected _) | .receiver (.tick _) =>
    inferInstanceAs (Decidable True)

theorem smooth_connected {files : List OutgoingFile} {id : Int} (hid : Ranged id) :
    Smooth files (.sender (.connected id) false) :=
  ⟨rfl, nofun, nofun, nofun, hid⟩

theorem smooth_frame {files : List OutgoingFile} {id : Int} (hid : Ranged id) :
    Smooth files (.sender (.frame id) false) :=
  ⟨rfl, nofun, nofun, nofun, hid⟩

/-! ## The script -/

/-- How far the frames of one direction are. -/
inductive Pos where
  /-- At a sharing frame, or behind its first chunk. -/
  | setup (v1 : SharingV1) (rest : List SharingV1) (half : Option Int)
  | files (todo : List OutgoingFile) (offset : Nat)
  | done

/-- What the sender sends before the files, and the receiver before its disconnection. -/
def offers : List SharingV1 := [.pairedKeyEncryption, .pairedKeyResult, introduction files]

def answers : List SharingV1 := [.pairedKeyEncryption, .pairedKeyResult, .response .accept]

/-- The files stand behind the sharing frames. -/
def Pos.begin : List SharingV1 → Pos
  | [] => .files files 0
  | v1 :: rest => .setup v1 rest none

/-- Frames that neither side reacts to. -/
def Idle (frame : V1Frame) : Prop := frame = .keepAlive ∨ frame = .bandwidthUpgradeNegotiation .upgradePathAvailable

/-- The next frame of a direction. The direction to the sender has no files. -/
inductive Move (codec : Codec SharingFrame) (files : List OutgoingFile) : Pos → V1Frame → Pos → Prop
  | idle {p : Pos} {frame : V1Frame} : Idle frame → Move codec files p frame p
  | data {v1 : SharingV1} {rest : List SharingV1} {id : Int} : Ranged id → Move codec files (.setup v1 rest none)
        (chunkFrame ⟨id, .bytes, (codec.encode (some v1)).length⟩ 0 false (codec.encode (some v1)))
        (.setup v1 rest (some id))
  | last {v1 : SharingV1} {rest : List SharingV1} {id : Int} : Ranged id → Move codec files (.setup v1 rest (some id))
        (chunkFrame ⟨id, .bytes, (codec.encode (some v1)).length⟩ (codec.encode (some v1)).length true [])
        (Pos.begin files rest)
  | chunk {file : OutgoingFile} {todo : List OutgoingFile} {offset n : Nat} : 0 < n → n ≤ CHUNK →
      offset + n ≤ file.content.length →
      Move codec files (.files (file :: todo) offset)
        (chunkFrame file.header offset false ((file.content.drop offset).take n))
        (.files (file :: todo) (offset + n))
  | lastChunk {file : OutgoingFile} {todo : List OutgoingFile} :
      Move codec files (.files (file :: todo) file.content.length)
        (chunkFrame file.header file.content.length true []) (.files todo 0)
  | bye : Move codec files (.files [] 0) .disconnection .done

/-- How much of the files is left. -/
def total (todo : List OutgoingFile) (offset : Nat) : Nat :=
  (todo.map fun file => file.content.length + 1).sum + 1 - offset

/-- How much of the script is left. -/
def left : Pos → Nat
  | .setup _ rest half => 2 * rest.length + (if half.isSome then 1 else 2) + total files 0
  | .files todo offset => total todo offset
  | .done => 0

section Script

variable {codec : Codec SharingFrame} {files : List OutgoingFile}

theorem left_begin (v1s : List SharingV1) : left files (Pos.begin files v1s) = 2 * v1s.length + total files 0 := by
  cases v1s with
  | nil => simp only [Pos.begin, left, length_nil, Nat.mul_zero, Nat.zero_add]
  | cons v1 rest => grind [Pos.begin, left]

variable {frame : V1Frame}

/-- A frame leaves less to come, or it is idle. -/
theorem Move.left_lt {p q : Pos} (h : Move codec files p frame q) :
    left files q < left files p ∨ q = p ∧ Idle frame := by
  cases h with
  | idle hdl => exact .inr ⟨rfl, hdl⟩
  | data =>
    left
    simp only [left, Option.isSome_some, Option.isSome_none, if_true, Bool.false_eq_true, if_false]
    omega
  | last =>
    left
    rw [left_begin]
    simp only [left, Option.isSome_some, if_true]
    omega
  | chunk _ _ _ | lastChunk =>
    left
    simp only [left, total, map_cons, sum_cons]
    omega
  | bye => exact .inl Nat.zero_lt_one

theorem Move.left_le (p : Pos) (frame : V1Frame) (q : Pos) (h : Move codec files p frame q) :
    left files q ≤ left files p := by
  rcases h.left_lt with hlt | ⟨rfl, -⟩
  · exact Nat.le_of_lt hlt
  · exact Nat.le_refl _

def Work (codec : Codec SharingFrame) (files : List OutgoingFile) (p : Pos) (frame : V1Frame) (q : Pos) :
    Prop :=
  Move codec files p frame q ∧ left files q < left files p

theorem not_idle_chunkFrame {header : PayloadHeader} {offset : Int} {last : Bool} {body : List UInt8} :
    ¬Idle (chunkFrame header offset last body) := by
  rintro (h | h)
  · exact nomatch h
  · exact nomatch h

theorem not_idle_disconnection : ¬Idle .disconnection := by
  rintro (h | h)
  · exact nomatch h
  · exact nomatch h

theorem Move.work {p q : Pos} (h : Move codec files p frame q) (hby : ¬Idle frame) :
    Work codec files p frame q :=
  ⟨h, h.left_lt.resolve_right fun hdl => hby hdl.2⟩

theorem path_sharingFrames (v1 : SharingV1) (rest : List SharingV1) {id : Int} (hid : Ranged id) :
    Path (Work codec files) (.setup v1 rest none) (sharingFrames codec id v1) (Pos.begin files rest) :=
  .cons ((Move.data hid).work not_idle_chunkFrame) (.single ((Move.last hid).work not_idle_chunkFrame))

/-- The frames of the script, in both directions. -/
inductive Scripted (codec : Codec SharingFrame) (files : List OutgoingFile) : V1Frame → Prop
  | idle {frame : V1Frame} : Idle frame → Scripted codec files frame
  | sharing {v1 : SharingV1} {id : Int} {frame : V1Frame} : v1 ∈ offers files ++ answers → Ranged id →
      frame ∈ sharingFrames codec id v1 → Scripted codec files frame
  | chunk {file : OutgoingFile} {offset n : Nat} : file ∈ files → n ≤ CHUNK → offset + n ≤ file.content.length →
      Scripted codec files (chunkFrame file.header offset false ((file.content.drop offset).take n))
  | lastChunk {file : OutgoingFile} : file ∈ files →
      Scripted codec files (chunkFrame file.header file.content.length true [])
  | bye : Scripted codec files .disconnection

/-- A position of the script. -/
def Pos.Within (files : List OutgoingFile) : Pos → Prop
  | .setup v1 rest _ => ∀ other ∈ v1 :: rest, other ∈ offers files ++ answers
  | .files todo _ => ∀ file ∈ todo, file ∈ files
  | .done => True

theorem Pos.Within.begin {todo : List OutgoingFile} {v1s : List SharingV1}
    (htodo : ∀ file ∈ todo, file ∈ files) (hv1s : ∀ v1 ∈ v1s, v1 ∈ offers files ++ answers) :
    (Pos.begin todo v1s).Within files := by
  cases v1s with
  | nil => exact htodo
  | cons v1 rest => exact hv1s

theorem Move.scripted {todo : List OutgoingFile} {p q : Pos}
    (htodo : ∀ file ∈ todo, file ∈ files) (hp : p.Within files) (h : Move codec todo p frame q) :
    Scripted codec files frame ∧ q.Within files := by
  cases h with
  | idle hdl => exact ⟨.idle hdl, hp⟩
  | data hid => exact ⟨.sharing (hp _ mem_cons_self) hid mem_cons_self, hp⟩
  | last hid =>
    refine ⟨.sharing (hp _ mem_cons_self) hid (mem_cons_of_mem _ mem_cons_self), ?_⟩
    exact Pos.Within.begin htodo fun v1 hv1 => hp v1 (mem_cons_of_mem _ hv1)
  | chunk _ hchk hle => exact ⟨.chunk (hp _ mem_cons_self) hchk hle, hp⟩
  | lastChunk => exact ⟨.lastChunk (hp _ mem_cons_self), fun file hfi => hp file (mem_cons_of_mem _ hfi)⟩
  | bye => exact ⟨.bye, trivial⟩

end Script

/-! ## The sender -/

/-- What is given: a faithful codec, files with ids of their own, and sharing frames that are not too large
for a bytes payload. -/
structure Setting (codec : Codec SharingFrame) (files : List OutgoingFile) : Prop where
  faithful : codec.Faithful
  nonempty : files ≠ []
  distinct : (files.map OutgoingFile.payloadId).Nodup
  fits : ∀ v1 ∈ offers files ++ answers, ((codec.encode (some v1)).length : Int) ≤ MAX_BYTES_PAYLOAD

def part (codec : Codec SharingFrame) (v1 : SharingV1) (half : Option Int) : Option (Int × List UInt8) :=
  half.map fun id => (id, codec.encode (some v1))

/-- What the sender has written when it is at a frame of the receiver. -/
inductive Offered (files : List OutgoingFile) : SharingV1 → List SharingV1 → Pos → Prop
  | encryption : Offered files .pairedKeyEncryption [.pairedKeyResult, .response .accept]
      (.setup .pairedKeyResult [introduction files] none)
  | result : Offered files .pairedKeyResult [.response .accept] (.setup (introduction files) [] none)
  | response : Offered files (.response .accept) [] (.files files 0)

/-- The offset is within the first file. -/
def InFirst : List OutgoingFile → Nat → Prop
  | [], offset => offset = 0
  | file :: _, offset => offset ≤ file.content.length

/-- Where the sender is, with the positions in what it reads and in what it writes. -/
inductive SenderAt (codec : Codec SharingFrame) (files : List OutgoingFile) : Phase → Pos → Pos → Prop
  | connecting : SenderAt codec files .connecting (Pos.begin [] answers) (Pos.begin files (offers files))
  | waiting {bytes : BytesPayloads} {v1 : SharingV1} {rest : List SharingV1} {half : Option Int}
      {q : Pos} : bytes.Buffered (part codec v1 half) → Offered files v1 rest q →
      SenderAt codec files (.waiting bytes) (.setup v1 rest half) q
  | sending {todo : List OutgoingFile} {offset : Nat} : InFirst todo offset →
      SenderAt codec files (.sending todo offset) (.files [] 0) (.files todo offset)
  | draining {p : Pos} : p = .files [] 0 ∨ p = .done → SenderAt codec files .draining p .done
  | returned : SenderAt codec files (.returned (.ok .sent)) .done .done

section Sender

variable {codec : Codec SharingFrame} {files : List OutgoingFile}

theorem Setting.decode (hset : Setting codec files) (v1 : SharingV1) :
    codec.decode (codec.encode (some v1)) = some (some v1) := hset.faithful _

theorem Offered.fits (hset : Setting codec files) {v1 : SharingV1} {rest : List SharingV1} {q : Pos}
    (h : Offered files v1 rest q) : ((codec.encode (some v1)).length : Int) ≤ MAX_BYTES_PAYLOAD := by
  apply hset.fits
  apply mem_append_right
  cases h with
  | encryption => exact mem_cons_self
  | result => exact mem_cons_of_mem _ mem_cons_self
  | response => exact mem_cons_of_mem _ (mem_cons_of_mem _ mem_cons_self)

theorem Offered.onSharing {v1 : SharingV1} {rest : List SharingV1} {q : Pos} {bytes : BytesPayloads}
    (h : Offered files v1 rest q) (hbs : bytes.Buffered none) {id : Int} (hid : Ranged id) :
    ∃ phase frames q', onSharing codec files bytes id v1 = (phase, frames) ∧
      SenderAt codec files phase (Pos.begin [] rest) q' ∧ Path (Work codec files) q frames q' := by
  cases h with
  | encryption => exact ⟨_, _, _, rfl, .waiting hbs .result, path_sharingFrames _ _ hid⟩
  | result => exact ⟨_, _, _, rfl, .waiting hbs .response, path_sharingFrames _ _ hid⟩
  | response =>
    have hfst : InFirst files 0 := by
      cases files with
      | nil => rfl
      | cons file rest => exact Nat.zero_le _
    exact ⟨_, _, _, rfl, .sending hfst, .nil _⟩

theorem senderAt_onFrame (hset : Setting codec files) {bytes : BytesPayloads} {p p' q : Pos} {frame : V1Frame}
    (h : SenderAt codec files (.waiting bytes) p q) (hmv : Move codec [] p frame p') {id : Int} (hid : Ranged id) :
    ∃ phase frames q', onFrame codec files bytes id (some frame) = (phase, frames) ∧
      SenderAt codec files phase p' q' ∧ Path (Work codec files) q frames q' := by
  cases h with
  | waiting hbs hoff =>
    have hft := hoff.fits hset
    cases hmv with
    | idle hdl =>
      refine ⟨.waiting bytes, [], q, ?_, .waiting hbs hoff, .nil _⟩
      rcases hdl with rfl | rfl
      · rfl
      · rfl
    | @data _ _ other =>
      obtain ⟨bytes', hadd, hbs'⟩ := add_data other hbs hft
      refine ⟨.waiting bytes', [], q, ?_, .waiting hbs' hoff, .nil _⟩
      simp [onFrame, chunkFrame, hadd]
    | last =>
      obtain ⟨bytes', hadd, hbs'⟩ := add_last hbs hft
      obtain ⟨phase, frames, q', hres, hat, hpa⟩ := hoff.onSharing hbs' hid
      refine ⟨phase, frames, q', ?_, hat, hpa⟩
      simp [onFrame, chunkFrame, hadd, hset.decode, hres]

end Sender

/-! ## The receiver -/

/-- The loop goes on, and there is no switch to a hotspot. -/
structure Steady (run : Run) : Prop where
  ended : run.ended = none
  switching : run.switching = none

structure Fresh (codec : Codec SharingFrame) (run : Run) (v1 : SharingV1) (half : Option Int) : Prop where
  steady : Steady run
  accepted : run.accepted = false
  pendingConsent : run.pendingConsent = none
  session : run.session.Receiving [] [] 0 [] []
  bytes : run.session.bytes.Buffered (part codec v1 half)

/-- What the receiver has written when it is at a frame of the sender. -/
inductive Replied (files : List OutgoingFile) : SharingV1 → List SharingV1 → Pos → Prop
  | encryption : Replied files .pairedKeyEncryption [.pairedKeyResult, introduction files]
      (.setup .pairedKeyResult [.response .accept] none)
  | result : Replied files .pairedKeyResult [introduction files] (.setup (.response .accept) [] none)
  | offer : Replied files (introduction files) [] (.setup (.response .accept) [] none)

/-- Every file that was sent is there, in a file of its own. -/
def Delivered (files : List OutgoingFile) (session : Receive.Session) (paths : List String) : Prop :=
  paths.Nodup ∧ List.Forall₂ (fun file path => session.Holds path file.content) files paths

/-- Where the receiver is, with the positions in what it reads and in what it writes. -/
inductive ReceiverAt (codec : Codec SharingFrame) (files : List OutgoingFile) :
    Option Run → Pos → Pos → Prop
  | idle : ReceiverAt codec files none (Pos.begin files (offers files)) (Pos.begin [] answers)
  | fresh {run : Run} {v1 : SharingV1} {rest : List SharingV1} {half : Option Int} {q : Pos} :
      Fresh codec run v1 half → Replied files v1 rest q →
      ReceiverAt codec files (some run) (.setup v1 rest half) q
  | asked {run : Run} {rest : List String} : Steady run → run.accepted = false →
      run.pendingConsent.isSome = true → run.session.Receiving [] files 0 [] rest →
      ReceiverAt codec files (some run) (.files files 0) (.setup (.response .accept) [] none)
  | receiving {run : Run} {done todo : List OutgoingFile} {offset : Nat} {paths rest : List String} :
      Steady run → run.accepted = true → run.pendingConsent = none → done ++ todo = files → todo ≠ [] →
      run.session.Receiving done todo offset paths rest →
      ReceiverAt codec files (some run) (.files todo offset) (.files [] 0)
  | ended {run : Run} {paths : List String} : run.ended = some (.ok (.received paths [])) →
      Delivered files run.session paths → ReceiverAt codec files (some run) (.files [] 0) .done

/-- The receiver gets to a position, and what it has written in the turn is part of the script. -/
def Advances (codec : Codec SharingFrame) (files : List OutgoingFile) (run run' : Run) (p' q : Pos) : Prop :=
  ∃ q', ReceiverAt codec files (some run') p' q' ∧ Path (Work codec []) q (written run run') q' ∧
    run'.preparing = run.preparing ∧ run'.accepting = run.accepting

section Receiver

variable {codec : Codec SharingFrame} {files : List OutgoingFile} {run run' : Run} {env : Env}
  {p p' q : Pos}

variable {rest : List SharingV1} {v1 : SharingV1}

theorem Replied.fits (hset : Setting codec files)
    (h : Replied files v1 rest q) : ((codec.encode (some v1)).length : Int) ≤ MAX_BYTES_PAYLOAD := by
  apply hset.fits
  apply mem_append_left
  cases h with
  | encryption => exact mem_cons_self
  | result => exact mem_cons_of_mem _ mem_cons_self
  | offer => exact mem_cons_of_mem _ (mem_cons_of_mem _ mem_cons_self)

/-! ### What is written -/

theorem sealedFrames_map (frames : List V1Frame) (prior window : Bool) :
    sealedFrames (frames.map fun frame => ⟨.sealed frame, prior, window⟩) = frames := by
  induction frames with
  | nil => rfl
  | cons frame frames ih =>
    simp only [sealedFrames, map_cons, filterMap_cons] at ih ⊢
    rw [ih]

theorem written_of_log {frames : List V1Frame} {prior window : Bool}
    (h : run'.log = run.log ++ frames.map fun frame => ⟨.sealed frame, prior, window⟩) :
    written run run' = frames := by
  rw [written, h, drop_left, sealedFrames_map]

theorem written_eq_nil (h : run'.log = run.log) : written run run' = [] := by
  rw [written, h, drop_length]
  rfl

theorem ReceiverAt.advances (h : ReceiverAt codec files (some run') p q) (hlog : run'.log = run.log)
    (hpr : run'.preparing = run.preparing) (hac : run'.accepting = run.accepting) :
    Advances codec files run run' p q := by
  refine ⟨q, h, ?_, hpr, hac⟩
  rw [written_eq_nil hlog]
  exact .nil q

theorem send_eq {n : Nat} (h : env.link n = false) (frames : List V1Frame) (next : Run → Run) :
    run.send env n frames next = next (run.note frames) := by
  rw [Run.send, h, if_neg Bool.false_ne_true]

/-! ### Turns in the background -/

/-- Nothing changes that the transfer depends on. -/
structure Same (run run' : Run) : Prop where
  session : run'.session = run.session
  accepted : run'.accepted = run.accepted
  pendingConsent : run'.pendingConsent = run.pendingConsent
  ended : run'.ended = run.ended
  switching : run'.switching = run.switching

theorem Steady.same (h : Steady run) (hsa : Same run run') : Steady run' :=
  ⟨hsa.ended.trans h.ended, hsa.switching.trans h.switching⟩

theorem ReceiverAt.same (h : ReceiverAt codec files (some run) p q) (hsa : Same run run') :
    ReceiverAt codec files (some run') p q := by
  cases h with
  | fresh hfsh hrep =>
    refine .fresh ⟨hfsh.steady.same hsa, hsa.accepted.trans hfsh.accepted,
      hsa.pendingConsent.trans hfsh.pendingConsent, ?_, ?_⟩ hrep
    · rw [hsa.session]
      exact hfsh.session
    · rw [hsa.session]
      exact hfsh.bytes
  | asked hstd hacc hpn hrcvg =>
    refine .asked (hstd.same hsa) (hsa.accepted.trans hacc) ?_ (hsa.session ▸ hrcvg)
    rw [hsa.pendingConsent]
    exact hpn
  | receiving hstd hacc hpn hfiles htodo hrcvg =>
    exact .receiving (hstd.same hsa) (hsa.accepted.trans hacc)
      (hsa.pendingConsent.trans hpn) hfiles htodo (hsa.session ▸ hrcvg)
  | ended hen hdel => exact .ended (hsa.ended.trans hen) (hsa.session ▸ hdel)

theorem onFrame_idle (hstd : Steady run) {frame : V1Frame} (h : Idle frame) :
    run.onFrame codec env (some frame) = run := by
  rcases h with rfl | rfl
  · rfl
  · simp only [Run.onFrame, Run.onNegotiation, Run.takeSwitch, hstd.switching]

/-! ### The exchange before the files -/

theorem checkComplete_eq (h : (run.accepted && run.session.complete) = false) : run.checkComplete env = run := by
  rw [Run.checkComplete, h, if_neg Bool.false_ne_true]

section

variable (hset : Setting codec files)
include hset

theorem Fresh.data (h : Fresh codec run v1 none) (hrep : Replied files v1 rest q) (id : Int) :
    Advances codec files run (run.onFrame codec env (some (chunkFrame
      ⟨id, .bytes, (codec.encode (some v1)).length⟩ 0 false (codec.encode (some v1)))))
      (.setup v1 rest (some id)) q := by
  obtain ⟨bytes, hadd, hbs⟩ := add_data id h.bytes (hrep.fits hset)
  have hacc : run.accepted = false := h.accepted
  have htu : run.onFrame codec env (some (chunkFrame ⟨id, .bytes, (codec.encode (some v1)).length⟩ 0 false
      (codec.encode (some v1)))) = { run with session := { run.session with bytes := bytes } } := by
    simp only [Run.onFrame, chunkFrame, Bool.false_eq_true, if_false, Run.onPayload, Session.onPayload, hadd]
    apply checkComplete_eq
    simp [hacc]
  rw [htu]
  exact ReceiverAt.advances (.fresh ⟨⟨h.steady.ended, h.steady.switching⟩, h.accepted, h.pendingConsent,
    h.session.empty_bytes bytes, hbs⟩ hrep) rfl rfl rfl

theorem Fresh.last {id : Int} (h : Fresh codec run v1 (some id)) (hrep : Replied files v1 rest q) :
    ∃ session, run.onFrame codec env (some (chunkFrame ⟨id, .bytes, (codec.encode (some v1)).length⟩
        (codec.encode (some v1)).length true [])) =
        Run.onSharing codec { run with session := session } env (some v1) ∧
      session.Receiving [] [] 0 [] [] ∧ session.bytes.Buffered none := by
  obtain ⟨bytes, hadd, hbs⟩ := add_last h.bytes (hrep.fits hset)
  have htx : run.session.textIds.lookup id = none :=
    AList.lookup_eq_none.2 (notMem_of_entries_eq_nil h.session.textIds id)
  refine ⟨{ run.session with bytes := bytes }, ?_, ?_, hbs⟩
  · simp [Run.onFrame, chunkFrame, Run.onPayload, Session.onPayload, hadd, htx, hset.decode]
  · exact h.session.empty_bytes bytes

section

variable (hsnd : Sound files env)
include hsnd

theorem Replied.onSharing (hid : Ranged env.payloadId) (hli : env.link 0 = false) (hrep : Replied files v1 rest q)
    (hstd : Steady run) (hacc : run.accepted = false) (hpn : run.pendingConsent = none)
    (hses : run.session.Receiving [] [] 0 [] []) (hbs : run.session.bytes.Buffered none) :
    Advances codec files run (run.onSharing codec env (some v1)) (Pos.begin files rest) q := by
  have hsa : run.checkComplete env = run := checkComplete_eq (by rw [hacc, Bool.false_and])
  cases hrep with
  | encryption =>
    have hres : run.onSharing codec env (some .pairedKeyEncryption) =
        run.note (sharingFrames codec env.payloadId .pairedKeyResult) := by
      simp only [Run.onSharing]
      rw [send_eq hli]
      apply checkComplete_eq
      simp [Run.note, hacc]
    rw [hres]
    refine ⟨_, .fresh ⟨⟨hstd.ended, hstd.switching⟩, hacc, hpn, hses, hbs⟩ .result, ?_, rfl, rfl⟩
    rw [written_of_log rfl]
    exact path_sharingFrames _ _ hid
  | result =>
    have hres : run.onSharing codec env (some .pairedKeyResult) = run := hsa
    rw [hres]
    exact ReceiverAt.advances (.fresh ⟨hstd, hacc, hpn, hses, hbs⟩ .offer) rfl rfl rfl
  | offer =>
    obtain ⟨session, paths, hpr, hrcvg⟩ := hses.prepare run.introductions hset.distinct hsnd.1
    have hres : run.onSharing codec env (some (introduction files)) = { run with
        session := session
        introductions := run.introductions + 1
        pendingConsent := some run.introductions } := by
      simp only [Run.onSharing, introduction, hpr]
      apply checkComplete_eq
      simp [hacc]
    rw [hres]
    exact ReceiverAt.advances (.asked ⟨hstd.ended, hstd.switching⟩ hacc rfl hrcvg) rfl rfl rfl

/-! ### The files -/

variable {done todo : List OutgoingFile} {file : OutgoingFile} {offset n : Nat} {paths rest : List String}

omit hsnd in
theorem nodup_todo (hfiles : done ++ todo = files) : (todo.map OutgoingFile.payloadId).Nodup := by
  have hnd := hset.distinct
  rw [← hfiles, map_append] at hnd
  exact hnd.of_append_right

omit hset hsnd in
theorem receiving_on {session : Receive.Session} (hstd : Steady run) (hacc : run.accepted) (hpn : run.pendingConsent = none)
    (hfiles : done ++ file :: todo = files) (hnx : session.Receiving done (file :: todo) offset paths rest) :
    Advances codec files run (Run.checkComplete { run with session := session } env) (.files (file :: todo) offset)
      (.files [] 0) := by
  have hsa : Run.checkComplete { run with session := session } env = { run with session := session } := by
    apply checkComplete_eq
    simp [hnx.complete_eq_false (cons_ne_nil _ _)]
  rw [hsa]
  exact ReceiverAt.advances (.receiving ⟨hstd.ended, hstd.switching⟩ hacc hpn hfiles (cons_ne_nil _ _) hnx) rfl rfl rfl

theorem receiving_chunk (hstd : Steady run) (hacc : run.accepted) (hpn : run.pendingConsent = none)
    (hfiles : done ++ file :: todo = files) (hrcvg : run.session.Receiving done (file :: todo) offset paths rest)
    (hle : offset + n ≤ file.content.length) :
    Advances codec files run (run.onFrame codec env (some (chunkFrame file.header offset false
      ((file.content.drop offset).take n)))) (.files (file :: todo) (offset + n)) (.files [] 0) := by
  have hids := nodup_todo hset hfiles
  cases rest with
  | nil => exact hrcvg.pending.elim
  | cons path rest =>
    obtain ⟨session, hres, hnx⟩ := hrcvg.onPayload_chunk codec hids hsnd.2.1 hsnd.2.2 hle
    have htu : run.onFrame codec env (some (chunkFrame file.header offset false ((file.content.drop offset).take n))) =
        Run.checkComplete { run with session := session } env := by
      simp [Run.onFrame, chunkFrame, Run.onPayload, hres]
    rw [htu]
    exact receiving_on hstd hacc hpn hfiles hnx

theorem receiving_last (hli : env.link 1 = false) (hstd : Steady run) (hacc : run.accepted)
    (hpn : run.pendingConsent = none) (hfiles : done ++ file :: todo = files)
    (hrcvg : run.session.Receiving done (file :: todo) file.content.length paths rest) :
    Advances codec files run (run.onFrame codec env (some (chunkFrame file.header file.content.length true [])))
      (.files todo 0) (.files [] 0) := by
  have hids := nodup_todo hset hfiles
  rw [append_cons] at hfiles
  cases rest with
  | nil => exact hrcvg.pending.elim
  | cons path rest =>
    obtain ⟨session, hres, hnx⟩ := hrcvg.onPayload_last codec hids hsnd.2.1 hsnd.2.2
    have htu : run.onFrame codec env (some (chunkFrame file.header file.content.length true [])) =
        Run.checkComplete { run with session := session } env := by
      simp [Run.onFrame, chunkFrame, Run.onPayload, hres]
    rw [htu]
    cases todo with
    | nil =>
      -- everything is there
      have hcm : session.complete := hnx.complete.2 rfl
      rw [append_nil] at hfiles
      have hend : Run.checkComplete { run with session := session } env =
          (Run.note { run with session := session } [.disconnection]).finish session.outcome := by
        simp only [Run.checkComplete, hacc, hcm, Bool.and_self, if_true]
        rw [send_eq hli]
        rfl
      rw [hend]
      have hdel : Delivered files session (paths ++ [path]) := by
        have hnd := hnx.apart
        have hrec := hnx.received
        rw [hfiles] at hrec
        exact ⟨hnd.of_append_left, hrec⟩
      refine ⟨_, .ended ?_ hdel, ?_, rfl, rfl⟩
      · simp only [Run.finish, Session.outcome, hnx.doneFiles, hnx.doneTexts]
      · rw [written_of_log rfl]
        exact .single (Move.bye.work not_idle_disconnection)
    | cons next todo => exact receiving_on hstd hacc hpn hfiles hnx

/-- The receiver takes a frame. Files come only when the user has answered. -/
theorem receiverAt_onFrame (hid : Ranged env.payloadId) (hli : env.link 0 = false ∧ env.link 1 = false)
    {frame : V1Frame} (h : ReceiverAt codec files (some run) p q) (hop : run.ended = none)
    (hmv : Move codec files p frame p')
    (hstay : q = .setup (.response .accept) [] none → p = .files files 0 → p' = p ∧ Idle frame) :
    Advances codec files run (run.onFrame codec env (some frame)) p' q := by
  have hdl : Steady run → p' = p ∧ Idle frame → Advances codec files run (run.onFrame codec env (some frame)) p' q := by
    rintro hstd ⟨rfl, hfr⟩
    rw [onFrame_idle hstd hfr]
    exact h.advances rfl rfl rfl
  cases h with
  | fresh hfsh hrep =>
    cases hmv with
    | idle hfr => exact hdl hfsh.steady ⟨rfl, hfr⟩
    | data => exact hfsh.data hset hrep _
    | last =>
      obtain ⟨session, hres, hses, hbs⟩ := hfsh.last hset hrep
      rw [hres]
      exact hrep.onSharing hset hsnd hid hli.1
        ⟨hfsh.steady.ended, hfsh.steady.switching⟩ hfsh.accepted hfsh.pendingConsent hses
        hbs
  | asked hstd hacc hpn hrcvg => exact hdl hstd (hstay rfl rfl)
  | receiving hstd hacc hpn hfiles htodo hrcvg =>
    cases hmv with
    | idle hfr => exact hdl hstd ⟨rfl, hfr⟩
    | chunk _ _ hle => exact receiving_chunk hset hsnd hstd hacc hpn hfiles hrcvg hle
    | lastChunk => grind [receiving_last]
    | bye => exact absurd rfl htodo
  | ended hen =>
    rw [hop] at hen
    exact nomatch hen

end

end

end Receiver

end KaiT2en.Airshare.Loopback
