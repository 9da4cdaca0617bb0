import KaiT2en.Airshare.Link
import KaiT2en.Lib.Transition

/-!
# The receiving side of a Quick Share transfer

`apps/t2-airshare/src/receive.rs` from the paired key exchange on: the `select!` loop of `run` with the frames of the
sender, the answer of the user, the move to a Wi-Fi hotspot and the keep-alives, and the operations of `Session` it
uses. An action of `receiveMachine` is one turn of the loop. Whatever may fail in it is up to the environment, `Env`.

The session keeps the files that are not complete in `files` and the paths of the complete ones in `done_files`. The
files themselves are in `disk`, each with the number of the introduction that announced it and the announced size.
These numbers, `granted`, `replaced`, `log` and `window` only say what happened; the code does not read them.
-/

namespace KaiT2en.Airshare.Receive

open KaiT2en.Lib.Encoding KaiT2en.Lib.Transition

/-! ## Paths -/

/-- The last component of a path, as `Path::file_name` has it. -/
def fileName (name : String) : Option String :=
  let components := (name.toList.splitOn '/').filter fun c => decide (c ≠ [] ∧ c ≠ ['.'])
  match components.getLast? with
  | some last => if last = ['.', '.'] then none else some (String.ofList last)
  | none => none

/-- `rsplit_once('.')`, for a base name. -/
def rsplitDot (base : String) : Option (String × String) :=
  let parts := base.toList.splitOn '.'
  if parts.length ≤ 1 then none
  else some (String.ofList (List.intercalate ['.'] parts.dropLast), String.ofList (parts.getLastD []))

def numberedName (base : String) (n : Nat) : String :=
  match rsplitDot base with
  | some (stem, ext) =>
    if stem ≠ "" then stem ++ " (" ++ toString n ++ ")." ++ ext
    else base ++ " (" ++ toString n ++ ")"
  | none => base ++ " (" ++ toString n ++ ")"

/-- `unique_path`: the name itself, or with the first number that is free. -/
def uniquePath (taken : List String) (name : String) : String :=
  let base := (fileName name).getD "received"
  if base ∈ taken then
    let numbered := (List.range (taken.length + 1)).map fun n => numberedName base (n + 1)
    (numbered.find? fun path => decide (path ∉ taken)).getD base
  else base

/-! ## The session -/

structure PendingFile where
  path : String
  size : Int
  written : Int
  deriving DecidableEq

/-- A file the session has created, with the introduction that announced it and the size announced. -/
structure DiskFile where
  content : List UInt8
  intro : Nat
  size : Int
  deriving DecidableEq

/-- A text announced or received, with the introduction that announced it. -/
structure Announced (α : Type) where
  value : α
  intro : Nat
  deriving DecidableEq

/-- `Session`. Texts are kept as bytes, before `from_utf8_lossy`; `replaced` are the files whose entry was overwritten
by one of the same id. -/
structure Session where
  bytes : BytesPayloads
  files : AList fun _ : Int => PendingFile
  textIds : AList fun _ : Int => Announced String
  doneFiles : List String
  doneTexts : List (Announced (List UInt8))
  disk : AList fun _ : String => DiskFile
  replaced : List String

inductive Outcome where
  | received (files : List String) (texts : List (Announced (List UInt8)))
  | rejected
  | cancelled
  deriving DecidableEq

/-- What the environment does in one turn of the loop. -/
structure Env where
  /-- The names in the directory that are not of files of the session. -/
  taken : List String
  /-- Does the `n`-th write to a connection fail? -/
  link : Nat → Bool
  /-- Does creating the `n`-th file fail? -/
  create : Nat → Bool
  /-- Does writing to a file fail, and after how many bytes? -/
  write : Option Nat
  sync : Bool
  remove : String → Bool
  /-- Has the phone connected to the hotspot, when the loop waits for that? -/
  connected : Bool
  /-- The random id of a payload. -/
  payloadId : Int

/-- Nothing fails. -/
def Env.calm : Env where
  taken := []
  link _ := false
  create _ := false
  write := none
  sync := false
  remove _ := false
  connected := true
  payloadId := 0

namespace Session

def empty : Session := ⟨∅, ∅, ∅, [], [], ∅, []⟩

variable (self : Session) (env : Env)

/-- The names in the directory. -/
def names : List String := env.taken ++ self.disk.keys

/-- Append to a file. -/
def append (path : String) (body : List UInt8) : Session :=
  match self.disk.lookup path with
  | some file => { self with disk := self.disk.insert path { file with content := file.content ++ body } }
  | none => self

/-- A file chunk that fits, for the file it is for. -/
def writeChunk (header : PayloadHeader) (chunk : PayloadChunk)
    (pending : PendingFile) : Session × Except LinkError Unit :=
  match env.write with
  | some n => (self.append pending.path (chunk.body.take n), .error (.writeFile pending.path))
  | none =>
    let self := self.append pending.path chunk.body
    let written := pending.written + chunk.body.length
    if chunk.last then
      let self := { self with files := self.files.erase header.id }
      if env.sync then (self, .error (.syncFile pending.path))
      else ({ self with doneFiles := self.doneFiles ++ [pending.path] }, .ok ())
    else ({ self with files := self.files.insert header.id { pending with written := written } }, .ok ())

/-- `Session::on_payload`: a sharing frame once a bytes payload that carries one is complete. -/
def onPayload (codec : Codec SharingFrame) (self : Session) (env : Env) (header : PayloadHeader)
    (chunk : PayloadChunk) : Session × Except LinkError (Option SharingFrame) :=
  match header.payloadType with
  | .bytes =>
    match self.bytes.add header chunk with
    | .error e => (self, .error e)
    | .ok (bytes, none) => ({ self with bytes := bytes }, .ok none)
    | .ok (bytes, some (id, data)) =>
      match self.textIds.lookup id with
      | some title =>
        ({ self with
            bytes := bytes
            textIds := self.textIds.erase id
            doneTexts := self.doneTexts ++ [⟨data, title.intro⟩] }, .ok none)
      | none =>
        match codec.decode data with
        | some frame => ({ self with bytes := bytes }, .ok (some frame))
        | none => ({ self with bytes := bytes }, .error .sharingFrame)
  | .file =>
    match self.files.lookup header.id with
    | none => (self, .error (.notAnnounced header.id))
    | some pending =>
      if chunk.offset ≠ pending.written then (self, .error (.fileChunk chunk.offset pending.written))
      else if pending.written + chunk.body.length > pending.size then (self, .error (.growsPastSize pending.path))
      else
        match self.writeChunk env header chunk pending with
        | (self, .ok ()) => (self, .ok none)
        | (self, .error e) => (self, .error e)
  | other => (self, .error (.unsupportedPayload other))

def createFile (intro : Nat) (file : FileMetadata) (path : String) : Session :=
  { self with
    files := self.files.insert file.payloadId ⟨path, file.size, 0⟩
    disk := self.disk.insert path ⟨[], intro, file.size⟩
    replaced := match self.files.lookup file.payloadId with
      | some old => self.replaced ++ [old.path]
      | none => self.replaced }

/-- The loop of `Session::prepare` over the files, from the `n`-th on. `create_new` does not open a file that
is there already. -/
def prepareFiles (env : Env) (intro : Nat) : Nat → List FileMetadata → Session → Session × Except LinkError Unit
  | _, [], self => (self, .ok ())
  | n, file :: rest, self =>
    let path := uniquePath (self.names env) file.name
    if env.create n ∨ path ∈ self.names env then (self, .error (.createFile path))
    else prepareFiles env intro (n + 1) rest (self.createFile intro file path)

/-- The loop over the texts. -/
def prepareTexts (intro : Nat) : List TextMetadata → Session → Session
  | [], self => self
  | text :: rest, self =>
    prepareTexts intro rest
      { self with textIds := self.textIds.insert text.payloadId ⟨text.textTitle, intro⟩ }

def prepare (intro : Nat) (frame : IntroductionFrame) : Session × Except LinkError Unit :=
  match prepareFiles env intro 0 frame.fileMetadata self with
  | (self, .ok ()) => (prepareTexts intro frame.textMetadata self, .ok ())
  | (self, .error e) => (self, .error e)

def complete : Bool := self.files.entries.isEmpty && self.textIds.entries.isEmpty

def outcome : Outcome := .received self.doneFiles self.doneTexts

/-- The files of `paths` are removed, where that does not fail. -/
def removeFiles (env : Env) : List String → Session → Session
  | [], self => self
  | path :: rest, self =>
    removeFiles env rest (if env.remove path then self else { self with disk := self.disk.erase path })

/-- The paths of the files that are not complete. -/
def pendingPaths : List String := self.files.entries.map fun e => e.2.path

def discard : Session := { removeFiles env self.pendingPaths self with files := ∅ }

end Session

/-! ## The loop -/

/-- The move to the hotspot while both connections are open. -/
structure Switch where
  /-- The writer of the new connection has not been taken. -/
  writer : Bool
  lastWrite : Bool
  safe : Bool
  deriving DecidableEq

/-- What is written: a sealed frame, or the plain disconnection that ends the prior channel. -/
inductive Written where
  | sealed (frame : V1Frame)
  | plainDisconnection
  deriving DecidableEq

/-- A write, whether it goes to the prior connection, and whether the window between LAST_WRITE and
SAFE_TO_CLOSE is open. -/
structure LogEntry where
  what : Written
  prior : Bool
  window : Bool
  deriving DecidableEq

/-- The state of `run`. -/
structure Run where
  session : Session
  /-- The introduction that the user is asked about. -/
  pendingConsent : Option Nat
  accepted : Bool
  preparing : Bool
  accepting : Bool
  switching : Option Switch
  /-- The link writes to the hotspot connection. -/
  onHotspot : Bool
  /-- How many introductions there were, and which the user has accepted. -/
  introductions : Nat
  granted : List Nat
  log : List LogEntry
  window : Bool
  ended : Option (Except LinkError Outcome)

inductive Event where
  /-- The next frame is there and opened. -/
  | frame (frame : OfflineFrame) (env : Env)
  /-- There is no next frame, or it cannot be opened. -/
  | lost
  /-- The user has answered; a task that failed counts as a no. -/
  | answer (yes : Bool) (env : Env)
  /-- The hotspot is up, or could not be started. -/
  | prepared (ok : Bool) (env : Env)
  /-- The phone has connected to the hotspot, or not in time. -/
  | connected (ok : Bool) (env : Env)
  | keepAlive (env : Env)

namespace Run

/-- The state when the loop begins. `upgrade` starts the hotspot. -/
def start (upgrade : Bool) : Run where
  session := .empty
  pendingConsent := none
  accepted := false
  preparing := upgrade
  accepting := false
  switching := none
  onHotspot := false
  introductions := 0
  granted := []
  log := []
  window := false
  ended := none

variable (codec : Codec SharingFrame) (s : Run)

def finish (outcome : Outcome) : Run := { s with ended := some (.ok outcome) }

def fail (error : LinkError) : Run := { s with ended := some (.error error) }

/-- Note what the link writes. -/
def note (frames : List V1Frame) : Run :=
  { s with log := s.log ++ frames.map fun frame => ⟨.sealed frame, !s.onHotspot, s.window⟩ }

/-- Write to the link, and go on if that works. -/
def send (env : Env) (n : Nat) (frames : List V1Frame) (next : Run → Run) : Run :=
  if env.link n then (s.note frames).fail .write else next (s.note frames)

/-- `start_switch`, and what `run` does with the result. -/
def startSwitch (env : Env) (n : Nat) (ok : Bool) (next : Run → Run) : Run :=
  if ok then
    s.send env n [.bandwidthUpgradeNegotiation .lastWriteToPriorChannel] fun s =>
      next { s with switching := some ⟨true, false, false⟩, window := true }
  else next { s with switching := none }

/-- LAST_WRITE_TO_PRIOR_CHANNEL of the phone. -/
def onLastWrite (env : Env) (next : Run → Run) : Run :=
  -- the ack of the introduction may be out before the task reported back
  let await (next : Run → Run) : Run :=
    if s.accepting then startSwitch { s with accepting := false } env 0 env.connected next else next s
  await fun s =>
    match s.switching with
    | some switch =>
      s.send env 1 [.bandwidthUpgradeNegotiation .safeToClosePriorChannel] fun s =>
        next { s with switching := some { switch with lastWrite := true } }
    | none => next s

/-- What `onLastWrite` does behind the await. -/
def confirmLastWrite (env : Env) (next : Run → Run) : Run :=
  match s.switching with
  | some switch =>
    s.send env 1 [.bandwidthUpgradeNegotiation .safeToClosePriorChannel] fun s =>
      next { s with switching := some { switch with lastWrite := true } }
  | none => next s

theorem onLastWrite_eq (env : Env) (next : Run → Run) : s.onLastWrite env next = if s.accepting then
        startSwitch { s with accepting := false } env 0 env.connected fun s => s.confirmLastWrite env next
      else s.confirmLastWrite env next := rfl

/-- SAFE_TO_CLOSE_PRIOR_CHANNEL of the phone. Errors of the prior connection do not matter any more. -/
def onSafeToClose : Run :=
  match s.switching with
  | some switch =>
    if switch.writer then
      { s with
        log := s.log ++ [⟨.plainDisconnection, true, s.window⟩]
        onHotspot := true
        window := false
        switching := some { switch with writer := false, safe := true } }
    else { s with switching := some { switch with safe := true } }
  | none => s

/-- The frames of the new connection are read once both sides are done with the prior one. -/
def takeSwitch : Run :=
  match s.switching with
  | some switch => if switch.lastWrite && switch.safe then { s with switching := none } else s
  | none => s

def onNegotiation (env : Env) (event : EventType) : Run :=
  match event with
  | .lastWriteToPriorChannel => s.onLastWrite env takeSwitch
  | .safeToClosePriorChannel => s.onSafeToClose.takeSwitch
  | .upgradeFailure => { s with accepting := false, switching := none, window := false }
  | _ => s.takeSwitch

/-- The end of a payload frame: is everything there that was announced? -/
def checkComplete (env : Env) : Run :=
  if s.accepted && s.session.complete then s.send env 1 [.disconnection] fun s => s.finish s.session.outcome
  else s

def onSharing (env : Env) (setup : SharingFrame) : Run :=
  match setup with
  | some .pairedKeyEncryption =>
    s.send env 0 (sharingFrames codec env.payloadId .pairedKeyResult) fun s => s.checkComplete env
  | some (.introduction frame) =>
    match s.session.prepare env s.introductions frame with
    | (session, .error e) => ({ s with session := session, introductions := s.introductions + 1 } : Run).fail e
    | (session, .ok ()) =>
      checkComplete { s with
        session := session
        introductions := s.introductions + 1
        pendingConsent := some s.introductions } env
  | some .cancel => ({ s with session := s.session.discard env } : Run).finish .cancelled
  | _ => s.checkComplete env

def onPayload (codec : Codec SharingFrame) (s : Run) (env : Env) (header : PayloadHeader)
    (chunk : PayloadChunk) : Run :=
  match s.session.onPayload codec env header chunk with
  | (session, .error e) => ({ s with session := session } : Run).fail e
  | (session, .ok none) => checkComplete { s with session := session } env
  | (session, .ok (some setup)) => onSharing codec { s with session := session } env setup

def onFrame (env : Env) (frame : OfflineFrame) : Run :=
  match frame with
  | some (.payloadTransfer header chunk) => s.onPayload codec env header chunk
  | some (.bandwidthUpgradeNegotiation event) => s.onNegotiation env event
  | some .disconnection => s.finish (if s.accepted then s.session.outcome else .cancelled)
  | _ => s

/-- The answer of the user. -/
def onAnswer (env : Env) (intro : Nat) (yes : Bool) : Run :=
  let status : ResponseStatus := if yes then .accept else .reject
  let s := { s with
    pendingConsent := none
    accepted := s.accepted || yes
    granted := if yes then s.granted ++ [intro] else s.granted }
  s.send env 0 (sharingFrames codec env.payloadId (.response status)) fun s =>
    if s.accepted then s
    else ({ s with session := s.session.discard env } : Run).finish .rejected

def onPrepared (env : Env) (ok : Bool) : Run :=
  let s := { s with preparing := false }
  if ok then s.send env 0 [.bandwidthUpgradeNegotiation .upgradePathAvailable] fun s => { s with accepting := true }
  else s

/-- Between LAST_WRITE and SAFE_TO_CLOSE nothing else may go out. -/
def Switching : Bool := s.switching.any fun switch => !switch.safe

def onKeepAlive (env : Env) : Run := if s.Switching then s else s.send env 0 [.keepAlive] id

/-- One turn of the loop. -/
def turn : Event → Option Run
  | .frame frame env => some (s.onFrame codec env frame)
  | .lost => some (s.fail .lost)
  | .answer yes env =>
    match s.pendingConsent with
    | some intro => some (s.onAnswer codec env intro yes)
    | none => none
  | .prepared ok env => if s.preparing then some (s.onPrepared env ok) else none
  | .connected ok env => if s.accepting then some (startSwitch { s with accepting := false } env 0 ok id) else none
  | .keepAlive env => some (s.onKeepAlive env)

end Run

/-- All runs of `run`, up to its end. -/
def receiveMachine (codec : Codec SharingFrame) : Machine Run Event where
  init s := ∃ upgrade, s = Run.start upgrade
  next s event := if s.ended.isSome then none else s.turn codec event

/-! ## Frames for examples -/

def sampleCodec : Codec SharingFrame where
  encode
    | some (.response .accept) => [4]
    | some (.response _) => [5]
    | _ => [0]
  decode
    | [1] => some (some (.introduction ⟨[⟨"photo.jpg", 7, 3⟩], []⟩))
    | [2] => some (some .cancel)
    | [3] => some (some .pairedKeyEncryption)
    | _ => none

def sampleSharing (byte : UInt8) : V1Frame := chunkFrame ⟨1, .bytes, 1⟩ 0 true [byte]

/-- One file of three bytes is announced, with the payload id 7. -/
def introductionFrame : V1Frame := sampleSharing 1

/-- The only chunk of that file. -/
def lastChunkFrame (body : List UInt8) : V1Frame := chunkFrame ⟨7, .file, 3⟩ 0 true body

end KaiT2en.Airshare.Receive
