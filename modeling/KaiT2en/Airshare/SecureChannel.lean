import KaiT2en.Airshare.Ukey2
import KaiT2en.Lib.Transition

/-!
# The D2D secure channel

The second half of `apps/t2-airshare/src/secure.rs`: `seal` and `open` of a `SecureChannel`. A frame is encrypted
together with a sequence number and signed with a MAC; a message is opened if its MAC verifies and it carries the next
sequence number.

`sessionMachine` has both sides of a handshake and an attacker between them, who may present any byte string to any
side: a message sealed before, once more, out of order or to its own side, or something made up. That the attacker
does not have the keys is the guard `Allowed`: a MAC that verifies is one that a side has computed. What a side has
accepted is then at every time the beginning of what the other has sealed (`channel_delivers_prefix`).
-/

namespace KaiT2en.Airshare

open KaiT2en.Lib.Encoding KaiT2en.Lib.Transition List SecureChannel Int32

/-- The bytes of an IV. -/
structure Iv where
  bytes : Bytes
  length : bytes.length = 16

/-- `seq += 1` for an `i32`, with overflow checks or without. -/
def succSeq (checks : Bool) (seq : Int32) : Except SecureError Int32 :=
  if checks = true ∧ seq = maxValue then .error .overflow else .ok (seq + 1)

section Channel

variable {F : Type} (P : Primitives F)

/-- The header and body of a sealed frame, encrypted with the key. -/
def headerAndBodyBytes (key : Bytes) (seq : Int32) (iv : Iv) (frame : F) : Bytes :=
  P.headerAndBody.encode
    { header :=
        { signatureScheme := .hmacSha256
          encryptionScheme := .aes256Cbc
          iv := iv.bytes
          publicMetadata := P.gcmMetadata.encode ⟨DEVICE_TO_DEVICE_MESSAGE, 1⟩ }
      body := P.encrypt key iv.bytes
        (P.deviceToDeviceMessage.encode ⟨seq, P.offlineFrame.encode frame⟩) }

/-- `SecureChannel::seal`: the channel behind it, the signed text and the message. -/
def SecureChannel.seal (checks : Bool) (self : SecureChannel) (iv : Iv) (frame : F) :
    Except SecureError (SecureChannel × Bytes × Bytes) := do
  let seq ← succSeq checks self.sendSeq
  let headerAndBody := headerAndBodyBytes P self.encryptKey seq iv frame
  pure ({ self with sendSeq := seq }, headerAndBody,
    P.secureMessage.encode ⟨headerAndBody, P.hmac self.sendHmacKey headerAndBody⟩)

/-- The part of `SecureChannel::open` before the sequence number. -/
def SecureChannel.verify (self : SecureChannel) (raw : Bytes) :
    Except SecureError DeviceToDeviceMessage := do
  let msg ← orErr (P.secureMessage.decode raw) .secureMessage
  bailIf (P.hmac self.recvHmacKey msg.headerAndBody ≠ msg.signature) .signatureMismatch
  let headerAndBody ← orErr (P.headerAndBody.decode msg.headerAndBody) .headerAndBody
  bailIf (headerAndBody.header.iv.length ≠ 16) .ivLength
  let plain ← orErr (P.decrypt self.decryptKey headerAndBody.header.iv headerAndBody.body) .padding
  orErr (P.deviceToDeviceMessage.decode plain) .deviceToDeviceMessage

/-- `SecureChannel::open`: the sequence number is counted also if it turns out to be wrong. -/
def SecureChannel.openMessage (checks : Bool) (self : SecureChannel) (raw : Bytes) :
    SecureChannel × Except SecureError F :=
  match self.verify P raw with
  | .error e => (self, .error e)
  | .ok d2d =>
    match succSeq checks self.recvSeq with
    | .error e => (self, .error e)
    | .ok seq =>
      ({ self with recvSeq := seq },
        if d2d.sequenceNumber ≠ seq then .error (.sequenceNumber d2d.sequenceNumber seq)
        else orErr (P.offlineFrame.decode d2d.message) .offlineFrame)

end Channel

/-! ## Two sides and an attacker -/

def Role.peer : Role → Role
  | .client => .server
  | .server => .client

theorem Role.eq_or_eq_peer (a b : Role) : a = b ∨ a = b.peer := by cases a <;> cases b <;> decide

/-- One side: its channel, the frames it has sealed and those it has accepted before the first error. -/
structure Side (F : Type) where
  channel : SecureChannel
  sentFrames : List F
  accepted : List F
  failed : Bool

/-- Both sides, and the keys and texts of the MACs they have computed for what they have sealed. -/
structure Session (F : Type) where
  side : Role → Side F
  macs : List (Bytes × Bytes)

inductive SessionAction (F : Type) where
  | sealFrame (role : Role) (iv : Iv) (frame : F)
  /-- The attacker presents a byte string. -/
  | present (role : Role) (raw : Bytes)

section Session

variable {F : Type} (P : Primitives F)

def Session.set (s : Session F) (role : Role) (side : Side F) (macs : List (Bytes × Bytes)) :
    Session F :=
  ⟨Function.update s.side role side, macs⟩

/-- A side after `seal`. -/
def Side.sealed (side : Side F) (channel : SecureChannel) (frame : F) : Side F :=
  { side with channel := channel, sentFrames := side.sentFrames ++ [frame] }

/-- A side after `open`. -/
def Side.present (checks : Bool) (side : Side F) (raw : Bytes) : Side F :=
  match side.channel.openMessage P checks raw with
  | (channel, .ok frame) => { side with channel := channel, accepted := side.accepted ++ [frame] }
  | (channel, .error _) => { side with channel := channel, failed := true }

/-- Both sides with the channels of the handshake. A side that has seen an error closes the connection. -/
def sessionMachine (checks : Bool) (handshake : Handshake P) :
    Machine (Session F) (SessionAction F) where
  init s := s.macs = [] ∧ s.side .client = ⟨handshake.client.1, [], [], false⟩ ∧
    s.side .server = ⟨handshake.server.1, [], [], false⟩
  next s
    | .sealFrame role iv frame =>
      match (s.side role).channel.seal P checks iv frame with
      | .error _ => none
      | .ok (channel, text, _) =>
        some (s.set role ((s.side role).sealed channel frame)
          (s.macs ++ [(channel.sendHmacKey, text)]))
    | .present role raw =>
      if (s.side role).failed then none
      else some (s.set role ((s.side role).present P checks raw) s.macs)

/-- The MAC is unforgeable: a text whose MAC verifies under a key was signed with it. Less than `2 ^ 31` messages are
sealed. -/
def Allowed (s : Session F) : SessionAction F → Prop
  | .sealFrame role _ _ => (s.side role).sentFrames.length + 1 < 2 ^ 31
  | .present role raw =>
    match P.secureMessage.decode raw with
    | none => True
    | some msg =>
      P.hmac (s.side role).channel.recvHmacKey msg.headerAndBody = msg.signature →
        ((s.side role).channel.recvHmacKey, msg.headerAndBody) ∈ s.macs

instance (s : Session F) (a : SessionAction F) : Decidable (Allowed P s a) :=
  match a with
  | .sealFrame _ _ _ => inferInstanceAs (Decidable (_ < _))
  | .present _ raw =>
    match h : P.secureMessage.decode raw with
    | none => isTrue (by rw [Allowed, h]; trivial)
    | some msg => decidable_of_iff
        (P.hmac (s.side _).channel.recvHmacKey msg.headerAndBody = msg.signature →
          ((s.side _).channel.recvHmacKey, msg.headerAndBody) ∈ s.macs) (by rw [Allowed, h])

end Session

/-! ## One message -/

section Message

variable {F : Type} {P : Primitives F}

/-- A message whose MAC verifies and whose text was sealed under the mirrored key gives back number and frame. -/
theorem verify_sealed (h : P.Lawful) {self : SecureChannel} {raw : Bytes} {msg : SecureMessage} {seq : Int32}
    {iv : Iv} {frame : F} (hkey : self.decryptKey.length = 32) (hdec : P.secureMessage.decode raw = some msg)
    (hmac : P.hmac self.recvHmacKey msg.headerAndBody = msg.signature)
    (htx : msg.headerAndBody = headerAndBodyBytes P self.decryptKey seq iv frame) :
    self.verify P raw = .ok ⟨seq, P.offlineFrame.encode frame⟩ := by
  unfold verify
  rw [hdec, orErr_some, ok_bind, bailIf_neg (not_not.2 hmac), ok_bind, htx,
    headerAndBodyBytes, h.headerAndBody, orErr_some, ok_bind]
  rw [bailIf_neg (not_not.2 iv.length), ok_bind, h.decrypt_encrypt _ _ _ hkey iv.length, orErr_some,
    ok_bind, h.deviceToDeviceMessage, orErr_some]

theorem verify_ok {self : SecureChannel} {raw : Bytes} {d2d : DeviceToDeviceMessage}
    (h : self.verify P raw = .ok d2d) :
    ∃ msg, P.secureMessage.decode raw = some msg ∧ P.hmac self.recvHmacKey msg.headerAndBody = msg.signature := by
  unfold verify at h
  cases hdec : P.secureMessage.decode raw with
  | none =>
    rw [hdec] at h
    exact nomatch h
  | some msg =>
    refine ⟨msg, rfl, ?_⟩
    by_contra hmac
    rw [hdec, orErr_some, ok_bind, bailIf, if_pos hmac] at h
    exact nomatch h

end Message

/-! ## Sequence numbers -/

theorem ofNat_inj {m n : Nat} (hm : m < 2 ^ 32) (hn : n < 2 ^ 32) (h : ofNat m = ofNat n) : m = n := by
  have hword := congrArg (fun i : Int32 => i.toUInt32.toNat) h
  simp only [toUInt32_ofNat', UInt32.toNat_ofNat'] at hword
  omega

theorem succSeq_ofNat {checks : Bool} {n : Nat} {seq : Int32}
    (h : succSeq checks (ofNat n) = .ok seq) : seq = ofNat (n + 1) := by
  unfold succSeq at h
  split at h
  · exact nomatch h
  · cases h
    rw [ofNat_add]
    rfl

/-! ## What holds of a session -/

section Invariant

variable {F : Type} (P : Primitives F)

variable (s : Session F)

/-- The keys of a session, which do not change. -/
structure Keyed : Prop where
  length : ∀ role, (s.side role).channel.decryptKey.length = 32
  decryptKey : ∀ role,
    (s.side role).channel.decryptKey = (s.side role.peer).channel.encryptKey
  recvHmacKey : ∀ role,
    (s.side role).channel.recvHmacKey = (s.side role.peer).channel.sendHmacKey
  separate : (s.side .client).channel.sendHmacKey ≠ (s.side .server).channel.sendHmacKey

/-- The texts a side has signed are its frames in order, numbered from one. -/
def Signed : Prop :=
  ∀ mac ∈ s.macs, ∃ role iv frame n, mac.1 = (s.side role).channel.sendHmacKey ∧
    (s.side role).sentFrames[n]? = some frame ∧
    mac.2 = headerAndBodyBytes P (s.side role).channel.encryptKey (ofNat (n + 1)) iv frame

/-- The sequence numbers count the frames, and what is accepted is a beginning of what the peer has sealed. -/
structure Counted (role : Role) : Prop where
  sendSeq : (s.side role).channel.sendSeq = ofNat (s.side role).sentFrames.length
  few : (s.side role).sentFrames.length < 2 ^ 31
  recvSeq : (s.side role).failed = false → (s.side role).channel.recvSeq = ofNat (s.side role).accepted.length
  delivered : (s.side role).accepted <+: (s.side role.peer).sentFrames

structure SessionInv : Prop where
  keyed : Keyed s
  signed : Signed P s
  counted : ∀ role, Counted s role

variable {P}

theorem Session.side_set (s : Session F) (role q : Role) (side : Side F) (macs : List (Bytes × Bytes)) :
    (s.set role side macs).side q = if q = role then side else s.side q :=
  Function.update_apply s.side role side q

theorem Session.side_set_self (s : Session F) (role : Role) (side : Side F)
    (macs : List (Bytes × Bytes)) : (s.set role side macs).side role = side := by
  rw [Session.side_set, if_pos rfl]

/-- The same keys, whatever the sequence numbers. -/
def SameKeys (a b : SecureChannel) : Prop :=
  a.decryptKey = b.decryptKey ∧ a.recvHmacKey = b.recvHmacKey ∧ a.encryptKey = b.encryptKey ∧
    a.sendHmacKey = b.sendHmacKey

/-- A step of the session: the keys stay, and frames are only added to those sealed. -/
def Grows (s t : Session F) : Prop :=
  ∀ role, SameKeys (t.side role).channel (s.side role).channel ∧ (s.side role).sentFrames <+: (t.side role).sentFrames

variable {s : Session F} {role : Role}

theorem grows_set {side : Side F} (macs : List (Bytes × Bytes)) (hkeys : SameKeys side.channel (s.side role).channel)
    (hst : (s.side role).sentFrames <+: side.sentFrames) : Grows s (s.set role side macs) := by
  intro q
  rw [Session.side_set]
  by_cases hq : q = role
  · rw [if_pos hq, hq]
    exact ⟨hkeys, hst⟩
  · rw [if_neg hq]
    exact ⟨⟨rfl, rfl, rfl, rfl⟩, prefix_rfl⟩

theorem Keyed.grows {s t : Session F} (h : Keyed s) (hgr : Grows s t) : Keyed t := by
  have hkeys := fun role => (hgr role).1
  refine ⟨?_, ?_, ?_, ?_⟩
  · intro role
    rw [(hkeys role).1]
    exact h.length role
  · intro role
    rw [(hkeys role).1, (hkeys role.peer).2.2.1]
    exact h.decryptKey role
  · intro role
    rw [(hkeys role).2.1, (hkeys role.peer).2.2.2]
    exact h.recvHmacKey role
  · rw [(hkeys .client).2.2.2, (hkeys .server).2.2.2]
    exact h.separate

theorem Signed.grows {s t : Session F} (h : Signed P s) (hgr : Grows s t) :
    ∀ mac ∈ s.macs, ∃ role iv frame n, mac.1 = (t.side role).channel.sendHmacKey ∧
      (t.side role).sentFrames[n]? = some frame ∧
      mac.2 = headerAndBodyBytes P (t.side role).channel.encryptKey (ofNat (n + 1)) iv
        frame := by
  intro mac hmac
  obtain ⟨role, iv, frame, n, hkey, hfr, htx⟩ := h mac hmac
  obtain ⟨hkeys, rest, hrs⟩ := hgr role
  refine ⟨role, iv, frame, n, by rw [hkeys.2.2.2]; exact hkey, ?_, by rw [hkeys.2.2.1]; exact htx⟩
  obtain ⟨hlt, -⟩ := List.getElem?_eq_some_iff.1 hfr
  rw [← hrs, getElem?_append_left hlt]
  exact hfr

theorem counted_set (h : ∀ q, Counted s q) {side : Side F} {macs : List (Bytes × Bytes)}
    (hgr : Grows s (s.set role side macs)) (hsd : side.channel.sendSeq = ofNat side.sentFrames.length)
    (hfew : side.sentFrames.length < 2 ^ 31)
    (hrecv : side.failed = false → side.channel.recvSeq = ofNat side.accepted.length)
    (hdel : side.accepted <+: (s.side role.peer).sentFrames) :
    ∀ q, Counted (s.set role side macs) q := by
  intro q
  have hpeer := (hgr q.peer).2
  by_cases hrole : q = role
  · subst hrole
    have hself := s.side_set_self q side macs
    refine ⟨?_, ?_, ?_, ?_⟩
    · rw [hself]
      exact hsd
    · rw [hself]
      exact hfew
    · rw [hself]
      exact hrecv
    · rw [hself]
      exact hdel.trans hpeer
  have hq := h q
  have hoth : (s.set role side macs).side q = s.side q := by rw [Session.side_set, if_neg hrole]
  refine ⟨?_, ?_, ?_, ?_⟩
  · rw [hoth]
    exact hq.sendSeq
  · rw [hoth]
    exact hq.few
  · rw [hoth]
    exact hq.recvSeq
  · rw [hoth]
    exact hq.delivered.trans hpeer

/-! ## The steps -/

variable {checks : Bool}

theorem seal_ok {self channel : SecureChannel} {iv : Iv} {frame : F}
    {text raw : Bytes} (h : self.seal P checks iv frame = .ok (channel, text, raw)) :
    ∃ seq, succSeq checks self.sendSeq = .ok seq ∧ channel = { self with sendSeq := seq } ∧
      text = headerAndBodyBytes P self.encryptKey seq iv frame := by
  unfold SecureChannel.seal at h
  cases hseq : succSeq checks self.sendSeq with
  | error e =>
    rw [hseq] at h
    exact nomatch h
  | ok seq =>
    rw [hseq, ok_bind] at h
    cases h
    exact ⟨seq, rfl, rfl, rfl⟩

theorem SessionInv.sealFrame (h : SessionInv P s) {iv : Iv} {frame : F} {channel : SecureChannel} {text raw : Bytes}
    (hfew : (s.side role).sentFrames.length + 1 < 2 ^ 31)
    (hseal : (s.side role).channel.seal P checks iv frame = .ok (channel, text, raw)) :
    SessionInv P (s.set role ((s.side role).sealed channel frame)
      (s.macs ++ [(channel.sendHmacKey, text)])) := by
  obtain ⟨seq, hseq, rfl, rfl⟩ := seal_ok hseal
  have hctd := h.counted role
  rw [hctd.sendSeq] at hseq
  have hnum := succSeq_ofNat hseq
  obtain ⟨side, hside⟩ : ∃ side, side =
      (s.side role).sealed { (s.side role).channel with sendSeq := seq } frame := ⟨_, rfl⟩
  have hchan : side.channel = { (s.side role).channel with sendSeq := seq } := by rw [hside]; rfl
  have hfrs : side.sentFrames = (s.side role).sentFrames ++ [frame] := by rw [hside]; rfl
  rw [← hside]
  have hgr := grows_set (s := s)
    (s.macs ++ [((s.side role).channel.sendHmacKey,
      headerAndBodyBytes P (s.side role).channel.encryptKey seq iv frame)])
    (by rw [hchan]; exact ⟨rfl, rfl, rfl, rfl⟩) (by rw [hfrs]; exact prefix_append _ _)
  refine ⟨h.keyed.grows hgr, ?_, counted_set h.counted hgr ?_ ?_ ?_ ?_⟩
  · intro mac hmac
    rcases mem_append.1 hmac with hold | hnew
    · exact h.signed.grows hgr mac hold
    -- the new text is signed with the number of frames
    rw [mem_singleton.1 hnew]
    refine ⟨role, iv, frame, (s.side role).sentFrames.length, ?_, ?_, ?_⟩
    · rw [Session.side_set_self, hchan]
    · rw [Session.side_set_self, hfrs, getElem?_concat_length]
    · rw [Session.side_set_self, hchan, hnum]
  · rw [hchan, hfrs, length_append, length_singleton, hnum]
  · rw [hfrs, length_append, length_singleton]
    exact hfew
  · rw [hside]
    exact hctd.recvSeq
  · rw [hside]
    exact hctd.delivered

/-- The two ends of `open`: an error, or a frame with the next sequence number. -/
theorem present_cases (checks : Bool) (side : Side F) (raw : Bytes) :
    (∃ channel, side.present P checks raw = { side with channel := channel, failed := true } ∧
        SameKeys channel side.channel ∧ channel.sendSeq = side.channel.sendSeq) ∨
      ∃ d2d seq frame, side.channel.verify P raw = .ok d2d ∧
        succSeq checks side.channel.recvSeq = .ok seq ∧ d2d.sequenceNumber = seq ∧
        P.offlineFrame.decode d2d.message = some frame ∧
        side.present P checks raw = { side with
          channel := { side.channel with recvSeq := seq }, accepted := side.accepted ++ [frame] } := by
  unfold Side.present openMessage
  cases hver : side.channel.verify P raw with
  | error e => exact .inl ⟨_, rfl, ⟨rfl, rfl, rfl, rfl⟩, rfl⟩
  | ok d2d =>
    cases hseq : succSeq checks side.channel.recvSeq with
    | error e => exact .inl ⟨_, rfl, ⟨rfl, rfl, rfl, rfl⟩, rfl⟩
    | ok seq =>
      by_cases hnum : d2d.sequenceNumber = seq
      · simp only [ne_eq, hnum, not_true_eq_false, if_false]
        cases hfr : P.offlineFrame.decode d2d.message with
        | none => exact .inl ⟨_, rfl, ⟨rfl, rfl, rfl, rfl⟩, rfl⟩
        | some frame => exact .inr ⟨d2d, seq, frame, rfl, rfl, hnum, hfr, rfl⟩
      · simp only [ne_eq, hnum, not_false_eq_true, if_true]
        exact .inl ⟨_, rfl, ⟨rfl, rfl, rfl, rfl⟩, rfl⟩

/-- A message that verifies is one the peer has sealed. A reflected one is signed with another key. -/
theorem SessionInv.verify_eq (hlw : P.Lawful) (h : SessionInv P s) {raw : Bytes} {d2d : DeviceToDeviceMessage}
    (hall : Allowed P s (.present role raw)) (hver : (s.side role).channel.verify P raw = .ok d2d) :
    ∃ n frame, (s.side role.peer).sentFrames[n]? = some frame ∧
      d2d = ⟨ofNat (n + 1), P.offlineFrame.encode frame⟩ := by
  obtain ⟨msg, hdec, hmac⟩ := verify_ok hver
  simp only [Allowed, hdec] at hall
  obtain ⟨signer, iv, frame, n, hkey, hfr, htx⟩ := h.signed _ (hall hmac)
  have hpeer : signer = role.peer := by
    rcases Role.eq_or_eq_peer signer role with heq | heq
    · exfalso
      rw [heq, h.keyed.recvHmacKey role] at hkey
      cases role with
      | client => exact h.keyed.separate hkey.symm
      | server => exact h.keyed.separate hkey
    · exact heq
  subst hpeer
  rw [← h.keyed.decryptKey role] at htx
  have heq := verify_sealed hlw (h.keyed.length role) hdec hmac htx
  rw [hver] at heq
  injection heq with heq
  exact ⟨n, frame, hfr, heq⟩

theorem prefix_snoc {α : Type} {l l' : List α} {a : α} (h : l <+: l')
    (ha : l'[l.length]? = some a) : l ++ [a] <+: l' := by
  obtain ⟨rest, rfl⟩ := h
  rw [getElem?_append_right (Nat.le_refl _), Nat.sub_self] at ha
  cases rest with
  | nil => exact nomatch ha
  | cons b rest =>
    cases ha
    exact ⟨rest, by rw [append_assoc, singleton_append]⟩

theorem SessionInv.present (hlw : P.Lawful) (h : SessionInv P s) {raw : Bytes}
    (hall : Allowed P s (.present role raw)) (hop : (s.side role).failed = false) :
    SessionInv P (s.set role ((s.side role).present P checks raw) s.macs) := by
  have hctd := h.counted role
  rcases present_cases (P := P) checks (s.side role) raw with
    ⟨channel, hpres, hkeys, hsd⟩ | ⟨d2d, seq, frame, hver, hseq, hnum, hfr, hpres⟩
  · have hgr : Grows s (s.set role ((s.side role).present P checks raw) s.macs) := by
      rw [hpres]
      exact grows_set _ hkeys prefix_rfl
    refine ⟨h.keyed.grows hgr, h.signed.grows hgr, counted_set h.counted hgr ?_ ?_ ?_ ?_⟩
    · rw [hpres]
      exact hsd.trans hctd.sendSeq
    · rw [hpres]
      exact hctd.few
    · rw [hpres]
      intro hfa
      exact nomatch hfa
    · rw [hpres]
      exact hctd.delivered
  have hgr : Grows s (s.set role ((s.side role).present P checks raw) s.macs) := by
    rw [hpres]
    exact grows_set _ ⟨rfl, rfl, rfl, rfl⟩ prefix_rfl
  obtain ⟨n, sent, hst, rfl⟩ := h.verify_eq hlw hall hver
  have hpeer := (h.counted role.peer).few
  have hle := hctd.delivered.length_le
  obtain ⟨hlt, -⟩ := List.getElem?_eq_some_iff.1 hst
  rw [hctd.recvSeq hop] at hseq
  have hnx := succSeq_ofNat hseq
  -- the sequence numbers agree, so the frame is the next one
  have hn : n + 1 = (s.side role).accepted.length + 1 := ofNat_inj (by omega) (by omega) (hnum.trans hnx)
  have hdec : some sent = some frame := (hlw.offlineFrame sent).symm.trans hfr
  cases hdec
  refine ⟨h.keyed.grows hgr, h.signed.grows hgr, counted_set h.counted hgr ?_ ?_ ?_ ?_⟩
  · rw [hpres]
    exact hctd.sendSeq
  · rw [hpres]
    exact hctd.few
  · grind
  · rw [hpres]
    apply prefix_snoc hctd.delivered
    rw [← Nat.succ.inj hn]
    exact hst

theorem sessionInv_init (hlw : P.Lawful) {handshake : Handshake P}
    (h : (sessionMachine P checks handshake).init s) : SessionInv P s := by
  obtain ⟨hmacs, hclient, hser⟩ := h
  obtain ⟨⟨hce, hcs, hse, hss⟩, -⟩ := handshake.mirrored hlw
  refine ⟨⟨?_, ?_, ?_, ?_⟩, ?_, ?_⟩
  · intro role
    cases role with
    | client =>
      rw [hclient]
      exact hlw.length_hkdf _ _ _
    | server =>
      rw [hser]
      exact hlw.length_hkdf _ _ _
  · intro role
    cases role with
    | client =>
      rw [Role.peer, hclient, hser]
      exact hse.symm
    | server =>
      rw [Role.peer, hclient, hser]
      exact hce.symm
  · intro role
    cases role with
    | client =>
      rw [Role.peer, hclient, hser]
      exact hss.symm
    | server =>
      rw [Role.peer, hclient, hser]
      exact hcs.symm
  · -- the keys of the two directions are derived from different labels
    rw [hclient, hser]
    rw [hcs]
    exact hlw.hkdf_separates _
  · intro mac hmac
    rw [hmacs] at hmac
    exact nomatch hmac
  · intro role
    cases role with
    | client =>
      refine ⟨?_, ?_, ?_, ?_⟩ <;> rw [hclient]
      · rfl
      · exact Nat.two_pow_pos 31
      · exact fun _ => rfl
      · exact nil_prefix
    | server =>
      refine ⟨?_, ?_, ?_, ?_⟩ <;> rw [hser]
      · rfl
      · exact Nat.two_pow_pos 31
      · exact fun _ => rfl
      · exact nil_prefix

theorem SessionInv.step (hlw : P.Lawful) {handshake : Handshake P}
    {s t : Session F} {a : SessionAction F} (h : SessionInv P s) (hall : Allowed P s a)
    (hnx : (sessionMachine P checks handshake).next s a = some t) : SessionInv P t := by
  cases a with
  | sealFrame role iv frame =>
    simp only [sessionMachine] at hnx
    split at hnx
    · exact nomatch hnx
    · rename_i hseal
      cases hnx
      exact h.sealFrame hall hseal
  | present role raw =>
    simp only [sessionMachine, Option.ite_none_left_eq_some] at hnx
    obtain ⟨hop, hnx⟩ := hnx
    cases hnx
    exact h.present hlw hall (Bool.eq_false_iff.2 hop)

/-- Both sides of an unmodified handshake have the same PIN and mirrored keys, and with an attacker that does not have
the keys each side accepts a beginning of what the other has sealed. -/
theorem channel_delivers_prefix (hlaws : P.Lawful) (checks : Bool) (handshake : Handshake P) :
    handshake.run = .ok (handshake.client, handshake.server) ∧
      handshake.client.2 = handshake.server.2 ∧ Mirrored handshake.client.1 handshake.server.1 ∧
      ∀ s, (sessionMachine P checks handshake).Reach (Allowed P) s →
        ∀ role, (s.side role).accepted <+: (s.side role.peer).sentFrames := by
  obtain ⟨hmir, hpin⟩ := handshake.mirrored hlaws
  refine ⟨handshake.run_eq hlaws, hpin, hmir, ?_⟩
  intro s hs role
  have hinv := hs.invariant (I := SessionInv P) (fun _ hin => sessionInv_init hlaws hin)
    (fun _ _ _ _ hall hinv hnx => hinv.step hlaws hall hnx)
  exact (hinv.counted role).delivered

end Invariant

/-! ## A session with simple primitives -/

namespace Sample

open Delimited

def bytesCodec : Delimited Bytes := byte.list

def int32Codec : Delimited Int32 :=
  word (fun i => i.toUInt32.toNat) (fun n => (UInt32.ofNat n).toInt32) (fun i => i.toUInt32.toNat_lt)
    (by intro i; rw [UInt32.ofNat_toNat, toInt32_toUInt32])

def charCodec : Delimited Char := word Char.toNat Char.ofNat (fun c => c.val.toNat_lt) Char.ofNat_toNat

def stringCodec : Delimited String := charCodec.list.map String.toList String.ofList (fun _ => String.ofList_toList)

/-- An enumeration by the numbers of its constructors. -/
def enumCodec {α : Type} (f : α → UInt8) (g : UInt8 → α) (h : ∀ a, g (f a) = a) : Delimited α := byte.map f g h

def cipherCodec : Delimited Ukey2HandshakeCipher :=
  enumCodec
    (fun | .reserved => 0 | .p256Sha512 => 100 | .curve25519Sha512 => 200)
    (fun b => if b = 100 then .p256Sha512 else if b = 200 then .curve25519Sha512 else .reserved)
    (by intro a; cases a <;> rfl)

def messageTypeCodec : Delimited Ukey2MessageType :=
  enumCodec
    (fun | .unknownDoNotUse => 0 | .alert => 1 | .clientInit => 2 | .serverInit => 3 | .clientFinish => 4)
    (fun b => if b = 1 then .alert else if b = 2 then .clientInit else if b = 3 then .serverInit
      else if b = 4 then .clientFinish else .unknownDoNotUse)
    (by intro a; cases a <;> rfl)

def keyTypeCodec : Delimited PublicKeyType :=
  enumCodec (fun | .ecP256 => 1 | .rsa2048 => 2 | .dh2048Modp => 3)
    (fun b => if b = 2 then .rsa2048 else if b = 3 then .dh2048Modp else .ecP256)
    (by intro a; cases a <;> rfl)

def sigSchemeCodec : Delimited SigScheme :=
  enumCodec (fun | .hmacSha256 => 1 | .ecdsaP256Sha256 => 2 | .rsa2048Sha256 => 3)
    (fun b => if b = 2 then .ecdsaP256Sha256 else if b = 3 then .rsa2048Sha256 else .hmacSha256)
    (by intro a; cases a <;> rfl)

def encSchemeCodec : Delimited EncScheme :=
  enumCodec (fun | .none => 1 | .aes256Cbc => 2)
    (fun b => if b = 2 then .aes256Cbc else .none) (by intro a; cases a <;> rfl)

def commitmentCodec : Delimited CipherCommitment :=
  (cipherCodec.pair bytesCodec).map (fun c => (c.handshakeCipher, c.commitment))
    (fun p => ⟨p.1, p.2⟩) (fun _ => rfl)

def ukey2MessageCodec : Delimited Ukey2Message :=
  (messageTypeCodec.pair bytesCodec).map (fun m => (m.messageType, m.messageData))
    (fun p => ⟨p.1, p.2⟩) (fun _ => rfl)

def clientInitCodec : Delimited Ukey2ClientInit :=
  (int32Codec.pair (bytesCodec.pair (commitmentCodec.list.pair stringCodec))).map
    (fun m => (m.version, m.random, m.cipherCommitments, m.nextProtocol))
    (fun p => ⟨p.1, p.2.1, p.2.2.1, p.2.2.2⟩) (fun _ => rfl)

def serverInitCodec : Delimited Ukey2ServerInit :=
  (int32Codec.pair (bytesCodec.pair (cipherCodec.pair bytesCodec))).map
    (fun m => (m.version, m.random, m.handshakeCipher, m.publicKey))
    (fun p => ⟨p.1, p.2.1, p.2.2.1, p.2.2.2⟩) (fun _ => rfl)

def publicKeyCodec : Delimited GenericPublicKey :=
  (keyTypeCodec.pair (((bytesCodec.pair bytesCodec).map (fun k : EcP256PublicKey => (k.x, k.y))
    (fun p => ⟨p.1, p.2⟩) (fun _ => rfl)).option)).map
    (fun k => (k.keyType, k.ecP256PublicKey)) (fun p => ⟨p.1, p.2⟩) (fun _ => rfl)

def headerAndBodyCodec : Delimited HeaderAndBody :=
  (sigSchemeCodec.pair (encSchemeCodec.pair (bytesCodec.pair (bytesCodec.pair bytesCodec)))).map
    (fun m => (m.header.signatureScheme, m.header.encryptionScheme, m.header.iv,
      m.header.publicMetadata, m.body))
    (fun p => ⟨⟨p.1, p.2.1, p.2.2.1, p.2.2.2.1⟩, p.2.2.2.2⟩) (fun _ => rfl)

/-- Primitives on short numbers. Encryption adds the key and MACs repeat the text. -/
def primitives : Primitives Bytes where
  Secret := UInt8
  Public := UInt8
  publicKey secret := secret
  x key := key :: List.replicate 31 0
  y key := key :: List.replicate 31 0
  fromEncodedPoint point := point[1]?
  diffieHellman secret key := [secret * key]
  sha256 text := text
  sha512 text := text
  hkdf _ input info := (info ++ input ++ List.replicate 32 0).take 32
  hmac key text := key ++ text
  encrypt key iv text := key ++ iv ++ text
  decrypt _ _ text := some (text.drop 48)
  ukey2Message := ukey2MessageCodec.codec
  ukey2ClientInit := clientInitCodec.codec
  ukey2ServerInit := serverInitCodec.codec
  ukey2ClientFinished := (bytesCodec.map Ukey2ClientFinished.publicKey Ukey2ClientFinished.mk
    (fun _ => rfl)).codec
  genericPublicKey := publicKeyCodec.codec
  gcmMetadata := ((int32Codec.pair int32Codec).map (fun m : GcmMetadata => (m.messageType, m.version))
    (fun p => ⟨p.1, p.2⟩) (fun _ => rfl)).codec
  headerAndBody := headerAndBodyCodec.codec
  secureMessage := ((bytesCodec.pair bytesCodec).map
    (fun m : SecureMessage => (m.headerAndBody, m.signature)) (fun p => ⟨p.1, p.2⟩)
    (fun _ => rfl)).codec
  deviceToDeviceMessage := ((int32Codec.pair bytesCodec).map
    (fun m : DeviceToDeviceMessage => (m.sequenceNumber, m.message)) (fun p => ⟨p.1, p.2⟩)
    (fun _ => rfl)).codec
  offlineFrame := bytesCodec.codec

theorem primitives_lawful : primitives.Lawful where
  length_x _ := by rfl
  length_y _ := by rfl
  fromEncodedPoint_point _ := rfl
  diffieHellman_comm a b := congrArg (fun c => [c]) (UInt8.mul_comm a b)
  length_hkdf salt input info := by
    simp only [primitives, length_take, length_append, length_replicate]
    omega
  decrypt_encrypt key iv text hkey hiv := by
    have hlen : (key ++ iv).length = 48 := by rw [length_append, hkey, hiv]
    exact congrArg some (drop_left' hlen)
  hkdf_separates next := by
    -- the labels of the two roles stand behind the label of the key
    intro h
    have hbt := congrArg (fun bytes => bytes[5]?) h
    exact absurd (show some (99 : UInt8) = some 115 from hbt) (by decide)
  ukey2Message := codec_faithful _
  ukey2ClientInit := codec_faithful _
  ukey2ServerInit := codec_faithful _
  ukey2ClientFinished := codec_faithful _
  genericPublicKey := codec_faithful _
  headerAndBody := codec_faithful _
  secureMessage := codec_faithful _
  deviceToDeviceMessage := codec_faithful _
  offlineFrame := codec_faithful _

def handshake : Handshake primitives :=
  ⟨(3 : UInt8), (5 : UInt8), List.replicate 32 0, List.replicate 32 1, by decide, by decide⟩

def session : Session Bytes where
  side
    | .client => ⟨handshake.client.1, [], [], false⟩
    | .server => ⟨handshake.server.1, [], [], false⟩
  macs := []

def iv : Iv := ⟨List.replicate 16 7, by decide⟩

/-- The message of the client with the given number. -/
def clientMessage (seq : Int32) (frame : Bytes) : Bytes :=
  let text := headerAndBodyBytes primitives handshake.client.1.encryptKey seq iv frame
  primitives.secureMessage.encode ⟨text, primitives.hmac handshake.client.1.sendHmacKey text⟩

/-- The server accepts two frames of the client. Then the first is reflected to the client and replayed to the server.
-/
def attack : List (SessionAction Bytes) :=
  [.sealFrame .client iv [1], .sealFrame .client iv [2], .present .server (clientMessage 1 [1]),
    .present .server (clientMessage 2 [2]), .present .client (clientMessage 1 [1]),
    .present .server (clientMessage 1 [1])]

end Sample

theorem channel_delivers_prefix_attack :
    Sample.handshake.client.2 = Sample.handshake.server.2 ∧
      ∃ s, (sessionMachine Sample.primitives true Sample.handshake).Reach
          (Allowed Sample.primitives) s ∧
        ((s.side .server).accepted = [[1], [2]] ∧ (s.side .server).failed = true ∧
          (s.side .client).accepted = [] ∧ (s.side .client).failed = true) ∧
        (s.side .server).accepted <+: (s.side .client).sentFrames := by
  obtain ⟨-, hpin, -, hpref⟩ := channel_delivers_prefix Sample.primitives_lawful true Sample.handshake
  obtain ⟨s, hre, hp⟩ := Machine.exists_of_guarded_run
    (M := sessionMachine Sample.primitives true Sample.handshake) (s := Sample.session)
    (P := fun s => (s.side .server).accepted = [[1], [2]] ∧ (s.side .server).failed = true ∧
      (s.side .client).accepted = [] ∧ (s.side .client).failed = true)
    (Allowed Sample.primitives) Sample.attack ⟨rfl, rfl, rfl⟩ (by decide +kernel)
  exact ⟨hpin, s, hre, hp, hpref s hre .server⟩

end KaiT2en.Airshare
