import KaiT2en.Lib.Bytes

/-!
# L2CAP data connections

`apps/t2-airshare/src/l2cap.rs`: the commands of a BLE L2CAP channel and the bridge of its data connection to the
stream the receiver reads. After the command for a data connection `serve` guesses from the first bytes how the sender
frames its data: with a length in front of every packet, with the service id hash in front, or plain.

A plain frame begins with its length, and a length below 256 begins with the three zero bytes of a control packet.
`plain_frames_bridged_iff` says which first frames are taken for what they are; the later ones play no part.
-/

namespace KaiT2en.Airshare

open KaiT2en.Lib.Bytes List Nat

/-- The first three bytes of sha256("NearbySharing"). -/
def SERVICE_ID_HASH : List UInt8 := [0xfc, 0x9f, 0x5e]
/-- The first three bytes of a BLE socket control packet. -/
def CONTROL : List UInt8 := [0, 0, 0]
def MAX_PACKET : Nat := 64 * 1024

def REQUEST_ADVERTISEMENT : UInt8 := 1
def REQUEST_ADVERTISEMENT_FINISH : UInt8 := 2
def REQUEST_DATA_CONNECTION : UInt8 := 3
def RESPONSE_ADVERTISEMENT : UInt8 := 21
def RESPONSE_SERVICE_ID_NOT_FOUND : UInt8 := 22
def RESPONSE_DATA_CONNECTION_READY : UInt8 := 23

/-! ## The reader -/

/-- `Reader`: the bytes read and not yet taken, and the SDUs the channel has still to deliver. -/
structure Reader where
  buf : List UInt8
  sdus : List (List UInt8)

namespace Reader

/-- `Reader::take`: an SDU without bytes is the end of the channel. -/
def takeFrom (n : Nat) : List UInt8 → List (List UInt8) → Option (List UInt8 × Reader)
  | buf, [] => if n ≤ buf.length then some (buf.take n, ⟨buf.drop n, []⟩) else none
  | buf, sdu :: sdus =>
    if n ≤ buf.length then some (buf.take n, ⟨buf.drop n, sdu :: sdus⟩)
    else if sdu.isEmpty then none
    else takeFrom n (buf ++ sdu) sdus

variable (r : Reader)

def take (n : Nat) : Option (List UInt8 × Reader) := takeFrom n r.buf r.sdus

/-- `buf.splice(0..0, bytes)`. -/
def pushBack (bytes : List UInt8) : Reader := ⟨bytes ++ r.buf, r.sdus⟩

def u32Be : Option (Nat × Reader) :=
  match r.take 4 with
  | some (b, r) => some (ofBe b, r)
  | none => none

/-- `Reader::skip_control`: the fourth byte of a control frame is the length of the rest. -/
def skipControl : Option Reader :=
  match r.take 4 with
  | some (head, r) =>
    match r.take (head.getD 3 0).toNat with
    | some (_, r) => some r
    | none => none
  | none => none

/-- All the bytes the reader has still to give out. -/
def bytes : List UInt8 := r.buf ++ r.sdus.flatten

end Reader

/-! ## The commands -/

/-- `command`: a command packet with its length in front. -/
def command (packet : List UInt8) : List UInt8 := beBytes 4 packet.length ++ packet

/-- How the commands end. -/
inductive Commands where
  | failed
  | finished
  | dataConnection (r : Reader)

def advertisementResponse (advertisement packet : List UInt8) : List UInt8 :=
  if packet.drop 3 = SERVICE_ID_HASH then RESPONSE_ADVERTISEMENT :: beBytes 2 advertisement.length ++ advertisement
  else [RESPONSE_SERVICE_ID_NOT_FOUND]

/-- The loop over the commands, with what is sent in response. `fuel` is the number of bytes there are. -/
def commandLoop (advertisement : List UInt8) : Nat → List (List UInt8) → Reader → List (List UInt8) × Commands
  | 0, sent, _ => (sent, .failed)
  | fuel + 1, sent, r =>
    match r.u32Be with
    | none => (sent, .failed)
    | some (len, r) =>
      if len = 0 ∨ 512 < len then (sent, .failed)
      else
        match r.take len with
        | none => (sent, .failed)
        | some (packet, r) =>
          let kind := packet.headD 0
          if kind = REQUEST_ADVERTISEMENT then
            commandLoop advertisement fuel (sent ++ [command (advertisementResponse advertisement packet)]) r
          else if kind = REQUEST_ADVERTISEMENT_FINISH then (sent, .finished)
          else if kind = REQUEST_DATA_CONNECTION then
            (sent ++ [command [RESPONSE_DATA_CONNECTION_READY]], .dataConnection r)
          else (sent, .failed)

/-! ## The data connection, from the phone to the receiver -/

/-- What comes before the length of a packet. -/
inductive Preamble where
  | control (r : Reader)
  | data (r : Reader)

/-- The hash in front of a packet, which has been taken already in front of the first. -/
def preamble (packets first : Bool) (r : Reader) : Option Preamble :=
  if packets && !first then
    match r.take 3 with
    | none => none
    | some (hash, r) =>
      if hash = CONTROL then r.skipControl.map Preamble.control
      else if hash = SERVICE_ID_HASH then some (.data r)
      else none
  else some (.data r)

/-- The loop that writes plain frames to the stream, from plain frames or from packets: the bytes written. -/
def bridgeLoop (packets : Bool) : Nat → Bool → Reader → List UInt8
  | 0, _, _ => []
  | fuel + 1, first, r =>
    match preamble packets first r with
    | none => []
    | some (.control r) => bridgeLoop packets fuel false r
    | some (.data r) =>
      match r.u32Be with
      | none => []
      | some (len, r) =>
        match r.take len with
        | none => []
        | some (data, r) => beBytes 4 len ++ data ++ bridgeLoop packets fuel false r

/-- The complete frames at the front of a buffer, and the rest. -/
def completeFrames : Nat → List UInt8 → List UInt8 × List UInt8
  | 0, frames => ([], frames)
  | fuel + 1, frames =>
    let size := ofBe (frames.take 4)
    if 4 ≤ frames.length ∧ 4 + size ≤ frames.length then
      let (out, rest) := completeFrames fuel (frames.drop (4 + size))
      (frames.take (4 + size) ++ out, rest)
    else ([], frames)

/-- The loop of `serve_with_lengths`. -/
def lengthsLoop : Nat → List UInt8 → Reader → List UInt8
  | 0, _, _ => []
  | fuel + 1, frames, r =>
    match r.u32Be with
    | none => []
    | some (len, r) =>
      if 3 ≤ len ∧ len ≤ MAX_PACKET then
        match r.take len with
        | none => []
        | some (packet, r) =>
          if packet.take 3 = CONTROL then lengthsLoop fuel frames r
          else if packet.take 3 = SERVICE_ID_HASH then
            let buffered := frames ++ packet.drop 3
            let (out, frames) := completeFrames (buffered.length + 1) buffered
            out ++ lengthsLoop fuel frames r
          else []
      else []

/-- The first three data bytes behind any control packets: do they tell of packets? -/
def detect : Nat → Reader → Option (Bool × Reader)
  | 0, _ => none
  | fuel + 1, r =>
    match r.take 3 with
    | none => none
    | some (first, r) =>
      if first = CONTROL then
        match r.skipControl with
        | none => none
        | some r => detect fuel r
      else if first = SERVICE_ID_HASH then some (true, r)
      else some (false, r.pushBack first)

/-- How `serve` ends, with the bytes that reach the stream. -/
inductive Served where
  | failed
  | noStream
  | stream (bytes : List UInt8)
  deriving DecidableEq

/-- Do the first seven bytes look like a packet with a length in front? -/
def withLengths (head : List UInt8) : Bool :=
  decide (3 ≤ ofBe (head.take 4) ∧ ofBe (head.take 4) ≤ MAX_PACKET) &&
    (head.drop 4 == CONTROL || head.drop 4 == SERVICE_ID_HASH)

/-- The data connection. -/
def bridge (r : Reader) : Served :=
  let fuel := r.bytes.length + 1
  match r.take 7 with
  | none => .failed
  | some (head, r) =>
    let r := r.pushBack head
    if withLengths head then .stream (lengthsLoop fuel [] r)
    else
      match detect fuel r with
      | none => .failed
      | some (packets, r) => .stream (bridgeLoop packets fuel packets r)

/-- `serve`, on the SDUs the channel delivers until it is closed. -/
def serve (advertisement : List UInt8) (sdus : List (List UInt8)) : Served :=
  match (commandLoop advertisement (sdus.flatten.length + 1) [] ⟨[], sdus⟩).2 with
  | .failed => .failed
  | .finished => .noStream
  | .dataConnection r => bridge r

/-! ## What the reader gives out -/

namespace Reader

/-- No SDU without bytes, which would end the channel. -/
def Open (r : Reader) : Prop := ∀ sdu ∈ r.sdus, sdu ≠ []

variable {n : Nat} {r : Reader}

theorem takeFrom_bytes {sdus : List (List UInt8)} {buf taken : List UInt8} (h : takeFrom n buf sdus = some (taken, r)) :
    buf ++ sdus.flatten = taken ++ r.bytes ∧ taken.length = n := by
  induction sdus generalizing buf with
  | nil =>
    rw [takeFrom] at h
    split at h
    · cases h
      refine ⟨?_, by rw [length_take]; omega⟩
      rw [bytes, ← append_assoc, take_append_drop]
    · exact nomatch h
  | cons sdu sdus ih =>
    rw [takeFrom] at h
    split at h
    · cases h
      refine ⟨?_, by rw [length_take]; omega⟩
      rw [bytes, ← append_assoc, take_append_drop]
    · grind

theorem take_bytes {r r' : Reader} {taken : List UInt8}
    (h : r.take n = some (taken, r')) : r.bytes = taken ++ r'.bytes ∧ taken.length = n :=
  takeFrom_bytes h

theorem takeFrom_open {sdus : List (List UInt8)} {buf : List UInt8}
    (hop : ∀ sdu ∈ sdus, sdu ≠ []) (hle : n ≤ (buf ++ sdus.flatten).length) :
    ∃ r, takeFrom n buf sdus = some ((buf ++ sdus.flatten).take n, r) ∧ r.Open ∧
      r.bytes = (buf ++ sdus.flatten).drop n := by
  induction sdus generalizing buf with
  | nil =>
    rw [flatten_nil, append_nil] at hle ⊢
    refine ⟨⟨buf.drop n, []⟩, by rw [takeFrom, if_pos hle], hop, ?_⟩
    rw [bytes, flatten_nil, append_nil]
  | cons sdu sdus ih =>
    rw [takeFrom]
    by_cases hbuf : n ≤ buf.length
    · refine ⟨⟨buf.drop n, sdu :: sdus⟩, ?_, hop, ?_⟩
      · rw [if_pos hbuf, take_append_of_le_length hbuf]
      · rw [bytes, drop_append_of_le_length hbuf]
    · grind

/-- However the bytes are cut into SDUs, as many as there are can be taken. -/
theorem take_open (hop : r.Open) (hle : n ≤ r.bytes.length) :
    ∃ r', r.take n = some (r.bytes.take n, r') ∧ r'.Open ∧ r'.bytes = r.bytes.drop n :=
  takeFrom_open hop hle

theorem take_append {front rest : List UInt8} (hop : r.Open) (h : r.bytes = front ++ rest) :
    ∃ r', r.take front.length = some (front, r') ∧ r'.Open ∧ r'.bytes = rest := by
  obtain ⟨r', htk, hop', hbs⟩ := take_open (n := front.length) hop (by
    rw [h, length_append]
    omega)
  rw [h, take_left] at htk
  rw [h, drop_left] at hbs
  exact ⟨r', htk, hop', hbs⟩

theorem u32Be_append {rest : List UInt8} (hn : n < 2 ^ 32) (hop : r.Open) (h : r.bytes = beBytes 4 n ++ rest) :
    ∃ r', r.u32Be = some (n, r') ∧ r'.Open ∧ r'.bytes = rest := by
  obtain ⟨r', htk, hop', hbs⟩ := take_append hop h
  rw [length_beBytes] at htk
  refine ⟨r', ?_, hop', hbs⟩
  have hvalue : ofBe (beBytes 4 n) = n := ofBe_beBytes (k := 4) hn
  rw [u32Be, htk]
  simp only [hvalue]

theorem u32Be_bytes {r r' : Reader} (h : r.u32Be = some (n, r')) : r.bytes.length = 4 + r'.bytes.length := by
  unfold u32Be at h
  split at h
  · rename_i htk
    cases h
    obtain ⟨hbs, hlen⟩ := take_bytes htk
    rw [hbs, length_append, hlen]
  · exact nomatch h

theorem skipControl_bytes {r r' : Reader} (h : r.skipControl = some r') : r'.bytes.length ≤ r.bytes.length := by
  unfold skipControl at h
  split at h
  · rename_i htk
    obtain ⟨hbs, -⟩ := take_bytes htk
    split at h
    · rename_i hrs
      cases h
      obtain ⟨hbs', -⟩ := take_bytes hrs
      rw [hbs, hbs', length_append, length_append]
      omega
    · exact nomatch h
  · exact nomatch h

theorem pushBack_bytes (r : Reader) (front : List UInt8) : (r.pushBack front).bytes = front ++ r.bytes := by
  rw [pushBack, bytes, bytes, append_assoc]

end Reader

/-! ## No loop writes more than it reads -/

theorem preamble_bytes {packets first : Bool} {r r' : Reader} (h : preamble packets first r = some (.control r') ∨
      preamble packets first r = some (.data r')) : r'.bytes.length ≤ r.bytes.length := by
  unfold preamble at h
  split at h
  · split at h
    · rcases h with h | h
      · exact nomatch h
      · exact nomatch h
    rename_i htk
    obtain ⟨hbs, -⟩ := Reader.take_bytes htk
    rw [hbs, length_append]
    split at h
    · rcases h with h | h
      · obtain ⟨r₁, hskip, hr⟩ := Option.map_eq_some_iff.1 h
        cases hr
        have hle := Reader.skipControl_bytes hskip
        omega
      · simp_all
    · grind
  rcases h with h | h
  · exact nomatch h
  · cases h
    exact le_refl _

theorem bridgeLoop_length (packets : Bool) (fuel : Nat) (first : Bool) (r : Reader) :
    (bridgeLoop packets fuel first r).length ≤ r.bytes.length := by
  induction fuel generalizing first r with
  | zero => exact zero_le _
  | succ fuel ih =>
    rw [bridgeLoop]
    split
    · exact zero_le _
    · rename_i hpream
      exact le_trans (ih _ _) (preamble_bytes (.inl hpream))
    · rename_i hpream
      refine le_trans ?_ (preamble_bytes (.inr hpream))
      split
      · exact zero_le _
      rename_i hlen
      have hbs := Reader.u32Be_bytes hlen
      split
      · exact zero_le _
      rename_i hda
      obtain ⟨hda, -⟩ := Reader.take_bytes hda
      have hle := ih false (by assumption)
      have hspl := congrArg List.length hda
      simp only [length_append, length_beBytes] at hspl ⊢
      omega

theorem completeFrames_length (fuel : Nat) (frames : List UInt8) :
    (completeFrames fuel frames).1.length + (completeFrames fuel frames).2.length = frames.length := by
  induction fuel generalizing frames with
  | zero => exact zero_add _
  | succ fuel ih =>
    rw [completeFrames]
    split
    · grind
    · exact zero_add _

/-- A packet has a length and a hash in front that do not reach the stream. -/
theorem lengthsLoop_length (fuel : Nat) (frames : List UInt8) (r : Reader) :
    (lengthsLoop fuel frames r).length ≤ frames.length + (r.bytes.length - 7) := by
  induction fuel generalizing frames r with
  | zero => exact zero_le _
  | succ fuel ih =>
    rw [lengthsLoop]
    split
    · exact zero_le _
    rename_i hlen
    have hbs := Reader.u32Be_bytes hlen
    split
    · split
      · exact zero_le _
      rename_i packet r' htk
      obtain ⟨hda, hpac⟩ := Reader.take_bytes htk
      have hspl := congrArg List.length hda
      rw [length_append] at hspl
      split
      · have hle := ih frames r'
        omega
      split
      · grind [completeFrames_length]
      · exact zero_le _
    · exact zero_le _

theorem detect_bytes {fuel : Nat} {r r' : Reader} {packets : Bool} (h : detect fuel r = some (packets, r')) :
    (packets = false ∧ r'.bytes = r.bytes ∧ r.bytes.take 3 ≠ CONTROL ∧
      r.bytes.take 3 ≠ SERVICE_ID_HASH) ∨ r'.bytes.length < r.bytes.length := by
  induction fuel generalizing r with
  | zero => exact nomatch h
  | succ fuel ih =>
    rw [detect] at h
    split at h
    · exact nomatch h
    rename_i first r₁ htk
    obtain ⟨hbs, hlen⟩ := Reader.take_bytes htk
    have hspl := congrArg List.length hbs
    rw [length_append] at hspl
    split at h
    · split at h
      · exact nomatch h
      rename_i hskip
      have hskipp := Reader.skipControl_bytes hskip
      rcases ih h with ⟨-, heq, -⟩ | hlt
      · rw [heq]
        omega
      · omega
    split at h
    · cases h
      omega
    rename_i hctl hhash
    cases h
    have hfst : r.bytes.take 3 = first := by rw [hbs, ← hlen, take_left]
    refine .inl ⟨rfl, ?_, by rw [hfst]; exact hctl, by rw [hfst]; exact hhash⟩
    rw [Reader.pushBack_bytes, hbs]

/-! ## Plain frames -/

/-- A frame with some bytes, at most as many as its length can say. -/
structure PlainFrame where
  data : List UInt8
  nonempty : data ≠ []
  data_lt : data.length < 2 ^ 32

/-- `[length u32][data]`. -/
def PlainFrame.wire (frame : PlainFrame) : List UInt8 := beBytes 4 frame.data.length ++ frame.data

variable (frames : List PlainFrame)

def plainBytes : List UInt8 := frames.flatMap PlainFrame.wire

theorem plainBytes_cons (frame : PlainFrame) (frames : List PlainFrame) : plainBytes (frame :: frames) =
      beBytes 4 frame.data.length ++ (frame.data ++ plainBytes frames) := by
  rfl

theorem length_le_plainBytes : frames.length ≤ (plainBytes frames).length := by
  induction frames with
  | nil => exact zero_le _
  | cons frame frames ih =>
    rw [plainBytes_cons, length_cons, length_append, length_append, length_beBytes]
    omega

theorem bridgeLoop_plain (first : Bool) (fuel : Nat) {r : Reader}
    (hop : r.Open) (hbs : r.bytes = plainBytes frames) (hfu : frames.length < fuel) :
    bridgeLoop false fuel first r = plainBytes frames := by
  induction frames generalizing first fuel r with
  | nil =>
    have hlen := bridgeLoop_length false fuel first r
    rw [hbs] at hlen
    exact eq_nil_of_length_eq_zero (le_zero.1 hlen)
  | cons frame frames ih =>
    obtain ⟨fuel, rfl⟩ : ∃ k, fuel = k + 1 := ⟨fuel - 1, by omega⟩
    rw [plainBytes_cons] at hbs
    obtain ⟨r₁, hlen, hop₁, hbs₁⟩ := Reader.u32Be_append frame.data_lt hop hbs
    obtain ⟨r₂, hda, hop₂, hbs₂⟩ := Reader.take_append hop₁ hbs₁
    have hrs := ih false fuel hop₂ hbs₂ (lt_of_succ_lt_succ hfu)
    rw [plainBytes_cons, bridgeLoop]
    simp [preamble, hlen, hda, hrs]

theorem take_beBytes (n : Nat) (rest : List UInt8) : (beBytes 4 n ++ rest).take 3 = beBytes 3 (n / 256) := by
  have hdiv : ∀ k, n / 256 / 256 ^ k = n / 256 ^ (k + 1) := by
    intro k
    rw [Nat.div_div_eq_div_mul, pow_succ, Nat.mul_comm]
  simp only [beBytes, hdiv]
  rfl

theorem beBytes_eq_iff {k m : Nat} {bytes : List UInt8} (hm : m < 256 ^ k)
    (hbs : beBytes k (ofBe bytes) = bytes) : beBytes k m = bytes ↔ m = ofBe bytes := by
  constructor
  · intro h
    rw [← h, ofBe_beBytes hm]
  · intro h
    rw [h, hbs]

/-- What `serve` needs of the first frame to take plain frames for what they are. -/
def Recognised : List PlainFrame → Prop
  | [] => False
  | first :: _ => 256 ≤ first.data.length ∧ first.data.length / 256 ≠ ofBe SERVICE_ID_HASH ∧
      ¬(first.data.length ≤ MAX_PACKET ∧ (first.data.take 3 = CONTROL ∨ first.data.take 3 = SERVICE_ID_HASH))

instance : Decidable (Recognised frames) :=
  match frames with
  | [] => isFalse id
  | _ :: _ => inferInstanceAs (Decidable (_ ∧ _ ∧ _))

section Bridge

variable {r : Reader} {first : PlainFrame} {rest : List PlainFrame}

theorem take_plainBytes_eq_control : (plainBytes (first :: rest)).take 3 = CONTROL ↔ first.data.length < 256 := by
  have hlt := first.data_lt
  rw [plainBytes_cons, take_beBytes, beBytes_eq_iff (by omega) (by decide)]
  have hz : ofBe CONTROL = 0 := rfl
  omega

theorem take_plainBytes_eq_hash : (plainBytes (first :: rest)).take 3 = SERVICE_ID_HASH ↔
      first.data.length / 256 = ofBe SERVICE_ID_HASH := by
  have hlt := first.data_lt
  rw [plainBytes_cons, take_beBytes, beBytes_eq_iff (by omega) (by decide)]

/-- The seven bytes at the front are taken for a packet only if the frame has three data bytes among them. -/
theorem withLengths_iff : withLengths ((plainBytes (first :: rest)).take 7) ↔
    3 ≤ first.data.length ∧ first.data.length ≤ MAX_PACKET ∧
      (first.data.take 3 = CONTROL ∨ first.data.take 3 = SERVICE_ID_HASH) := by
  have hvalue : ofBe (beBytes 4 first.data.length) = first.data.length := ofBe_beBytes (k := 4) first.data_lt
  have hhd : (plainBytes (first :: rest)).take 7 = beBytes 4 first.data.length ++
      (first.data ++ plainBytes rest).take 3 := by
    rw [plainBytes_cons, take_append, length_beBytes, take_of_length_le (by rw [length_beBytes]; omega)]
  have htk : ((plainBytes (first :: rest)).take 7).take 4 = beBytes 4 first.data.length := by
    rw [hhd, take_left' (length_beBytes 4 _)]
  have hdr : ((plainBytes (first :: rest)).take 7).drop 4 = (first.data ++ plainBytes rest).take 3 := by
    rw [hhd, drop_left' (length_beBytes 4 _)]
  rw [withLengths, htk, hdr, hvalue]
  simp only [Bool.and_eq_true, decide_eq_true_eq, Bool.or_eq_true, beq_iff_eq, and_assoc]
  refine and_congr_right fun hlen => ?_
  rw [take_append_of_le_length hlen]

theorem bridge_of_recognised {frames : List PlainFrame} (hop : r.Open)
    (hbs : r.bytes = plainBytes frames) (h : Recognised frames) :
    bridge r = .stream (plainBytes frames) := by
  cases frames with
  | nil => exact h.elim
  | cons first rest =>
    obtain ⟨hlg, hhash, hno⟩ := h
    have hln : r.bytes.length = 4 + first.data.length + (plainBytes rest).length := by
      rw [hbs, plainBytes_cons, length_append, length_append, length_beBytes]
      omega
    obtain ⟨r₁, htk, hop₁, hbs₁⟩ := Reader.take_open (n := 7) hop (by omega)
    have hbk : (r₁.pushBack (r.bytes.take 7)).bytes = r.bytes := by
      rw [Reader.pushBack_bytes, hbs₁, take_append_drop]
    have hop' : (r₁.pushBack (r.bytes.take 7)).Open := hop₁
    have hpl : ¬withLengths (r.bytes.take 7) := by grind [withLengths_iff]
    -- the three bytes are neither of the two marks
    obtain ⟨r₂, htk₂, hop₂, hbs₂⟩ := Reader.take_open (n := 3) hop' (by rw [hbk]; omega)
    have hctl : (r₁.pushBack (r.bytes.take 7)).bytes.take 3 ≠ CONTROL := by
      rw [hbk, hbs, ne_eq, take_plainBytes_eq_control]
      omega
    have hoth : (r₁.pushBack (r.bytes.take 7)).bytes.take 3 ≠ SERVICE_ID_HASH := by
      rw [hbk, hbs, ne_eq, take_plainBytes_eq_hash]
      exact hhash
    have hdet : detect (r.bytes.length + 1) (r₁.pushBack (r.bytes.take 7)) =
        some (false, r₂.pushBack ((r₁.pushBack (r.bytes.take 7)).bytes.take 3)) := by
      rw [detect, htk₂]
      simp only [if_neg hctl, if_neg hoth]
    have hstr := bridgeLoop_plain (first :: rest) false (r.bytes.length + 1)
      (r := r₂.pushBack ((r₁.pushBack (r.bytes.take 7)).bytes.take 3)) hop₂ (by
        rw [Reader.pushBack_bytes, hbs₂, take_append_drop, hbk, hbs]) (by
        have hfrs : (first :: rest).length ≤ (plainBytes (first :: rest)).length := by
          exact length_le_plainBytes (first :: rest)
        rw [hbs]
        omega)
    rw [bridge, htk]
    simp only [if_neg hpl, hdet, hstr]

/-- If the stream has every byte of the frames, then none was lost to a guess. -/
theorem recognised_of_bridge {frames : List PlainFrame} (hbs : r.bytes = plainBytes frames)
    (h : bridge r = .stream (plainBytes frames)) : Recognised frames := by
  unfold bridge at h
  split at h
  · exact nomatch h
  rename_i head r₁ htk
  obtain ⟨hspl, hlen⟩ := Reader.take_bytes htk
  have hbk : (r₁.pushBack head).bytes = r.bytes := by rw [Reader.pushBack_bytes, hspl]
  have hhd : head = (plainBytes frames).take 7 := by rw [← hbs, hspl, take_left' hlen]
  have hlg : 7 ≤ r.bytes.length := by
    rw [hspl, length_append]
    omega
  simp only at h
  split at h
  · -- a packet with a length: seven bytes are missing
    injection h with h
    have hle := lengthsLoop_length (r.bytes.length + 1) [] (r₁.pushBack head)
    rw [h, hbk, ← hbs, length_nil] at hle
    omega
  rename_i hpl
  split at h
  · exact nomatch h
  rename_i packets r₂ hdet
  injection h with h
  have hle := bridgeLoop_length packets (r.bytes.length + 1) packets r₂
  rw [h, ← hbs] at hle
  rcases detect_bytes hdet with ⟨-, -, hctl, hhash⟩ | hlt
  · rw [hbk, hbs] at hctl hhash
    cases frames with
    | nil =>
      rw [hbs] at hlg
      exact absurd hlg (by decide)
    | cons first rest =>
      rw [hhd, withLengths_iff] at hpl
      rw [ne_eq, take_plainBytes_eq_control] at hctl
      rw [ne_eq, take_plainBytes_eq_hash] at hhash
      refine ⟨by omega, hhash, ?_⟩
      rintro ⟨hsm, hda⟩
      exact hpl ⟨by omega, hsm, hda⟩
  · rw [hbk] at hlt
    omega

end Bridge

theorem serve_dataConnection (advertisement : List UInt8) {packet rest : List UInt8} {sdus : List (List UInt8)}
    (hki : packet.head? = some REQUEST_DATA_CONNECTION) (hlen : packet.length ≤ 512) (hop : ∀ sdu ∈ sdus, sdu ≠ [])
    (hcut : sdus.flatten = command packet ++ rest) :
    ∃ r : Reader, serve advertisement sdus = bridge r ∧ r.Open ∧ r.bytes = rest := by
  cases packet with
  | nil => exact nomatch hki
  | cons kind packet =>
    injection hki with hki
    subst hki
    have hstart : (Reader.mk [] sdus).bytes = beBytes 4 (REQUEST_DATA_CONNECTION :: packet).length ++
        (REQUEST_DATA_CONNECTION :: packet ++ rest) := by
      rw [Reader.bytes, nil_append, hcut, command, append_assoc]
    obtain ⟨r₁, hln, hop₁, hbs₁⟩ := Reader.u32Be_append (by omega) (show (Reader.mk [] sdus).Open from hop) hstart
    obtain ⟨r₂, htk, hop₂, hbs₂⟩ := Reader.take_append hop₁ hbs₁
    refine ⟨r₂, ?_, hop₂, hbs₂⟩
    have hrng : ¬((REQUEST_DATA_CONNECTION :: packet).length = 0 ∨
        512 < (REQUEST_DATA_CONNECTION :: packet).length) := by
      rw [length_cons] at hlen ⊢
      omega
    rw [serve, commandLoop, hln]
    simp only [if_neg hrng, htk]
    rfl

/-- The stream that `serve` returns yields the plain frames exactly when their first is recognised. -/
theorem plain_frames_bridged_iff (advertisement packet : List UInt8) (frames : List PlainFrame)
    (sdus : List (List UInt8)) (hkind : packet.head? = some REQUEST_DATA_CONNECTION) (hlen : packet.length ≤ 512)
    (hopen : ∀ sdu ∈ sdus, sdu ≠ []) (hcut : sdus.flatten = command packet ++ plainBytes frames) :
    serve advertisement sdus = .stream (plainBytes frames) ↔ Recognised frames := by
  obtain ⟨r, hser, hop', hbs⟩ := serve_dataConnection advertisement hkind hlen hopen hcut
  rw [hser]
  exact ⟨recognised_of_bridge hbs, bridge_of_recognised hop' hbs⟩

/-- A frame of 300 bytes. -/
def longFrame : PlainFrame := ⟨List.replicate 300 8, by decide, by decide +kernel⟩

theorem plain_frames_bridged_iff_longFrame :
    serve [] [command [REQUEST_DATA_CONNECTION] ++ [0, 0], [1, 44] ++ longFrame.data] =
      .stream (plainBytes [longFrame]) :=
  (plain_frames_bridged_iff [] [REQUEST_DATA_CONNECTION] [longFrame]
    [command [REQUEST_DATA_CONNECTION] ++ [0, 0], [1, 44] ++ longFrame.data] rfl (by decide)
    (by decide) (by decide +kernel)).2 (by decide +kernel)

/-- An offline frame of eight bytes, a keep-alive. -/
def keepAliveFrame : PlainFrame := ⟨[0x08, 0x01, 0x12, 0x04, 0x08, 0x05, 0x3a, 0x00], by decide, by decide⟩

/-- Its length is taken for the three zero bytes of a control packet, and `serve` waits for the rest of that
packet. -/
theorem keepAliveFrame_taken_for_control :
    serve [] [command [REQUEST_DATA_CONNECTION], plainBytes [keepAliveFrame]] = .failed := by
  decide +kernel

end KaiT2en.Airshare
