import KaiT2en.Xpc.RoundTrip

/-!
# Discovering a service

The receive loop of `discover_service_at` in `t2-bridgexpc/src/remote.rs`. The payloads of the DATA frames on stream 1
are appended to a buffer, and after each of them at most one wrapper is decoded from the front of it. The first
wrapper whose value has a `Services` entry decides the outcome, a port or an error.

A wrapper that spans several frames is decoded with the last of them, but of several wrappers that one frame completes
only the first is; the others wait for further frames, one for each. `discovery_prompt_iff` says for which ways of
cutting the stream the loop has the outcome as soon as its wrapper is complete.
-/

namespace KaiT2en.Xpc

open KaiT2en.Lib.Bytes KaiT2en.Lib.Failure KaiT2en.Lib.Failure.Fallible List

namespace Http2

def DATA : UInt8 := 0
def SETTINGS : UInt8 := 4
def GOAWAY : UInt8 := 7

end Http2

def FIRST_DYNAMIC_PORT : Nat := 49152
def LAST_DYNAMIC_PORT : Nat := 65535

/-- An HTTP/2 frame: the length of a payload is a 24-bit number, a stream a 31-bit one. -/
structure Frame where
  kind : UInt8
  flags : UInt8
  stream : Nat
  payload : List UInt8
  stream_lt : stream < 2 ^ 31
  payload_lt : payload.length < 2 ^ 24

/-- `Connection::frame`: the bytes of a frame. -/
def Frame.bytes (frame : Frame) : List UInt8 :=
  beBytes 3 frame.payload.length ++ frame.kind :: frame.flags :: beBytes 4 frame.stream ++ frame.payload

theorem ofBe_three_lt (h0 h1 h2 : UInt8) : ofBe [h0, h1, h2] < 2 ^ 24 :=
  Nat.lt_of_lt_of_eq (ofBe_lt [h0, h1, h2]) (show 256 ^ 3 = 2 ^ 24 by decide)

/-- `Connection::read_frame`: a frame and the bytes behind it, nothing as long as the frame is incomplete. -/
def readFrame : List UInt8 → Option (Frame × List UInt8)
  | h0 :: h1 :: h2 :: kind :: flags :: h5 :: h6 :: h7 :: h8 :: rest =>
    let length := ofBe [h0, h1, h2]
    -- the first bit of the stream is reserved
    let stream := ofBe [h5, h6, h7, h8] % 2 ^ 31
    if length ≤ rest.length then
      some (⟨kind, flags, stream, rest.take length, Nat.mod_lt _ (Nat.two_pow_pos 31),
        Nat.lt_of_le_of_lt (length_take_le length rest) (ofBe_three_lt h0 h1 h2)⟩,
        rest.drop length)
    else none
  | _ => none

/-- The errors `discover_service_at` returns from its receive loop. -/
inductive DiscoveryError where
  /-- "T2 closed the HTTP/2 connection" -/
  | closed
  /-- "peer Services value is not a dictionary" -/
  | servicesNotDictionary
  /-- "peer did not advertise {service_name}; advertised services: {names}" -/
  | notAdvertised (serviceName : String) (names : List String)
  /-- "T2 advertised no port for {service_name}" -/
  | noPort (serviceName : String)
  /-- "invalid sysdiagnose port" -/
  | portConversion
  /-- "T2 advertised invalid sysdiagnose port {port}" -/
  | invalidPort (port : Nat)
  deriving DecidableEq

/-- `str::parse::<u64>`. -/
def parseU64 (text : String) : Option UInt64 :=
  let digits := match text.toList with
    | '+' :: rest => rest
    | all => all
  if digits.isEmpty || !digits.all Char.isDigit then none
  else
    let value := digits.foldl (fun value digit => 10 * value + (digit.toNat - '0'.toNat)) 0
    if value < 2 ^ 64 then some (UInt64.ofNat value) else none

/-- The port of a service, given as a number or as a text. -/
def servicePort (service : Value) : Option UInt64 :=
  (service.get "Port").bind fun port => port.asU64.or (port.asStr.bind parseU64)

/-- What the loop returns for the `Services` value of the peer. -/
def serviceOutcome (serviceName : String) (services : Value) : Except DiscoveryError Nat :=
  match services.get serviceName with
  | none =>
    match services with
    | .dict entries => .error (.notAdvertised serviceName ((entries.map Prod.fst).mergeSort fun a b => decide (a ≤ b)))
    | _ => .error .servicesNotDictionary
  | some service =>
    match servicePort service with
    | none => .error (.noPort serviceName)
    | some port =>
      if 2 ^ 16 ≤ port.toNat then .error .portConversion
      else if FIRST_DYNAMIC_PORT ≤ port.toNat ∧ port.toNat ≤ LAST_DYNAMIC_PORT then .ok port.toNat
      else .error (.invalidPort port.toNat)

/-- The receive loop: still waiting for frames, with what is buffered, or left. -/
inductive Discovery where
  | waiting (buffered : List UInt8)
  | found (outcome : Except DiscoveryError Nat)
  | panicked

/-- What a wrapper of the peer means to the loop: nothing, or an outcome. -/
def wrapperOutcome (serviceName : String) (value : Option Value) : Option (Except DiscoveryError Nat) :=
  (value.bind fun peer => peer.get "Services").map (serviceOutcome serviceName)

/-- A payload on stream 1: it is buffered, and one wrapper is decoded and drained. -/
def handleData (checks : Bool) (serviceName : String) (buffered payload : List UInt8) : Discovery :=
  match decodeWrapper checks (buffered ++ payload) with
  | .panic => .panicked
  | .err _ => .waiting (buffered ++ payload)
  | .ok wrapped =>
    match wrapperOutcome serviceName wrapped.value with
    | some outcome => .found outcome
    | none => .waiting ((buffered ++ payload).drop wrapped.used)

/-- Does the loop append the payload of this frame to its buffer? -/
def Frame.onStream (frame : Frame) : Bool := frame.kind == Http2.DATA && frame.stream == 1

/-- The body of the loop. `handle_control` also acknowledges SETTINGS, which leaves the loop as it is. -/
def handleFrame (checks : Bool) (serviceName : String) (buffered : List UInt8) (frame : Frame) :
    Discovery :=
  if frame.kind = Http2.GOAWAY then .found (.error .closed)
  else if frame.onStream then handleData checks serviceName buffered frame.payload
  else .waiting buffered

theorem readFrame_length {input rest : List UInt8} {frame : Frame}
    (h : readFrame input = some (frame, rest)) : rest.length < input.length := by
  unfold readFrame at h
  split at h
  · grind [length_cons]
  · exact nomatch h

/-- The receive loop on the bytes the peer has sent. -/
def receiveLoop (checks : Bool) (serviceName : String) (buffered input : List UInt8) : Discovery :=
  match _hread : readFrame input with
  | none => .waiting buffered
  | some (frame, rest) =>
    match handleFrame checks serviceName buffered frame with
    | .waiting buffered => receiveLoop checks serviceName buffered rest
    | left => left
termination_by input.length
decreasing_by exact readFrame_length _hread

/-! ## Frames -/

theorem readFrame_bytes (frame : Frame) (rest : List UInt8) : readFrame (frame.bytes ++ rest) = some (frame, rest) := by
  have hln := ofBe_beBytes (k := 3) (v := frame.payload.length) frame.payload_lt
  have hstr : ofBe (beBytes 4 frame.stream) % 2 ^ 31 = frame.stream := by
    rw [ofBe_beBytes (Nat.lt_trans frame.stream_lt (by decide)), Nat.mod_eq_of_lt frame.stream_lt]
  have hrm : frame.payload.length ≤ (frame.payload ++ rest).length := by
    rw [length_append]
    omega
  simp only [Frame.bytes, beBytes, cons_append, nil_append] at hln hstr ⊢
  simp only [readFrame, hln, hstr, if_pos hrm, take_left, drop_left]

theorem receiveLoop_cons (checks : Bool) (serviceName : String) (buffered : List UInt8)
    (frame : Frame) (rest : List UInt8) :
    receiveLoop checks serviceName buffered (frame.bytes ++ rest) =
      match handleFrame checks serviceName buffered frame with
      | .waiting buffered => receiveLoop checks serviceName buffered rest
      | left => left := by
  rw [receiveLoop]
  split
  · rename_i hrd
    rw [readFrame_bytes] at hrd
    exact nomatch hrd
  rename_i hrd
  rw [readFrame_bytes] at hrd
  cases hrd
  rfl

/-- The payloads that reach the buffer. -/
def payloads (frames : List Frame) : List (List UInt8) := (frames.filter Frame.onStream).map Frame.payload

def framesBytes (frames : List Frame) : List UInt8 := frames.flatMap Frame.bytes

/-- The loop over payloads only. -/
def receivePayloads (checks : Bool) (serviceName : String) (buffered : List UInt8) : List (List UInt8) → Discovery
  | [] => .waiting buffered
  | payload :: rest =>
    match handleData checks serviceName buffered payload with
    | .waiting buffered => receivePayloads checks serviceName buffered rest
    | left => left

/-- As long as the peer does not close the connection, other frames are of no account. -/
theorem receiveLoop_eq (checks : Bool) (serviceName : String) {frames : List Frame}
    (hop : ∀ frame ∈ frames, frame.kind ≠ Http2.GOAWAY) (buffered : List UInt8) :
    receiveLoop checks serviceName buffered (framesBytes frames) =
      receivePayloads checks serviceName buffered (payloads frames) := by
  induction frames generalizing buffered with
  | nil =>
    rw [receiveLoop]
    rfl
  | cons frame frames ih =>
    have hrs := ih fun other hoth => hop other (mem_cons_of_mem _ hoth)
    have hki := hop frame mem_cons_self
    rw [framesBytes, flatMap_cons, receiveLoop_cons, handleFrame, if_neg hki]
    cases hda : frame.onStream with
    | true =>
      rw [payloads, filter_cons_of_pos hda, map_cons, receivePayloads, if_pos rfl]
      cases handleData checks serviceName buffered frame.payload with
      | waiting buffered => exact hrs buffered
      | found _ | panicked => rfl
    | false =>
      rw [payloads, filter_cons_of_neg (by simp [hda]), if_neg Bool.false_ne_true]
      exact hrs buffered

/-! ## Wrappers in the buffer -/

/-- A wrapper that decodes, and is nothing but this wrapper. -/
def WellFormed (checks : Bool) (bytes : List UInt8) (wrapped : Wrapped) : Prop :=
  decodeWrapper checks bytes = .ok wrapped ∧ wrapped.used = bytes.length

section Wrappers

variable {checks : Bool} {bytes : List UInt8} {wrapped : Wrapped}

theorem WellFormed.hasHeader (h : WellFormed checks bytes wrapped) : HasHeader bytes := by
  by_contra hno
  rcases decodeWrapper_err hno with herr | herr
  · exact nomatch h.1.symm.trans herr
  · exact nomatch h.1.symm.trans herr

/-- What `decode_wrapper` reads of a header does not change when bytes follow. -/
theorem header_append {part rest : List UInt8} (h : 24 ≤ part.length) : (part ++ rest).take 4 = part.take 4 ∧
      ((part ++ rest).drop 4).take 4 = (part.drop 4).take 4 ∧
      headerLength (part ++ rest) = headerLength part ∧
      ((part ++ rest).drop 16).take 8 = (part.drop 16).take 8 := by
  have hfld : ∀ skip count, skip + count ≤ 24 →
      ((part ++ rest).drop skip).take count = (part.drop skip).take count := by grind
  refine ⟨hfld 0 4 (by omega), hfld 4 4 (by omega), ?_, hfld 16 8 (by omega)⟩
  unfold headerLength
  rw [hfld 8 8 (by omega)]

section

variable (h : WellFormed checks bytes wrapped)
include h

theorem WellFormed.length : 24 + headerLength bytes < 2 ^ 64 ∧ 24 + headerLength bytes = bytes.length := by
  have hhdr := h.hasHeader
  obtain ⟨hok, hused⟩ := h
  rw [decodeWrapper_eq hhdr, decodeRest] at hok
  by_cases hsum : 24 + headerLength bytes < 2 ^ 64
  · rw [addUsize_eq hsum, ok_bind] at hok
    refine ⟨hsum, ?_⟩
    by_cases hso : bytes.length ≥ 24 + headerLength bytes
    · rw [ensure_pos hso, ok_bind] at hok
      by_cases hz : headerLength bytes = 0
      · rw [if_pos hz] at hok
        cases hok
        rw [hz]
        exact hused
      rw [if_neg hz] at hok
      obtain ⟨payload, -, hok⟩ := bind_eq_ok.1 hok
      obtain ⟨value, -, hok⟩ := bind_eq_ok.1 hok
      cases hok
      exact hused
    · rw [ensure_neg hso, err_bind] at hok
      exact nomatch hok
  have hln : headerLength bytes < 2 ^ 64 := by
    have hlt := ofLe_lt ((bytes.drop 8).take 8)
    have hlen := hhdr.1
    rw [length_take, length_drop, Nat.min_eq_left (by omega)] at hlt
    exact hlt
  have hpan : decodeRest checks bytes (ofLe ((bytes.drop 4).take 4)) _ (ofLe ((bytes.drop 16).take 8)) = .panic :=
    decodeRest_panic hhdr.1 hln (Nat.le_of_not_lt hsum)
  exact nomatch hok.symm.trans hpan

theorem WellFormed.pos : 0 < bytes.length := by
  have hln := h.length.2
  omega

/-- A complete wrapper at the front of the buffer decodes as it does alone. -/
theorem WellFormed.append (rest : List UInt8) : decodeWrapper checks (bytes ++ rest) = .ok wrapped := by
  have hhdr := h.hasHeader
  obtain ⟨hsum, hln⟩ := h.length
  obtain ⟨hmag, hfl, hfld, hid⟩ := header_append hhdr.1
  have hhdr' : HasHeader (bytes ++ rest) := ⟨by rw [length_append]; have := hhdr.1; omega, by rw [hmag]; exact hhdr.2⟩
  rw [← h.1, decodeWrapper_eq hhdr', decodeWrapper_eq hhdr, hfl, hfld, hid]
  have hso : bytes.length ≥ 24 + headerLength bytes := by omega
  have hso' : (bytes ++ rest).length ≥ 24 + headerLength bytes := by
    rw [length_append]
    omega
  -- the payload is cut out of the wrapper itself
  have htk : (bytes ++ rest).take (24 + headerLength bytes) =
      bytes.take (24 + headerLength bytes) := take_append_of_le_length (by omega)
  simp only [decodeRest, addUsize_eq hsum, ok_bind, ensure_pos hso, ensure_pos hso', slice,
    htk, if_pos (And.intro (Nat.le_add_right 24 (headerLength bytes)) hso),
    if_pos (And.intro (Nat.le_add_right 24 (headerLength bytes)) hso')]

end

theorem WellFormed.part {part missing : List UInt8}
    (h : WellFormed checks (part ++ missing) wrapped) (hmis : missing ≠ []) :
    ∃ e, decodeWrapper checks part = .err e := by
  by_cases hhdr : HasHeader part
  · obtain ⟨hsum, hln⟩ := h.length
    have hpos := length_pos_iff.2 hmis
    obtain ⟨-, -, hfld, -⟩ := header_append hhdr.1
    rw [hfld] at hsum hln
    rw [length_append] at hln
    refine ⟨.fragmentedWrapper, ?_⟩
    rw [decodeWrapper_eq hhdr, decodeRest, addUsize_eq hsum, ok_bind,
      ensure_neg (show ¬part.length ≥ 24 + headerLength part by omega), err_bind]
  rcases decodeWrapper_err hhdr with herr | herr
  · exact ⟨_, herr⟩
  · exact ⟨_, herr⟩

end Wrappers

/-! ## One wrapper for each frame -/

/-- How many wrappers the first `n` bytes of the stream complete. -/
def completed : List (List UInt8) → Nat → Nat
  | [], _ => 0
  | bytes :: rest, n => if bytes.length ≤ n then completed rest (n - bytes.length) + 1 else 0

theorem completed_zero {wrappers : List (List UInt8)} (h : ∀ bytes ∈ wrappers, 0 < bytes.length) :
    completed wrappers 0 = 0 := by
  cases wrappers with
  | nil => rfl
  | cons bytes rest =>
    have hpos := h bytes mem_cons_self
    rw [completed, if_neg (by omega)]

theorem completed_flatten_append (front back : List (List UInt8)) (n : Nat) :
    completed (front ++ back) (front.flatten.length + n) = front.length + completed back n := by
  induction front with
  | nil => simp only [nil_append, flatten_nil, length_nil, Nat.zero_add]
  | cons bytes front ih => grind [completed]

theorem completed_mono (wrappers : List (List UInt8)) {m n : Nat} (h : m ≤ n) :
    completed wrappers m ≤ completed wrappers n := by
  induction wrappers generalizing m n with
  | nil => exact Nat.le_refl 0
  | cons bytes rest ih =>
    unfold completed
    by_cases hm : bytes.length ≤ m
    · rw [if_pos hm, if_pos (Nat.le_trans hm h)]
      exact Nat.add_le_add_right (ih (Nat.sub_le_sub_right h _)) 1
    · rw [if_neg hm]
      exact Nat.zero_le _

/-- How many wrappers the loop has decoded after some payloads: with each of them one more, if it is
complete. -/
def decoded (wrappers : List (List UInt8)) (count n : Nat) : List (List UInt8) → Nat
  | [] => count
  | payload :: rest =>
    decoded wrappers (min (count + 1) (completed wrappers (n + payload.length))) (n + payload.length) rest

/-- The loop has decoded `d` wrappers if there was a payload for each, wherever one starts to count. -/
theorem le_decoded_iff (wrappers : List (List UInt8)) (d count n : Nat) (payloads : List (List UInt8)) :
    d ≤ decoded wrappers count n payloads ↔ d ≤ count + payloads.length ∧
      ∀ first before after, payloads = (first :: before) ++ after →
        d ≤ completed wrappers (n + (first :: before).flatten.length) + after.length := by
  induction payloads generalizing count n with
  | nil => simp [decoded]
  | cons payload rest ih =>
    rw [decoded, ih, length_cons]
    constructor
    · rintro ⟨hall, hlat⟩
      refine ⟨by omega, ?_⟩
      intro first before after h
      injection h with hfst hrs
      subst hfst
      cases before with
      | nil =>
        have haft : rest = after := hrs
        rw [flatten_cons, flatten_nil, append_nil, ← haft]
        omega
      | cons second before => simp_all [Nat.add_assoc]
    · rintro ⟨hall, hlat⟩
      have hfst := hlat payload [] rest rfl
      rw [flatten_cons, flatten_nil, append_nil] at hfst
      refine ⟨by omega, ?_⟩
      intro second before after h
      have hsp := hlat payload (second :: before) after (by rw [h]; rfl)
      rw [flatten_cons, length_append, ← Nat.add_assoc] at hsp
      exact hsp

/-! ## The loop -/

/-- A stream of well-formed wrappers, and the first of them that decides the outcome. -/
structure Stream (checks : Bool) (serviceName : String) where
  front : List (List UInt8)
  decisive : List UInt8
  back : List (List UInt8)
  outcome : Except DiscoveryError Nat
  front_idle : ∀ bytes ∈ front, ∃ wrapped, WellFormed checks bytes wrapped ∧
    wrapperOutcome serviceName wrapped.value = none
  decides : ∃ wrapped, WellFormed checks decisive wrapped ∧ wrapperOutcome serviceName wrapped.value = some outcome
  back_formed : ∀ bytes ∈ back, ∃ wrapped, WellFormed checks bytes wrapped

section Loop

variable {checks : Bool} {serviceName : String} (stream : Stream checks serviceName)

def Stream.wrappers : List (List UInt8) := stream.front ++ stream.decisive :: stream.back

variable {bytes buffered payload : List UInt8} {wrapped : Wrapped}

/-- A payload that leaves the wrapper at the front of the buffer incomplete is only buffered. -/
theorem handleData_part {missing : List UInt8} (h : WellFormed checks bytes wrapped)
    (hpt : bytes = (buffered ++ payload) ++ missing) (hmis : missing ≠ []) :
    handleData checks serviceName buffered payload = .waiting (buffered ++ payload) := by
  rw [hpt] at h
  obtain ⟨e, herr⟩ := h.part hmis
  rw [handleData, herr]

theorem handleData_complete {rest : List UInt8} (h : WellFormed checks bytes wrapped)
    (hcm : buffered ++ payload = bytes ++ rest) :
    handleData checks serviceName buffered payload = match wrapperOutcome serviceName wrapped.value with
      | some outcome => .found outcome
      | none => .waiting rest := by
  rw [handleData, hcm, h.append rest]
  simp [h.2]

/-- Where the end of a buffer lies in the wrapper it begins with. -/
theorem complete_or_part {data others tail : List UInt8} (h : data ++ tail = bytes ++ others) :
    (bytes.length ≤ data.length ∧ ∃ rest, data = bytes ++ rest) ∨
      (data.length < bytes.length ∧ ∃ missing, bytes = data ++ missing ∧ missing ≠ []) := by
  by_cases hle : bytes.length ≤ data.length
  · refine .inl ⟨hle, data.drop bytes.length, ?_⟩
    have htk := congrArg (List.take bytes.length) h
    rw [take_append_of_le_length hle, take_left] at htk
    conv_lhs => rw [← take_append_drop bytes.length data, htk]
  · have hlt := Nat.lt_of_not_le hle
    refine .inr ⟨hlt, bytes.drop data.length, ?_, ?_⟩
    · grind [take_left]
    · simp_all

/-- The loop between two frames: of the wrappers before the decisive one some are decoded, and the rest of
what has arrived is buffered. -/
structure Between (n : Nat) (gone left : List (List UInt8)) (buffered tail : List UInt8) : Prop where
  front : stream.front = gone ++ left
  length : n = gone.flatten.length + buffered.length
  bytes : buffered ++ tail = (left ++ stream.decisive :: stream.back).flatten

variable {stream} {n : Nat} {gone left : List (List UInt8)} {tail : List UInt8}

/-- The wrappers complete by now: those decoded, and the complete ones of those to come. -/
theorem Between.completed (h : Between stream n gone left buffered tail) (m : Nat) :
    completed stream.wrappers (n + m) = gone.length +
      Xpc.completed (left ++ stream.decisive :: stream.back) (buffered.length + m) := by
  rw [Stream.wrappers, h.front, h.length, Nat.add_assoc, append_assoc, completed_flatten_append]

/-- A payload before the frame that completes the decisive wrapper: one more wrapper is decoded, if there is
a complete one. -/
theorem Between.step (h : Between stream n gone left buffered (payload ++ tail))
    (hlate : Xpc.completed stream.wrappers (n + payload.length) ≤ stream.front.length) :
    ∃ gone' left' buffered', handleData checks serviceName buffered payload = .waiting buffered' ∧
      Between stream (n + payload.length) gone' left' buffered' tail ∧
      gone'.length = min (gone.length + 1) (Xpc.completed stream.wrappers (n + payload.length)) := by
  have hcmpd := h.completed payload.length
  have hbs := h.bytes
  rw [← append_assoc] at hbs
  rw [← length_append] at hcmpd
  cases left with
  | nil =>
    -- every wrapper before the decisive one is decoded, and this one is incomplete
    have hgone : stream.front = gone := by rw [h.front, append_nil]
    obtain ⟨wrapped, hform, -⟩ := stream.decides
    rw [nil_append] at hcmpd
    rcases complete_or_part (hbs.trans flatten_cons) with ⟨hle, -⟩ | ⟨hlt, missing, hpt, hne⟩
    · rw [Xpc.completed, if_pos hle] at hcmpd
      rw [hgone] at hlate
      omega
    · rw [Xpc.completed, if_neg (Nat.not_le.2 hlt)] at hcmpd
      refine ⟨gone, [], buffered ++ payload, handleData_part hform hpt hne, ⟨h.front, ?_, hbs⟩, by omega⟩
      rw [length_append, h.length, Nat.add_assoc]
  | cons bytes left =>
    obtain ⟨wrapped, hform, hdl⟩ := stream.front_idle bytes (by
      rw [h.front]
      exact mem_append_right _ mem_cons_self)
    rw [cons_append] at hcmpd
    rcases complete_or_part (hbs.trans flatten_cons) with
      ⟨hle, rest, hrs⟩ | ⟨hlt, missing, hpt, hne⟩
    · rw [Xpc.completed, if_pos hle] at hcmpd
      refine ⟨gone ++ [bytes], left, rest, ?_, ⟨?_, ?_, ?_⟩, ?_⟩
      · rw [handleData_complete hform hrs, hdl]
      · rw [h.front, append_assoc, singleton_append]
      · have hln := congrArg List.length hrs
        simp only [length_append] at hln
        simp only [flatten_append, flatten_cons, flatten_nil, append_nil, length_append, h.length]
        omega
      · simp_all
      · rw [length_append, length_singleton]
        omega
    · rw [Xpc.completed, if_neg (Nat.not_le.2 hlt)] at hcmpd
      refine ⟨gone, bytes :: left, buffered ++ payload, handleData_part hform hpt hne, ⟨h.front, ?_, hbs⟩, by omega⟩
      rw [length_append, h.length, Nat.add_assoc]

theorem Between.run {payloads : List (List UInt8)} (h : Between stream n gone left buffered (payloads.flatten ++ tail))
    (hlate : Xpc.completed stream.wrappers (n + payloads.flatten.length) ≤ stream.front.length) :
    ∃ gone' left' buffered', receivePayloads checks serviceName buffered payloads = .waiting buffered' ∧
      Between stream (n + payloads.flatten.length) gone' left' buffered' tail ∧
      gone'.length = decoded stream.wrappers gone.length n payloads := by
  induction payloads generalizing n gone left buffered with
  | nil => exact ⟨gone, left, buffered, rfl, h, rfl⟩
  | cons payload rest ih =>
    rw [flatten_cons, append_assoc] at h
    rw [flatten_cons, length_append, ← Nat.add_assoc] at hlate ⊢
    have hbef := Nat.le_trans (completed_mono stream.wrappers
      (Nat.le_add_right (n + payload.length) rest.flatten.length)) hlate
    obtain ⟨gone', left', buffered', hsp, hbet, hcnt⟩ := h.step hbef
    rw [receivePayloads, hsp]
    rw [decoded, ← hcnt]
    exact ih hbet hlate

/-- The payload that completes the decisive wrapper ends the loop if no other wrapper is before it. -/
theorem Between.last (h : Between stream n gone left buffered (payload ++ tail))
    (hcm : stream.front.length < Xpc.completed stream.wrappers (n + payload.length)) :
    handleData checks serviceName buffered payload = .found stream.outcome ↔ stream.front.length ≤ gone.length := by
  have hcmpd := h.completed payload.length
  have hbs := h.bytes
  rw [← append_assoc] at hbs
  rw [← length_append] at hcmpd
  have hfront := congrArg List.length h.front
  rw [length_append] at hfront
  cases left with
  | nil =>
    obtain ⟨wrapped, hform, hdeci⟩ := stream.decides
    rw [nil_append] at hcmpd
    rcases complete_or_part (hbs.trans flatten_cons) with ⟨-, rest, hrs⟩ | ⟨hlt, -⟩
    · grind [handleData_complete]
    · rw [Xpc.completed, if_neg (Nat.not_le.2 hlt)] at hcmpd
      omega
  | cons bytes left =>
    obtain ⟨wrapped, hform, hdl⟩ := stream.front_idle bytes (by
      rw [h.front]
      exact mem_append_right _ mem_cons_self)
    rw [cons_append] at hcmpd
    rcases complete_or_part (hbs.trans flatten_cons) with ⟨-, rest, hrs⟩ | ⟨hlt, -⟩
    · grind [handleData_complete]
    · rw [Xpc.completed, if_neg (Nat.not_le.2 hlt)] at hcmpd
      omega

theorem receivePayloads_append (checks : Bool) (serviceName : String) {buffered after : List UInt8}
    {before : List (List UInt8)} (payload : List UInt8)
    (h : receivePayloads checks serviceName buffered before = .waiting after) :
    receivePayloads checks serviceName buffered (before ++ [payload]) =
      handleData checks serviceName after payload := by
  induction before generalizing buffered with
  | nil => grind [receivePayloads]
  | cons first before ih => grind [receivePayloads]

end Loop

/-- Wherever one starts to count, there is a later payload for each of the wrappers before the decisive one that is
not yet complete there. -/
def OneEach (wrappers : List (List UInt8)) (d : Nat) (frames : List Frame) : Prop :=
  ∀ before after, frames = before ++ after →
    d ≤ completed wrappers (payloads before).flatten.length + (payloads after).length

theorem payloads_append (before after : List Frame) :
    payloads (before ++ after) = payloads before ++ payloads after := by
  simp [payloads, filter_append]

/-- A split of the payloads comes from a split of the frames. -/
theorem payloads_eq_append {frames : List Frame} {front back : List (List UInt8)}
    (h : payloads frames = front ++ back) :
    ∃ before after, frames = before ++ after ∧ payloads before = front ∧ payloads after = back := by
  obtain ⟨kept, later, hfil, hkp, hlat⟩ := map_eq_append_iff.1 h
  obtain ⟨before, after, hfrs, hbef, haft⟩ := filter_eq_append_iff.1 hfil
  refine ⟨before, after, hfrs, ?_, ?_⟩
  · rw [payloads, hbef, hkp]
  · rw [payloads, haft, hlat]

theorem oneEach_iff {wrappers : List (List UInt8)} (hpos : ∀ bytes ∈ wrappers, 0 < bytes.length)
    (d : Nat) (frames : List Frame) :
    OneEach wrappers d frames ↔ d ≤ decoded wrappers 0 0 (payloads frames) := by
  rw [le_decoded_iff]
  constructor
  · intro h
    refine ⟨?_, ?_⟩
    · have hall := h [] frames rfl
      rw [payloads, filter_nil, map_nil, flatten_nil, length_nil, completed_zero hpos] at hall
      exact hall
    · intro first front back hspl
      obtain ⟨before, after, hfrs, hbef, haft⟩ := payloads_eq_append hspl
      have hcnt := h before after hfrs
      rw [hbef, haft] at hcnt
      rw [Nat.zero_add]
      exact hcnt
  · rintro ⟨hall, hlat⟩ before after hfrs
    have hspl : payloads frames = payloads before ++ payloads after := by rw [hfrs, payloads_append]
    cases hbef : payloads before with
    | nil => grind
    | cons first front => grind

theorem Stream.pos {checks : Bool} {serviceName : String} (stream : Stream checks serviceName) :
    ∀ bytes ∈ stream.wrappers, 0 < bytes.length := by
  intro bytes hmem
  rcases mem_append.1 hmem with hfront | hmem
  · obtain ⟨wrapped, hform, -⟩ := stream.front_idle bytes hfront
    exact hform.pos
  rcases mem_cons.1 hmem with rfl | hbk
  · obtain ⟨wrapped, hform, -⟩ := stream.decides
    exact hform.pos
  · obtain ⟨wrapped, hform⟩ := stream.back_formed bytes hbk
    exact hform.pos

/-- The loop has the outcome after the frame that completes the decisive wrapper exactly when the frames before it
were enough to decode the wrappers before it, one with each. -/
theorem discovery_prompt_iff {checks : Bool} {serviceName : String}
    (stream : Stream checks serviceName) (before after : List Frame) (frame : Frame)
    (hopen : ∀ other ∈ before ++ frame :: after, other.kind ≠ Http2.GOAWAY)
    (hcut : (payloads (before ++ frame :: after)).flatten = stream.wrappers.flatten)
    (hlate : completed stream.wrappers (payloads before).flatten.length ≤ stream.front.length)
    (hcomplete : stream.front.length < completed stream.wrappers (payloads (before ++ [frame])).flatten.length) :
    receiveLoop checks serviceName [] (framesBytes (before ++ [frame])) = .found stream.outcome ↔
      OneEach stream.wrappers stream.front.length before := by
  rw [oneEach_iff stream.pos]
  have hfr : payloads [frame] = [frame.payload] := by
    cases hda : frame.onStream with
    | true => rw [payloads, filter_cons_of_pos hda, filter_nil, map_singleton]
    | false =>
      -- another frame completes nothing
      have hnil : payloads [frame] = [] := by grind [payloads, filter_cons_of_neg, Bool.false_eq_true]
      rw [payloads_append, hnil, append_nil] at hcomplete
      omega
  have hop' : ∀ other ∈ before ++ [frame], other.kind ≠ Http2.GOAWAY := by grind
  rw [append_cons, payloads_append, payloads_append, hfr, append_assoc,
    singleton_append, flatten_append, flatten_cons] at hcut
  rw [payloads_append, hfr, flatten_append, length_append, flatten_cons, flatten_nil, append_nil] at hcomplete
  rw [receiveLoop_eq checks serviceName hop', payloads_append, hfr]
  have hstart : Between stream 0 [] stream.front []
      ((payloads before).flatten ++ (frame.payload ++ (payloads after).flatten)) :=
    ⟨rfl, rfl, hcut⟩
  obtain ⟨gone, left, buffered, hrun, hbet, hcnt⟩ := hstart.run (by
    rw [Nat.zero_add]
    exact hlate)
  have hdeco : gone.length = decoded stream.wrappers 0 0 (payloads before) := hcnt
  rw [receivePayloads_append checks serviceName frame.payload hrun, ← hdeco]
  apply hbet.last
  rw [Nat.zero_add]
  exact hcomplete

/-! ## An acknowledgement and the services in one frame -/

/-- A peer that offers one service. -/
def samplePeer : Value :=
  .dict [("Services", .dict [("com.apple.sysdiagnose.remote", .dict [("Port", .string "50000")])])]

def sampleAck : List UInt8 := wrapperBytes 1 0 []
def sampleServices : List UInt8 := wrapperBytes 0x101 1 (payloadBytes samplePeer)

theorem sampleAck_wellFormed : WellFormed true sampleAck ⟨1, 0, none, 24⟩ := by
  refine ⟨?_, (length_wrapperBytes 1 0 []).symm⟩
  have hdec := @decodeWrapper_wrapperBytes true 1 0 [] (by decide) []
  exact hdec

theorem samplePeer_encodable : Encodable samplePeer := by
  have hport : Encodable (.dict [("Port", .string "50000")]) :=
    ⟨by decide, by decide, ⟨by decide, by show (utf8 "50000").length + 1 < 2 ^ 32; decide⟩, trivial⟩
  have hser : Encodable (.dict [("com.apple.sysdiagnose.remote", .dict [("Port", .string "50000")])]) :=
    ⟨by decide, by decide, ⟨by decide, hport⟩, trivial⟩
  exact ⟨by decide, by decide, ⟨by decide, hser⟩, trivial⟩

theorem sampleServices_wellFormed : WellFormed true sampleServices
    ⟨0x101, 1, some samplePeer, 24 + (payloadBytes samplePeer).length⟩ := by
  refine ⟨?_, (length_wrapperBytes 0x101 1 _).symm⟩
  have hdec := @decodeWrapper_some true _ samplePeer_encodable 0x101 1 []
  exact hdec

/-- The stream of the peer: an empty acknowledgement, then its services. -/
def sampleStream : Stream true "com.apple.sysdiagnose.remote" where
  front := [sampleAck]
  decisive := sampleServices
  back := []
  outcome := .ok 50000
  front_idle := by
    intro bytes hmem
    rw [mem_singleton.1 hmem]
    exact ⟨_, sampleAck_wellFormed, rfl⟩
  decides := ⟨_, sampleServices_wellFormed, by decide⟩
  back_formed := by
    intro bytes hmem
    exact nomatch hmem

def dataFrame (payload : List UInt8) (h : payload.length < 2 ^ 24) : Frame := ⟨Http2.DATA, 0, 1, payload, by decide, h⟩

def ackFrame : Frame := dataFrame sampleAck (by decide)
def servicesFrame : Frame := dataFrame sampleServices (by decide +kernel)
def bothFrame : Frame := dataFrame (sampleAck ++ sampleServices) (by decide +kernel)

theorem discovery_prompt_iff_twoFrames :
    receiveLoop true "com.apple.sysdiagnose.remote" [] (framesBytes [ackFrame, servicesFrame]) =
      .found (.ok 50000) := by
  apply (discovery_prompt_iff sampleStream [ackFrame] [] servicesFrame (by decide) (by decide +kernel)
    (by decide +kernel) (by decide +kernel)).2
  intro before after h
  rcases append_eq_singleton_iff.1 h.symm with ⟨rfl, rfl⟩ | ⟨rfl, rfl⟩
  · decide +kernel
  · decide +kernel

/-- With both wrappers in one frame the services stay in the buffer, although they are complete. -/
theorem discovery_waits_bothFrame : (payloads [bothFrame]).flatten = sampleStream.wrappers.flatten ∧
      receiveLoop true "com.apple.sysdiagnose.remote" [] (framesBytes [bothFrame]) = .waiting sampleServices := by
  refine ⟨by decide +kernel, ?_⟩
  have hop : ∀ frame ∈ [bothFrame], frame.kind ≠ Http2.GOAWAY := by decide
  have hpay : payloads [bothFrame] = [] ++ [sampleAck ++ sampleServices] := rfl
  rw [receiveLoop_eq true _ hop, hpay, receivePayloads_append true _ _ rfl,
    handleData_complete sampleAck_wellFormed (nil_append _)]
  rfl

end KaiT2en.Xpc
