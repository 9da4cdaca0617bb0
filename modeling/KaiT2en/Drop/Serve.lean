import KaiT2en.Drop.Cpio
import KaiT2en.Drop.Http
import KaiT2en.Lib.Bytes

/-!
# Serving an AirDrop connection

`serve_connection` of `receive.rs` reads requests from a connection until the peer closes it, and answers each of
them. For every request it makes a new buffered reader. `serve` is what the requests of a connection should do, from
the list of them.

What the client writes is given by messages, and when it arrives by segments: a read returns bytes of one segment. If
no segment has bytes of two messages, the connection does what it should. Otherwise what a segment has of the next
message is lost with the reader of the first.
-/

namespace KaiT2en.Drop

open KaiT2en.Lib.BufReader KaiT2en.Lib.Bytes KaiT2en.Lib.Text KaiT2en.Lib.Utf8 List Message Reader.Ahead

/-! ## Requests and replies -/

/-- The values of a property list that are looked at. -/
inductive Value
  | string (text : List Char)
  | array (items : List Value)
  | dictionary (entries : List (List Char × Value))
  | other

namespace Value

def asString : Value → Option (List Char)
  | .string text => some text
  | _ => none

def asArray : Value → List Value
  | .array items => items
  | _ => []

def get (key : String) : Value → Option Value
  | .dictionary entries => (entries.find? (·.1 = key.toList)).map (·.2)
  | _ => none

def isDictionary : Value → Bool
  | .dictionary _ => true
  | _ => false

end Value

/-- What the sender asks for. -/
structure Ask where
  id : List Char
  senderName : List Char
  senderModel : List Char
  files : List (List Char)

/-- What `serve_connection` uses and the program does not say, for each request: the decoders, the handler, and
whether a reply can be written. -/
structure Outside where
  /-- `plist::from_bytes`. -/
  fromBytes : List UInt8 → Option Value
  /-- `plist::to_writer_binary` of a dictionary of texts. -/
  toWriterBinary : List (List Char × List Char) → Option (List UInt8)
  /-- `GzDecoder`. -/
  gunzip : List UInt8 → Option (List UInt8)
  /-- `ZlibDecoder`, up to a number of bytes. -/
  inflate : Nat → List UInt8 → Option (List UInt8)
  /-- The random id of a transfer. -/
  random : Nat → List Char
  name : Nat → List Char
  ask : Nat → Ask → Bool
  deliver : Nat → Ask → List File → Bool
  write : Nat → Bool

def parseAsk (env : Outside) (n : Nat) (body : List UInt8) : Option Ask :=
  match env.fromBytes body with
  | none => none
  | some dict =>
    if dict.isDictionary then
      let text (key : String) := ((dict.get key).bind Value.asString).getD []
      let list (key : String) := ((dict.get key).map Value.asArray).getD []
      some {
        id := env.random n
        senderName := text "SenderComputerName"
        senderModel := text "SenderModelName"
        files := (list "Files").filterMap (fun file => (file.get "FileName").bind Value.asString) ++
          (list "Items").filterMap Value.asString }
    else none

/-- `dvzip`, with at most `fuel` rounds. Every round takes bytes of the body, so that its length is enough. -/
def dvzip (env : Outside) : Nat → List UInt8 → List UInt8 → Option (List UInt8)
  | _, [], out => some out
  | 0, _ :: _, _ => none
  | fuel + 1, body, out =>
    match get body 0 4 with
    | none => none
    | some bytes =>
      let header := ofBe bytes
      let len := header % 2 ^ 31
      match get body 4 (4 + len) with
      | none => none
      | some chunk =>
        match if 2 ^ 31 ≤ header then some chunk else env.inflate 0x20000 chunk with
        | none => none
        | some data => if MAX_BODY < (out ++ data).length then none else dvzip env fuel (body.drop (4 + len)) (out ++ data)

def unpack (env : Outside) (body : List UInt8) (contentType : Option (List Char)) : Option (List File) :=
  let data :=
    if contentType.any (fun text => decide ("dvzip".toList <:+: text)) then dvzip env body.length body []
    else if [0x1F, 0x8B] <+: body then env.gunzip body
    else some body
  data.bind fun data =>
    match cpioFiles data with
    | some (.ok files) => some files
    | _ => none

/-- `plist_reply` of an empty dictionary. -/
def plistReply (env : Outside) (n : Nat) : Option (List UInt8) :=
  env.toWriterBinary [("ReceiverComputerName".toList, env.name n), ("ReceiverModelName".toList, "MacBookPro".toList)]

def reason : Nat → String
  | 200 => "OK"
  | 403 => "Forbidden"
  | 404 => "Not Found"
  | 415 => "Unsupported Media Type"
  | _ => "Error"

/-- The bytes that `write_reply` writes. -/
def writeReply (status : Nat) (body : List UInt8) : List UInt8 :=
  utf8 ("HTTP/1.1 ".toList ++ (Nat.toDigits 10 status ++ (' ' :: (reason status).toList ++
    ("\r\nContent-Type: application/octet-stream\r\nContent-Length: ".toList ++ (Nat.toDigits 10 body.length ++
      "\r\nConnection: keep-alive\r\n\r\n".toList))))) ++ body

/-! ## The connection -/

/-- The calls of the handler. -/
inductive Call
  | ask (a : Ask)
  | transfer (active : Bool)
  | deliver (a : Ask) (files : List File)

/-- The variables of `serve_connection`, with the requests that were handled, the calls of the handler and the replies. -/
structure Session where
  ask : Option (Ask × Bool) := none
  transfer : Bool := false
  handled : List Request := []
  calls : List Call := []
  replies : List (List UInt8) := []

namespace Session

def call (s : Session) (c : Call) : Session := { s with calls := s.calls ++ [c] }

/-- The `/Ask` branch after the handler has answered. -/
def asked (s : Session) (a : Ask) (accepted : Bool) : Session :=
  let s := { s.call (.ask a) with ask := some (a, accepted) }
  if accepted && !s.transfer then { s.call (.transfer true) with transfer := true } else s

/-- The end of the connection reports the end of an accepted transfer. -/
def close (s : Session) : Session := if s.transfer then { s.call (.transfer false) with transfer := false } else s

end Session

/-- The status and the body of the reply to a request. There is none after an error. -/
def dispatch (env : Outside) (s : Session) (request : Request) : Session × Option (Nat × List UInt8) :=
  let n := s.handled.length
  let s := { s with handled := s.handled ++ [request] }
  if request.path = "/Discover".toList then (s, (plistReply env n).map (200, ·))
  else if request.path = "/Ask".toList then
    match parseAsk env n request.body with
    | none => (s, none)
    | some a => (s.asked a (env.ask n a), if env.ask n a then (plistReply env n).map (200, ·) else some (403, []))
  else if request.path = "/Upload".toList then
    match s.ask with
    | some (a, true) =>
      match unpack env request.body request.contentType with
      | some files => (s.call (.deliver a files), if env.deliver n a files then some (200, []) else none)
      | none => (s, some (415, []))
    | _ => (s, some (403, []))
  else (s, some (404, []))

/-- A round of the loop after the request is read, and whether the loop goes on. -/
def respond (env : Outside) (s : Session) (request : Request) : Session × Bool :=
  match dispatch env s request with
  | (s', none) => (s', false)
  | (s', some (status, body)) =>
    if env.write s.handled.length then ({ s' with replies := s'.replies ++ [writeReply status body] }, true)
    else (s', false)

/-- The end of a connection, and whether it ended with an error. -/
structure Ended where
  session : Session
  failed : Bool

/-- What the requests of a connection should do. -/
def serve (env : Outside) : Session → List Request → Ended
  | s, [] => ⟨s.close, false⟩
  | s, request :: rest =>
    if (respond env s request).2 then serve env (respond env s request).1 rest
    else ⟨(respond env s request).1.close, true⟩

/-- The loop of `serve_connection`, with at most `fuel` rounds. The buffer of a reader is lost with the reader. -/
def serveLoop (env : Outside) : Nat → Session → List (List UInt8) → Option Ended
  | 0, _, _ => none
  | fuel + 1, s, source =>
    match readRequest ⟨[], source⟩ with
    | (.error _, _) => some ⟨s.close, true⟩
    | (.ok none, _) => some ⟨s.close, false⟩
    | (.ok (some request), r) =>
      if (respond env s request).2 then serveLoop env fuel (respond env s request).1 r.source
      else some ⟨(respond env s request).1.close, true⟩

/-- `serve_connection`. Every request has a byte, so that the number of bytes is enough. -/
def serveConnection (env : Outside) (segments : List (List UInt8)) : Option Ended :=
  serveLoop env (segments.flatten.length + 1) {} segments

/-! ## What is handled -/

section Handled

variable (env : Outside) (s : Session) (request : Request)

theorem close_handled : s.close.handled = s.handled := by
  rw [Session.close]
  split <;> rfl

theorem dispatch_handled : (dispatch env s request).1.handled = s.handled ++ [request] := by
  rw [dispatch]
  split
  · rfl
  split
  · split
    · rfl
    · rw [Session.asked]
      split <;> rfl
  split
  · split
    · split <;> rfl
    · rfl
  · rfl

theorem respond_handled : (respond env s request).1.handled = s.handled ++ [request] := by
  rw [← dispatch_handled env s request, respond]
  split
  · next s' hdispatch => rw [hdispatch]
  · next s' status body hdispatch =>
      rw [hdispatch]
      split <;> rfl

variable {env s}

theorem serve_handled (requests : List Request) : s.handled <+: (serve env s requests).session.handled := by
  induction requests generalizing s with
  | nil => rw [serve, close_handled]
  | cons request requests ih => grind [respond_handled, serve, close_handled, prefix_append]

theorem serve_cons_handled (requests : List Request) :
    s.handled ++ [request] <+: (serve env s (request :: requests)).session.handled := by
  rw [← respond_handled env s request, serve]
  split
  · exact serve_handled requests
  · rw [close_handled]

theorem serveLoop_handled {fuel : Nat} {source : List (List UInt8)} {e : Ended}
    (h : serveLoop env fuel s source = some e) : s.handled <+: e.session.handled := by
  induction fuel generalizing s source with
  | zero => cases h
  | succ fuel ih =>
    rw [serveLoop] at h
    split at h
    · cases h
      rw [close_handled]
    · cases h
      rw [close_handled]
    · grind [respond_handled, close_handled, prefix_append]

end Handled

/-! ## Runs of the loop -/

section Loop

variable {env : Outside} {s : Session} {source B : List (List UInt8)} {y z : List UInt8} {m : Message} {fuel : Nat}

theorem serveLoop_message (env : Outside) (s : Session) (fuel : Nat) (hm : m.WellFormed)
    (hsm : m.payload.body.length ≤ MAX_BODY) (h : (⟨[], source⟩ : Reader).Ahead (m.used ++ y) z B) :
    ∃ r : Reader, r.Ahead y z B ∧ serveLoop env (fuel + 1) s source =
      if (respond env s m.request).2 then serveLoop env fuel (respond env s m.request).1 r.source
      else some ⟨(respond env s m.request).1.close, true⟩ := by
  obtain ⟨r, hrd, hah⟩ := readRequest_ahead hm hsm h
  refine ⟨r, hah, ?_⟩
  rw [serveLoop, hrd]

theorem serveLoop_refused {e : HttpError} (h : (readRequest ⟨[], source⟩).1 = .error e) :
    serveLoop env (fuel + 1) s source = some ⟨s.close, true⟩ := by
  rw [serveLoop]
  split
  · rfl
  · next r hrd =>
      rw [hrd] at h
      cases h
  · next request r hrd =>
      rw [hrd] at h
      cases h

theorem serveLoop_end : serveLoop env (fuel + 1) s [] = some ⟨s.close, false⟩ := by rw [serveLoop, readRequest_end]

/-- Segments of their own, for each message. -/
def Apart (pieces : List (List (List UInt8))) (messages : List Message) : Prop :=
  List.Forall₂ (fun piece m => (∀ segment ∈ piece, segment ≠ []) ∧ piece.flatten = m.bytes) pieces messages

theorem Apart.flatten_eq {pieces : List (List (List UInt8))} {messages : List Message} (h : Apart pieces messages) :
    pieces.flatten.flatten = messages.flatMap bytes := by
  induction h with
  | nil => rfl
  | cons hpiece _ ih => rw [flatten_cons, flatten_append, hpiece.2, ih, flatMap_cons]

theorem bytes_ne_nil (m : Message) : m.bytes ≠ [] := append_ne_nil_of_left_ne_nil (lineBytes_ne_nil _) _

theorem pending_of_flatten {segments : List (List UInt8)} (hseg : ∀ segment ∈ segments, segment ≠ [])
    (hflat : segments.flatten = y) (hy : y ≠ []) (B : List (List UInt8)) : Pending (segments ++ B) y [] B := by
  have hne : segments ≠ [] := by
    rintro rfl
    exact hy hflat.symm
  exact hflat ▸ pending_of_segments hseg hne B

theorem serveLoop_apart {messages : List Message} {pieces : List (List (List UInt8))} (h : Apart pieces messages)
    (hm : ∀ m ∈ messages, m.WellFormed ∧ m.payload.body.length ≤ MAX_BODY ∧ m.payload.trailers = [])
    (hfu : messages.length < fuel) :
    serveLoop env fuel s pieces.flatten = some (serve env s (messages.map request)) := by
  induction h generalizing s fuel with
  | nil =>
    obtain ⟨fuel, rfl⟩ : ∃ n, fuel = n + 1 := ⟨fuel - 1, by omega⟩
    exact serveLoop_end
  | @cons piece m pieces messages hpiece hrs ih =>
    obtain ⟨⟨hwf, hsm, htrs⟩, hoths⟩ := forall_mem_cons.1 hm
    rw [length_cons] at hfu
    obtain ⟨fuel, rfl⟩ : ∃ n, fuel = n + 1 := ⟨fuel - 1, by omega⟩
    have hpn := pending_of_flatten hpiece.1 hpiece.2 (bytes_ne_nil m) pieces.flatten
    have hah := Reader.ahead_new hpn
    rw [← used_of_trailers htrs, ← append_nil m.used] at hah
    obtain ⟨r, hr, hlp⟩ := serveLoop_message env s fuel hwf hsm hah
    rw [flatten_cons, hlp, hr.done, map_cons, serve]
    split
    · exact ih hoths (by omega)
    · rfl

theorem serveLoop_large (hm : m.WellFormed) (hlg : MAX_BODY < m.payload.body.length) (hs : s.handled = [])
    (h : (⟨[], source⟩ : Reader).Ahead (m.used ++ y) z B) (requests : List Request) :
    serveLoop env (fuel + 1) s source ≠ some (serve env s (m.request :: requests)) := by
  intro heq
  have hrd := readRequest_large hm hlg h
  have hfst : s.handled ++ [m.request] <+: (serve env s (m.request :: requests)).session.handled :=
    serve_cons_handled m.request requests
  generalize serve env s (m.request :: requests) = e at heq hfst
  rw [hs, nil_append] at hfst
  have hno : ¬[m.request] <+: s.close.handled := by
    rw [close_handled, hs, prefix_nil]
    exact cons_ne_nil _ _
  rw [serveLoop] at heq
  split at heq
  · cases heq
    exact hno hfst
  · cases heq
    exact hno hfst
  · next request r hreq =>
      rw [hreq] at hrd
      have hhan : [request] <+: e.session.handled := by
        grind [close_handled, respond_handled, serveLoop_handled]
      obtain ⟨rest, hrs⟩ := hfst
      obtain ⟨rest', hrs'⟩ := hhan
      have hrequ := (List.cons.inj (hrs'.trans hrs.symm)).1
      exact hrd (by rw [hrequ])

/-- After a message that ends with a refused line the others are not handled. -/
theorem serve_ne_refused {requests : List Request} (h : requests ≠ []) (s : Session) :
    some (serve env s requests) ≠ some ⟨s.close, true⟩ := by
  intro heq
  obtain ⟨request, requests, rfl⟩ := exists_cons_of_ne_nil h
  have hhan : s.handled ++ [request] <+: (serve env s (request :: requests)).session.handled :=
    serve_cons_handled request requests
  rw [Option.some.inj heq, close_handled] at hhan
  have hlen := hhan.length_le
  rw [length_append, length_singleton] at hlen
  omega

end Loop

/-! ## Every timing -/

section Timing

variable (env : Outside) (messages : List Message)

/-- The connection does what the messages should do when they arrive in these segments. -/
def Exact (segments : List (List UInt8)) : Prop :=
  serveConnection env segments = some (serve env {} (messages.map request))

/-- The connection does what the messages should do, however they arrive. -/
def AlwaysExact : Prop :=
  ∀ segments : List (List UInt8), (∀ segment ∈ segments, segment ≠ []) →
    segments.flatten = messages.flatMap bytes → Exact env messages segments

/-- Only the first message can be handled, and it is not too large and has no trailers. -/
def OneHandled : Prop :=
  messages = [] ∨ ∃ m rest, messages = m :: rest ∧ m.payload.body.length ≤ MAX_BODY ∧
    ((respond env {} m.request).2 = false ∨ (rest = [] ∧ m.payload.trailers = []))

variable {env messages}

theorem serveConnection_message (env : Outside) {segments B : List (List UInt8)} {y z : List UInt8} {m : Message}
    (hm : m.WellFormed) (hsm : m.payload.body.length ≤ MAX_BODY)
    (h : (⟨[], segments⟩ : Reader).Ahead (m.used ++ y) z B) :
    ∃ (r : Reader) (fuel : Nat), r.Ahead y z B ∧ serveConnection env segments =
      if (respond env {} m.request).2 then serveLoop env (fuel + 1) (respond env {} m.request).1 r.source
      else some ⟨(respond env {} m.request).1.close, true⟩ := by
  have hpos := length_pos_iff.2 m.used_ne_nil
  have htot : (m.used ++ y).length ≤ 0 + segments.flatten.length := h.length_le
  rw [length_append] at htot
  obtain ⟨fuel, hfu⟩ : ∃ n, segments.flatten.length = n + 1 := ⟨segments.flatten.length - 1, by omega⟩
  obtain ⟨r, hr, hlp⟩ := serveLoop_message env {} (fuel + 1) hm hsm h
  refine ⟨r, fuel, hr, ?_⟩
  rw [serveConnection, hfu, hlp]

theorem ahead_singleton {y : List UInt8} (hy : y ≠ []) (B : List (List UInt8)) : (⟨[], y :: B⟩ : Reader).Ahead y [] B :=
  Reader.ahead_new (pending_of_flatten (forall_mem_singleton.2 hy) flatten_singleton hy B)

theorem alwaysExact_of_oneHandled (hm : ∀ m ∈ messages, m.WellFormed) (h : OneHandled env messages) :
    AlwaysExact env messages := by
  intro segments hseg hflat
  rw [Exact]
  rcases h with rfl | ⟨m, rest, rfl, hsm, hla⟩
  · have hnil : segments = [] := eq_nil_iff_forall_not_mem.2 fun segment hsegm =>
      hseg segment hsegm (flatten_eq_nil_iff.1 hflat segment hsegm)
    rw [hnil]
    exact serveLoop_end
  have hwf := hm m mem_cons_self
  rw [flatMap_cons] at hflat
  have hne : m.bytes ++ rest.flatMap bytes ≠ [] := append_ne_nil_of_left_ne_nil (bytes_ne_nil m) _
  have hah := Reader.ahead_new (pending_of_flatten hseg hflat hne [])
  rw [append_nil, ← m.used_append_leftover, append_assoc] at hah
  obtain ⟨r, fuel, hr, hlp⟩ := serveConnection_message env hwf hsm hah
  rw [hlp, map_cons, serve]
  rcases hla with hso | ⟨rfl, htrs⟩
  · rw [hso]
    rfl
  -- nothing is left after the only message
  rw [Payload.leftover_of_trailers htrs] at hr
  have hdn := done hr
  rw [hdn, serveLoop_end, apply_ite some]
  rfl

variable {m : Message} {rest : List Message}

theorem bytes_eq_cons (m : Message) : m.bytes = 80 :: m.bytes.tail ∧ m.bytes.tail ≠ [] := by
  exact ⟨rfl, cons_ne_nil _ _⟩

theorem bytes_eq_concat (m : Message) : ∃ init last, m.bytes = init ++ [last] ∧ init ≠ [] := by
  obtain ⟨hcn, hne⟩ := bytes_eq_cons m
  rcases eq_nil_or_concat m.bytes.tail with hnil | ⟨init, last, hcon⟩
  · exact absurd hnil hne
  · grind

theorem not_alwaysExact_of_next {m' : Message} (hm : m.WellFormed) (hm' : m'.WellFormed)
    (hsm : m.payload.body.length ≤ MAX_BODY) (htrs : m.payload.trailers = [])
    (hgo : (respond env {} m.request).2) : ¬AlwaysExact env (m :: m' :: rest) := by
  intro h
  obtain ⟨init, last, hbs, hin⟩ := bytes_eq_concat m
  obtain ⟨hcn, hta⟩ := bytes_eq_cons m'
  have hla : m'.bytes.tail ++ rest.flatMap bytes ≠ [] := append_ne_nil_of_left_ne_nil hta _
  have hex := h [init, [last, 80], m'.bytes.tail ++ rest.flatMap bytes] (by
      refine forall_mem_cons.2 ⟨hin, forall_mem_cons.2 ⟨cons_ne_nil _ _, ?_⟩⟩
      exact forall_mem_singleton.2 hla)
    (by
      rw [flatMap_cons, flatMap_cons, hbs]
      nth_rewrite 2 [hcn]
      simp only [flatten_cons, flatten_nil, append_nil, append_assoc, cons_append, nil_append])
  have hpn : Pending [init, [last, 80], m'.bytes.tail ++ rest.flatMap bytes] m.bytes [80]
      [m'.bytes.tail ++ rest.flatMap bytes] := by
    refine ⟨[init], [last], rfl, ?_, forall_mem_singleton.2 hin, cons_ne_nil _ _, .inr ?_⟩
    · rw [flatten_singleton, hbs]
    · exact (by decide : 2 ≤ CAPACITY)
  have hah := Reader.ahead_new hpn
  rw [← used_of_trailers htrs, ← append_nil m.used] at hah
  obtain ⟨r, fuel, hr, hlp⟩ := serveConnection_message env hm hsm hah
  -- the first byte of the second message is given up with the reader of the first
  have hdn := done hr
  obtain ⟨e, he⟩ := readRequest_beheaded hm' (ahead_singleton hla [])
  rw [Exact, hlp, if_pos hgo, hdn, map_cons, serve, if_pos hgo] at hex
  exact serve_ne_refused (cons_ne_nil _ _) _ (hex.symm.trans (serveLoop_refused he))

theorem not_alwaysExact_of_trailers (hm : m.WellFormed) (hsm : m.payload.body.length ≤ MAX_BODY)
    (htrs : m.payload.trailers ≠ []) (hgo : (respond env {} m.request).2) :
    ¬AlwaysExact env (m :: rest) := by
  intro h
  have hused := m.used_ne_nil
  have hlf : m.payload.leftover ++ rest.flatMap bytes ≠ [] := by
    refine append_ne_nil_of_left_ne_nil ?_ _
    exact Payload.leftover_ne_nil htrs
  have hex := h [m.used, m.payload.leftover ++ rest.flatMap bytes]
    (forall_mem_cons.2 ⟨hused, forall_mem_singleton.2 hlf⟩)
    (by
      rw [flatMap_cons, ← m.used_append_leftover, flatten_cons, flatten_singleton, append_assoc])
  have hah : (⟨[], [m.used, m.payload.leftover ++ rest.flatMap bytes]⟩ : Reader).Ahead (m.used ++ []) []
      [m.payload.leftover ++ rest.flatMap bytes] := by
    rw [append_nil]
    exact ahead_singleton hused _
  obtain ⟨r, fuel, hr, hlp⟩ := serveConnection_message env hm hsm hah
  have hdn := done hr
  obtain ⟨e, he⟩ := readRequest_leftover hm htrs (ahead_singleton hlf [])
  rw [Exact, hlp, if_pos hgo, hdn, map_cons, serve, if_pos hgo] at hex
  have href := hex.symm.trans (serveLoop_refused he)
  cases rest with
  | nil => cases href
  | cons m' rest => exact serve_ne_refused (cons_ne_nil _ _) _ href

theorem oneHandled_of_alwaysExact (hm : ∀ m ∈ messages, m.WellFormed) (h : AlwaysExact env messages) :
    OneHandled env messages := by
  cases messages with
  | nil => exact .inl rfl
  | cons m rest =>
    obtain ⟨hwf, hoths⟩ := forall_mem_cons.1 hm
    have hsm : m.payload.body.length ≤ MAX_BODY := by
      by_contra hlg
      have hne : (m :: rest).flatMap bytes ≠ [] := by
        exact append_ne_nil_of_left_ne_nil (bytes_ne_nil m) _
      have hex := h [(m :: rest).flatMap bytes] (forall_mem_singleton.2 hne) flatten_singleton
      have hah := ahead_singleton hne []
      rw [flatMap_cons, ← m.used_append_leftover, append_assoc] at hah hex
      exact serveLoop_large hwf (Nat.not_le.1 hlg) rfl hah _ hex
    refine .inr ⟨m, rest, rfl, hsm, ?_⟩
    cases hgo : (respond env {} m.request).2 with
    | false => exact .inl rfl
    | true =>
      by_cases htrs : m.payload.trailers = []
      · cases rest with
        | nil => exact .inr ⟨rfl, htrs⟩
        | cons m' rest => exact absurd h (not_alwaysExact_of_next hwf (hoths m' mem_cons_self) hsm htrs hgo)
      · exact absurd h (not_alwaysExact_of_trailers hwf hsm htrs hgo)

end Timing

/-- A connection does what its messages should do if each of them arrives in segments of its own, none is too large
and none has trailers; and however they arrive exactly if at most the first one is handled. -/
theorem serve_connection_exact (env : Outside) {messages : List Message} (hm : ∀ m ∈ messages, m.WellFormed) :
    (∀ pieces, Apart pieces messages → (∀ m ∈ messages, m.payload.body.length ≤ MAX_BODY ∧ m.payload.trailers = []) →
        Exact env messages pieces.flatten) ∧
      (AlwaysExact env messages ↔ OneHandled env messages) := by
  refine ⟨fun pieces hpiec hpl => ?_, oneHandled_of_alwaysExact hm, alwaysExact_of_oneHandled hm⟩
  refine serveLoop_apart hpiec (fun m hmem => ⟨hm m hmem, hpl m hmem⟩) (Nat.lt_succ_of_le ?_)
  rw [hpiec.flatten_eq]
  exact length_le_flatMap bytes_ne_nil messages

/-! ### A transfer -/

/-- A handler that accepts everything. -/
def accepting : Outside where
  fromBytes := fun _ => some (.dictionary [])
  toWriterBinary := fun _ => some []
  gunzip := fun _ => none
  inflate := fun _ _ => none
  random := fun _ => []
  name := fun _ => []
  ask := fun _ _ => true
  deliver := fun _ _ _ => true
  write := fun _ => true

/-- An ask, and an upload in one chunk that follows it. -/
def askMessage : Message := ⟨"/Ask".toList, [("Content-Length".toList, " 1".toList)], .plain [0]⟩

def uploadMessage : Message where
  path := "/Upload".toList
  fields := [("Transfer-Encoding".toList, " chunked".toList)]
  payload := .chunked [⟨['2'], [], [0x1F, 0x8B]⟩] ⟨['0'], [], []⟩ []

theorem transfer_wellFormed : ∀ m ∈ [askMessage, uploadMessage], m.WellFormed := by
  refine forall_mem_cons.2 ⟨⟨?_, ?_, ?_⟩, forall_mem_singleton.2 ⟨?_, ?_, ?_⟩⟩
  · exact ⟨by decide, forall_mem_of_all (by decide)⟩
  · exact forall_mem_singleton.2 ⟨by decide, forall_mem_of_all (by decide), forall_mem_of_all (by decide)⟩
  · refine ⟨forall_mem_singleton.2 (by decide), forall_mem_singleton.2 fun _ => ?_, .inr ?_⟩
    · exact ⟨by decide, forall_mem_of_all (by decide), by decide⟩
    · exact ⟨_, mem_singleton_self _, by decide⟩
  · exact ⟨by decide, forall_mem_of_all (by decide)⟩
  · exact forall_mem_singleton.2 ⟨by decide, forall_mem_of_all (by decide), forall_mem_of_all (by decide)⟩
  · refine ⟨⟨_, mem_singleton_self _, by decide⟩, ?_, ⟨?_, .inl rfl⟩, forall_mem_nil _⟩
    · refine forall_mem_singleton.2 ⟨⟨?_, .inl rfl⟩, by decide⟩
      exact ⟨by decide, forall_mem_of_all (by decide), by decide⟩
    · exact ⟨by decide, forall_mem_of_all (by decide), by decide⟩

theorem serve_connection_exact_transfer :
    Exact accepting [askMessage, uploadMessage] [askMessage.bytes, uploadMessage.bytes] ∧
      ¬AlwaysExact accepting [askMessage, uploadMessage] := by
  obtain ⟨hapart, hiff⟩ := serve_connection_exact accepting transfer_wellFormed
  constructor
  · refine hapart [[askMessage.bytes], [uploadMessage.bytes]] ?_ ?_
    · refine .cons ⟨?_, flatten_singleton⟩ (.cons ⟨?_, flatten_singleton⟩ .nil)
      · exact forall_mem_singleton.2 (bytes_ne_nil _)
      · exact forall_mem_singleton.2 (bytes_ne_nil _)
    · exact forall_mem_cons.2 ⟨⟨by decide, rfl⟩, forall_mem_singleton.2 ⟨by decide, rfl⟩⟩
  · rw [hiff]
    rintro (hnil | ⟨m, rest, hcn, -, hso | ⟨hrs, -⟩⟩)
    · cases hnil
    · obtain ⟨rfl, -⟩ := List.cons.inj hcn
      revert hso
      decide +kernel
    · rw [hrs] at hcn
      cases hcn

/-- An ask and an upload that arrive together: the upload is not handled. -/
theorem pipelined_upload_lost : (∀ m ∈ [askMessage, uploadMessage], m.WellFormed) ∧
    (serve accepting {} [askMessage.request, uploadMessage.request]).session.handled =
      [askMessage.request, uploadMessage.request] ∧
    (serveConnection accepting [askMessage.bytes ++ uploadMessage.bytes]).map (·.session.handled) =
      some [askMessage.request] :=
  ⟨transfer_wellFormed, by decide +kernel, by decide +kernel⟩

end KaiT2en.Drop
