import KaiT2en.Kernel.Primitives
import KaiT2en.Lib.Transition

/-!
# Requests and replies of the Sidecar device

The waiters of `t2bce_sidecar/usb.c`. A request registers a waiter under its sequence number on `dev->waiters`, sends
a packet and sleeps; the receive thread hands the reply to the first waiter with its sequence number, and
`t2sc_fail_waiters` wakes all of them without one. The waiter of `t2sc_request` lives on the stack of its caller, the
two of `t2sc_session_submit` live in the session and are used again.

An action of `requestMachine` is a section under `wait_lock`, or a step of a caller outside of it. The section of
`t2sc_fail_waiters` is cut after each waiter: the caller it wakes returns without the lock, so the waiter may be gone
while the section goes on. The workqueue of the encoder is ordered, so one function of a session runs at a time.
-/

namespace KaiT2en.Sidecar

open KaiT2en.Kernel KaiT2en.Lib.Transition List Option Function Nat

/-! ## Packets -/

def T2SC_PKT_ACK : Nat := 1

def T2SC_PKT_PROPERTY_REPLY : Nat := 7

def T2SC_PKT_ENCODE_REPLY : Nat := 9

/-- A received packet: two fields of its header and what follows the header. -/
structure Packet where
  type : Nat
  seq : Nat
  body : List Nat
  deriving DecidableEq

/-- The types that `t2sc_dispatch` takes for replies. -/
def Packet.isReply (p : Packet) : Bool :=
  p.type == T2SC_PKT_ACK || p.type == T2SC_PKT_PROPERTY_REPLY || p.type == T2SC_PKT_ENCODE_REPLY

/-- `t2sc_reply_status`: the signed status word behind the header. -/
def Packet.replyStatus (p : Packet) : Option Int :=
  match p.body with
  | b₀ :: b₁ :: b₂ :: b₃ :: _ =>
    let word : Nat := b₀ + 2 ^ 8 * b₁ + 2 ^ 16 * b₂ + 2 ^ 24 * b₃
    some (if word < 2 ^ 31 then word else (word : Int) - 2 ^ 32)
  | _ => none

/-- What `t2sc_wait_frame` makes of a reply. -/
def Packet.frameStatus (p : Packet) : Int :=
  match p.replyStatus with
  | none => -EPROTO
  | some status => if status = 0 then 0 else -EIo

/-! ## The state -/

/-- The number of a call of `t2sc_request` or `t2sc_session_submit`. -/
abbrev CallId := Nat

abbrev SessionId := Nat

/-- The number of a packet in the order of arrival. -/
abbrev PktId := Nat

/-- A waiter object: on the stack of a call, or one of the two of a session. -/
inductive WaiterRef where
  | stack (c : CallId)
  | slot (session : SessionId) (i : Bool)
  deriving DecidableEq

/-- `struct t2sc_waiter`. `owner` is the call that has registered it last. -/
structure Waiter where
  seq : Nat
  done : Bool
  reply : Option PktId
  owner : CallId
  deriving DecidableEq

inductive CallKind where
  | request
  | submit (session : SessionId)
  deriving DecidableEq

/-- How far a call is. -/
inductive CallStage where
  | idle
  /-- `t2sc_next_seq`. -/
  | nextSeq
  | addWaiter
  | send
  /-- The start of `t2sc_wait_frame`, in `t2sc_session_submit` only. -/
  | waitFrame
  | wait
  /-- The section of `t2sc_remove_waiter`; the call will return the status. -/
  | remove (status : Int)
  /-- Free the reply that has come in between. -/
  | free (status : Int)
  /-- The status, and the reply the call has got. -/
  | returned (status : Int) (reply : Option PktId)
  deriving DecidableEq

structure Call where
  kind : CallKind
  stage : CallStage
  waiter : WaiterRef
  seq : Nat
  deriving DecidableEq

/-- The part of `struct t2sc_session` that `t2sc_session_submit` uses, and the function that is
running on the session. -/
structure Session where
  cur : Bool
  inflight : Bool → Bool
  dead : Bool
  busy : Option CallId

/-- What happens to a packet after it was received. -/
inductive PktEvent where
  /-- The receive thread gives it to the waiter of a call. -/
  | handed (p : PktId) (c : CallId)
  /-- The call takes it from its waiter. -/
  | taken (p : PktId) (c : CallId)
  | freed (p : PktId)
  deriving DecidableEq

def PktEvent.pkt : PktEvent → PktId
  | handed p _ | taken p _ | freed p => p

/-- The part of `struct t2sc_device` that waits for replies. `failing` says that `t2sc_fail_waiters` holds
`wait_lock`, and `dispatching` is a packet the receive thread is about to free. `received` and `log` are the history.
-/
structure Device where
  seq : Nat
  waiters : List WaiterRef
  waiter : WaiterRef → Waiter
  calls : CallId → Call
  sessions : SessionId → Session
  failing : Bool
  dispatching : Option PktId
  received : List Packet
  log : List PktEvent

def Device.create : Device where
  seq := 0
  waiters := []
  waiter := fun _ => ⟨0, false, none, 0⟩
  calls := fun c => ⟨.request, .idle, .stack c, 0⟩
  sessions := fun _ => ⟨false, fun _ => false, false, none⟩
  failing := false
  dispatching := none
  received := []
  log := []

namespace Device

/-! ## The code -/

variable (s : Device) (c : CallId)

def setCall (call : Call) : Device := { s with calls := update s.calls c call }

def goTo (stage : CallStage) : Device := s.setCall c { s.calls c with stage := stage }

def setWaiter (w : WaiterRef) (x : Waiter) : Device := { s with waiter := update s.waiter w x }

def setSession (n : SessionId) (x : Session) : Device := { s with sessions := update s.sessions n x }

def record (e : PktEvent) : Device := { s with log := s.log ++ [e] }

def waiterOf : Waiter := s.waiter (s.calls c).waiter

/-- A call returns, and its session is free again. -/
def finish (status : Int) (reply : Option PktId) : Device :=
  match (s.calls c).kind with
  | .request => s.goTo c (.returned status reply)
  | .submit n => (s.setSession n { s.sessions n with busy := none }).goTo c (.returned status reply)

/-- The start of `__t2sc_request`. -/
def request (s : Device) (c : CallId) (allocated : Bool) : Device :=
  s.setCall c
    { kind := .request
      stage := if allocated then .nextSeq else .returned (-ENOMEM) none
      waiter := .stack c
      seq := 0 }

/-- The start of `t2sc_session_submit`. -/
def submit (s : Device) (c : CallId) (n : SessionId) : Device :=
  let call : Call := ⟨.submit n, .nextSeq, .slot n (s.sessions n).cur, 0⟩
  if (s.sessions n).dead then s.setCall c { call with stage := .returned (-ENODEV) none }
  else (s.setSession n { s.sessions n with busy := some c }).setCall c call

/-- `t2sc_next_seq`; the sequence number is a `u32`. -/
def nextSeq : Device :=
  let seq := (s.seq + 1) % 2 ^ 32
  { s with seq := seq }.setCall c { s.calls c with seq := seq, stage := .addWaiter }

def addWaiter : Device :=
  let w := (s.calls c).waiter
  ({ s with waiters := s.waiters ++ [w] }.setWaiter w ⟨(s.calls c).seq, false, none, c⟩).goTo c .send

/-- The packet is sent, or not. A submission that is sent is in flight. -/
def send (ret : Int) : Device :=
  if ret ≠ 0 then s.goTo c (.remove ret)
  else
    match (s.calls c).waiter with
    | .stack _ => s.goTo c .wait
    | .slot n i =>
      (s.setSession n { s.sessions n with
        inflight := update (s.sessions n).inflight i true
        cur := !i }).goTo c .waitFrame

/-- The start of `t2sc_wait_frame`. -/
def waitFrame : Device :=
  match (s.calls c).waiter with
  | .stack _ => s
  | .slot n i =>
    if (s.sessions n).inflight i then
      (s.setSession n { s.sessions n with
        inflight := update (s.sessions n).inflight i false }).goTo c .wait
    else s.finish c 0 none

/-- `t2sc_wait_reply` after a completed wait. A submission reads the status off the reply and frees
it, a request hands it on. -/
def wake : Device :=
  match (s.waiterOf c).reply with
  | none => s.finish c (-ENODEV) none
  | some p =>
    let s' := (s.setWaiter (s.calls c).waiter { s.waiterOf c with reply := none }).record (.taken p c)
    match (s.calls c).kind with
    | .request => s'.finish c 0 (some p)
    | .submit _ => (s'.record (.freed p)).finish c ((s.received[p]?.map Packet.frameStatus).getD 0) (some p)

/-- The section of `t2sc_remove_waiter`. -/
def remove (status : Int) : Device := { s with waiters := s.waiters.erase (s.calls c).waiter }.goTo c (.free status)

/-- The end of `t2sc_remove_waiter`. -/
def free (status : Int) : Device :=
  match (s.waiterOf c).reply with
  | none => s.finish c status none
  | some p =>
    ((s.setWaiter (s.calls c).waiter { s.waiterOf c with reply := none }).record (.freed p)).finish c
      status none

/-- `t2sc_dispatch` up to the call of `kvfree`. -/
def dispatch (pkt : Packet) : Device :=
  let p := s.received.length
  let s' := { s with received := s.received ++ [pkt] }
  if pkt.isReply then
    match s.waiters.find? fun w => (s.waiter w).seq = pkt.seq with
    | some w =>
      ({ s' with waiters := s.waiters.erase w }.setWaiter w
        { s.waiter w with reply := some p, done := true }).record (.handed p (s.waiter w).owner)
    | none => { s' with dispatching := some p }
  else { s' with dispatching := some p }

/-- One round of `t2sc_fail_waiters`, or its end. -/
def failNext : Device :=
  match s.waiters with
  | [] => { s with failing := false }
  | w :: rest => { s with waiters := rest }.setWaiter w { s.waiter w with done := true }

/-- `t2sc_wait_frame` as `t2sc_session_complete` and `t2sc_session_close` call it: it waits for a
submission that is in flight. -/
def collect (n : SessionId) (i : Bool) : Device :=
  if (s.sessions n).inflight i then
    (s.setSession n { s.sessions n with busy := some c }).setCall c
      ⟨.submit n, .waitFrame, .slot n i, (s.waiter (.slot n i)).seq⟩
  else s

/-- The part of `t2sc_session_close` for a dead session: it gives up a submission that is in
flight. -/
def discard (n : SessionId) (i : Bool) : Device :=
  if (s.sessions n).inflight i then
    (s.setSession n { s.sessions n with
      inflight := update (s.sessions n).inflight i false
      busy := some c }).setCall c ⟨.submit n, .remove 0, .slot n i, (s.waiter (.slot n i)).seq⟩
  else s

end Device

/-! ## The machine -/

inductive DeviceAction where
  | request (c : CallId) (allocated : Bool)
  | submit (c : CallId) (n : SessionId)
  | collect (c : CallId) (n : SessionId) (i : Bool)
  | discard (c : CallId) (n : SessionId) (i : Bool)
  /-- A suspend declares a session dead. -/
  | kill (n : SessionId)
  | nextSeq (c : CallId)
  | addWaiter (c : CallId)
  | send (c : CallId) (ret : Int)
  | waitFrame (c : CallId)
  | wake (c : CallId)
  | timeout (c : CallId)
  | remove (c : CallId)
  | free (c : CallId)
  | dispatch (pkt : Packet)
  | freePacket
  | failWaiters
  | failNext
  deriving DecidableEq

namespace Device

def At (s : Device) (c : CallId) (stage : CallStage) : Prop := (s.calls c).stage = stage
  deriving Decidable

def next (s : Device) : DeviceAction → Option Device
  | .request c allocated => if s.At c .idle then some (s.request c allocated) else none
  | .submit c n => if s.At c .idle ∧ (s.sessions n).busy = none then some (s.submit c n) else none
  | .collect c n i => if s.At c .idle ∧ (s.sessions n).busy = none then some (s.collect c n i) else none
  | .discard c n i =>
    if s.At c .idle ∧ (s.sessions n).busy = none ∧ (s.sessions n).dead = true then some (s.discard c n i)
    else none
  | .kill n => some (s.setSession n { s.sessions n with dead := true })
  | .nextSeq c => if s.At c .nextSeq ∧ s.failing = false then some (s.nextSeq c) else none
  | .addWaiter c => if s.At c .addWaiter ∧ s.failing = false then some (s.addWaiter c) else none
  | .send c ret => if s.At c .send then some (s.send c ret) else none
  | .waitFrame c => if s.At c .waitFrame then some (s.waitFrame c) else none
  | .wake c => if s.At c .wait ∧ (s.waiterOf c).done = true then some (s.wake c) else none
  | .timeout c =>
    if s.At c .wait ∧ (s.waiterOf c).done = false then some (s.goTo c (.remove (-ETIMEDOUT)))
    else none
  | .remove c =>
    match (s.calls c).stage with
    | .remove status => if s.failing = false then some (s.remove c status) else none
    | _ => none
  | .free c =>
    match (s.calls c).stage with
    | .free status => some (s.free c status)
    | _ => none
  | .dispatch pkt =>
    if s.dispatching = none ∧ (pkt.isReply = true → s.failing = false) then some (s.dispatch pkt)
    else none
  | .freePacket =>
    match s.dispatching with
    | some p => some { s.record (.freed p) with dispatching := none }
    | none => none
  | .failWaiters => if s.failing = false then some { s with failing := true } else none
  | .failNext => if s.failing = true then some s.failNext else none

end Device

def requestMachine : Machine Device DeviceAction where
  init s := s = Device.create
  next := Device.next

namespace Device

variable (s : Device) (c : CallId)

@[simp] theorem calls_setCall_self (call : Call) : (s.setCall c call).calls c = call := update_self ..

@[simp] theorem calls_goTo_self (stage : CallStage) :
    (s.goTo c stage).calls c = { s.calls c with stage := stage } := update_self ..

@[simp] theorem waiter_setWaiter_self (w : WaiterRef) (x : Waiter) : (s.setWaiter w x).waiter w = x := update_self ..

theorem sessions_setSession (n : SessionId) (x : Session) (n' : SessionId) :
    (s.setSession n x).sessions n' = if n' = n then x else s.sessions n' := update_apply ..

theorem sessions_setCall (call : Call) : (s.setCall c call).sessions = s.sessions := rfl

theorem sessions_goTo (stage : CallStage) : (s.goTo c stage).sessions = s.sessions := rfl

end Device

attribute [grind =] Device.waiterOf

/-! ## Callers and waiters -/

/-- The waiter of the call may be on `dev->waiters`. -/
def CallStage.registered : CallStage → Bool
  | .send | .waitFrame | .wait | .remove _ => true
  | _ => false

/-- The call has registered its waiter and not yet given it up. -/
def CallStage.holds : CallStage → Bool
  | .free _ => true
  | stage => stage.registered

/-- The call is running. -/
def CallStage.active : CallStage → Bool
  | .nextSeq | .addWaiter => true
  | stage => stage.holds

/-- The call has registered its waiter, now or before. -/
def CallStage.past : CallStage → Bool
  | .returned _ _ => true
  | stage => stage.holds

attribute [grind] CallStage.registered CallStage.holds CallStage.active CallStage.past

variable {stage : CallStage}

@[grind →] theorem CallStage.holds_of_registered (h : stage.registered) : stage.holds := by
  cases stage <;> first | rfl | cases h

@[grind →] theorem CallStage.past_of_holds (h : stage.holds) : stage.past := by cases stage <;> first | rfl | cases h

@[grind →] theorem CallStage.active_of_holds (h : stage.holds) : stage.active := by
  cases stage <;> first | rfl | cases h

namespace Device

/-- A request waits on its stack, a submission in the session it is running on. -/
def RefOk (s : Device) (c : CallId) : Prop :=
  match (s.calls c).kind with
  | .request => (s.calls c).waiter = .stack c
  | .submit n => ∃ i, (s.calls c).waiter = .slot n i ∧ (s.sessions n).busy = some c

/-- The call is about to wait for the submission in slot `i`. -/
def AtFrame (s : Device) (c : CallId) (n : SessionId) (i : Bool) : Prop :=
  (s.calls c).stage = .waitFrame ∧ (s.calls c).waiter = .slot n i

theorem refOk_iff {s : Device} {c : CallId} :
    s.RefOk c ↔ ((s.calls c).kind = .request → (s.calls c).waiter = .stack c) ∧
      ∀ n, (s.calls c).kind = .submit n → ∃ i, (s.calls c).waiter = .slot n i ∧ (s.sessions n).busy = some c := by
  rw [RefOk]
  cases (s.calls c).kind <;> simp

/-- Who may use which waiter. -/
structure Links (s : Device) : Prop where
  ref : ∀ c, (s.calls c).stage.active = true → s.RefOk c
  owns : ∀ c, (s.calls c).stage.holds = true → (s.waiterOf c).owner = c ∧ (s.waiterOf c).seq = (s.calls c).seq
  nodup : s.waiters.Nodup
  /-- A waiter on the list has not been completed, and its caller is there. -/
  listed : ∀ w ∈ s.waiters, (s.calls (s.waiter w).owner).waiter = w ∧
    (s.calls (s.waiter w).owner).stage.registered = true ∧ (s.waiter w).done = false ∧
    (s.waiter w).reply = none
  /-- A waiter with a reply has been completed, and its caller is there. -/
  holder : ∀ w p, (s.waiter w).reply = some p → (s.calls (s.waiter w).owner).waiter = w ∧
    (s.calls (s.waiter w).owner).stage.holds = true ∧ (s.waiter w).done = true
  inflight : ∀ n i, (s.sessions n).inflight i = true ↔ ∃ c, s.AtFrame c n i

theorem links_create : create.Links := by
  constructor
  · intro c hact
    cases hact
  · intro c hho
    cases hho
  · exact nodup_nil
  · intro w hw
    cases hw
  · intro w p hp
    cases hp
  · intro n i
    constructor
    · intro hin
      cases hin
    · rintro ⟨c, hst, -⟩
      cases hst
/-- A step moves one call on: the waiters and the packets stay, and so do the other calls with their
sessions. -/
structure Moves (s t : Device) (c : CallId) (call : Call) : Prop where
  calls : t.calls = update s.calls c call
  waiters : t.waiters.Sublist s.waiters
  waiter : t.waiter = s.waiter
  log : t.log = s.log
  received : t.received = s.received
  dispatching : t.dispatching = s.dispatching
  busy : ∀ n c', c' ≠ c → (s.sessions n).busy = some c' → (t.sessions n).busy = some c'

/-- A call that moves on keeps the waiter it has registered, and does not leave it on the list or with a reply in it.
-/
structure MayMove (s t : Device) (c : CallId) (call : Call) : Prop where
  held : call.stage.holds = true → (s.calls c).stage.holds = true
  past : (s.calls c).stage.past = true →
    call.stage.past = true ∧ call.waiter = (s.calls c).waiter ∧ call.seq = (s.calls c).seq
  listed : (s.calls c).stage.registered = true → call.stage.registered = true ∨ ∀ w ∈ t.waiters, (s.waiter w).owner ≠ c
  holder : (s.calls c).stage.holds = true → call.stage.holds = true ∨ (s.waiterOf c).reply = none

variable {s t : Device} {c d : CallId} {call : Call} {w v : WaiterRef} {p : PktId} {n : SessionId}

theorem Moves.call_eq (h : Moves s t c call) (c' : CallId) : t.calls c' = if c' = c then call else s.calls c' := by
  rw [h.calls, update_apply]

theorem Moves.refOk (h : Moves s t c call) (href : s.RefOk c) (hki : call.kind = (s.calls c).kind)
    (hwt : call.waiter = (s.calls c).waiter) (hby : ∀ n, (t.sessions n).busy = (s.sessions n).busy) : t.RefOk c := by
  have := h.call_eq c
  grind [refOk_iff]

namespace Links

section

variable (h : s.Links)
include h

theorem unique (hc : (s.calls c).stage.active)
    (hd : (s.calls d).stage.active) (hsa : (s.calls c).waiter = (s.calls d).waiter) :
    c = d := by
  have href := refOk_iff.1 (h.ref c hc)
  have href' := refOk_iff.1 (h.ref d hd)
  cases hki : (s.calls c).kind <;> cases hki' : (s.calls d).kind <;> grind

/-- Nothing is in flight on a session that no function runs on. -/
theorem inflight_of_free (hfree : (s.sessions n).busy = none) (i : Bool) : (s.sessions n).inflight i = false := by
  by_contra hne
  obtain ⟨c, hst, hsl⟩ := (h.inflight n i).1 (Bool.eq_true_of_not_eq_false hne)
  have href := refOk_iff.1 (h.ref c (by rw [hst]; rfl))
  cases hki : (s.calls c).kind <;> grind

theorem moves (hm : Moves s t c call) (hmay : MayMove s t c call) (href : call.stage.active → t.RefOk c)
    (hinf : ∀ n i, (t.sessions n).inflight i ↔ ∃ c', t.AtFrame c' n i) : t.Links := by
  have hca := hm.call_eq
  have hwt := hm.waiter
  have hpast := hmay.past
  refine ⟨fun c' hact => ?_, fun c' hc' => ?_, h.nodup.sublist hm.waiters, fun w hw => ?_, fun w p hp => ?_, hinf⟩
  · by_cases heq : c' = c
    · subst heq
      exact href (by grind)
    · have := refOk_iff.1 (h.ref c' (by grind))
      have := hm.busy
      grind [refOk_iff]
  · have := h.owns c'
    have := hmay.held
    grind
  · have := h.listed w (hm.waiters.mem hw)
    have := hmay.listed
    grind
  · rw [hwt] at hp ⊢
    have := h.holder w p hp
    have := hmay.holder
    grind

/-- What is in flight stays so when no call enters or leaves `t2sc_wait_frame`. -/
theorem inflight_congr (hm : Moves s t c call) (hsa : ∀ n, (t.sessions n).inflight = (s.sessions n).inflight)
    (hbef : (s.calls c).stage ≠ .waitFrame) (haft : call.stage ≠ .waitFrame) (n : SessionId)
    (i : Bool) : (t.sessions n).inflight i ↔ ∃ c', t.AtFrame c' n i := by
  have hca := hm.call_eq
  rw [hsa, h.inflight n i]
  apply exists_congr
  grind [AtFrame]

theorem congr (hwaite : t.waiters = s.waiters) (hwt : t.waiter = s.waiter)
    (hcs : t.calls = s.calls) (hsess : t.sessions = s.sessions) : t.Links := by
  cases t
  cases hwaite
  cases hwt
  cases hcs
  cases hsess
  exact { h with }

theorem fresh (hst : (s.calls c).stage = .addWaiter) :
    (s.calls c).waiter ∉ s.waiters ∧ (s.waiterOf c).reply = none := by
  have huniq := fun c' => h.unique (c := c') (d := c)
  constructor
  · intro hw
    have := h.listed _ hw
    grind
  · by_contra hne
    obtain ⟨p, hp⟩ := ne_none_iff_exists'.1 hne
    have := h.holder _ p hp
    grind

theorem addWaiter (hst : (s.calls c).stage = .addWaiter) : (s.addWaiter c).Links := by
  obtain ⟨hnew, -⟩ := h.fresh hst
  have hcs c' : (s.addWaiter c).calls c' = if c' = c then { s.calls c with stage := .send } else s.calls c' :=
    update_apply ..
  have hwt w : (s.addWaiter c).waiter w =
      if w = (s.calls c).waiter then ⟨(s.calls c).seq, false, none, c⟩ else s.waiter w := update_apply ..
  have hsess : (s.addWaiter c).sessions = s.sessions := rfl
  refine ⟨fun c' hc' => ?_, fun c' hc' => ?_, ?_, fun w hw => ?_, fun w p hp => ?_, fun n i => ?_⟩
  · have := refOk_iff.1 (h.ref c' (by grind))
    rw [refOk_iff, hcs]
    grind
  · have := h.owns c'
    have := h.unique (c := c') (d := c)
    grind
  · exact nodup_append.2 ⟨h.nodup, nodup_singleton _, by grind⟩
  · rcases mem_append.1 hw with hold | hla
    · have := h.listed w hold
      grind
    · grind
  · have := h.holder w p
    grind
  · rw [hsess, h.inflight n i]
    apply exists_congr
    grind [AtFrame]

theorem erase (w : WaiterRef) : Links { s with waiters := s.waiters.erase w } :=
  ⟨h.ref, h.owns, h.nodup.erase _, fun v hv => h.listed v (mem_of_mem_erase hv), h.holder, h.inflight⟩

/-- A waiter that is off the list is completed, or gives its reply. -/
theorem setWaiter (hoff : w ∉ s.waiters) (done : Bool) (reply : Option PktId)
    (hrpl : reply.isSome → done ∧ (s.calls (s.waiter w).owner).waiter = w ∧ (s.calls (s.waiter w).owner).stage.holds) :
    (s.setWaiter w { s.waiter w with done := done, reply := reply }).Links := by
  have hwt w' : (s.setWaiter w { s.waiter w with done := done, reply := reply }).waiter w' =
      if w' = w then { s.waiter w with done := done, reply := reply } else s.waiter w' := update_apply ..
  refine ⟨h.ref, fun c' hc' => ?_, h.nodup, fun w' hw' => ?_, fun w' p hp => ?_, h.inflight⟩
  · have := h.owns c' hc'
    grind [Device.setWaiter]
  · have := h.listed w' hw'
    grind [Device.setWaiter]
  · have := h.holder w' p
    grind [Device.setWaiter]

/-- A waiter is taken off the list and completed, with a reply or without one. -/
theorem complete (hw : w ∈ s.waiters) (reply : Option PktId) :
    Links ({ s with waiters := s.waiters.erase w }.setWaiter w
      { s.waiter w with reply := reply, done := true }) := by
  obtain ⟨hsa, hst, -⟩ := h.listed w hw
  refine (h.erase w).setWaiter h.nodup.not_mem_erase true reply fun _ => ?_
  exact ⟨rfl, hsa, CallStage.holds_of_registered hst⟩

theorem failNext : s.failNext.Links := by
  rw [Device.failNext]
  cases hls : s.waiters with
  | nil => exact h.congr hls.symm rfl rfl rfl
  | cons w rest =>
    have hw : w ∈ s.waiters := hls ▸ mem_cons_self
    have hdn := h.complete hw none
    rw [hls, erase_cons_head, ← (h.listed w hw).2.2.2] at hdn
    exact hdn

theorem setInflight {i b cur : Bool} {stage : CallStage} (hsl : (s.calls c).waiter = .slot n i)
    (hold : (s.calls c).stage.active) (hfr : b ↔ stage = .waitFrame) (n' : SessionId) (i' : Bool) :
    let t := (s.setSession n { s.sessions n with
      inflight := update (s.sessions n).inflight i b, cur := cur }).goTo c stage
    (t.sessions n').inflight i' ↔ ∃ c', t.AtFrame c' n' i' := by
  intro t
  have hcs c' : t.calls c' = if c' = c then { s.calls c with stage := stage } else s.calls c' := update_apply ..
  have huniq := fun c' => h.unique (c := c') (d := c)
  have hflag : (t.sessions n').inflight i' = if n' = n ∧ i' = i then b else (s.sessions n').inflight i' := by
    simp only [t, sessions_goTo, s.sessions_setSession]
    by_cases heq : n' = n <;> simp [heq, update_apply]
  by_cases heq : n' = n ∧ i' = i
  · constructor
    · exact fun hb => ⟨c, by grind [AtFrame]⟩
    · rintro ⟨c', hat⟩
      grind [AtFrame]
  · rw [hflag, if_neg heq, h.inflight n' i']
    apply exists_congr
    grind [AtFrame]

theorem waitFrame_eq (hst : (s.calls c).stage = .waitFrame) {i : Bool} (hsl : (s.calls c).waiter = .slot n i) :
    s.waitFrame c = (s.setSession n { s.sessions n with
      inflight := update (s.sessions n).inflight i false }).goTo c .wait := by
  have hin : (s.sessions n).inflight i := (h.inflight n i).2 ⟨c, hst, hsl⟩
  simp [Device.waitFrame, hsl, hin]

/-- Nothing is in flight between two functions of a session. -/
theorem collect_eq (hfree : (s.sessions n).busy = none) (i : Bool) : s.collect c n i = s ∧ s.discard c n i = s := by
  simp [Device.collect, Device.discard, h.inflight_of_free hfree i]

theorem kill (n : SessionId) : (s.setSession n { s.sessions n with dead := true }).Links := by
  have hsess := s.sessions_setSession n { s.sessions n with dead := true }
  refine ⟨fun c hc => ?_, h.owns, h.nodup, h.listed, h.holder, fun n' i => ?_⟩
  · have := refOk_iff.1 (h.ref c hc)
    rw [refOk_iff]
    grind [setSession]
  · have hsa : ((s.setSession n { s.sessions n with dead := true }).sessions n').inflight = (s.sessions n').inflight := by
      rw [hsess]
      split <;> simp_all
    rw [hsa]
    exact h.inflight n' i

end

end Links

/-! ## Packets -/

/-- What has happened to a packet. -/
def history (s : Device) (p : PktId) : List PktEvent := s.log.filter fun e => e.pkt = p

/-- The packet is a reply with this sequence number. -/
def Answers (s : Device) (p : PktId) (seq : Nat) : Prop :=
  ∃ pkt, s.received[p]? = some pkt ∧ pkt.isReply = true ∧ pkt.seq = seq

end Device

/-- The ends of a packet: freed at once, handed over and freed again, or taken by the caller, which frees it in
`t2sc_wait_frame`. -/
def Closed (p : PktId) (events : List PktEvent) : Prop :=
  events = [.freed p] ∨ ∃ c, events = [.handed p c, .freed p] ∨
    events = [.handed p c, .taken p c] ∨ events = [.handed p c, .taken p c, .freed p]

namespace Device

structure Packets (s : Device) : Prop where
  /-- A reply in a waiter was handed to it, and is the reply to its request. -/
  held : ∀ w p, (s.waiter w).reply = some p → s.dispatching ≠ some p ∧
    s.history p = [.handed p (s.waiter w).owner] ∧ s.Answers p (s.waiter w).seq
  dispatching : ∀ p, s.dispatching = some p → p < s.received.length ∧ s.history p = []
  unseen : ∀ p, s.received.length ≤ p → s.history p = []
  closed : ∀ p, p < s.received.length → s.dispatching ≠ some p →
    (∀ w, (s.waiter w).reply ≠ some p) → Closed p (s.history p)
  handed : ∀ p c, .handed p c ∈ s.log → (s.calls c).stage.past = true ∧ s.Answers p (s.calls c).seq

theorem packets_create : create.Packets := by
  constructor
  · intro w p hp
    cases hp
  · intro p hp
    cases hp
  · intro p _
    rfl
  · intro p hp
    cases hp
  · intro p c hp
    cases hp

variable {s t : Device} {c : CallId} {call : Call} {w v : WaiterRef} {p : PktId} {n : SessionId}

theorem Answers.lt {seq : Nat} (h : s.Answers p seq) : p < s.received.length := by
  obtain ⟨pkt, hpkt, -⟩ := h
  exact (List.getElem?_eq_some_iff.1 hpkt).1

theorem Answers.mono {seq : Nat} (h : s.Answers p seq) (hrec : s.received <+: t.received) : t.Answers p seq := by
  obtain ⟨pkt, hpkt, hrpl⟩ := h
  obtain ⟨rest, hrs⟩ := hrec
  refine ⟨pkt, ?_, hrpl⟩
  rw [← hrs, getElem?_append_left (List.getElem?_eq_some_iff.1 hpkt).1]
  exact hpkt

namespace Packets

theorem congr (h : s.Packets) (hlog : t.log = s.log) (hrec : t.received = s.received)
    (hdis : t.dispatching = s.dispatching) (hrpl : ∀ w p, (t.waiter w).reply = some p ↔ (s.waiter w).reply = some p)
    (hwt : ∀ w p, (s.waiter w).reply = some p →
      (t.waiter w).owner = (s.waiter w).owner ∧ (t.waiter w).seq = (s.waiter w).seq)
    (hpast : ∀ c, (s.calls c).stage.past → (t.calls c).stage.past ∧ (t.calls c).seq = (s.calls c).seq) : t.Packets := by
  have hhis p : t.history p = s.history p := by rw [history, hlog, history]
  have hans p q : t.Answers p q ↔ s.Answers p q := by rw [Answers, hrec, Answers]
  refine ⟨fun w p hp => ?_, fun p hp => ?_, fun p hp => ?_, fun p hp hplace hfree => ?_, fun p c hp => ?_⟩
  · have := h.held w p
    grind
  · have := h.dispatching p
    grind
  · have := h.unseen p
    grind
  · have := h.closed p
    grind
  · have := h.handed p c
    grind

theorem unique (h : s.Packets) (hl : s.Links) (hw : (s.waiter w).reply = some p) (hv : (s.waiter v).reply = some p) :
    w = v := by
  have := h.held w p hw
  have := h.held v p hv
  have := hl.holder w p hw
  have := hl.holder v p hv
  grind

theorem history_append {es : List PktEvent} (hlog : t.log = s.log ++ es) (hes : ∀ e ∈ es, e.pkt = p) :
    t.history p = s.history p ++ es ∧ ∀ q, q ≠ p → t.history q = s.history q := by
  simp only [history, hlog, filter_append]
  constructor
  · simp_all
  · grind [filter_eq_nil_iff.2]

section

variable (h : s.Packets)
include h

theorem release (hl : s.Links) (hp : (s.waiter w).reply = some p) {es : List PktEvent} (hes : ∀ e ∈ es, e.pkt = p)
    (hnew : ∀ q c, PktEvent.handed q c ∉ es) (hcl : Closed p (.handed p (s.waiter w).owner :: es)) :
    Packets { s.setWaiter w { s.waiter w with reply := none } with log := s.log ++ es } := by
  obtain ⟨t, ht⟩ : ∃ t : Device, t = { s.setWaiter w { s.waiter w with reply := none } with
      log := s.log ++ es } := ⟨_, rfl⟩
  have hlog : t.log = s.log ++ es := by rw [ht]
  have hrec : t.received = s.received := by rw [ht]; rfl
  have hdis : t.dispatching = s.dispatching := by rw [ht]; rfl
  have hcs : t.calls = s.calls := by rw [ht]; rfl
  have hwt w' : t.waiter w' = if w' = w then { s.waiter w with reply := none } else s.waiter w' :=
    ht ▸ update_apply ..
  obtain ⟨hmine, htheirs⟩ := history_append hlog hes
  obtain ⟨hplace, heven, ha⟩ := h.held w p hp
  have hans q n : t.Answers q n ↔ s.Answers q n := by rw [Answers, hrec, Answers]
  have huniq := fun w' => h.unique hl (w := w') (v := w) (p := p)
  rw [← ht]
  refine ⟨fun w' q hq => ?_, fun q hq => ?_, fun q hq => ?_, fun q hq hplace' hfree => ?_, fun q c hq => ?_⟩
  · have := h.held w' q
    grind
  · have := h.dispatching q
    grind
  · have := h.unseen q
    grind
  · have := h.closed q
    grind
  · have := h.handed q c
    grind

theorem hand (hl : s.Links) (hw : w ∈ s.waiters) {pkt : Packet}
    (hrpl : pkt.isReply) (hseq : (s.waiter w).seq = pkt.seq) (hcs : t.calls = s.calls)
    (hdis : t.dispatching = s.dispatching) (hrec : t.received = s.received ++ [pkt])
    (hse : t.waiter w = { s.waiter w with reply := some s.received.length, done := true })
    (hoth : ∀ w', w' ≠ w → t.waiter w' = s.waiter w')
    (hlog : t.log = s.log ++ [.handed s.received.length (s.waiter w).owner]) : t.Packets := by
  obtain ⟨hsa, hst, -, hno⟩ := hl.listed w hw
  have howns := hl.owns _ (CallStage.holds_of_registered hst)
  obtain ⟨hmine, htheirs⟩ := history_append hlog (p := s.received.length) (by simp [PktEvent.pkt])
  rw [h.unseen _ (le_refl _), nil_append] at hmine
  have hans q n (ha : s.Answers q n) : t.Answers q n ∧ q < s.received.length := ⟨ha.mono ⟨[pkt], hrec.symm⟩, ha.lt⟩
  have hnew : t.Answers s.received.length (s.waiter w).seq := by
    refine ⟨pkt, ?_, hrpl, hseq.symm⟩
    rw [hrec, getElem?_concat_length]
  have hplc q := h.dispatching q
  refine ⟨fun w' q hq => ?_, fun q hq => ?_, fun q hq => ?_, fun q hq hplace hfree => ?_, fun q c hq => ?_⟩
  · by_cases heq : w' = w
    · grind
    · rw [hoth w' heq] at hq ⊢
      have := h.held w' q hq
      grind
  · grind
  · have := h.unseen q
    grind
  · have hqp : q ≠ s.received.length := by
      rintro rfl
      exact hfree w (by rw [hse])
    rw [htheirs q hqp]
    refine h.closed q (by grind) (by grind) fun w' hw' => hfree w' ?_
    rw [hoth w' (by grind)]
    exact hw'
  · have := h.handed q c
    grind

theorem keep (hno : s.dispatching = none) (pkt : Packet) :
    Packets { s with received := s.received ++ [pkt], dispatching := some s.received.length } := by
  have hans q n (ha : s.Answers q n) :
      Answers { s with received := s.received ++ [pkt], dispatching := some s.received.length } q n ∧
        q < s.received.length := ⟨ha.mono ⟨[pkt], rfl⟩, ha.lt⟩
  have hhis q : history { s with received := s.received ++ [pkt], dispatching := some s.received.length } q =
    s.history q := rfl
  refine ⟨fun w q hq => ?_, fun q hq => ?_, fun q hq => ?_, fun q hq hplace hfree => ?_, fun q c hq => ?_⟩
  · have := h.held w q hq
    grind
  · have := h.unseen q
    grind
  · have := h.unseen q
    grind
  · have := h.closed q
    grind
  · have := h.handed q c hq
    grind

/-- The receive thread frees a packet that no waiter has got. -/
theorem freePacket (hp : s.dispatching = some p) : Packets { s.record (.freed p) with dispatching := none } := by
  obtain ⟨hmine, htheirs⟩ := history_append (s := s)
    (t := { s.record (.freed p) with dispatching := none }) rfl (p := p) (by simp [PktEvent.pkt])
  have hplc := h.dispatching p hp
  rw [hplc.2, nil_append] at hmine
  refine ⟨fun w q hq => ?_, nofun, fun q hq => ?_, fun q hq _ hfree => ?_, fun q c hq => ?_⟩
  · have := h.held w q hq
    exact ⟨nofun, by rw [htheirs q (by grind)]; exact this.2⟩
  · rw [htheirs q (by grind [record])]
    exact h.unseen q hq
  · by_cases hqp : q = p
    · rw [hqp, hmine]
      exact .inl rfl
    · rw [htheirs q hqp]
      exact h.closed q hq (by grind) hfree
  · rcases mem_append.1 hq with hold | hla
    · exact h.handed q c hold
    · cases mem_singleton.1 hla

end

end Packets

/-! ## What the callers get -/

/-- A call returns an error, or the reply that was handed to it: a request the packet itself, a
submission the status in it. -/
def Outcome (s : Device) (c : CallId) (status : Int) (reply : Option PktId) : Prop :=
  match reply with
  | none => status ≠ 0
  | some p => .handed p c ∈ s.log ∧ match (s.calls c).kind with
      | .request => status = 0
      | .submit _ => s.received[p]?.map Packet.frameStatus = some status

/-- A call that gives up has an error to return, a call that has returned has its outcome, and only a
submission waits for a frame. -/
def StageOk (s : Device) (c : CallId) : Prop :=
  match (s.calls c).stage with
  | .remove status | .free status => status ≠ 0
  | .returned status reply => s.Outcome c status reply
  | .waitFrame => ∃ n i, (s.calls c).waiter = .slot n i
  | _ => True

structure Inv (s : Device) : Prop where
  links : s.Links
  packets : s.Packets
  outcomes : ∀ c, s.StageOk c

theorem inv_create : create.Inv := ⟨links_create, packets_create, fun _ => trivial⟩

theorem Outcome.mono {status : Int} {reply : Option PktId} (h : s.Outcome c status reply) (hlog : ∀ e ∈ s.log, e ∈ t.log)
    (hrec : s.received <+: t.received) (hki : (t.calls c).kind = (s.calls c).kind) :
    t.Outcome c status reply := by
  cases reply with
  | none => exact h
  | some p =>
    refine ⟨hlog _ h.1, ?_⟩
    have hstat := h.2
    rw [hki]
    cases hk : (s.calls c).kind with
    | request => simpa only [hk] using hstat
    | submit n =>
      simp only [hk] at hstat ⊢
      obtain ⟨pkt, hpkt, hsa⟩ := map_eq_some_iff.1 hstat
      obtain ⟨rest, hrs⟩ := hrec
      rw [← hrs, getElem?_append_left (List.getElem?_eq_some_iff.1 hpkt).1, hpkt]
      exact congrArg some hsa

theorem StageOk.mono (h : s.StageOk c) (hlog : ∀ e ∈ s.log, e ∈ t.log) (hrec : s.received <+: t.received)
    (hca : t.calls c = s.calls c) : t.StageOk c := by
  rw [StageOk] at h ⊢
  rw [hca]
  cases hst : (s.calls c).stage with
  | returned status reply =>
    simp only [hst] at h ⊢
    exact h.mono hlog hrec (congrArg Call.kind hca)
  | _ =>
    simp only [hst] at h ⊢
    try exact h

theorem next_remove (hnx : s.next (.remove c) = some t) :
    ∃ status, (s.calls c).stage = .remove status ∧ s.failing = false ∧ s.remove c status = t := by
  rw [next] at hnx
  cases hst : (s.calls c).stage <;> simp_all

theorem next_free (hnx : s.next (.free c) = some t) :
    ∃ status, (s.calls c).stage = .free status ∧ s.free c status = t := by
  rw [next] at hnx
  cases hst : (s.calls c).stage <;> simp_all

theorem Links.finish_moves (h : s.Links) (hact : (s.calls c).stage.active) (status : Int) (reply : Option PktId) :
    Moves s (s.finish c status reply) c { s.calls c with stage := .returned status reply } ∧
      (s.finish c status reply).waiters = s.waiters ∧
      ∀ n, ((s.finish c status reply).sessions n).inflight = (s.sessions n).inflight := by
  rw [Device.finish]
  cases hki : (s.calls c).kind with
  | request => exact ⟨⟨rfl, .refl _, rfl, rfl, rfl, rfl, fun _ _ _ => id⟩, rfl, fun _ => rfl⟩
  | submit n =>
    obtain ⟨i, -, hby⟩ := (refOk_iff.1 (h.ref c hact)).2 n hki
    have hsess := s.sessions_setSession n { s.sessions n with busy := none }
    refine ⟨⟨rfl, .refl _, rfl, rfl, rfl, rfl, fun n' c' hc' hby' => ?_⟩, rfl, fun n' => ?_⟩
    · rw [sessions_goTo, hsess, if_neg (by grind)]
      exact hby'
    · rw [sessions_goTo, hsess]
      split <;> simp_all

namespace Inv

theorem of_moves (hl : s.Links) (hp : s.Packets) (ho : ∀ c', c' ≠ c → s.StageOk c') (hm : Moves s t c call)
    (hmay : MayMove s t c call) (href : call.stage.active → t.RefOk c)
    (hinf : ∀ n i, (t.sessions n).inflight i ↔ ∃ c', t.AtFrame c' n i) (hst : t.StageOk c) : t.Inv := by
  have hca := hm.call_eq
  have hpast := hmay.past
  refine ⟨hl.moves hm hmay href hinf, hp.congr hm.log hm.received hm.dispatching (by simp [hm.waiter])
    (by simp [hm.waiter]) (by grind), fun c' => ?_⟩
  by_cases heq : c' = c
  · exact heq ▸ hst
  · exact (ho c' heq).mono (fun e he => hm.log ▸ he) (hm.received ▸ prefix_rfl) (by rw [hca, if_neg heq])

theorem start (h : s.Inv) (hm : Moves s t c call) (hbef : (s.calls c).stage.past = false)
    (haft : call.stage.holds = false) (hsa : ∀ n, (t.sessions n).inflight = (s.sessions n).inflight)
    (href : call.stage.active → t.RefOk c) (hst : t.StageOk c) : t.Inv :=
  of_moves h.links h.packets (fun c' _ => h.outcomes c') hm ⟨by grind, by grind, by grind, by grind⟩ href
    (h.links.inflight_congr hm hsa (by grind) (by grind)) hst

variable {stage : CallStage}

theorem goOn (h : s.Inv) (hm : Moves s t c { s.calls c with stage := stage })
    (hold : (s.calls c).stage.registered) (hnew : stage.registered)
    (hby : ∀ n, (t.sessions n).busy = (s.sessions n).busy)
    (hinf : ∀ n i, (t.sessions n).inflight i ↔ ∃ c', t.AtFrame c' n i)
    (hstat : ∀ status, stage = .remove status → status ≠ 0)
    (hsl : stage = .waitFrame → ∃ n i, (s.calls c).waiter = .slot n i) : t.Inv := by
  have hse := hm.call_eq c
  refine of_moves h.links h.packets (fun c' _ => h.outcomes c') hm ⟨by grind, by grind, by grind, by grind⟩
    (fun _ => hm.refOk (h.links.ref c (by grind)) rfl rfl hby) hinf ?_
  grind [StageOk]

theorem goTo (h : s.Inv) (hold : (s.calls c).stage.registered) (hbef : (s.calls c).stage ≠ .waitFrame)
    (hnew : stage.registered) (haft : stage ≠ .waitFrame) (hstat : ∀ status, stage = .remove status → status ≠ 0) :
    (s.goTo c stage).Inv := by
  have hm : Moves s (s.goTo c stage) c { s.calls c with stage := stage } :=
    ⟨rfl, .refl _, rfl, rfl, rfl, rfl, fun _ _ _ => id⟩
  exact h.goOn hm hold hnew (fun _ => rfl) (h.links.inflight_congr hm (fun _ => rfl) hbef haft) hstat
    fun hfr => absurd hfr haft

theorem setInflight (h : s.Inv) {i b cur : Bool} (hsl : (s.calls c).waiter = .slot n i)
    (hold : (s.calls c).stage.registered) (hnew : stage.registered) (hfr : b ↔ stage = .waitFrame)
    (hstat : ∀ status, stage = .remove status → status ≠ 0) :
    ((s.setSession n { s.sessions n with
      inflight := update (s.sessions n).inflight i b, cur := cur }).goTo c stage).Inv := by
  have hsess := s.sessions_setSession n { s.sessions n with
    inflight := update (s.sessions n).inflight i b, cur := cur }
  have hby n' : (((s.setSession n { s.sessions n with
      inflight := update (s.sessions n).inflight i b, cur := cur }).goTo c stage).sessions n').busy =
      (s.sessions n').busy := by
    rw [sessions_goTo, hsess]
    split <;> simp_all
  exact h.goOn ⟨rfl, .refl _, rfl, rfl, rfl, rfl, fun n' c' _ => (hby n').trans⟩ hold hnew hby
    (h.links.setInflight hsl (by grind) hfr) hstat fun _ => ⟨n, i, hsl⟩

variable {status : Int}

theorem finish (hl : s.Links) (hp : s.Packets) (ho : ∀ c', c' ≠ c → s.StageOk c') (hho : (s.calls c).stage.holds)
    (hfr : (s.calls c).stage ≠ .waitFrame) (hlst : ∀ w ∈ s.waiters, (s.waiter w).owner ≠ c)
    (hno : (s.waiterOf c).reply = none) {reply : Option PktId} (hout : s.Outcome c status reply) :
    (s.finish c status reply).Inv := by
  obtain ⟨hm, hwaite, hsa⟩ := hl.finish_moves (CallStage.active_of_holds hho) status reply
  have hse := hm.call_eq c
  rw [if_pos rfl] at hse
  refine of_moves hl hp ho hm ⟨nofun, by grind, fun _ => .inr (hwaite ▸ hlst), fun _ => .inr hno⟩ nofun
    (hl.inflight_congr hm hsa hfr nofun) ?_
  rw [StageOk, hse]
  exact hout.mono (fun e he => hm.log ▸ he) (hm.received ▸ prefix_rfl) (by rw [hse])

section

variable (h : s.Inv)
include h

theorem leave (hho : (s.calls c).stage.holds) (hfr : (s.calls c).stage ≠ .waitFrame)
    (hlst : ∀ w ∈ s.waiters, (s.waiter w).owner ≠ c) (hp : (s.waiterOf c).reply = some p) (es : List PktEvent)
    (hes : ∀ e ∈ es, e.pkt = p) (hnew : ∀ q c, PktEvent.handed q c ∉ es) (hcl : Closed p (.handed p c :: es))
    (status : Int) (reply : Option PktId) (hout : s.Outcome c status reply) :
    (Device.finish { s.setWaiter (s.calls c).waiter { s.waiterOf c with reply := none } with
      log := s.log ++ es } c status reply).Inv := by
  have hkeep : ∀ e ∈ s.log, e ∈ s.log ++ es := fun e he => mem_append_left _ he
  apply finish
  · refine Links.congr (h.links.setWaiter (fun hw => ?_) (s.waiterOf c).done none nofun) rfl rfl rfl rfl
    exact hlst _ hw (h.links.owns c hho).1
  · apply h.packets.release h.links hp hes hnew
    rw [show (s.waiter (s.calls c).waiter).owner = c from (h.links.owns c hho).1]
    exact hcl
  · exact fun c' _ => (h.outcomes c').mono hkeep prefix_rfl rfl
  · exact hho
  · exact hfr
  · intro w hw
    have hne := hlst w hw
    change (update s.waiter (s.calls c).waiter { s.waiterOf c with reply := none } w).owner ≠ c
    grind
  · exact congrArg Waiter.reply (s.waiter_setWaiter_self _ _)
  · exact hout.mono hkeep prefix_rfl rfl

theorem handed_of_reply (hho : (s.calls c).stage.holds) (hp : (s.waiterOf c).reply = some p) : .handed p c ∈ s.log := by
  have hmem : PktEvent.handed p (s.waiterOf c).owner ∈ s.history p := by
    rw [(h.packets.held _ p hp).2.1]
    exact mem_singleton_self _
  rw [(h.links.owns c hho).1] at hmem
  exact (mem_filter.1 hmem).1

theorem request (hdl : s.At c .idle) (allocated : Bool) : (s.request c allocated).Inv := by
  refine h.start (c := c) ⟨rfl, .refl _, rfl, rfl, rfl, rfl, fun _ _ _ => id⟩ (by grind [At]) ?_ (fun _ => rfl)
    (fun _ => ?_) ?_
  · cases allocated <;> rfl
  · rw [refOk_iff, Device.request, calls_setCall_self]
    grind
  · rw [StageOk, Device.request, calls_setCall_self]
    cases allocated with
    | true => trivial
    | false => exact show -ENOMEM ≠ 0 by decide

theorem submit (hdl : s.At c .idle) (hfree : (s.sessions n).busy = none) : (s.submit c n).Inv := by
  rw [Device.submit]
  by_cases hdead : (s.sessions n).dead
  · rw [if_pos hdead]
    refine h.start (c := c) ⟨rfl, .refl _, rfl, rfl, rfl, rfl, fun _ _ _ => id⟩ (by grind [At]) rfl
      (fun _ => rfl) nofun ?_
    rw [StageOk, calls_setCall_self]
    exact show -ENODEV ≠ 0 by decide
  rw [if_neg hdead]
  have hsess := s.sessions_setSession n { s.sessions n with busy := some c }
  refine h.start (c := c) ⟨rfl, .refl _, rfl, rfl, rfl, rfl, fun n' c' _ hby => ?_⟩ (by grind [At]) rfl
    (fun n' => ?_) (fun _ => ?_) ?_
  · rw [sessions_setCall, hsess, if_neg (by grind)]
    exact hby
  · rw [sessions_setCall, hsess]
    split <;> simp_all
  · rw [refOk_iff, calls_setCall_self, sessions_setCall]
    simp [hsess]
  · rw [StageOk, calls_setCall_self]
    trivial

theorem nextSeq (hst : s.At c .nextSeq) : (s.nextSeq c).Inv := by
  have hm : Moves s (s.nextSeq c) c { s.calls c with seq := (s.seq + 1) % 2 ^ 32, stage := .addWaiter } :=
    ⟨rfl, .refl _, rfl, rfl, rfl, rfl, fun _ _ _ => id⟩
  refine h.start hm (by grind [At]) rfl (fun _ => rfl)
    (fun _ => hm.refOk (h.links.ref c (by grind [At])) rfl rfl fun _ => rfl) ?_
  rw [StageOk, Device.nextSeq, calls_setCall_self]
  trivial

theorem addWaiter (hst : s.At c .addWaiter) : (s.addWaiter c).Inv := by
  have hno := (h.links.fresh hst).2
  have hcs c' : (s.addWaiter c).calls c' = if c' = c then { s.calls c with stage := .send } else s.calls c' :=
    update_apply ..
  have hwt w : (s.addWaiter c).waiter w =
      if w = (s.calls c).waiter then ⟨(s.calls c).seq, false, none, c⟩ else s.waiter w := update_apply ..
  refine ⟨h.links.addWaiter hst, h.packets.congr rfl rfl rfl (by grind) (by grind) (by grind), fun c' => ?_⟩
  by_cases heq : c' = c
  · rw [StageOk, hcs, if_pos heq]
    trivial
  · exact (h.outcomes c').mono (fun _ he => he) prefix_rfl (by rw [hcs, if_neg heq])

theorem send (hst : s.At c .send) (ret : Int) : (s.send c ret).Inv := by
  have hold : (s.calls c).stage.registered := by grind [At]
  have hoff : (s.calls c).stage ≠ .waitFrame := by grind [At]
  rw [Device.send]
  by_cases hret : ret ≠ 0
  · rw [if_pos hret]
    exact h.goTo hold hoff rfl nofun (by grind)
  rw [if_neg hret]
  cases hsl : (s.calls c).waiter with
  | stack c' => exact h.goTo hold hoff rfl nofun nofun
  | slot n i => exact h.setInflight hsl hold rfl ⟨fun _ => rfl, fun _ => rfl⟩ nofun

theorem waitFrame (hst : s.At c .waitFrame) : (s.waitFrame c).Inv := by
  cases hsl : (s.calls c).waiter with
  | stack c' =>
    simp only [Device.waitFrame, hsl]
    exact h
  | slot n i =>
    rw [h.links.waitFrame_eq hst hsl]
    exact h.setInflight hsl (by grind [At]) rfl ⟨nofun, nofun⟩ nofun

theorem timeout (hst : s.At c .wait) : (s.goTo c (.remove (-ETIMEDOUT))).Inv := by
  refine h.goTo (by grind [At]) (by grind [At]) rfl nofun ?_
  rintro status ⟨⟩
  exact show -ETIMEDOUT ≠ 0 by decide

/-- A call that gives up has an error to return. -/
theorem status_ne (hst : (s.calls c).stage = .remove status ∨ (s.calls c).stage = .free status) : status ≠ 0 := by
  have hok := h.outcomes c
  rw [StageOk] at hok
  rcases hst with hst | hst <;> simpa only [hst] using hok

theorem remove (hst : (s.calls c).stage = .remove status) : (s.remove c status).Inv := by
  have hm : Moves s (s.remove c status) c { s.calls c with stage := .free status } :=
    ⟨rfl, erase_sublist, rfl, rfl, rfl, rfl, fun _ _ _ => id⟩
  have hse := hm.call_eq c
  rw [if_pos rfl] at hse
  refine of_moves h.links h.packets (fun c' _ => h.outcomes c') hm
    ⟨by grind, by grind, fun _ => .inr fun w hw => ?_, fun _ => .inl rfl⟩
    (fun _ => hm.refOk (h.links.ref c (by grind)) rfl rfl fun _ => rfl)
    (h.links.inflight_congr hm (fun _ => rfl) (by grind) nofun) ?_
  · -- the waiter of the call has left the list
    obtain ⟨hne, hlst⟩ := h.links.nodup.mem_erase_iff.1 hw
    have := (h.links.listed w hlst).1
    grind
  · rw [StageOk, hse]
    exact h.status_ne (.inl hst)

theorem free (hst : (s.calls c).stage = .free status) : (s.free c status).Inv := by
  have hok := h.status_ne (.inr hst)
  have hho : (s.calls c).stage.holds := by grind
  have hlst : ∀ w ∈ s.waiters, (s.waiter w).owner ≠ c := by
    intro w hw
    have := h.links.listed w hw
    grind
  rw [Device.free]
  cases hrpl : (s.waiterOf c).reply with
  | none => exact finish h.links h.packets (fun c' _ => h.outcomes c') hho (by grind) hlst hrpl hok
  | some p =>
    exact h.leave hho (by grind) hlst hrpl [.freed p] (by simp [PktEvent.pkt]) (by simp) (.inr ⟨c, .inl rfl⟩) _ _ hok

theorem wake (hst : s.At c .wait) (hdn : (s.waiterOf c).done) : (s.wake c).Inv := by
  have hho : (s.calls c).stage.holds := by grind [At]
  have hfr : (s.calls c).stage ≠ .waitFrame := by grind [At]
  -- a completed waiter is off the list
  have hlst : ∀ w ∈ s.waiters, (s.waiter w).owner ≠ c := by
    intro w hw
    have := h.links.listed w hw
    grind
  rw [Device.wake]
  cases hrpl : (s.waiterOf c).reply with
  | none =>
    exact finish h.links h.packets (fun c' _ => h.outcomes c') hho hfr hlst hrpl
      (show -ENODEV ≠ 0 by decide)
  | some p =>
    have hhan := h.handed_of_reply hho hrpl
    cases hki : (s.calls c).kind with
    | request =>
      refine h.leave hho hfr hlst hrpl [.taken p c] (by simp [PktEvent.pkt]) (by simp)
        (.inr ⟨c, .inr (.inl rfl)⟩) _ _ ⟨hhan, ?_⟩
      simp only [hki]
    | submit n =>
      obtain ⟨pkt, hpkt, -⟩ := (h.packets.held _ p hrpl).2.2
      have hleave := h.leave hho hfr hlst hrpl [.taken p c, .freed p] (by simp [PktEvent.pkt]) (by simp)
        (.inr ⟨c, .inr (.inr rfl)⟩) pkt.frameStatus (some p) ⟨hhan, by simp [hki, hpkt]⟩
      simp only [hpkt, map_some, getD_some, record, append_assoc]
      exact hleave

theorem of_packets (hl : t.Links) (hp : t.Packets) (hcs : t.calls = s.calls)
    (hlog : ∀ e ∈ s.log, e ∈ t.log) (hrec : s.received <+: t.received) : t.Inv :=
  ⟨hl, hp, fun c => (h.outcomes c).mono hlog hrec (congrFun hcs c)⟩

theorem keep (hno : s.dispatching = none) (pkt : Packet) :
    Inv { s with received := s.received ++ [pkt], dispatching := some s.received.length } :=
  h.of_packets (h.links.congr rfl rfl rfl rfl) (h.packets.keep hno pkt) rfl (fun _ he => he)
    ⟨[pkt], rfl⟩

theorem dispatch (hno : s.dispatching = none) (pkt : Packet) : (s.dispatch pkt).Inv := by
  rw [Device.dispatch]
  by_cases hrpl : pkt.isReply
  · rw [if_pos hrpl]
    cases hfd : s.waiters.find? fun w => (s.waiter w).seq = pkt.seq with
    | none => exact h.keep hno pkt
    | some w =>
      have hw : w ∈ s.waiters := mem_of_find?_eq_some hfd
      have hseq : (s.waiter w).seq = pkt.seq := by simpa using find?_some hfd
      refine h.of_packets ?_ ?_ rfl (fun e he => mem_append_left _ he) ⟨[pkt], rfl⟩
      · exact (h.links.complete hw (some s.received.length)).congr rfl rfl rfl rfl
      · exact h.packets.hand h.links hw hrpl hseq rfl rfl rfl (update_self ..) (fun w' hw' => update_of_ne hw' ..) rfl
  · rw [if_neg hrpl]
    exact h.keep hno pkt

theorem freePacket (hp : s.dispatching = some p) : Inv { s.record (.freed p) with dispatching := none } :=
  h.of_packets (h.links.congr rfl rfl rfl rfl) (h.packets.freePacket hp) rfl
    (fun _ he => mem_append_left _ he) prefix_rfl

theorem failNext : s.failNext.Inv := by
  have hlin := h.links.failNext
  rw [Device.failNext] at hlin ⊢
  cases hls : s.waiters with
  | nil =>
    simp only [hls] at hlin ⊢
    refine h.of_packets hlin ?_ rfl (fun _ he => he) prefix_rfl
    exact h.packets.congr rfl rfl rfl (fun _ _ => Iff.rfl) (fun _ _ _ => ⟨rfl, rfl⟩)
      fun _ hpast => ⟨hpast, rfl⟩
  | cons w rest =>
    simp only [hls] at hlin ⊢
    refine h.of_packets hlin ?_ rfl (fun _ he => he) prefix_rfl
    -- the flag `done` is all that changes
    have hwt w' : (Device.setWaiter { s with waiters := rest } w { s.waiter w with done := true }).waiter w' =
        if w' = w then { s.waiter w with done := true } else s.waiter w' := update_apply ..
    exact h.packets.congr rfl rfl rfl (by grind) (by grind) fun _ hpast => ⟨hpast, rfl⟩

theorem of_same (hl : t.Links) (hcs : t.calls = s.calls) (hwt : t.waiter = s.waiter) (hlog : t.log = s.log)
    (hrec : t.received = s.received) (hdis : t.dispatching = s.dispatching) : t.Inv :=
  h.of_packets hl (h.packets.congr hlog hrec hdis (by simp [hwt]) (by simp [hwt]) (by simp [hcs]))
    hcs (fun _ he => hlog ▸ he) (hrec ▸ prefix_rfl)

theorem next {a : DeviceAction} (hnx : s.next a = some t) : t.Inv := by
  cases a
  case remove c =>
    obtain ⟨status, hst, -, rfl⟩ := next_remove hnx
    exact h.remove hst
  case free c =>
    obtain ⟨status, hst, rfl⟩ := next_free hnx
    exact h.free hst
  all_goals simp only [Device.next, ite_none_right_eq_some, Option.some.injEq] at hnx
  case request c allocated =>
    obtain ⟨hdl, rfl⟩ := hnx
    exact h.request hdl allocated
  case submit c n =>
    obtain ⟨⟨hdl, hfree⟩, rfl⟩ := hnx
    exact h.submit hdl hfree
  case collect c n i =>
    obtain ⟨⟨-, hfree⟩, rfl⟩ := hnx
    rw [(h.links.collect_eq hfree i).1]
    exact h
  case discard c n i =>
    obtain ⟨⟨-, hfree, -⟩, rfl⟩ := hnx
    rw [(h.links.collect_eq hfree i).2]
    exact h
  case kill n =>
    subst hnx
    exact h.of_same (h.links.kill n) rfl rfl rfl rfl rfl
  case nextSeq c =>
    obtain ⟨⟨hst, -⟩, rfl⟩ := hnx
    exact h.nextSeq hst
  case addWaiter c =>
    obtain ⟨⟨hst, -⟩, rfl⟩ := hnx
    exact h.addWaiter hst
  case send c ret =>
    obtain ⟨hst, rfl⟩ := hnx
    exact h.send hst ret
  case waitFrame c =>
    obtain ⟨hst, rfl⟩ := hnx
    exact h.waitFrame hst
  case wake c =>
    obtain ⟨⟨hst, hdn⟩, rfl⟩ := hnx
    exact h.wake hst hdn
  case timeout c =>
    obtain ⟨⟨hst, -⟩, rfl⟩ := hnx
    exact h.timeout hst
  case dispatch pkt =>
    obtain ⟨⟨hno, -⟩, rfl⟩ := hnx
    exact h.dispatch hno pkt
  case freePacket =>
    cases hp : s.dispatching with
    | none => simp [hp] at hnx
    | some p =>
      simp only [hp, Option.some.injEq] at hnx
      subst hnx
      exact h.freePacket hp
  case failWaiters =>
    obtain ⟨-, rfl⟩ := hnx
    exact h.of_same (h.links.congr rfl rfl rfl rfl) rfl rfl rfl rfl rfl
  case failNext =>
    obtain ⟨-, rfl⟩ := hnx
    exact h.failNext

end

end Inv

theorem inv_of_reachable (h : requestMachine.Reachable s) : s.Inv := by
  apply h.invariant (I := Inv)
  · rintro s rfl
    exact inv_create
  · intro s a t _ _ hinv hnx
    exact hinv.next hnx

/-! ## The calls come to an end -/

end Device

/-- The steps a call has before it. -/
def CallStage.left : CallStage → Nat
  | .nextSeq => 7
  | .addWaiter => 6
  | .send => 5
  | .waitFrame => 4
  | .wait => 3
  | .remove _ => 2
  | .free _ => 1
  | .idle | .returned _ _ => 0

def DeviceAction.stepOf : DeviceAction → Option CallId
  | .nextSeq c | .addWaiter c | .send c _ | .waitFrame c | .wake c | .timeout c | .remove c
  | .free c => some c
  | _ => none

namespace Device

variable (s : Device) (c : CallId)

/-- A running call can make a step whenever `t2sc_fail_waiters` does not hold the lock, each step brings it closer to
its end, and the lock is let go. -/
structure Progress : Prop where
  step : ∀ c, (s.calls c).stage.active = true → s.failing = false →
    ∃ a t, DeviceAction.stepOf a = some c ∧ s.next a = some t
  closer : ∀ a c t, DeviceAction.stepOf a = some c → s.next a = some t → (t.calls c).stage.left < (s.calls c).stage.left
  unlocks : s.failing = true → ∃ t, s.next .failNext = some t ∧
    (t.failing = false ∨ t.waiters.length < s.waiters.length)

theorem step_of_active {s : Device} {c : CallId} (hact : (s.calls c).stage.active)
    (hlo : s.failing = false) : ∃ a t, DeviceAction.stepOf a = some c ∧ s.next a = some t := by
  cases hst : (s.calls c).stage with
  | idle | returned =>
    rw [hst] at hact
    cases hact
  | nextSeq => exact ⟨.nextSeq c, _, rfl, if_pos ⟨hst, hlo⟩⟩
  | addWaiter => exact ⟨.addWaiter c, _, rfl, if_pos ⟨hst, hlo⟩⟩
  | send => exact ⟨.send c 0, _, rfl, if_pos hst⟩
  | waitFrame => exact ⟨.waitFrame c, _, rfl, if_pos hst⟩
  | wait =>
    by_cases hdn : (s.waiterOf c).done
    · exact ⟨.wake c, _, rfl, if_pos ⟨hst, hdn⟩⟩
    · exact ⟨.timeout c, _, rfl, if_pos ⟨hst, Bool.eq_false_iff.2 hdn⟩⟩
  | remove status =>
    refine ⟨.remove c, s.remove c status, rfl, ?_⟩
    simp only [next, hst]
    exact if_pos hlo
  | free status =>
    refine ⟨.free c, s.free c status, rfl, ?_⟩
    simp only [next, hst]

theorem left_finish (status : Int) (reply : Option PktId) :
    ((s.finish c status reply).calls c).stage.left = 0 := by
  unfold finish
  cases (s.calls c).kind <;> simp [CallStage.left]

theorem left_wake : ((s.wake c).calls c).stage.left = 0 := by
  unfold wake
  cases (s.waiterOf c).reply with
  | none => exact s.left_finish c _ _
  | some p =>
    cases (s.calls c).kind with
    | request | submit _ => exact left_finish _ c _ _

theorem left_free (status : Int) : ((s.free c status).calls c).stage.left = 0 := by
  unfold free
  cases (s.waiterOf c).reply with
  | none => exact s.left_finish c _ _
  | some p => exact left_finish _ c _ _

theorem left_send (ret : Int) : ((s.send c ret).calls c).stage.left < 5 := by
  unfold send
  by_cases hret : ret ≠ 0
  · rw [if_pos hret, calls_goTo_self]
    exact show 2 < 5 by decide
  rw [if_neg hret]
  cases (s.calls c).waiter with
  | stack _ | slot _ _ =>
    simp only [calls_goTo_self]
    decide

theorem Inv.closer {s t : Device} (h : s.Inv) {a : DeviceAction} {c : CallId}
    (ha : a.stepOf = some c) (hnx : s.next a = some t) :
    (t.calls c).stage.left < (s.calls c).stage.left := by
  cases a <;> cases ha
  case remove =>
    obtain ⟨status, hst, -, rfl⟩ := next_remove hnx
    rw [hst, Device.remove, calls_goTo_self]
    exact lt_succ_self 1
  case free =>
    obtain ⟨status, hst, rfl⟩ := next_free hnx
    rw [hst, s.left_free c status]
    exact zero_lt_one
  all_goals simp only [Device.next, ite_none_right_eq_some, Option.some.injEq] at hnx
  case nextSeq =>
    obtain ⟨⟨(hst : (s.calls c).stage = _), -⟩, rfl⟩ := hnx
    rw [hst, Device.nextSeq, calls_setCall_self]
    exact lt_succ_self 6
  case addWaiter =>
    obtain ⟨⟨(hst : (s.calls c).stage = _), -⟩, rfl⟩ := hnx
    rw [hst, Device.addWaiter, calls_goTo_self]
    exact lt_succ_self 5
  case send ret =>
    obtain ⟨(hst : (s.calls c).stage = _), rfl⟩ := hnx
    rw [hst]
    exact s.left_send c ret
  case waitFrame =>
    obtain ⟨(hst : (s.calls c).stage = _), rfl⟩ := hnx
    have hok := h.outcomes c
    rw [StageOk] at hok
    simp only [hst] at hok
    obtain ⟨n, i, hsl⟩ := hok
    rw [h.links.waitFrame_eq hst hsl, hst, calls_goTo_self]
    exact lt_succ_self 3
  case wake =>
    obtain ⟨⟨(hst : (s.calls c).stage = _), -⟩, rfl⟩ := hnx
    rw [hst, s.left_wake c]
    exact succ_pos 2
  case timeout =>
    obtain ⟨⟨(hst : (s.calls c).stage = _), -⟩, rfl⟩ := hnx
    rw [hst, calls_goTo_self]
    exact lt_succ_self 2

theorem Inv.progress {s : Device} (h : s.Inv) : s.Progress := by
  refine ⟨fun c => step_of_active, fun a c t => h.closer, ?_⟩
  intro hlo
  refine ⟨s.failNext, if_pos hlo, ?_⟩
  unfold Device.failNext
  cases hls : s.waiters with
  | nil => exact .inl rfl
  | cons w rest =>
    right
    exact lt_succ_self _

/-! ## Requests and replies -/

end Device

def PktEvent.isHanded : PktEvent → Bool
  | .handed _ _ => true
  | _ => false

def PktEvent.isFreed : PktEvent → Bool
  | .freed _ => true
  | _ => false

namespace Device

/-- The packet was handed to one waiter at most and freed once at most. If the receive thread is done with it, it was
freed or handed over; and it is in the waiter of a running call or has come to an end. -/
structure PacketOk (s : Device) (p : PktId) : Prop where
  once : (s.history p).countP PktEvent.isHanded ≤ 1
  freed : (s.history p).countP PktEvent.isFreed ≤ 1
  otherwise : p < s.received.length → s.dispatching ≠ some p →
    (s.history p).countP PktEvent.isHanded = 0 → (s.history p).countP PktEvent.isFreed = 1
  kept : p < s.received.length → s.dispatching ≠ some p → Closed p (s.history p) ∨
    ∃ c, (s.calls c).stage.holds = true ∧ (s.waiterOf c).reply = some p

theorem PacketOk.of_closed {p : PktId} {events : List PktEvent} (h : Closed p events) :
    events.countP PktEvent.isHanded ≤ 1 ∧ events.countP PktEvent.isFreed ≤ 1 ∧
      (events.countP PktEvent.isHanded = 0 → events.countP PktEvent.isFreed = 1) := by
  rcases h with rfl | ⟨c, rfl | rfl | rfl⟩ <;>
    simp [countP_cons, PktEvent.isHanded, PktEvent.isFreed]

theorem Inv.packetOk {s : Device} (h : s.Inv) (p : PktId) : s.PacketOk p := by
  -- a packet is not there yet, being freed, in a waiter, or at its end
  by_cases hnew : s.received.length ≤ p
  · have heven := h.packets.unseen p hnew
    exact ⟨by simp [heven], by simp [heven], fun hlt => absurd hlt (not_lt.2 hnew),
      fun hlt => absurd hlt (not_lt.2 hnew)⟩
  by_cases hplace : s.dispatching = some p
  · have heven := (h.packets.dispatching p hplace).2
    exact ⟨by simp [heven], by simp [heven], fun _ hne => absurd hplace hne, fun _ hne => absurd hplace hne⟩
  by_cases hhe : ∃ w, (s.waiter w).reply = some p
  · obtain ⟨w, hw⟩ := hhe
    have heven := (h.packets.held w p hw).2.1
    obtain ⟨hsa, hho, -⟩ := h.links.holder w p hw
    refine ⟨by simp [heven, PktEvent.isHanded], by simp [heven, PktEvent.isFreed],
      by simp [heven, PktEvent.isHanded], fun _ _ => .inr ⟨(s.waiter w).owner, hho, ?_⟩⟩
    rw [waiterOf, hsa]
    exact hw
  · have hcl := h.packets.closed p (Nat.lt_of_not_le hnew) hplace fun w hw => hhe ⟨w, hw⟩
    obtain ⟨honce, hfreed, hoth⟩ := PacketOk.of_closed hcl
    exact ⟨honce, hfreed, fun _ _ => hoth, fun _ _ => .inl hcl⟩

end Device

/-- Each packet is handed over once at most and otherwise freed once; it is handed only to a call with its sequence
number; a waiter on the list has a caller that has not given it up; a call that returns has an error or the reply that
was handed to it; and the calls do return. -/
theorem requests_and_replies_pair_up {s : Device} (h : requestMachine.Reachable s) : (∀ p, s.PacketOk p) ∧
      (∀ p c, .handed p c ∈ s.log → s.Answers p (s.calls c).seq) ∧
      (∀ w ∈ s.waiters, ∃ c, (s.calls c).waiter = w ∧ (s.calls c).stage.registered = true) ∧
      (∀ c status reply, (s.calls c).stage = .returned status reply → s.Outcome c status reply) ∧
      s.Progress := by
  have hinv := Device.inv_of_reachable h
  refine ⟨hinv.packetOk, fun p c hp => (hinv.packets.handed p c hp).2, ?_, ?_, hinv.progress⟩
  · intro w hw
    obtain ⟨hsa, hst, -⟩ := hinv.links.listed w hw
    exact ⟨_, hsa, hst⟩
  · intro c status reply hst
    have hok := hinv.outcomes c
    unfold Device.StageOk at hok
    simp only [hst] at hok
    exact hok

/-- A packet of a type and a sequence number, with status 0. -/
def packetOf (type seq : Nat) : Packet := ⟨type, seq, [0, 0, 0, 0]⟩

/-- A reply between a timeout and the removal of the waiter, a submission, a reply to nobody, and a request that is
woken without a reply. -/
def crossings : List DeviceAction :=
  [.request 0 true, .nextSeq 0, .addWaiter 0, .send 0 0, .submit 1 5, .nextSeq 1, .addWaiter 1,
   .timeout 0, .dispatch (packetOf T2SC_PKT_ACK 1), .send 1 0, .remove 0, .free 0, .waitFrame 1,
   .dispatch (packetOf T2SC_PKT_ENCODE_REPLY 2), .request 2 true, .nextSeq 2, .addWaiter 2,
   .dispatch (packetOf T2SC_PKT_ACK 1), .freePacket, .send 2 0, .wake 1, .failWaiters, .failNext,
   .wake 2, .failNext]

theorem requests_and_replies_pair_up_crossings :
    ∃ s, requestMachine.Reachable s ∧ s.received.length = 3 ∧ s.waiters = [] ∧
      s.Outcome 0 (-ETIMEDOUT) none ∧ s.Outcome 1 0 (some 1) ∧ s.Outcome 2 (-ENODEV) none ∧
      s.PacketOk 0 ∧ s.PacketOk 1 ∧ s.PacketOk 2 := by
  obtain ⟨s, hs, hrec, hwaite, hfst, hsec, hthird⟩ := Machine.exists_of_run
    (M := requestMachine) (P := fun s => s.received.length = 3 ∧ s.waiters = [] ∧
      (s.calls 0).stage = .returned (-ETIMEDOUT) none ∧ (s.calls 1).stage = .returned 0 (some 1) ∧
      (s.calls 2).stage = .returned (-ENODEV) none) crossings rfl (by decide)
  obtain ⟨hpac, -, -, hretu, -⟩ := requests_and_replies_pair_up hs
  exact ⟨s, hs, hrec, hwaite, hretu 0 _ _ hfst, hretu 1 _ _ hsec, hretu 2 _ _ hthird, hpac 0, hpac 1, hpac 2⟩

end KaiT2en.Sidecar
