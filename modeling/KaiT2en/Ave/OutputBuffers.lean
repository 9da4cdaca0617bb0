import KaiT2en.Lib.Transition
import Mathlib.Data.List.Range
import Mathlib.Tactic.Push

/-!
# The output buffers of the video encoder

Queue 3 of `t2bce_ave`: eight buffers that the driver posts to the device and that the device returns with the output
of a frame. The completion handler counts the returned buffers in `q3.head`; the encoder thread counts the posted ones
in `q3.tail` and posts the buffers of a frame again in bulk, from an event count that it samples at the end of the
frame. The next frame begins with `t2bce_ave_q3_reset`, which samples `q3.head` once more.

An action of `q3Machine` is one access to what the two share. Counters are `size_t` and do not wrap within a session.

A callback that is handled between the two samples is not posted again (`output_buffer_lost`); `output_buffers_kept`
is about the runs without one.
-/

namespace KaiT2en.Ave

open KaiT2en.Lib.Transition List

def T2BCE_AVE_OUTPUT_BUF_COUNT : Nat := 8

/-- How far the encoder thread is. The stages with a slot are inside of `t2bce_ave_submit_q3_buf`, with nothing posted
yet. -/
inductive EncoderStage where
  | idle
  | presubmit (i : Nat)
  | presubmitSlot (i slot : Nat)
  | autoOff (first : Bool)
  | reset (first : Bool)
  | waiting (first : Bool)
  | resubmit (count i : Nat)
  | resubmitSlot (count i slot : Nat)
  deriving DecidableEq

/-- How far `t2bce_ave_q3_complete` is, with its count `completed`. -/
inductive HandlerStage where
  | idle
  | taking (completed : Nat)
  | reposting (completed : Nat)
  | repostSlot (completed slot : Nat)
  deriving DecidableEq

/-- The callbacks that the handler has taken and not posted again. -/
def HandlerStage.owed : HandlerStage → Nat
  | idle => 0
  | taking completed => completed
  | reposting completed => completed
  | repostSlot completed _ => completed + 1

/-- The fields of `struct t2bce_ave_queues` and of the session that concern queue 3. `posted` holds the posted slots
whose completion is not handled yet. -/
structure Q3 where
  head : Nat
  tail : Nat
  callbackBase : Nat
  callbackAutoResubmit : Bool
  frameCounter : Nat
  posted : List Nat
  encoder : EncoderStage
  handler : HandlerStage
  deriving DecidableEq

/-- The accesses of the encoder thread and of the handler; `reserved` is whether
`t2bce_core_reserve_submission` succeeds. -/
inductive Action where
  | encodeFrame
  | readSlot
  | submit (reserved : Bool)
  | autoOff
  | reset
  | sample
  | interrupt
  | take
  | drained
  | checkRepost
  | repost (reserved : Bool)
  deriving DecidableEq

namespace Q3

variable (s : Q3)

/-- The start of `t2bce_ave_session_encode_frame`; the first frame calls
`t2bce_ave_presubmit_recv_bufs`. -/
def encodeFrame : Option Q3 :=
  match s.encoder with
  | .idle =>
    if s.frameCounter = 0 then
      some { s with
        frameCounter := 1
        callbackAutoResubmit := true
        encoder := .presubmit 0 }
    else some { s with frameCounter := s.frameCounter + 1, encoder := .autoOff false }
  | _ => none

/-- The slot of `t2bce_ave_submit_q3_buf`. -/
def readSlot : Option Q3 :=
  match s.encoder with
  | .presubmit i => some { s with encoder := .presubmitSlot i (s.tail % T2BCE_AVE_OUTPUT_BUF_COUNT) }
  | .resubmit count i => some { s with encoder := .resubmitSlot count i (s.tail % T2BCE_AVE_OUTPUT_BUF_COUNT) }
  | _ => none

/-- The stage after the round `i` of the loop of `t2bce_ave_presubmit_recv_bufs`. -/
def presubmitNext (i : Nat) : EncoderStage :=
  if i + 1 < T2BCE_AVE_OUTPUT_BUF_COUNT then .presubmit (i + 1) else .autoOff true

/-- The stage after the round `i` of the loop of `t2bce_ave_resubmit_q3_bufs`. -/
def resubmitNext (count i : Nat) : EncoderStage := if i + 1 < count then .resubmit count (i + 1) else .idle

/-- The rest of `t2bce_ave_submit_q3_buf`; both loops end at the first failure, without an error. -/
def submit (reserved : Bool) : Option Q3 :=
  match s.encoder with
  | .presubmitSlot i slot =>
    if reserved then
      some { s with
        posted := s.posted ++ [slot]
        tail := s.tail + 1
        encoder := presubmitNext i }
    else some { s with encoder := .autoOff true }
  | .resubmitSlot count i slot =>
    if reserved then
      some { s with
        posted := s.posted ++ [slot]
        tail := s.tail + 1
        encoder := resubmitNext count i }
    else some { s with encoder := .idle }
  | _ => none

/-- The first line of `t2bce_ave_encode_first_frame` and `t2bce_ave_encode_next_frame`. -/
def autoOff : Option Q3 :=
  match s.encoder with
  | .autoOff first => some { s with callbackAutoResubmit := false, encoder := .reset first }
  | _ => none

/-- `t2bce_ave_q3_reset`. -/
def reset : Option Q3 :=
  match s.encoder with
  | .reset first => some { s with callbackBase := s.head, encoder := .waiting first }
  | _ => none

def eventCount : Nat := s.head - s.callbackBase

/-- The callbacks that a frame waits for with `t2bce_ave_wait_q3`. -/
def waitCount (first : Bool) : Nat := if first then 3 else 2

/-- The frame is encoded, and the event count is read for `t2bce_ave_resubmit_q3_bufs`. -/
def sample : Option Q3 :=
  match s.encoder with
  | .waiting first =>
    if s.callbackBase + waitCount first ≤ s.head then some { s with encoder := .resubmit s.eventCount 0 }
    else none
  | _ => none

/-- The handler is called. -/
def interrupt : Option Q3 :=
  match s.handler with
  | .idle => some { s with handler := .taking 0 }
  | _ => none

/-- One round of the first loop of the handler. -/
def take : Option Q3 :=
  match s.handler, s.posted with
  | .taking completed, _ :: rest =>
    some { s with head := s.head + 1, posted := rest, handler := .taking (completed + 1) }
  | _, _ => none

/-- There is no further completion. -/
def drained : Option Q3 :=
  match s.handler with
  | .taking completed => some { s with handler := .reposting completed }
  | _ => none

/-- The condition of the second loop of the handler, and the slot of
`t2bce_ave_submit_q3_buf_nowait`. -/
def checkRepost : Option Q3 :=
  match s.handler with
  | .reposting (completed + 1) =>
    if s.callbackAutoResubmit then
      some { s with handler := .repostSlot completed (s.tail % T2BCE_AVE_OUTPUT_BUF_COUNT) }
    else some { s with handler := .idle }
  | .reposting 0 => some { s with handler := .idle }
  | _ => none

/-- The rest of `t2bce_ave_submit_q3_buf_nowait`. -/
def repost (reserved : Bool) : Option Q3 :=
  match s.handler with
  | .repostSlot completed slot =>
    if reserved then
      some { s with
        posted := s.posted ++ [slot]
        tail := s.tail + 1
        handler := .reposting completed }
    else some { s with handler := .idle }
  | _ => none

def next : Action → Option Q3
  | .encodeFrame => s.encodeFrame
  | .readSlot => s.readSlot
  | .submit reserved => s.submit reserved
  | .autoOff => s.autoOff
  | .reset => s.reset
  | .sample => s.sample
  | .interrupt => s.interrupt
  | .take => s.take
  | .drained => s.drained
  | .checkRepost => s.checkRepost
  | .repost reserved => s.repost reserved

/-- The session is configured and has encoded nothing. -/
def initial : Q3 where
  head := 0
  tail := 0
  callbackBase := 0
  callbackAutoResubmit := false
  frameCounter := 0
  posted := []
  encoder := .idle
  handler := .idle

end Q3

/-- Queue 3 of one session. -/
def q3Machine : Machine Q3 Action where
  init s := s = Q3.initial
  next := Q3.next

/-! ## Buffers that are accounted for -/

namespace Q3

variable (s : Q3)

/-- The buffer is posted, or it is that of a callback of the current frame. -/
def Held (slot : Nat) : Prop :=
  slot ∈ s.posted ∨ ∃ seq, s.callbackBase ≤ seq ∧ seq < s.head ∧ seq % T2BCE_AVE_OUTPUT_BUF_COUNT = slot

/-- The handler may take a callback if a frame is waiting for its callbacks, or if it is posted again at once and the
encoder thread is not posting. -/
def mayTake : Bool :=
  match s.encoder with
  | .waiting _ => true
  | .presubmit _ | .autoOff _ => s.callbackAutoResubmit
  | _ => false

/-- The handler takes callbacks where it may, the encoder thread goes on only when the handler has posted what it has
taken, and no submission fails. -/
def Gapless : Action → Prop
  | .take => s.mayTake = true
  | .readSlot | .autoOff => s.callbackAutoResubmit = true → s.handler.owed = 0
  | .submit reserved | .repost reserved => reserved = true
  | _ => True

instance : (a : Action) → Decidable (s.Gapless a)
  | .take => inferInstanceAs (Decidable (_ = true))
  | .readSlot | .autoOff => inferInstanceAs (Decidable (_ = true → _ = 0))
  | .submit _ | .repost _ => inferInstanceAs (Decidable (_ = true))
  | .encodeFrame | .reset | .sample | .interrupt | .drained | .checkRepost => inferInstanceAs (Decidable True)

/-- The counters at each stage of the encoder thread. -/
def Balanced : Prop :=
  match s.encoder with
  | .idle =>
    s.callbackAutoResubmit = false ∧ if s.frameCounter = 0 then s.head = 0 ∧ s.tail = 0 ∧ s.handler.owed = 0
      else s.tail = s.head + 8
  | .presubmit i => s.callbackAutoResubmit = true ∧ 0 < s.frameCounter ∧ i < 8 ∧ s.tail + s.handler.owed = s.head + i
  | .presubmitSlot i slot =>
    s.callbackAutoResubmit = true ∧ 0 < s.frameCounter ∧ i < 8 ∧ s.tail = s.head + i ∧
      s.handler.owed = 0 ∧ slot = s.tail % 8
  | .autoOff _ =>
    0 < s.frameCounter ∧ if s.callbackAutoResubmit then s.tail + s.handler.owed = s.head + 8
      else s.tail = s.head + 8
  | .reset _ => s.callbackAutoResubmit = false ∧ 0 < s.frameCounter ∧ s.tail = s.head + 8
  | .waiting _ =>
    s.callbackAutoResubmit = false ∧ 0 < s.frameCounter ∧ s.callbackBase ≤ s.head ∧ s.tail = s.callbackBase + 8
  | .resubmit count i =>
    s.callbackAutoResubmit = false ∧ 0 < s.frameCounter ∧ i < count ∧
      s.head = s.callbackBase + count ∧ s.tail = s.callbackBase + 8 + i
  | .resubmitSlot count i slot =>
    s.callbackAutoResubmit = false ∧ 0 < s.frameCounter ∧ i < count ∧
      s.head = s.callbackBase + count ∧ s.tail = s.callbackBase + 8 + i ∧ slot = s.tail % 8

/-- The slots of the sequence numbers from `head` to `tail`. -/
def slots (head tail : Nat) : List Nat := (range' head (tail - head)).map (· % 8)

/-- The invariant of the runs in which no buffer is lost. -/
structure Inv : Prop where
  le : s.head ≤ s.tail
  posted : s.posted = slots s.head s.tail
  balanced : s.Balanced
  slot : ∀ completed slot, s.handler = .repostSlot completed slot → s.callbackAutoResubmit = true ∧ slot = s.tail % 8

variable {s t : Q3}

theorem slots_succ {head tail : Nat} (h : head ≤ tail) : slots head (tail + 1) = slots head tail ++ [tail % 8] := by
  unfold slots
  rw [Nat.succ_sub h, range'_concat, map_append]
  have hla : head + 1 * (tail - head) = tail := by omega
  rw [hla]
  rfl

theorem slots_cons {head tail slot : Nat} {rest : List Nat} (h : slot :: rest = slots head tail) :
    head < tail ∧ rest = slots (head + 1) tail := by
  unfold slots at h ⊢
  obtain ⟨n, hn⟩ : ∃ n, n = tail - head := ⟨_, rfl⟩
  rw [← hn] at h
  cases n with
  | zero => cases h
  | succ n => grind [range'_succ]

theorem Inv.init (h : s = initial) : s.Inv := by
  subst h
  refine ⟨Nat.le_refl 0, rfl, ⟨rfl, ?_⟩, ?_⟩
  · exact ⟨rfl, rfl, rfl⟩
  · intro completed slot hsl
    cases hsl

section

variable (hs : s.Inv)
include hs

theorem Inv.encodeFrame (h : s.encodeFrame = some t) : t.Inv := by
  obtain ⟨hle, hps, hbal, hsl⟩ := hs
  unfold Q3.encodeFrame at h
  split at h
  · rename_i hst
    simp only [Balanced, hst] at hbal
    obtain ⟨hau, hbal⟩ := hbal
    split at h
    · rename_i hfst
      rw [if_pos hfst] at hbal
      cases h
      refine ⟨hle, hps, ⟨rfl, Nat.one_pos, by decide, ?_⟩, ?_⟩
      · show s.tail + s.handler.owed = s.head + 0
        omega
      · grind
    rename_i hlat
    rw [if_neg hlat] at hbal
    cases h
    refine ⟨hle, hps, ⟨Nat.succ_pos _, ?_⟩, hsl⟩
    rw [hau]
    exact hbal
  · cases h

theorem Inv.readSlot (hok : s.callbackAutoResubmit → s.handler.owed = 0) (h : s.readSlot = some t) : t.Inv := by
  obtain ⟨hle, hps, hbal, hsl⟩ := hs
  unfold Q3.readSlot at h
  split at h
  · rename_i i hst
    simp only [Balanced, hst] at hbal
    obtain ⟨hau, hfr, hi, hcnt⟩ := hbal
    have howed := hok hau
    cases h
    exact ⟨hle, hps, ⟨hau, hfr, hi, by show s.tail = s.head + i; omega, howed, rfl⟩, hsl⟩
  · rename_i count i hst
    simp only [Balanced, hst] at hbal
    obtain ⟨hau, hfr, hi, hhd, hta⟩ := hbal
    cases h
    exact ⟨hle, hps, ⟨hau, hfr, hi, hhd, hta, rfl⟩, hsl⟩
  · cases h

theorem Inv.submit (h : s.submit true = some t) : t.Inv := by
  obtain ⟨hle, hps, hbal, hsl⟩ := hs
  unfold Q3.submit at h
  split at h
  · rename_i i slot hst
    simp only [Balanced, hst] at hbal
    obtain ⟨hau, hfr, hi, hta, howed, hmod⟩ := hbal
    cases h
    refine ⟨Nat.le_succ_of_le hle, ?_, ?_, ?_⟩
    · grind [slots_succ]
    · by_cases hla : i + 1 < T2BCE_AVE_OUTPUT_BUF_COUNT
      · simp only [Balanced, presubmitNext, if_pos hla]
        refine ⟨hau, hfr, hla, ?_⟩
        omega
      simp only [Balanced, presubmitNext, if_neg hla]
      have hcnt : T2BCE_AVE_OUTPUT_BUF_COUNT = 8 := rfl
      refine ⟨hfr, ?_⟩
      rw [if_pos hau]
      omega
    · intro completed slot' hrp
      -- the handler owes nothing while the encoder thread is posting
      rw [hrp] at howed
      cases howed
  · rename_i count i slot hst
    simp only [Balanced, hst] at hbal
    cases h
    refine ⟨Nat.le_succ_of_le hle, ?_, ?_, ?_⟩
    · grind [slots_succ]
    · grind [Balanced, resubmitNext]
    · grind
  · cases h

theorem Inv.autoOff (hok : s.callbackAutoResubmit → s.handler.owed = 0) (h : s.autoOff = some t) : t.Inv := by
  obtain ⟨hle, hps, hbal, hsl⟩ := hs
  unfold Q3.autoOff at h
  split at h
  · rename_i first hst
    simp only [Balanced, hst] at hbal
    obtain ⟨hfr, hbal⟩ := hbal
    cases h
    refine ⟨hle, hps, ⟨rfl, hfr, ?_⟩, ?_⟩
    · grind
    · intro completed slot hrp
      have howed := hok (hsl completed slot hrp).1
      have hhan : s.handler = .repostSlot completed slot := hrp
      rw [hhan] at howed
      cases howed
  · cases h

theorem Inv.reset (h : s.reset = some t) : t.Inv := by
  obtain ⟨hle, hps, hbal, hsl⟩ := hs
  unfold Q3.reset at h
  split at h
  · rename_i first hst
    simp only [Balanced, hst] at hbal
    obtain ⟨hau, hfr, hta⟩ := hbal
    cases h
    exact ⟨hle, hps, ⟨hau, hfr, Nat.le_refl _, hta⟩, hsl⟩
  · cases h

theorem Inv.sample (h : s.sample = some t) : t.Inv := by
  obtain ⟨hle, hps, hbal, hsl⟩ := hs
  unfold Q3.sample at h
  split at h
  · rename_i first hst
    simp only [Option.ite_none_right_eq_some] at h
    simp only [Balanced, hst] at hbal
    obtain ⟨hau, hfr, hbase, hta⟩ := hbal
    obtain ⟨hwt, h⟩ := h
    cases h
    have hcnt : 2 ≤ waitCount first := by
      cases first with
      | false => exact Nat.le_refl 2
      | true => exact Nat.le_succ 2
    refine ⟨hle, hps, ⟨hau, hfr, ?_, ?_, hta⟩, hsl⟩
    · show 0 < s.head - s.callbackBase
      omega
    · show s.head = s.callbackBase + (s.head - s.callbackBase)
      omega
  · cases h

theorem Inv.handler {stage : HandlerStage}
    (howed : s.callbackAutoResubmit ∨ s.frameCounter = 0 → stage.owed = s.handler.owed)
    (hst : ∀ completed slot, stage = .repostSlot completed slot →
      s.callbackAutoResubmit ∧ slot = s.tail % 8) : ({ s with handler := stage } : Q3).Inv := by
  obtain ⟨hle, hps, hbal, hsl⟩ := hs
  refine ⟨hle, hps, ?_, hst⟩
  unfold Balanced at hbal ⊢
  cases henc : s.encoder with
  | idle => grind
  | presubmit _ | presubmitSlot _ _ => grind
  | autoOff first => grind
  | reset _ | waiting _ | resubmit _ _ | resubmitSlot _ _ _ => simpa only [henc] using hbal

/-- Before the first frame the handler has taken nothing. -/
theorem Inv.owed_eq_zero (hfst : s.frameCounter = 0) : s.handler.owed = 0 := by
  have hbal := hs.balanced
  unfold Balanced at hbal
  cases henc : s.encoder with
  | idle =>
    simp only [henc, if_pos hfst] at hbal
    exact hbal.2.2.2
  | autoOff _ | _ =>
    simp only [henc] at hbal
    omega

theorem Inv.interrupt (h : s.interrupt = some t) : t.Inv := by
  unfold Q3.interrupt at h
  split at h
  · rename_i hst
    cases h
    refine hs.handler (fun _ => by rw [hst]; rfl) ?_
    intro completed slot hrp
    cases hrp
  · cases h

theorem Inv.drained (h : s.drained = some t) : t.Inv := by
  unfold Q3.drained at h
  split at h
  · rename_i completed hst
    cases h
    refine hs.handler (fun _ => by rw [hst]; rfl) ?_
    intro completed slot hrp
    cases hrp
  · cases h

theorem Inv.checkRepost (h : s.checkRepost = some t) : t.Inv := by
  unfold Q3.checkRepost at h
  cases hst : s.handler with
  | reposting completed =>
    cases completed with
    | zero =>
      simp only [hst] at h
      cases h
      refine hs.handler (fun _ => by rw [hst]; rfl) ?_
      intro completed slot hrp
      cases hrp
    | succ completed =>
      simp only [hst] at h
      split at h
      · rename_i hau
        cases h
        refine hs.handler (fun _ => by rw [hst]; rfl) ?_
        intro completed' slot hrp
        cases hrp
        exact ⟨hau, rfl⟩
      rename_i hau
      cases h
      refine hs.handler ?_ ?_
      · rintro (hon | hfst)
        · exact absurd hon hau
        · have howed := hs.owed_eq_zero hfst
          rw [hst] at howed
          cases howed
      · intro completed' slot hrp
        cases hrp
  | _ =>
    simp only [hst] at h
    cases h

theorem Inv.take (hok : s.mayTake) (h : s.take = some t) : t.Inv := by
  obtain ⟨hle, hps, hbal, hsl⟩ := hs
  unfold Q3.take at h
  cases hst : s.handler with
  | taking completed =>
    cases hls : s.posted with
    | nil =>
      simp only [hst, hls] at h
      cases h
    | cons slot rest =>
      simp only [hst, hls] at h
      rw [hls] at hps
      obtain ⟨hlt, hrs⟩ := slots_cons hps
      cases h
      refine ⟨hlt, hrs, ?_, ?_⟩
      · unfold mayTake at hok
        unfold Balanced at hbal ⊢
        cases henc : s.encoder with
        | waiting first => grind
        | presubmit i | autoOff first => grind [HandlerStage.owed]
        | _ =>
          simp only [henc] at hok
          cases hok
      · intro completed' slot' hrp
        cases hrp
  | _ =>
    simp only [hst] at h
    cases h

theorem Inv.repost (h : s.repost true = some t) : t.Inv := by
  obtain ⟨hle, hps, hbal, hsl⟩ := hs
  unfold Q3.repost at h
  cases hst : s.handler with
  | repostSlot completed slot =>
    simp only [hst, if_true] at h
    cases h
    refine ⟨Nat.le_succ_of_le hle, ?_, ?_, ?_⟩
    · grind [slots_succ]
    · unfold Balanced at hbal ⊢
      rw [hst] at hbal
      cases henc : s.encoder with
      | presubmit i | autoOff first => grind [HandlerStage.owed]
      | presubmitSlot i slot' =>
        simp only [henc, HandlerStage.owed] at hbal
        omega
      | _ => grind
    · intro completed' slot' hrp
      cases hrp
  | _ =>
    simp only [hst] at h
    cases h

theorem Inv.next {a : Action} (hok : s.Gapless a) (h : s.next a = some t) : t.Inv := by
  cases a with
  | encodeFrame => exact hs.encodeFrame h
  | readSlot => exact hs.readSlot hok h
  | submit reserved =>
    have hres : reserved := hok
    subst hres
    exact hs.submit h
  | autoOff => exact hs.autoOff hok h
  | reset => exact hs.reset h
  | sample => exact hs.sample h
  | interrupt => exact hs.interrupt h
  | take => exact hs.take hok h
  | drained => exact hs.drained h
  | checkRepost => exact hs.checkRepost h
  | repost reserved =>
    have hres : reserved := hok
    subst hres
    exact hs.repost h

/-- Eight consecutive sequence numbers use every slot. -/
theorem held_of_tail (hta : s.tail = s.callbackBase + 8) {slot : Nat} (hsl : slot < 8) : s.Held slot := by
  obtain ⟨seq, hge, hlt, hmod⟩ : ∃ seq, s.callbackBase ≤ seq ∧ seq < s.callbackBase + 8 ∧ seq % 8 = slot :=
    ⟨s.callbackBase + (slot + 8 - s.callbackBase % 8) % 8, by omega, by omega, by omega⟩
  rcases Nat.lt_or_ge seq s.head with hdn | hop
  · exact .inr ⟨seq, hge, hdn, hmod⟩
  refine .inl ?_
  rw [hs.posted]
  exact mem_map.2 ⟨seq, mem_range'_1.2 ⟨hop, by omega⟩, hmod⟩

end

end Q3

/-- In every run without a gap, from `t2bce_ave_q3_reset` to the end of a frame the tail is eight ahead of the base,
and every buffer is posted or belongs to a callback of the frame. -/
theorem output_buffers_kept {s : Q3} (h : q3Machine.Reach Q3.Gapless s) {first : Bool}
    (hframe : s.encoder = .waiting first) :
    s.tail = s.callbackBase + T2BCE_AVE_OUTPUT_BUF_COUNT ∧ ∀ slot, slot < T2BCE_AVE_OUTPUT_BUF_COUNT → s.Held slot := by
  have hinv : s.Inv := h.invariant (I := Q3.Inv) (fun _ hs => Q3.Inv.init hs)
    (fun _ _ _ _ hok hs hnx => hs.next hok hnx)
  have hbal := hinv.balanced
  simp only [Q3.Balanced, hframe] at hbal
  obtain ⟨-, -, -, hta⟩ := hbal
  exact ⟨hta, fun slot hsl => Q3.held_of_tail hinv hta hsl⟩

/-- The presubmission of the first frame. -/
def presubmission : List Action :=
  .encodeFrame :: (replicate 8 [Action.readSlot, .submit true]).flatten ++ [.autoOff, .reset]

/-- A call of the handler that takes `n` callbacks. -/
def handled (n : Nat) : List Action := .interrupt :: replicate n .take ++ [.drained, .checkRepost]

/-- The end of a frame with `n` callbacks. -/
def frameEnd (n : Nat) : List Action := .sample :: (replicate n [Action.readSlot, .submit true]).flatten

/-- The first two frames, with their callbacks while the frames wait for them. -/
def twoFrames : List Action := presubmission ++ handled 3 ++ frameEnd 3 ++ [.encodeFrame, .autoOff, .reset] ++ handled 2

theorem output_buffers_kept_twoFrames : ∃ s, q3Machine.Reach Q3.Gapless s ∧ s.head = 5 ∧
    s.tail = s.callbackBase + T2BCE_AVE_OUTPUT_BUF_COUNT ∧
    ∀ slot, slot < T2BCE_AVE_OUTPUT_BUF_COUNT → s.Held slot := by
  obtain ⟨s, hgap, hhd, hst⟩ := Machine.exists_of_guarded_run (M := q3Machine)
    (P := fun s => s.head = 5 ∧ s.encoder = .waiting false) Q3.Gapless twoFrames rfl (by decide +kernel)
  exact ⟨s, hgap, hhd, output_buffers_kept hgap hst⟩

/-- A callback that is handled between two frames is lost: its buffer is neither posted nor counted in the next frame.
-/
theorem output_buffer_lost : ∃ s, q3Machine.Reachable s ∧ s.encoder = .waiting false ∧
    s.tail = s.callbackBase + 7 ∧ ¬s.Held 3 := by
  obtain ⟨s, hre, hst, hta, hps, hhd⟩ := Machine.exists_of_run (M := q3Machine)
    (P := fun s => s.encoder = .waiting false ∧ s.tail = s.callbackBase + 7 ∧ 3 ∉ s.posted ∧ s.head = s.callbackBase)
    (presubmission ++ handled 3 ++ frameEnd 3 ++ handled 1 ++ [.encodeFrame, .autoOff, .reset]) rfl
    (by decide +kernel)
  refine ⟨s, hre, hst, hta, ?_⟩
  rintro (hmem | ⟨seq, hge, hlt, -⟩)
  · exact hps hmem
  · omega

end KaiT2en.Ave
