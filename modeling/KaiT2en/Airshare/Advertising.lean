import KaiT2en.Lib.Transition
import Mathlib.Data.Finset.Card

/-!
# Pausing the advertisements

`apps/t2-airshare/src/bluetooth.rs`: the holders of a pause are a set under a lock. The call that adds the first
holder or takes the last one away sends a message to the task with the `Visibility`, after it has released
the lock, so that two messages can enter the channel in the other order.
-/

namespace KaiT2en.Airshare.Advertising

open KaiT2en.Lib.Transition List Finset

/-- The receiver service and its `Visibility`. -/
structure Service where
  holders : Finset String
  /-- The messages of the calls that have released the lock and are to send, by the order of the updates. -/
  sending : List Bool
  channel : List Bool
  /-- `Visibility::paused`. -/
  paused : Bool

inductive Action where
  | pauseAdvertising (sender : Option String)
  | resumeAdvertising (sender : Option String)
  /-- A name on the bus has lost its owner. -/
  | nameLost (name : String)
  /-- One of the calls puts its message into the channel. -/
  | send (i : Nat)
  | receive

variable (s : Service)

/-- `pause_advertising` up to the end of the lock. -/
def Service.pause (sender : String) : Service :=
  let holders := insert sender s.holders
  let first := sender ∉ s.holders ∧ holders.card = 1
  { s with holders := holders, sending := s.sending ++ if first then [true] else [] }

/-- `release` up to the end of the lock. -/
def Service.release (name : String) : Service :=
  let holders := s.holders.erase name
  let last := name ∈ s.holders ∧ holders = ∅
  { s with holders := holders, sending := s.sending ++ if last then [false] else [] }

def Service.next : Action → Option Service
  | .pauseAdvertising sender => some (sender.elim s s.pause)
  | .resumeAdvertising sender => some (sender.elim s s.release)
  | .nameLost name => some (s.release name)
  | .send i =>
    match s.sending[i]? with
    -- `mpsc::channel(8)`
    | some message => if s.channel.length < 8 then
        some { s with sending := s.sending.eraseIdx i, channel := s.channel ++ [message] } else none
    | none => none
  | .receive =>
    match s.channel with
    -- `set_paused` returns early when nothing changes
    | message :: rest => some { s with channel := rest, paused := message }
    | [] => none

def pauseMachine : Machine Service Action where
  init s := s = ⟨∅, [], [], false⟩
  next := Service.next

/-- The messages enter the channel in the order of the updates of the set. -/
def InOrder (_ : Service) : Action → Prop
  | .send i => i = 0
  | _ => True

instance : ∀ a, Decidable (InOrder s a)
  | .send i => inferInstanceAs (Decidable (i = 0))
  | .pauseAdvertising _ | .resumeAdvertising _ | .nameLost _ | .receive => isTrue trivial

/-- The pause once all messages under way have arrived. -/
def Service.finally : Bool := (s.channel ++ s.sending).getLast?.getD s.paused

variable {s t : Service}

theorem finally_send (m : Bool) (holders : Finset String) :
    Service.finally { s with holders := holders, sending := s.sending ++ [m] } = m := by
  simp [Service.finally, ← append_assoc]

section

variable (h : s.finally = decide s.holders.Nonempty)
include h

theorem finally_pause (sender : String) :
    (s.pause sender).finally = decide (s.pause sender).holders.Nonempty := by
  refine Eq.trans ?_ (decide_eq_true (insert_nonempty sender s.holders)).symm
  by_cases hfst : sender ∉ s.holders ∧ (insert sender s.holders).card = 1
  · simp only [Service.pause, if_pos hfst, finally_send]
  · simp only [Service.pause, if_neg hfst, append_nil]
    refine h.trans (decide_eq_true ?_)
    by_cases hmem : sender ∈ s.holders
    · exact ⟨sender, hmem⟩
    · have hcard := card_insert_of_notMem hmem
      exact card_ne_zero.1 fun hz => hfst ⟨hmem, by omega⟩

theorem finally_release (name : String) :
    (s.release name).finally = decide (s.release name).holders.Nonempty := by
  by_cases hla : name ∈ s.holders ∧ s.holders.erase name = ∅
  · simp only [Service.release, if_pos hla, finally_send]
    rw [hla.2]
    rfl
  · simp only [Service.release, if_neg hla, append_nil]
    refine h.trans (decide_eq_decide.2 ?_)
    by_cases hmem : name ∈ s.holders
    · have hlf := nonempty_iff_ne_empty.2 fun hno => hla ⟨hmem, hno⟩
      exact ⟨fun _ => hlf, fun _ => ⟨name, hmem⟩⟩
    · rw [erase_eq_of_notMem hmem]

theorem finally_next {a : Action} (hord : InOrder s a)
    (hnx : s.next a = some t) : t.finally = decide t.holders.Nonempty := by
  cases a with
  | pauseAdvertising sender =>
    cases hnx
    exact sender.rec h (finally_pause h)
  | resumeAdvertising sender =>
    cases hnx
    exact sender.rec h (finally_release h)
  | nameLost name =>
    cases hnx
    exact finally_release h name
  | send i =>
    cases hord
    cases hsen : s.sending with
    | nil => simp [Service.next, hsen] at hnx
    | cons message rest =>
      simp only [Service.next, hsen, getElem?_cons_zero, Option.ite_none_right_eq_some] at hnx
      obtain ⟨-, hnx⟩ := hnx
      cases hnx
      rw [← h, Service.finally, Service.finally, hsen, eraseIdx_cons_zero, append_assoc, singleton_append]
  | receive =>
    cases hchan : s.channel with
    | nil => simp [Service.next, hchan] at hnx
    | cons message rest =>
      simp only [Service.next, hchan] at hnx
      cases hnx
      rw [← h, Service.finally, Service.finally, hchan, cons_append, getLast?_cons, Option.getD_some]

end

/-- Once all messages have arrived, the advertisements are paused exactly while someone holds a pause. -/
theorem pause_follows_holders (h : pauseMachine.Reach InOrder s) (hsending : s.sending = [])
    (hchannel : s.channel = []) : s.paused ↔ s.holders.Nonempty := by
  have hfin : s.finally = decide s.holders.Nonempty :=
    h.invariant (fun _ hs => hs ▸ rfl) fun _ _ _ _ hord hs hnx => finally_next hs hord hnx
  rw [Service.finally, hsending, hchannel] at hfin
  rw [show s.paused = decide s.holders.Nonempty from hfin, decide_eq_true_iff]

theorem pause_follows_holders_second : ∃ s, pauseMachine.Reach InOrder s ∧ s.holders = {"b"} ∧
    (s.paused ↔ s.holders.Nonempty) := by
  obtain ⟨s, hs, hhol, hsen, hchan⟩ := Machine.exists_of_guarded_run (M := pauseMachine) InOrder
    (P := fun s => s.holders = {"b"} ∧ s.sending = [] ∧ s.channel = [])
    [.pauseAdvertising (some "a"), .pauseAdvertising (some "b"), .send 0, .nameLost "a", .receive] rfl (by decide)
  exact ⟨s, hs, hhol, pause_follows_holders hs hsen hchan⟩

/-- The message of the resume overtakes that of the pause. -/
theorem pause_outlives_holders : ∃ s, pauseMachine.Reachable s ∧ s.sending = [] ∧ s.channel = [] ∧
    s.paused ∧ s.holders = ∅ :=
  Machine.exists_of_run
    [.pauseAdvertising (some "a"), .resumeAdvertising (some "a"), .send 1, .send 0, .receive, .receive] rfl (by decide)

end KaiT2en.Airshare.Advertising
