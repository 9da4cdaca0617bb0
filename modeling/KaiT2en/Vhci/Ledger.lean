import KaiT2en.Lib.Total
import KaiT2en.Vhci.Simulation

/-!
# Who has a request

A request is ended by `bce_vhci_urb_complete` or by the cancel worker. `Phase` is the life of a
request as it is meant to be: it ends on one of the two ways, and either way gives it back once and
frees it once. `Follows c ph` says that the queue is at the phases `ph`. Every step keeps some phases
(`Follows.step`), unless a failed status stage is reported for a request that is being cancelled:
`bce_vhci_urb_control_check_status` then ends the request although the cancel worker has it.

`urb_single_giveback` is the result for all runs without such a message, and `urb_given_back_twice`
shows what the message does.
-/

namespace KaiT2en.Vhci

open KaiT2en.Kernel KaiT2en.Dma KaiT2en.Lib KaiT2en.Lib.Transition Machine List Function Core Event ListMove Option UrbState

/-! ## The life of a request -/

/-- The life of a request. -/
inductive Phase where
  | absent
  | linked
  /-- On `cancel_urb_list`. -/
  | cancelling
  /-- Linked, and in the hands of the cancel worker. -/
  | picked
  /-- In the hands of the cancel worker only. -/
  | unlinked
  /-- Given back by the cancel worker. -/
  | returned
  /-- On `giveback_urb_list`. -/
  | completed
  /-- Freed by a failed enqueue. -/
  | rejected
  | gone
  deriving DecidableEq, Repr

namespace Phase

def isLinked : Phase → Bool
  | .linked | .cancelling | .picked => true
  | _ => false

def isHeld : Phase → Bool
  | .picked | .unlinked | .returned => true
  | _ => false

/-- How often a request has been given back. -/
def givebacks : Phase → Nat
  | .returned | .gone => 1
  | _ => 0

/-- How often a request has been freed. -/
def frees : Phase → Nat
  | .completed | .rejected | .gone => 1
  | _ => 0

end Phase

/-- The phase of the request that the cancel worker holds. -/
def HeldStage.phase : HeldStage → Phase
  | .picked | .paused => .picked
  | .unlinked | .resumed => .unlinked
  | .returned => .returned

/-- A call of pause or resume does not move the request that the cancel worker has. -/
theorem Held.goOn_frame (h : Held) :
    h.goOn.urb = h.urb ∧ h.goOn.wasActive = h.wasActive ∧ h.goOn.stage.phase = h.stage.phase := by
  obtain ⟨u, status, wasActive, stage⟩ := h
  cases stage <;> exact ⟨rfl, rfl, rfl⟩

/-- Whether the event gives `u` back. -/
def Event.isGiveback (u : UrbId) : Event → Bool
  | .giveback w _ => w == u
  | _ => false

/-- Whether the event frees `u`. -/
def Event.isFree (u : UrbId) : Event → Bool
  | .free w => w == u
  | _ => false

namespace Core

variable (c : Core)

/-- How often `u` was given back to usbcore. -/
def givebacks (u : UrbId) : Nat := c.log.countP (isGiveback u)

/-- How often the `bce_vhci_urb` of `u` was freed. -/
def frees (u : UrbId) : Nat := c.log.countP (isFree u)

end Core

/-- Whether the event neither gives a request back nor frees one. -/
def Event.isPlain : Event → Bool
  | .giveback _ _ | .free _ => false
  | _ => true

variable {c c' : Core}

theorem counts_of_plain {e : Event} (h : c'.log = e :: c.log) (he : e.isPlain)
    (w : UrbId) : c'.givebacks w = c.givebacks w ∧ c'.frees w = c.frees w := by
  rw [Core.givebacks, Core.frees, h]
  cases e with
  | giveback | free => cases he
  | _ => exact ⟨rfl, rfl⟩

/-- The queue is at the phases `ph`. -/
structure Follows (c : Core) (ph : UrbId → Phase) : Prop where
  linked : ∀ w, w ∈ c.urbList ↔ (ph w).isLinked = true
  cancelled : ∀ w, (ph w).isLinked = true → ((c.vurbs w).state = .cancelled ↔ ph w ≠ .linked)
  cancelling : ∀ w, w ∈ c.cancelUrbList ↔ ph w = .cancelling
  completed : ∀ w, w ∈ c.givebackUrbList ↔ ph w = .completed
  held : ∀ w, (ph w).isHeld = true → ∃ h, c.held = some h ∧ h.urb = w
  heldPhase : ∀ h, c.held = some h → ph h.urb = h.stage.phase
  heldActive : ∀ h, c.held = some h → h.stage.phase = .picked → h.wasActive = (c.vurbs h.urb).cancelWasActive
  cancelNodup : c.cancelUrbList.Nodup
  givebackNodup : c.givebackUrbList.Nodup
  absent : ∀ w, c.nextUrb ≤ w → ph w = .absent
  givebacks : ∀ w, c.givebacks w = (ph w).givebacks
  frees : ∀ w, c.frees w = (ph w).frees

/-- Whether the event reports a failed status stage for a request that is being cancelled. -/
def Event.failsCancelled : Event → Bool
  | .status _ .cancelled s => s != 0 && s != BCE_VHCI_SUCCESS
  | _ => false

/-- No failed status stage was reported for a request that was being cancelled. -/
def CancelSafe (log : List Event) : Prop := ∀ e ∈ log, e.failsCancelled = false

instance (log : List Event) : Decidable (CancelSafe log) := List.decidableBAll _ log

/-! ## Steps that leave a request where it is -/

/-- The request `u` takes a credit or keeps what it has, while it changes from `v` to `v'`. -/
inductive Credited (u : UrbId) (c c' : Core) (v v' : VUrb) : Prop
  | kept : (v'.state = .initPending ↔ v.state = .initPending) →
      c'.remainingActiveRequests = c.remainingActiveRequests → Credited u c c' v v'
  | taken : u ∈ c.urbList → v.state = .initPending → v'.state ≠ .initPending → 0 < c.remainingActiveRequests →
      c'.remainingActiveRequests = sub32 c.remainingActiveRequests 1 → Credited u c c' v v'

/-- A step that changes at most the request `u` and leaves it where it is. -/
structure Stays (u : UrbId) (c c' : Core) : Prop where
  urbList : c'.urbList = c.urbList
  givebackUrbList : c'.givebackUrbList = c.givebackUrbList
  cancelUrbList : c'.cancelUrbList = c.cancelUrbList
  held : c'.held = c.held
  nextUrb : c'.nextUrb = c.nextUrb
  maxActiveRequests : c'.maxActiveRequests = c.maxActiveRequests
  others : ∀ w, w ≠ u → c'.vurbs w = c.vurbs w
  cancelled : (c'.vurbs u).state = .cancelled ↔ (c.vurbs u).state = .cancelled
  wasActive : (c'.vurbs u).cancelWasActive = (c.vurbs u).cancelWasActive
  givebacks : ∀ w, c'.givebacks w = c.givebacks w
  frees : ∀ w, c'.frees w = c.frees w

variable {u : UrbId}

/-- The phases are the same after such a step. -/
theorem Follows.stays {ph : UrbId → Phase} (h : Follows c ph) (hs : Stays u c c') : Follows c' ph := by
  constructor
  case cancelled =>
    intro w hw
    have := h.cancelled w hw
    grind [Stays]
  case heldActive =>
    intro held hhe hst
    have := h.heldActive held (hs.held ▸ hhe) hst
    grind [Stays]
  all_goals grind [Follows, Stays]

variable {v v' : VUrb}

/-- A quiet change neither cancels a request nor sends it back to wait for a credit. -/
theorem Quiet.frame (h : Quiet v v') :
    v.state ≠ .cancelled ∧ v'.state ≠ .cancelled ∧ v'.cancelWasActive = v.cancelWasActive ∧
      (v'.state = .initPending → v.state = .initPending) := by
  have hmov : ∀ old new : UrbState, old ≠ .cancelled ∧ new ≠ .cancelled ∧
      new ≠ .initPending → v.state = old → v'.state = new →
      v.state ≠ .cancelled ∧ v'.state ≠ .cancelled ∧ (v'.state = .initPending → v.state = .initPending) := by grind
  cases h with
  | waitForSetup hv => grind
  | startOut hv =>
    have hnew : v.startState ≠ .cancelled ∧ v.startState ≠ .initPending := by
      unfold VUrb.startState
      split <;> decide
    have hold : v.state ≠ .cancelled := by rcases hv with ⟨hv, -⟩ | hv <;> rw [hv] <;> decide
    exact ⟨hold, hnew.1, rfl, fun h => absurd h hnew.2⟩
  | failedStart stop hv => grind
  | waitForWindow hv =>
    obtain ⟨hold, hnew, hbk⟩ := hmov .waitingForCompletion .waitingForTransferRequest (by decide) hv.state rfl
    exact ⟨hold, hnew, (v.sameRequest_advance v.submittedLength).cancelWasActive, hbk⟩
  | dataDone n hv =>
    obtain ⟨hold, hnew, hbk⟩ := hmov .waitingForCompletion .dataTransferComplete (by decide) hv.state rfl
    exact ⟨hold, hnew, (v.sameRequest_advance n).cancelWasActive, hbk⟩
  | resumeOut hv => grind

/-- Only a request that is not cancelled submits. -/
theorem Prepared.not_cancelled {d : Direction} {limit : Nat} (h : Prepared v v' d limit) : v.state ≠ .cancelled := by
  cases h with
  | start hv => rcases hv with (⟨hv, -⟩ | hv) | hv <;> rw [hv] <;> decide
  | window size hv =>
    rw [hv]
    decide
  | «continue» hv =>
    rw [hv.state]
    decide

/-- `charge` takes a credit exactly if the request leaves `INIT_PENDING`. -/
theorem credited_charge {v w : VUrb} (hu : u ∈ c.urbList)
    (hrem : c'.remainingActiveRequests = c.remainingActiveRequests)
    (hpos : v.state = .initPending → 0 < c.remainingActiveRequests)
    (hbk : w.state = .initPending → v.state = .initPending) :
    Credited u c (c'.charge v.state w.state) v w := by
  by_cases hin : v.state = .initPending
  · by_cases hin' : w.state = .initPending
    · grind [charge_self, Credited.kept]
    · grind [charge_of_start, Credited.taken]
  · grind [charge_of_ne, Credited.kept]

namespace Stays

variable (u : UrbId) (c : Core)

theorem trans {u : UrbId} {c c1 c' : Core} (h1 : Stays u c c1) (h2 : Stays u c1 c') : Stays u c c' where
  urbList := h2.urbList.trans h1.urbList
  givebackUrbList := h2.givebackUrbList.trans h1.givebackUrbList
  cancelUrbList := h2.cancelUrbList.trans h1.cancelUrbList
  held := h2.held.trans h1.held
  nextUrb := h2.nextUrb.trans h1.nextUrb
  maxActiveRequests := h2.maxActiveRequests.trans h1.maxActiveRequests
  others w hw := (h2.others w hw).trans (h1.others w hw)
  cancelled := h2.cancelled.trans h1.cancelled
  wasActive := h2.wasActive.trans h1.wasActive
  givebacks w := (h2.givebacks w).trans (h1.givebacks w)
  frees w := (h2.frees w).trans (h1.frees w)

theorem setPipe (d : Direction) (p : Pipe) : Stays u c (c.setPipe d p) := by
  cases d <;> exact ⟨rfl, rfl, rfl, rfl, rfl, rfl, fun _ _ => rfl, Iff.rfl, rfl, fun _ => rfl, fun _ => rfl⟩

theorem record {e : Event} (he : e.isPlain) : Stays u c (c.record e) :=
  ⟨rfl, rfl, rfl, rfl, rfl, rfl, fun _ _ => rfl, Iff.rfl, rfl, fun w => (counts_of_plain rfl he w).1,
    fun w => (counts_of_plain rfl he w).2⟩

theorem setCell (w : UrbId) (x : UrbCell) : Stays u c (c.setCell w x) :=
  ⟨rfl, rfl, rfl, rfl, rfl, rfl, fun _ _ => rfl, Iff.rfl, rfl, fun _ => rfl, fun _ => rfl⟩

theorem charge (old new : UrbState) : Stays u c (c.charge old new) := by
  have hvs := c.vurbs_charge old new
  have hlog := c.log_charge old new
  refine ⟨?_, ?_, ?_, ?_, ?_, ?_, fun w _ => by rw [hvs], by rw [hvs], by rw [hvs],
    fun w => by rw [Core.givebacks, hlog, Core.givebacks], fun w => by rw [Core.frees, hlog, Core.frees]⟩ <;>
    (rw [Core.charge]; split <;> rfl)

theorem setVurb {u : UrbId} {c : Core} {v : VUrb} (hcan : v.state = .cancelled ↔ (c.vurbs u).state = .cancelled)
    (hact : v.cancelWasActive = (c.vurbs u).cancelWasActive) :
    Stays u c (c.setVurb u v) := by
  refine ⟨rfl, rfl, rfl, rfl, rfl, rfl, fun w hw => update_of_ne hw .., ?_, ?_,
    fun _ => rfl, fun _ => rfl⟩
  · rw [vurbs_setVurb_self, hcan]
  · rw [vurbs_setVurb_self, hact]

theorem send {u : UrbId} {c : Core} {d : Direction} {v : VUrb} {element : QeSubmission} {n : Nat}
    (hcan : (c.vurbs u).state ≠ .cancelled) (hact : v.cancelWasActive = (c.vurbs u).cancelWasActive) :
    Stays u c (c.send d u v element n) := by
  refine ((setPipe u c d _).trans (record u _ rfl)).trans (setVurb ?_ ?_)
  · grind [Core.record, vurbs_setPipe]
  · rw [Core.record, vurbs_setPipe]
    exact hact

end Stays

/-- A step of a request leaves it where it is, or ends it. -/
theorem UrbStep.stays_or_complete (h : UrbStep u c c') : Stays u c c' ∧ Credited u c c' (c.vurbs u) (c'.vurbs u) ∨
      ∃ v status, u ∈ c.urbList ∧ Final c.log u (c.vurbs u) v status ∧ c' = (c.setVurb u v).urbComplete u status := by
  cases h with
  | latch s hu hctl =>
    refine .inl ⟨(Stays.record u c rfl).trans (Stays.setVurb Iff.rfl rfl), ?_⟩
    refine Credited.kept ?_ rfl
    rw [Core.latch, vurbs_setVurb_self]
  | setup element hu hsta hctl _ =>
    have hne : controlWaitingForSetupCompletion = .cancelled ↔ (c.vurbs u).state = .cancelled := by
      rw [hsta]
      decide
    refine .inl ⟨((Stays.setPipe u c .toDevice _).trans (Stays.record u _ rfl)).trans (Stays.setVurb hne rfl), ?_⟩
    refine Credited.kept ?_ rfl
    rw [Core.sendSetup, vurbs_setVurb_self, hsta]
    exact iff_of_false (show controlWaitingForSetupCompletion ≠ _ by decide) (by decide)
  | quiet v hu hpos hqu =>
    obtain ⟨hold, hnew, hact, hbk⟩ := hqu.frame
    refine .inl ⟨(Stays.setVurb (iff_of_false hnew hold) hact).trans (Stays.charge u _ _ _), ?_⟩
    rw [vurbs_charge, vurbs_setVurb_self]
    exact credited_charge hu rfl hpos hbk
  | send d v element limit n hu hpos hpr _ _ =>
    have hact := hpr.sameRequest.cancelWasActive
    refine .inl ⟨(Stays.send hpr.not_cancelled hact).trans (Stays.charge u _ _ _), ?_⟩
    rw [vurbs_charge, vurbs_send_self]
    refine credited_charge (w := { v with submittedLength := n, state := .waitingForCompletion }) hu ?_ hpos ?_
    · cases d <;> rfl
    · exact fun h => absurd h (show waitingForCompletion ≠ _ by decide)
  | request length => exact .inl ⟨Stays.record u c rfl, Credited.kept Iff.rfl rfl⟩
  | complete v status hu hfin => exact .inr ⟨v, status, hu, hfin, rfl⟩

/-! ## Steps that move a request -/

/-- The cancel worker takes the request `u`, lets it go, or has nothing to do with it. -/
structure HeldMove (u : UrbId) (p : Phase) (c c' : Core) : Prop where
  others : ∀ h : Held, h.urb ≠ u → (c'.held = some h ↔ c.held = some h)
  own : p.isHeld = true → ∃ h, c'.held = some h ∧ h.urb = u
  phase : ∀ h, c'.held = some h → h.urb = u → p = h.stage.phase
  wasActive : ∀ h, c'.held = some h → h.urb = u → p = .picked → h.wasActive = (c'.vurbs u).cancelWasActive

/-- A step that moves the request `u` to the phase `p` and leaves the other requests alone. -/
structure Moves (u : UrbId) (p : Phase) (c c' : Core) : Prop where
  urbList : ListMove u c.urbList c'.urbList (p.isLinked = true)
  cancelUrbList : ListMove u c.cancelUrbList c'.cancelUrbList (p = .cancelling)
  givebackUrbList : ListMove u c.givebackUrbList c'.givebackUrbList (p = .completed)
  held : HeldMove u p c c'
  vurbs : ∀ w, w ≠ u → c'.vurbs w = c.vurbs w
  cancelled : p.isLinked = true → ((c'.vurbs u).state = .cancelled ↔ p ≠ .linked)
  nextUrb : ∀ w, w ≠ u → c'.nextUrb ≤ w → c.nextUrb ≤ w
  lt_nextUrb : u < c'.nextUrb
  givebacks : CountMove u c.givebacks c'.givebacks p.givebacks
  frees : CountMove u c.frees c'.frees p.frees

theorem Follows.moves {p : Phase} {ph : UrbId → Phase}
    (h : Follows c ph) (hm : Moves u p c c') : Follows c' (update ph u p) := by
  constructor
  case cancelNodup => exact hm.cancelUrbList.nodup
  case givebackNodup => exact hm.givebackUrbList.nodup
  case held =>
    intro w hw
    have hown := hm.held.own
    have hoths := hm.held.others
    have hhe := h.held w
    grind
  case heldActive =>
    intro held heq hst
    by_cases hw : held.urb = u
    · rw [hw]
      exact hm.held.wasActive held heq hw ((hm.held.phase held heq hw).trans hst)
    · rw [hm.vurbs _ hw]
      exact h.heldActive held ((hm.held.others held hw).1 heq) hst
  all_goals
    grind [Follows, Moves, ListMove, HeldMove, CountMove]

/-! ## The columns of a move -/

namespace HeldMove

variable {u : UrbId} {p : Phase} {c c' : Core}

theorem same (heq : c'.held = c.held) (hnot : ∀ h, c.held = some h → h.urb ≠ u)
    (hp : p.isHeld = false) : HeldMove u p c c' where
  others h _ := by rw [heq]
  own hhe := by rw [hp] at hhe; cases hhe
  phase h hh hu := absurd hu (hnot h (heq ▸ hh))
  wasActive h hh hu := absurd hu (hnot h (heq ▸ hh))

theorem set {held : Held} (heq : c'.held = some held) (hu : held.urb = u) (hnot : ∀ h, c.held = some h → h.urb = u)
    (hp : p = held.stage.phase) (hact : p = .picked → held.wasActive = (c'.vurbs u).cancelWasActive) :
    HeldMove u p c c' where
  others h hne := by
    rw [heq, some.injEq]
    exact iff_of_false (fun hh => hne (hh ▸ hu)) fun hh => hne (hnot h hh)
  own _ := ⟨held, heq, hu⟩
  phase h hh _ := by
    rw [heq, some.injEq] at hh
    exact hh ▸ hp
  wasActive h hh _ := by
    rw [heq, some.injEq] at hh
    exact hh ▸ hact

theorem clear {held : Held} (heq : c'.held = none) (hold : c.held = some held)
    (hu : held.urb = u) (hp : p.isHeld = false) : HeldMove u p c c' where
  others h hne := by
    rw [heq, hold, some.injEq]
    exact iff_of_false nofun fun hh => hne (hh ▸ hu)
  own hhe := by rw [hp] at hhe; cases hhe
  phase h hh := by rw [heq] at hh; cases hh
  wasActive h hh := by rw [heq] at hh; cases hh

end HeldMove

theorem countP_move {log log' : List Event} {n : Nat} {counts : UrbId → Event → Bool} (events : List Event)
    (hlog : log' = events ++ log) (hoths : ∀ w, w ≠ u → events.countP (counts w) = 0)
    (hown : events.countP (counts u) + log.countP (counts u) = n) :
    CountMove u (fun w => log.countP (counts w)) (fun w => log'.countP (counts w)) n := by
  subst hlog
  refine ⟨fun w hw => ?_, countP_append.trans hown⟩
  rw [countP_append, hoths w hw, Nat.zero_add]

/-! ## The moves -/

namespace Follows

variable {u : UrbId} {c : Core} {ph : UrbId → Phase}

section

variable (h : Follows c ph)
include h

theorem lt_nextUrb (hp : ph u ≠ .absent) : u < c.nextUrb := not_le.1 fun hle => hp (h.absent u hle)

theorem not_held (hp : (ph u).isHeld = false) : ∀ held, c.held = some held → held.urb ≠ u := by
  rintro held heq rfl
  rw [h.heldPhase held heq] at hp
  cases hst : held.stage <;> rw [hst] at hp <;> cases hp

theorem phase_linked (hu : u ∈ c.urbList) (hsta : (c.vurbs u).state ≠ .cancelled) : ph u = .linked := by
  by_contra hne
  exact hsta ((h.cancelled u ((h.linked u).1 hu)).2 hne)

theorem not_mem_giveback (hp : ph u ≠ .completed) : u ∉ c.givebackUrbList := fun hu => hp ((h.completed u).1 hu)

end

variable {p : Phase}

section

variable (h : Follows c ph)
include h

theorem sameLinked (hnd : c.urbList.Nodup)
    (hp : (ph u).isLinked = p.isLinked) : ListMove u c.urbList c.urbList (p.isLinked) :=
  same hnd (by rw [h.linked, hp])

theorem sameCancel (hp : ph u = .cancelling ↔ p = .cancelling) :
    ListMove u c.cancelUrbList c.cancelUrbList (p = .cancelling) :=
  same h.cancelNodup ((h.cancelling u).trans hp)

theorem sameGiveback (hp : ph u = .completed ↔ p = .completed) :
    ListMove u c.givebackUrbList c.givebackUrbList (p = .completed) :=
  same h.givebackNodup ((h.completed u).trans hp)

/-- The step gives `u` back as often as its phases say. -/
theorem givebacks_move {c' : Core} (events : List Event)
    (hlog : c'.log = events ++ c.log) (hoths : ∀ w, w ≠ u → events.countP (isGiveback w) = 0)
    (hown : events.countP (isGiveback u) + (ph u).givebacks = p.givebacks) :
    CountMove u c.givebacks c'.givebacks p.givebacks :=
  countP_move events hlog hoths (by rw [← hown, ← h.givebacks u, Core.givebacks])

theorem frees_move {c' : Core} (events : List Event) (hlog : c'.log = events ++ c.log)
    (hoths : ∀ w, w ≠ u → events.countP (isFree w) = 0) (hown : events.countP (isFree u) + (ph u).frees = p.frees) :
    CountMove u c.frees c'.frees p.frees :=
  countP_move events hlog hoths (by rw [← hown, ← h.frees u, Core.frees])

theorem complete (hp : ph u = .linked) (hnd : c.urbList.Nodup) (v : VUrb)
    (status : Int) : Moves u .completed c ((c.setVurb u v).urbComplete u status) := by
  have hnotg : u ∉ c.givebackUrbList := h.not_mem_giveback (by simp [hp])
  have hlog := (c.setVurb u v).log_urbComplete u status
  constructor
  case urbList =>
    rw [urbList_urbComplete]
    exact erase hnd nofun
  case cancelUrbList =>
    rw [cancelUrbList_urbComplete]
    exact h.sameCancel (by simp [hp])
  case givebackUrbList =>
    rw [givebackUrbList_urbComplete]
    show ListMove u c.givebackUrbList (c.givebackUrbList.erase u ++ [u]) _
    rw [erase_of_not_mem hnotg]
    exact append h.givebackNodup hnotg rfl
  case held => exact HeldMove.same (held_urbComplete ..) (h.not_held (by rw [hp]; rfl)) rfl
  case vurbs =>
    intro w hw
    rw [vurbs_urbComplete]
    exact update_of_ne hw ..
  case cancelled => exact nofun
  case nextUrb => exact fun w _ hle => by rwa [nextUrb_urbComplete] at hle
  case lt_nextUrb =>
    rw [nextUrb_urbComplete]
    exact h.lt_nextUrb (by simp [hp])
  case givebacks => exact h.givebacks_move [_, _, _] hlog (fun w _ => rfl) (by rw [hp]; rfl)
  case frees =>
    refine h.frees_move [_, _, _] hlog (fun w hw => ?_) ?_
    · simp [isFree, Ne.symm hw]
    · simp [hp, isFree, Phase.frees]

theorem link (hwf : c.WellFormed) {v : VUrb} (hv : v.state ≠ .cancelled) :
    Moves c.nextUrb .linked c (c.usbHcdLinkUrbToEp v) := by
  have hp : ph c.nextUrb = .absent := h.absent _ le_rfl
  have hse : (c.usbHcdLinkUrbToEp v).vurbs c.nextUrb = v := update_self ..
  refine ⟨append hwf.nodup (fun hu => (hwf.lt_next _ hu).false) rfl, h.sameCancel (by simp [hp]),
    h.sameGiveback (by simp [hp]), HeldMove.same rfl (h.not_held (by rw [hp]; rfl)) rfl,
    fun w hw => update_of_ne hw .., fun _ => ?_, fun w _ hle => (Nat.le_succ _).trans hle,
    Nat.lt_succ_self _, h.givebacks_move [] rfl (fun w _ => rfl) (by rw [hp]; rfl),
    h.frees_move [] rfl (fun w _ => rfl) (by rw [hp]; rfl)⟩
  rw [hse]
  exact iff_of_false hv (not_not_intro rfl)

/-- A failed enqueue frees the request. -/
theorem reject (hp : ph u = .linked) (hnd : c.urbList.Nodup) : Moves u .rejected c (c.urbReject u) := by
  have hgive : ListMove u c.givebackUrbList (c.givebackUrbList.erase u) (Phase.rejected = .completed) := by
    rw [erase_of_not_mem (h.not_mem_giveback (by simp [hp]))]
    exact h.sameGiveback (by simp [hp])
  refine ⟨erase hnd nofun, h.sameCancel (by simp [hp]), hgive,
    HeldMove.same rfl (h.not_held (by rw [hp]; rfl)) rfl, fun w _ => rfl, nofun, fun w _ hle => hle,
    h.lt_nextUrb (by simp [hp]), ?_, ?_⟩
  · exact h.givebacks_move [.free u, .unlink u _] rfl (fun w _ => rfl) (by rw [hp]; rfl)
  · refine h.frees_move [.free u, .unlink u _] rfl (fun w hw => ?_) ?_
    · simp [isFree, Ne.symm hw]
    · simp [hp, isFree, Phase.frees]

/-- `bce_vhci_urb_request_cancel` puts a linked request on the cancel list. -/
theorem mark (hp : ph u = .linked) (hnd : c.urbList.Nodup) (status : Int) :
    Moves u .cancelling c (c.urbMarkCancelled u status) := by
  have hnot : u ∉ c.cancelUrbList := by simp [h.cancelling, hp]
  rw [Core.urbMarkCancelled, if_neg (show u ∉ (Core.setVurb c u _).cancelUrbList from hnot)]
  refine ⟨h.sameLinked hnd (by rw [hp]; rfl), append h.cancelNodup hnot rfl,
    h.sameGiveback (by simp [hp]), HeldMove.same rfl (h.not_held (by rw [hp]; rfl)) rfl,
    fun w hw => update_of_ne hw .., fun _ => iff_of_true ?_ nofun, fun w _ hle => hle,
    h.lt_nextUrb (by simp [hp]), h.givebacks_move [] rfl (fun w _ => rfl) (by rw [hp]; rfl),
    h.frees_move [] rfl (fun w _ => rfl) (by rw [hp]; rfl)⟩
  exact congrArg VUrb.state (vurbs_setVurb_self ..)

/-- The cancel worker takes the first request of the cancel list. -/
theorem pick {rest : List UrbId} (hdl : c.held = none) (hls : c.cancelUrbList = u :: rest) (hnd : c.urbList.Nodup) :
    Moves u .picked c (c.cancelPick u rest) := by
  have hp : ph u = .cancelling := by
    rw [← h.cancelling, hls]
    exact mem_cons_self
  have hsta := (h.cancelled u (by rw [hp]; rfl)).2 (by simp [hp])
  refine ⟨h.sameLinked hnd (by rw [hp]; rfl), ?_, h.sameGiveback (by simp [hp]),
    HeldMove.set rfl rfl (by simp [hdl]) rfl fun _ => rfl, fun w _ => rfl,
    fun _ => iff_of_true hsta nofun, fun w _ hle => hle, h.lt_nextUrb (by simp [hp]),
    h.givebacks_move [] rfl (fun w _ => rfl) (by rw [hp]; rfl),
    h.frees_move [] rfl (fun w _ => rfl) (by rw [hp]; rfl)⟩
  rw [hls]
  exact tail (hls ▸ h.cancelNodup) nofun

end

variable {held : Held}

theorem held_unique (heq : c.held = some held) : ∀ h', c.held = some h' → h'.urb = held.urb := by
  rintro h' heq'
  rw [some.inj (heq.symm.trans heq')]

section

variable (h : Follows c ph)
include h

section

variable (heq : c.held = some held)
include heq

theorem unlink (hst : held.stage = .paused) (hnd : c.urbList.Nodup) :
    Moves held.urb .unlinked c (c.cancelUnlink held) := by
  have hp : ph held.urb = .picked := by
    rw [h.heldPhase held heq, hst]
    rfl
  have hlog := c.log_cancelUnlink held
  constructor
  case urbList =>
    rw [urbList_cancelUnlink]
    exact erase hnd nofun
  case cancelUrbList =>
    rw [cancelUrbList_cancelUnlink]
    exact h.sameCancel (by simp [hp])
  case givebackUrbList =>
    rw [givebackUrbList_cancelUnlink, erase_of_not_mem (h.not_mem_giveback (by simp [hp]))]
    exact h.sameGiveback (by simp [hp])
  case held => exact HeldMove.set (held_cancelUnlink ..) rfl (held_unique heq) rfl nofun
  case vurbs => exact fun w _ => by rw [vurbs_cancelUnlink]
  case cancelled => exact nofun
  case nextUrb => exact fun w _ hle => by rwa [nextUrb_cancelUnlink] at hle
  case lt_nextUrb =>
    rw [nextUrb_cancelUnlink]
    exact h.lt_nextUrb (by simp [hp])
  case givebacks => exact h.givebacks_move [_] hlog (fun w _ => rfl) (by rw [hp]; rfl)
  case frees => exact h.frees_move [_] hlog (fun w _ => rfl) (by rw [hp]; rfl)

theorem give (hst : held.stage = .resumed) (hnd : c.urbList.Nodup) :
    Moves held.urb .returned c (c.cancelGiveback held) := by
  have hp : ph held.urb = .unlinked := by
    rw [h.heldPhase held heq, hst]
    rfl
  refine ⟨h.sameLinked hnd (by rw [hp]; rfl), h.sameCancel (by simp [hp]), h.sameGiveback (by simp [hp]),
    HeldMove.set rfl rfl (held_unique heq) rfl nofun, fun w _ => rfl, nofun, fun w _ hle => hle,
    h.lt_nextUrb (by simp [hp]), ?_, ?_⟩
  · refine h.givebacks_move [.giveback held.urb held.status] rfl (fun w hw => ?_) ?_
    · simp [isGiveback, Ne.symm hw]
    · simp [hp, isGiveback, Phase.givebacks]
  · exact h.frees_move [.giveback held.urb held.status] rfl (fun w _ => rfl) (by rw [hp]; rfl)

theorem free (hst : held.stage = .returned) (hnd : c.urbList.Nodup) : Moves held.urb .gone c (c.cancelFree held) := by
  have hp : ph held.urb = .returned := by
    rw [h.heldPhase held heq, hst]
    rfl
  refine ⟨h.sameLinked hnd (by rw [hp]; rfl), h.sameCancel (by simp [hp]), h.sameGiveback (by simp [hp]),
    HeldMove.clear rfl heq rfl rfl, fun w _ => rfl, nofun, fun w _ hle => hle,
    h.lt_nextUrb (by simp [hp]), ?_, ?_⟩
  · exact h.givebacks_move [.free held.urb] rfl (fun w _ => rfl) (by rw [hp]; rfl)
  · refine h.frees_move [.free held.urb] rfl (fun w hw => ?_) ?_
    · simp [isFree, Ne.symm hw]
    · simp [hp, isFree, Phase.frees]

end

/-- `bce_vhci_transfer_queue_giveback` gives the first completed request back. -/
theorem pop {rest : List UrbId} (hls : c.givebackUrbList = u :: rest)
    (hnd : c.urbList.Nodup) : Moves u .gone c (c.givebackPop u rest) := by
  have hp : ph u = .completed := by
    rw [← h.completed, hls]
    exact mem_cons_self
  refine ⟨h.sameLinked hnd (by rw [hp]; rfl), h.sameCancel (by simp [hp]), ?_,
    HeldMove.same rfl (h.not_held (by rw [hp]; rfl)) rfl, fun w _ => rfl, nofun, fun w _ hle => hle,
    h.lt_nextUrb (by simp [hp]), ?_, ?_⟩
  · rw [hls]
    exact tail (hls ▸ h.givebackNodup) nofun
  · refine h.givebacks_move [.giveback u (c.cells u).status] rfl (fun w hw => ?_) ?_
    · simp [isGiveback, Ne.symm hw]
    · simp [hp, isGiveback, Phase.givebacks]
  · exact h.frees_move [.giveback u (c.cells u).status] rfl (fun w _ => rfl) (by rw [hp]; rfl)

theorem goOn : Follows c.cancelGoOn ph := by
  have hbk : ∀ held', c.cancelGoOn.held = some held' → ∃ held, c.held = some held ∧ held' = held.goOn := by
    intro held' heq
    obtain ⟨held, hhe, rfl⟩ := map_eq_some_iff.1 heq
    exact ⟨held, hhe, rfl⟩
  refine { h with held := ?_, heldPhase := ?_, heldActive := ?_ }
  · intro w hw
    obtain ⟨held, heq, hurb⟩ := h.held w hw
    refine ⟨held.goOn, ?_, held.goOn_frame.1.trans hurb⟩
    show c.held.map Held.goOn = _
    rw [heq]
    rfl
  · intro held' heq
    obtain ⟨held, hhe, rfl⟩ := hbk held' heq
    rw [held.goOn_frame.1, held.goOn_frame.2.2]
    exact h.heldPhase held hhe
  · intro held' heq hst
    obtain ⟨held, hhe, rfl⟩ := hbk held' heq
    rw [held.goOn_frame.2.2] at hst
    rw [held.goOn_frame.1, held.goOn_frame.2.1]
    exact h.heldActive held hhe hst

end

end Follows

/-! ## Every step -/

theorem CancelSafe.of_suffix (l l' : List Event) (hl : l <:+ l') (h : CancelSafe l') :
    CancelSafe l := fun e hmem => h e (hl.subset hmem)

/-- Without a failed status for a cancelled request, only a request that is not cancelled ends by
itself. -/
theorem Final.not_cancelled {log : List Event} {status : Int}
    (h : Final log u v v' status) (hsf : CancelSafe log) : v.state ≠ .cancelled := by
  cases h with
  | failed _ _ _ _ hsta => exact hsta
  | done n hac =>
    rw [hac.state]
    decide
  | succeeded hsta =>
    rw [hsta]
    decide
  | statusFailed _ hsta => exact hsta
  | cancelled s _ hmem hz hsuc =>
    have hfa : failsCancelled (.status u .cancelled s) := by simp [failsCancelled, hz, hsuc]
    rw [hsf _ hmem] at hfa
    cases hfa

namespace Follows

variable {u : UrbId} {c c' : Core} {ph : UrbId → Phase}

theorem urbStep (h : Follows c ph) (hwf : c.WellFormed) (hsf : CancelSafe c'.log)
    (hsp : UrbStep u c c') : ∃ ph', Follows c' ph' := by
  have hsf' := CancelSafe.of_suffix _ _ hsp.log_suffix hsf
  rcases hsp.stays_or_complete with ⟨hstays, -⟩ | ⟨v, status, hu, hfin, rfl⟩
  · exact ⟨ph, h.stays hstays⟩
  · have hp : ph u = .linked := h.phase_linked hu (hfin.not_cancelled hsf')
    exact ⟨_, h.moves (h.complete hp hwf.nodup v status)⟩

theorem urbSteps (h : Follows c ph) (hwf : c.WellFormed) (hsf : CancelSafe c'.log)
    (hsts : UrbSteps u c c') : ∃ ph', Follows c' ph' :=
  UrbSteps.guarded_invariant CancelSafe.of_suffix (I := fun c => ∃ ph, Follows c ph)
    (fun _ _ hwf hsf ⟨_, h⟩ hsp => h.urbStep hwf hsf hsp) hsts hwf hsf ⟨ph, h⟩

theorem step (h : Follows c ph) (hwf : c.WellFormed) (hsf : CancelSafe c'.log)
    (hsp : CoreStep c c') : ∃ ph', Follows c' ph' := by
  have htk : ∀ (d : Direction) (cd : CompletionData) (sq : Sq Entry), Stays 0 c (c.take d cd sq) := by
    intro d cd sq
    exact (Stays.setPipe 0 c d _).trans (Stays.record 0 _ rfl)
  cases hsp with
  | urb u hurb => exact h.urbStep hwf hsf hurb
  | post d e | flush d => exact ⟨ph, h.stays (Stays.setPipe 0 c d _)⟩
  | takeAborted d => exact ⟨ph, h.stays ((htk d _ _).trans (Stays.setPipe 0 _ d _))⟩
  | takeEmpty d => exact ⟨ph, h.stays (htk d _ _)⟩
  | consume d u _ _ _ hsts =>
    -- the request serves the completion after it was read and before the queue is notified
    rw [Core.notifySubmissionComplete, log_setPipe] at hsf
    obtain ⟨ph', hph'⟩ := (h.stays (htk d _ _)).urbSteps (hwf.take d _ _) hsf hsts
    exact ⟨ph', hph'.stays (Stays.setPipe 0 _ d _)⟩
  | link urb sgList => exact ⟨_, h.moves (h.link hwf (show initPending ≠ .cancelled by decide))⟩
  | reject u hu hsta =>
    have hp : ph u = .linked := h.phase_linked hu (by rw [hsta]; decide)
    exact ⟨_, h.moves (h.reject hp hwf.nodup)⟩
  | checkUnlink u status => exact ⟨ph, h.stays (Stays.setCell 0 c u _)⟩
  | mark u status hu hsta => exact ⟨_, h.moves (h.mark (h.phase_linked hu hsta) hwf.nodup status)⟩
  | pick u hdl hls => exact ⟨_, h.moves (h.pick hdl hls hwf.nodup)⟩
  | goOn => exact ⟨ph, h.goOn⟩
  | unlink held heq hst => exact ⟨_, h.moves (h.unlink heq hst hwf.nodup)⟩
  | give held heq hst => exact ⟨_, h.moves (h.give heq hst hwf.nodup)⟩
  | free held heq hst => exact ⟨_, h.moves (h.free heq hst hwf.nodup)⟩
  | pop u hls => exact ⟨_, h.moves (h.pop hls hwf.nodup)⟩

theorem create (endp : Endpoint) : Follows (Core.create endp) fun _ => .absent where
  linked w := iff_of_false not_mem_nil (by decide)
  cancelled w hw := by cases hw
  cancelling w := iff_of_false not_mem_nil (by decide)
  completed w := iff_of_false not_mem_nil (by decide)
  held w hw := by cases hw
  heldPhase h hh := by cases hh
  heldActive h hh := by cases hh
  cancelNodup := nodup_nil
  givebackNodup := nodup_nil
  absent w _ := rfl
  givebacks w := rfl
  frees w := rfl

/-- A freed request is neither on the cancel list nor with the cancel worker. -/
theorem not_cancelling_of_freed (h : Follows c ph) (hfr : 0 < c.frees u) :
    u ∉ c.cancelUrbList ∧ ∀ held, c.held = some held → held.urb ≠ u := by
  rw [h.frees] at hfr
  have hnot : ph u ≠ .cancelling ∧ (ph u).isHeld = false := by
    cases hp : ph u <;> rw [hp] at hfr <;> first | exact absurd hfr (by decide) | decide
  exact ⟨fun hu => hnot.1 ((h.cancelling u).1 hu), h.not_held hnot.2⟩

end Follows

/-- Every run without a failed status stage for a cancelled request follows the phases. -/
theorem System.follows {s : System} (h : tqMachine.Reachable s) (hsf : CancelSafe s.log) : ∃ ph, Follows s.toCore ph :=
  System.guarded_invariant CancelSafe.of_suffix (I := fun c => ∃ ph, Follows c ph)
    (fun endp => ⟨_, Follows.create endp⟩)
    (fun _ _ hwf hsf ⟨_, h⟩ hsp => h.step hwf hsf hsp) h hsf

/-! ## Results -/

/-- If no failed status stage is reported for a request that is being cancelled, a request is given back at most once
and freed at most once, and a freed request is neither on `cancel_urb_list` nor with the cancel worker. -/
theorem urb_single_giveback {s : System} (h : tqMachine.Reachable s) (hsafe : CancelSafe s.log) (u : UrbId) :
    s.givebacks u ≤ 1 ∧ s.frees u ≤ 1 ∧
      (0 < s.frees u → u ∉ s.cancelUrbList ∧ ∀ held, s.held = some held → held.urb ≠ u) := by
  obtain ⟨ph, hph⟩ := System.follows h hsafe
  refine ⟨?_, ?_, fun hfr => hph.not_cancelling_of_freed hfr⟩
  · rw [hph.givebacks]
    cases ph u <;> decide
  · rw [hph.frees]
    cases ph u <;> decide

/-! ## Runs -/

/-- `GET_DESCRIPTOR` for 18 bytes. -/
def getDescriptor : Urb := ⟨.fromDevice, 18, 0x1000, 0x2000, false, false, [], by decide⟩

/-- An enqueue that succeeds. -/
def CreateOutcome.granted : CreateOutcome := ⟨true, true, none, 0⟩

/-- The cancel worker handles the first request of the cancel list, and the firmware carries out
every command. -/
def cancelWorkerRun : List Action :=
  [.cancelPause, .pauseStep ⟨0, none, false⟩, .pauseStep ⟨0, none, false⟩,
    .pauseStep ⟨0, some .paused, false⟩, .pauseStep ⟨0, none, false⟩, .pauseStep ⟨0, none, false⟩,
    .cancelUnlink, .cancelResume, .pauseStep ⟨0, some .active, false⟩, .pauseStep ⟨0, none, false⟩,
    .cancelGiveback, .cancelFree]

/-- A control request is enqueued, cancelled and taken off the cancel list; `middle` happens before
the cancel worker pauses the endpoint. -/
def cancelledControlRun (middle : List Action) : List Action :=
  [.enqueue getDescriptor .granted, .dequeue 0 (-104), .cancelPick] ++ middle ++ cancelWorkerRun

/-- A cancelled request whose status stage succeeds meanwhile is given back once. -/
theorem urb_single_giveback_cancelled :
    ∃ s, tqMachine.Reachable s ∧ CancelSafe s.log ∧ s.givebacks 0 = 1 ∧ s.frees 0 = 1 ∧
      (s.givebacks 0 ≤ 1 ∧ s.frees 0 ≤ 1 ∧
        (0 < s.frees 0 → 0 ∉ s.cancelUrbList ∧ ∀ held, s.held = some held → held.urb ≠ 0)) := by
  obtain ⟨s, hs, hsf, hgive, hfr⟩ := exists_of_run (M := tqMachine)
    (P := fun s => CancelSafe s.log ∧ s.givebacks 0 = 1 ∧ s.frees 0 = 1)
    (cancelledControlRun [.event true ⟨.controlTransferStatus, BCE_VHCI_SUCCESS, 0, 0⟩])
    ⟨.control, rfl⟩ (by decide)
  exact ⟨s, hs, hsf, hgive, hfr, urb_single_giveback hs hsf 0⟩

/-- The firmware reports a stalled status stage for a request that the cancel worker holds. -/
def stalledWhileCancelled : List Action :=
  [.event true ⟨.controlTransferStatus, BCE_VHCI_USB_PIPE_STALL, 0, 0⟩, .giveback]

/-- The request is freed while the cancel worker holds it, and given back and freed again by the
worker. -/
theorem urb_given_back_twice : (∃ s, tqMachine.Reachable s ∧ s.frees 0 = 1 ∧ s.held.map Held.urb = some 0) ∧
      ∃ s, tqMachine.Reachable s ∧ s.givebacks 0 = 2 ∧ s.frees 0 = 2 :=
  ⟨exists_of_run ([.enqueue getDescriptor .granted, .dequeue 0 (-104), .cancelPick] ++
      stalledWhileCancelled) ⟨.control, rfl⟩ (by decide),
    exists_of_run (cancelledControlRun stalledWhileCancelled) ⟨.control, rfl⟩ (by decide)⟩

end KaiT2en.Vhci
