import KaiT2en.Vhci.Flags
import KaiT2en.Vhci.Simulation

/-!
# Pause sources

`paused_by` holds the sources that keep a transfer queue paused. `Watched` records the calls of
`bce_vhci_transfer_queue_pause` and `bce_vhci_transfer_queue_resume` on a queue to which everything else may happen as
well, and `pause_sources` says that `paused_by` is the set of the sources whose last successful call was a pause.

A failed pause is rolled back, which asks the firmware for the state ACTIVE. If the firmware refuses, the queue stays
inactive although no source keeps it paused (`failed_rollback_inactive`); nothing else keeps a queue inactive that has
not stalled.
-/

namespace KaiT2en.Vhci

open KaiT2en.Kernel KaiT2en.Dma KaiT2en.Lib.Transition Option

/-! ## Sets of sources -/

/-- The four values of `enum bce_vhci_pause_source`. -/
def pauseSources : List (BitVec 32) := BCE_VHCI_PAUSE_INTERNAL_WQ :: externalSources

theorem mem_pauseSources {src : BitVec 32} : src ∈ pauseSources ↔
    src = BCE_VHCI_PAUSE_INTERNAL_WQ ∨ src = BCE_VHCI_PAUSE_FIRMWARE ∨ src = BCE_VHCI_PAUSE_SUSPEND ∨
      src = BCE_VHCI_PAUSE_SHUTDOWN := by
  simp [pauseSources, externalSources]

instance (src : BitVec 32) : Decidable (src ∈ pauseSources) := decidable_of_iff _ mem_pauseSources.symm

/-- The sources that satisfy `p`, as a mask. -/
def sourceSet (p : BitVec 32 → Bool) : BitVec 32 := (pauseSources.filter p).foldr (· ||| ·) 0#32

section SourceSet

variable {src : BitVec 32}

variable (p : BitVec 32 → Bool)

theorem sourceSet_eq : sourceSet p =
    (bif p 1#32 then 1#32 else 0#32) ||| (bif p 2#32 then 2#32 else 0#32) |||
      (bif p 4#32 then 4#32 else 0#32) ||| (bif p 8#32 then 8#32 else 0#32) := by
  unfold sourceSet pauseSources externalSources BCE_VHCI_PAUSE_INTERNAL_WQ BCE_VHCI_PAUSE_FIRMWARE
    BCE_VHCI_PAUSE_SUSPEND BCE_VHCI_PAUSE_SHUTDOWN
  simp only [List.filter]
  cases p 1#32 <;> cases p 2#32 <;> cases p 4#32 <;> cases p 8#32 <;> rfl

theorem pauseSources_cases (h : src ∈ pauseSources) : src = 1#32 ∨ src = 2#32 ∨ src = 4#32 ∨ src = 8#32 := by
  simpa only [pauseSources, externalSources, BCE_VHCI_PAUSE_INTERNAL_WQ, BCE_VHCI_PAUSE_FIRMWARE,
    BCE_VHCI_PAUSE_SUSPEND, BCE_VHCI_PAUSE_SHUTDOWN, List.mem_cons, List.not_mem_nil, or_false]
    using h

theorem sourceSet_or (h : src ∈ pauseSources) :
    sourceSet p ||| src = sourceSet fun s => if s = src then true else p s := by
  simp only [sourceSet_eq]
  rcases pauseSources_cases h with rfl | rfl | rfl | rfl <;> cases p 1#32 <;> cases p 2#32 <;>
    cases p 4#32 <;> cases p 8#32 <;> rfl

theorem sourceSet_and_not (h : src ∈ pauseSources) :
    sourceSet p &&& ~~~src = sourceSet fun s => if s = src then false else p s := by
  simp only [sourceSet_eq]
  rcases pauseSources_cases h with rfl | rfl | rfl | rfl <;> cases p 1#32 <;> cases p 2#32 <;>
    cases p 4#32 <;> cases p 8#32 <;> rfl

theorem or_eq_self_of_and_eq {set : BitVec 32} (h : set &&& src = src) : set ||| src = set := by
  ext i
  grind

theorem and_not_eq_self_of_and_eq_zero {set : BitVec 32} (h : set &&& src = 0#32) : set &&& ~~~src = set := by
  ext i hi
  have hbit := congrArg (fun x : BitVec 32 => x[i]) h
  grind

end SourceSet

/-! ## Calls and their record -/

/-- What the calls do to the set of sources when they succeed. -/
def PauseCall.apply : PauseCall → BitVec 32 → BitVec 32
  | .pause src, set => set ||| src
  | .resume src, set => set &&& ~~~src
  | .reset, set => set

/-- The source of the call is one of the four. -/
def PauseCall.Known : PauseCall → Prop
  | .pause src | .resume src => src ∈ pauseSources
  | .reset => True

def System.start (s : System) (call : PauseCall) (worker : Bool) : System :=
  match call with
  | .pause src => s.pause src worker
  | .resume src => s.resume src worker
  | .reset => s.reset

/-- The call that an action makes. The cancel worker makes its calls for active requests only. -/
def System.calls (s : System) : Action → Option PauseCall
  | .pause src => some (.pause src)
  | .resume src => some (.resume src)
  | .reset => some .reset
  | .resetResume => some (.resume BCE_VHCI_PAUSE_INTERNAL_WQ)
  | .cancelPause => if s.held.any Held.wasActive then some (.pause BCE_VHCI_PAUSE_INTERNAL_WQ) else none
  | .cancelResume => if s.held.any Held.wasActive then some (.resume BCE_VHCI_PAUSE_INTERNAL_WQ) else none
  | _ => none

/-- Whether a call that ends after the stage returns 0. -/
def PauseOp.succeeds (op : PauseOp) : Bool :=
  match op.call, op.stage with
  | .pause _, .flush .toDevice => true
  | .resume _, .restart => true
  | .reset, _ => true
  | _, _ => false

/-- The pause has failed and is rolled back by `bce_vhci_transfer_queue_do_resume`. -/
def PauseOp.rollsBack (op : PauseOp) : Bool :=
  match op.call, op.stage with
  | .pause _, .setActive => true
  | _, _ => false

/-- What is recorded of the calls; `set` is `paused_by` at that moment. -/
inductive PauseEvent where
  /-- The call goes beyond its check of `paused_by`: a pause issues
  `bce_vhci_transfer_queue_do_pause`, a resume `bce_vhci_transfer_queue_do_resume`. -/
  | issued (call : PauseCall) (set : BitVec 32)
  /-- A failed `bce_vhci_transfer_queue_do_pause` issues `bce_vhci_transfer_queue_do_resume`. -/
  | rollback (set : BitVec 32)
  /-- The reset worker adds itself to the sources. -/
  | marked
  /-- The call returns; `before` is `paused_by` when it took the lock. -/
  | returned (call : PauseCall) (ok : Bool) (before after : BitVec 32)
  deriving DecidableEq

/-- Whether the last successful operation of `src` was a pause, newest event first. -/
def lastPaused : List PauseEvent → BitVec 32 → Bool
  | [], _ => false
  | .returned (.pause s) true _ _ :: rest, src => if src = s then true else lastPaused rest src
  | .returned (.resume s) true _ _ :: rest, src => if src = s then false else lastPaused rest src
  | .marked :: rest, src => if src = BCE_VHCI_PAUSE_INTERNAL_WQ then true else lastPaused rest src
  | _ :: rest, src => lastPaused rest src

/-- A queue with the record of the calls. -/
structure Watched where
  system : System
  /-- `paused_by` when the holder of `pause_lock` took it. -/
  before : BitVec 32
  /-- The last call that went beyond its check was a pause that failed, and so did its rollback. -/
  rollbackFailed : Bool
  history : List PauseEvent

namespace Watched

variable (w : Watched)

/-- Record the first section of a call. -/
def begin (call : PauseCall) (t : System) : Watched :=
  let set := w.system.pausedBy
  { w with
    system := t
    before := set
    history := (match t.pauseLock with
      | none => .returned call true set t.pausedBy
      | some _ => .issued call set) :: w.history }

/-- Record a step of the holder of `pause_lock`, or a section of another thread meanwhile. -/
def advance (op : PauseOp) (t : System) : Watched :=
  match t.pauseLock with
  | none =>
    { w with
      system := t
      rollbackFailed := op.rollsBack
      history := .returned op.call op.succeeds w.before t.pausedBy :: w.history }
  | some op' =>
    { w with
      system := t
      history :=
        if op'.rollsBack = true ∧ op.rollsBack = false then .rollback t.pausedBy :: w.history
        else if op.stage = .mark ∧ op'.stage ≠ .mark then .marked :: w.history
        else w.history }

/-- Record what an action did. -/
def observe (call : Option PauseCall) (t : System) : Watched :=
  match call, w.system.pauseLock with
  | some call, _ => w.begin call t
  | none, some op => w.advance op t
  | none, none => { w with system := t }

end Watched

/-- The actions of a watched queue. Any thread may make calls with any of the four sources. -/
inductive PauseAction where
  | pause (src : BitVec 32)
  | resume (src : BitVec 32)
  | system (a : Action)

def Watched.next (w : Watched) : PauseAction → Option Watched
  | .pause src =>
    if w.system.pauseLock.isSome ∨ src ∉ pauseSources then none
    else some (w.begin (.pause src) (w.system.pause src false))
  | .resume src =>
    if w.system.pauseLock.isSome ∨ src ∉ pauseSources then none
    else some (w.begin (.resume src) (w.system.resume src false))
  | .system a => (w.system.next a).map (w.observe (w.system.calls a))

/-- A new queue, before any call. -/
def Watched.create (endp : Endpoint) : Watched where
  system := System.create endp
  before := 0#32
  rollbackFailed := false
  history := []

/-- All transfer queues with the record of the calls. -/
def pauseMachine : Machine Watched PauseAction where
  init w := ∃ endp, w = Watched.create endp
  next := Watched.next

/-! ## What a step does -/

/-- The steps of a queue, as the flags and the lock see them. -/
inductive Advances (s : System) : Option PauseCall → System → Prop
  | start {call : PauseCall} (worker resetResume : Bool) : s.pauseLock = none → call.Known →
      Advances s (some call) ({ s with resetResume := resetResume }.start call worker)
  | step {t : System} (op : PauseOp) (o : Outcome) : s.pauseLock = some op →
      s.pauseStep op o = some t → Advances s none t
  | under {t : System} : t.pauseLock = s.pauseLock → Flagged s.toTq t.toTq → Advances s none t

namespace System

variable {s t : System}

theorem flags_unlock (s : System) (worker : Bool) : (s.unlock worker).toTq.flags = s.toTq.flags := by
  cases worker <;> rfl

theorem flags_flushQueue (s : System) (d : Direction) (o : Outcome) : (s.flushQueue d o).toTq.flags = s.toTq.flags := by
  unfold System.flushQueue
  split <;> rfl

theorem cancelStep_advances {a : Action} (h : s.cancelStep a = some t) : Advances s (s.calls a) t := by
  cases a with
  | cancelPick =>
    simp only [System.cancelStep] at h
    split at h
    · split at h <;> cases h <;> exact .under rfl (.of_flags rfl)
    · cases h
  | cancelPause | cancelResume =>
    obtain ⟨held, hhe, -, hca⟩ := onHeld_some h
    unfold System.workerCall at hca
    simp only [System.calls, hhe, any_some]
    split at hca
    · rename_i hact
      rw [if_pos hact]
      split at hca
      · cases hca
      · rename_i hlo
        cases hca
        exact .start true s.resetResume (not_isSome_iff_eq_none.1 hlo) List.mem_cons_self
    · rename_i hact
      rw [if_neg hact]
      cases hca
      exact .under rfl (.of_flags rfl)
  | cancelUnlink | cancelGiveback | cancelFree =>
    obtain ⟨held, -, -, hca⟩ := onHeld_some h
    cases hca
    exact .under rfl (.of_flags rfl)
  | _ => cases h

theorem next_advances {a : Action} (h : s.next a = some t) : Advances s (s.calls a) t := by
  have hfr : ∀ {p : Prop}, ¬(s.pauseLock.isSome ∨ p) → s.pauseLock = none := by simp_all
  cases a with
  | enqueue urb o =>
    simp only [System.next] at h
    split at h
    · split at h
      · cases h
        exact .under rfl .refl
      · cases h
        exact .under rfl (s.toTq.urbCreate_flagged _ _)
    · cases h
  | dequeue u status =>
    cases h
    exact .under rfl (s.toTq.urbRequestCancel_flagged u status)
  | event kmalloc msg =>
    cases h
    exact .under rfl (s.toTq.transferQueueEvent_flagged kmalloc msg)
  | post _ _ | giveback =>
    simp only [System.next] at h
    split at h <;> cases h
    exact .under rfl (.of_flags rfl)
  | completion d =>
    cases h
    exact .under rfl (s.toTq.transferQueueCompletion_flagged d)
  | pause _ | resume _ =>
    simp only [System.next] at h
    split at h
    · cases h
    rename_i hcond
    cases h
    exact .start false s.resetResume (hfr hcond) (List.mem_cons_of_mem _ (not_not.1 fun hsrc => hcond (.inr hsrc)))
  | reset =>
    simp only [System.next] at h
    split at h
    · cases h
    · rename_i hcond
      cases h
      exact .start false s.resetResume (hfr hcond) trivial
  | resetResume =>
    simp only [System.next] at h
    split at h
    · cases h
    · rename_i hcond
      cases h
      exact .start false false (hfr hcond) List.mem_cons_self
  | pauseStep o =>
    simp only [System.next] at h
    split at h
    · cases h
    · rename_i op hop
      exact .step op o hop h
  | firmwareStalled =>
    cases h
    have hstall : Flagged s.toTq s.toTq.stall := ⟨rfl, fun _ => rfl, fun h => by cases h⟩
    refine .under rfl (hstall.trans (.of_flags ?_))
    · split <;> rfl
  | endpointReset | setDmaAvailable _ | setAsyncReservations _ =>
    cases h
    exact .under rfl (.of_flags rfl)
  | cancelPick => exact cancelStep_advances (a := .cancelPick) h
  | cancelPause => exact cancelStep_advances (a := .cancelPause) h
  | cancelUnlink => exact cancelStep_advances (a := .cancelUnlink) h
  | cancelResume => exact cancelStep_advances (a := .cancelResume) h
  | cancelGiveback => exact cancelStep_advances (a := .cancelGiveback) h
  | cancelFree => exact cancelStep_advances (a := .cancelFree) h

end System

/-! ## The invariant -/

section SourceSet

variable {src : BitVec 32} (h : List PauseEvent)

theorem sourceSet_eq_source (p : BitVec 32 → Bool) (hsrc : src ∈ pauseSources)
    (hmem : sourceSet p &&& src ≠ 0#32) (hla : sourceSet p &&& ~~~src = 0#32) :
    sourceSet p = src := by
  simp only [sourceSet_eq] at hmem hla ⊢
  revert hmem hla
  rcases pauseSources_cases hsrc with rfl | rfl | rfl | rfl <;> cases p 1#32 <;> cases p 2#32 <;>
    cases p 4#32 <;> cases p 8#32 <;> decide

theorem or_internalWq_ne_zero (set : BitVec 32) : set ||| BCE_VHCI_PAUSE_INTERNAL_WQ ≠ 0#32 := by
  intro hz
  have hbit := congrArg (fun x : BitVec 32 => x.getLsbD 0) hz
  simp [BCE_VHCI_PAUSE_INTERNAL_WQ] at hbit

theorem sourceSet_returned {call : PauseCall} (hca : call.Known) (before after : BitVec 32) :
    sourceSet (lastPaused (.returned call true before after :: h)) = call.apply (sourceSet (lastPaused h)) := by
  cases call with
  | pause src => exact (sourceSet_or _ hca).symm
  | resume src => exact (sourceSet_and_not _ hca).symm
  | reset => rfl

theorem lastPaused_failed (call : PauseCall) (before after : BitVec 32) :
    lastPaused (.returned call false before after :: h) = lastPaused h := by
  cases call <;> rfl

theorem sourceSet_marked : sourceSet (lastPaused (.marked :: h)) =
    sourceSet (lastPaused h) ||| BCE_VHCI_PAUSE_INTERNAL_WQ :=
  (sourceSet_or _ List.mem_cons_self).symm

end SourceSet

/-- What holds of an event when it is recorded. -/
def PauseEvent.Sound : PauseEvent → Prop
  | .issued (.pause _) set => set = 0#32
  | .issued (.resume src) set => set = src
  | .rollback set => set = 0#32
  | .returned _ false before after => after = before
  | _ => True

/-- What the stage of a call says about the set of sources. -/
def PauseOp.Consistent (op : PauseOp) (before set : BitVec 32) : Prop :=
  match op.call with
  | .pause src => src ∈ pauseSources ∧ before = 0#32 ∧ set = 0#32 ∧ op.stage ≠ .mark ∧ op.stage ≠ .resetCommand
  | .resume src => src ∈ pauseSources ∧ before = src ∧ set = src ∧ (op.stage = .setActive ∨ op.stage = .restart)
  | .reset => op.stage = .mark ∨ set ≠ 0#32 ∧
      (op.stage = .removePending ∨ (∃ d, op.stage = .flush d) ∨ op.stage = .resetCommand)

namespace PauseOp.Consistent

variable {op : PauseOp} {before set : BitVec 32}

theorem pause_iff {src : BitVec 32} (hca : op.call = .pause src) : op.Consistent before set ↔
    src ∈ pauseSources ∧ before = 0#32 ∧ set = 0#32 ∧ op.stage ≠ .mark ∧ op.stage ≠ .resetCommand := by
  rw [PauseOp.Consistent, hca]

theorem resume_iff {src : BitVec 32} (hca : op.call = .resume src) : op.Consistent before set ↔
    src ∈ pauseSources ∧ before = src ∧ set = src ∧ (op.stage = .setActive ∨ op.stage = .restart) := by
  rw [PauseOp.Consistent, hca]

section

variable (h : op.Consistent before set)
include h

theorem known : op.call.Known := by
  cases hca : op.call with
  | pause src => exact ((pause_iff hca).1 h).1
  | resume src => exact ((resume_iff hca).1 h).1
  | reset => trivial

theorem set_eq (hne : op.call ≠ .reset) : set = before := by
  cases hca : op.call with
  | pause src =>
    obtain ⟨-, hbef, hset, -⟩ := (pause_iff hca).1 h
    rw [hset, hbef]
  | resume src =>
    obtain ⟨-, hbef, hset, -⟩ := (resume_iff hca).1 h
    rw [hset, hbef]
  | reset => exact absurd hca hne

theorem rollsBack (hbk : op.rollsBack) : set = 0#32 := by
  unfold PauseOp.rollsBack at hbk
  split at hbk
  · next hca _ => exact ((pause_iff hca).1 h).2.2.1
  · cases hbk

end

end PauseOp.Consistent

/-- The invariant behind `pause_sources`. -/
structure Watched.Inv (w : Watched) : Prop where
  sources : w.system.pausedBy = sourceSet (lastPaused w.history)
  events : ∀ e ∈ w.history, e.Sound
  paused : w.system.pausedBy ≠ 0#32 → w.system.active = false
  free : w.system.pauseLock = none → w.system.stalled = false → w.system.pausedBy = 0#32 →
    (w.system.active = true ↔ w.rollbackFailed = false)
  held : ∀ op, w.system.pauseLock = some op → w.system.active = false ∧ op.Consistent w.before w.system.pausedBy

namespace Watched.Inv

variable {w : Watched} {t : System} {op : PauseOp}

section

variable (hw : w.Inv)
include hw

theorem under (hlo : t.pauseLock = w.system.pauseLock)
    (hfl : Flagged w.system.toTq t.toTq) : (w.observe none t).Inv := by
  have hw' : Watched.Inv { w with system := t } := by
    constructor
    · exact hfl.pausedBy.trans hw.sources
    · exact hw.events
    · intro hne
      apply hfl.inactive
      apply hw.paused
      rwa [← hfl.pausedBy]
    · intro hfr hstl hz
      obtain ⟨hbef, hact⟩ := hfl.unstalled hstl
      rw [hact]
      exact hw.free (hlo ▸ hfr) hbef (hfl.pausedBy ▸ hz)
    · intro op hop
      obtain ⟨hact, hcn⟩ := hw.held op (hlo ▸ hop)
      refine ⟨hfl.inactive hact, ?_⟩
      rwa [hfl.pausedBy]
  unfold observe
  cases hop : w.system.pauseLock with
  | none => exact hw'
  | some op => grind [advance]

section

variable (hop : w.system.pauseLock = some op)
include hop

theorem goTo {stage : PauseStage} (hlo : t.pauseLock = some { op with stage := stage })
    (hfl : t.toTq.flags = w.system.toTq.flags) (hmark : op.stage ≠ .mark)
    (hcn : PauseOp.Consistent { op with stage := stage } w.before w.system.pausedBy) :
    (w.advance op t).Inv := by
  have hset : t.pausedBy = w.system.pausedBy := congrArg Flags.pausedBy hfl
  have hact : t.active = w.system.active := congrArg Flags.active hfl
  have hdl := (hw.held op hop).1
  -- a rollback may be recorded, which does not count as an operation of a source
  have hrec : ∀ history, (history = w.history ∨ (history = .rollback t.pausedBy :: w.history ∧
      PauseOp.rollsBack { op with stage := stage })) →
      Watched.Inv { w with system := t, history := history } := by
    intro history hhis
    constructor
    · rcases hhis with rfl | ⟨rfl, -⟩
      · exact hset.trans hw.sources
      · exact hset.trans hw.sources
    · intro e he
      rcases hhis with rfl | ⟨rfl, hbk⟩
      · exact hw.events e he
      rcases List.mem_cons.1 he with rfl | he
      · exact hset.trans (hcn.rollsBack hbk)
      · exact hw.events e he
    · intro _
      exact hact.trans hdl
    · intro hfr
      rw [hlo] at hfr
      cases hfr
    · grind
  unfold advance
  rw [hlo]
  apply hrec
  split
  · rename_i hbk
    exact .inr ⟨rfl, hbk.1⟩
  · rw [if_neg fun h => hmark h.1]
    exact .inl rfl

theorem returns {q : Tq} (hlo : t.pauseLock = none) (hfl : t.toTq.flags = q.flags)
    (hset : q.pausedBy = if op.succeeds then op.call.apply w.system.pausedBy else w.system.pausedBy)
    (hpaused : q.pausedBy ≠ 0#32 → q.active = false)
    (hfr : q.stalled = false → q.pausedBy = 0#32 → (q.active = true ↔ op.rollsBack = false)) :
    (w.advance op t).Inv := by
  have hcn := (hw.held op hop).2
  simp only [Tq.flags, Flags.mk.injEq] at hfl
  obtain ⟨hact, hstl, -, hpaus⟩ := hfl
  rw [← hpaus] at hset
  rw [← hpaus, ← hact] at hpaused hfr
  rw [← hstl] at hfr
  unfold advance
  rw [hlo]
  constructor
  · cases hok : op.succeeds with
    | true =>
      rw [sourceSet_returned _ hcn.known, ← hw.sources]
      rw [hok] at hset
      exact hset
    | false =>
      rw [hok] at hset
      rw [lastPaused_failed]
      exact hset.trans hw.sources
  · intro e he
    rcases List.mem_cons.1 he with rfl | he
    · cases hok : op.succeeds with
      | true => trivial
      | false =>
        rw [hok] at hset
        refine hset.trans (hcn.set_eq ?_)
        -- the reset worker does not fail
        intro hres
        unfold PauseOp.succeeds at hok
        rw [hres] at hok
        cases hok
    · exact hw.events e he
  · exact hpaused
  · intro _
    exact hfr
  · simp [hlo]

theorem returns_inactive {q : Tq} (hlo : t.pauseLock = none) (hfl : t.toTq.flags = q.flags) (hdl : q.active = false)
    (hset : q.pausedBy = if op.succeeds then op.call.apply w.system.pausedBy else w.system.pausedBy)
    (hbk : q.pausedBy = 0#32 → op.rollsBack) : (w.advance op t).Inv := by
  refine hw.returns hop hlo hfl hset (fun _ => hdl) fun _ hemp => ?_
  rw [hdl, hbk hemp]
  decide

theorem returns_active {q : Tq} {set : BitVec 32} (hlo : t.pauseLock = none)
    (hfl : t.toTq.flags = { q with pausedBy := set }.flags) (hq : Flagged { w.system.toTq with active := true } q)
    (hbk : op.rollsBack = false) (hemp : set = 0#32)
    (hset : set = if op.succeeds then op.call.apply w.system.pausedBy else w.system.pausedBy) :
    (w.advance op t).Inv := by
  refine hw.returns hop hlo hfl hset (absurd hemp) fun huns _ => ?_
  exact ⟨fun _ => hbk, fun _ => (hq.unstalled huns).2⟩

end

theorem started (hfr : w.system.pauseLock = none) {call : PauseCall} (hca : call.Known) (worker resetResume : Bool) :
    (w.begin call ({ w.system with resetResume := resetResume }.start call worker)).Inv := by
  -- a call that returns at once keeps `active`
  have hdn : ∀ {t : System} {set : BitVec 32}, t.pauseLock = none →
      t.toTq.flags = { w.system.toTq with pausedBy := set }.flags →
      set = call.apply w.system.pausedBy → (set = 0#32 ↔ w.system.pausedBy = 0#32) →
      (w.begin call t).Inv := by
    intro t set hlo hfl hset hemp
    simp only [Tq.flags, Flags.mk.injEq] at hfl
    obtain ⟨hact, hstl, -, hpaus⟩ := hfl
    unfold begin
    rw [hlo]
    constructor
    · rw [sourceSet_returned _ hca, ← hw.sources]
      exact hpaus.trans hset
    · intro e he
      rcases List.mem_cons.1 he with rfl | he
      · trivial
      · exact hw.events e he
    · intro hne
      exact hact.trans (hw.paused fun hz => hne (hpaus.trans (hemp.2 hz)))
    · intro _ huns hz
      rw [show ({ w with system := t } : Watched).system.active = w.system.active from hact]
      exact hw.free hfr (hstl ▸ huns) (hemp.1 (hpaus.symm.trans hz))
    · simp [hlo]
  -- any other call keeps the set and makes sure that the queue is inactive
  have hiss : ∀ (t : System) (op : PauseOp), t.pauseLock = some op → t.active = false →
      t.pausedBy = w.system.pausedBy → (PauseEvent.issued call w.system.pausedBy).Sound →
      op.Consistent w.system.pausedBy w.system.pausedBy → (w.begin call t).Inv := by
    intro t op hlo hdl hset hsnd hcn
    unfold begin
    rw [hlo]
    constructor
    · refine hset.trans (hw.sources.trans ?_)
      cases call <;> rfl
    · intro e he
      rcases List.mem_cons.1 he with rfl | he
      · exact hsnd
      · exact hw.events e he
    · intro _
      exact hdl
    · intro hno
      rw [hlo] at hno
      cases hno
    · grind
  cases call with
  | pause src =>
    simp only [System.start, System.pause]
    split
    · next hmem => exact hdn rfl (System.flags_unlock _ worker) (or_eq_self_of_and_eq hmem).symm Iff.rfl
    split
    · next hz => exact hiss _ _ rfl rfl rfl hz ⟨hca, hz, hz, nofun, nofun⟩
    · next hz =>
        refine hdn rfl (System.flags_unlock _ worker) rfl ?_
        exact ⟨fun hor => (BitVec.or_eq_zero_iff.1 hor).1, (absurd · hz)⟩
  | resume src =>
    simp only [System.start, System.resume]
    split
    · next hno => exact hdn rfl (System.flags_unlock _ worker) (and_not_eq_self_of_and_eq_zero hno).symm Iff.rfl
    next hmem =>
      have hne : w.system.pausedBy ≠ 0#32 := by
        intro hz
        rw [hz, BitVec.zero_and] at hmem
        exact hmem rfl
      split
      · next hla =>
          have hsrc : w.system.pausedBy = src := by
            rw [hw.sources] at hmem hla ⊢
            exact sourceSet_eq_source _ hca hmem hla
          exact hiss _ _ rfl (hw.paused hne) rfl hsrc ⟨hca, hsrc, hsrc, .inl rfl⟩
      · next hla => exact hdn rfl (System.flags_unlock _ worker) rfl ⟨(absurd · hla), (absurd · hne)⟩
  | reset =>
    simp only [System.start, System.reset]
    split
    · exact hdn hfr rfl rfl Iff.rfl
    · exact hiss _ _ rfl rfl rfl trivial (.inl rfl)

end

variable {src : BitVec 32}

theorem ne_zero_of_mem_pauseSources (h : src ∈ pauseSources) : src ≠ 0#32 := by
  rcases pauseSources_cases h with rfl | rfl | rfl | rfl <;> decide

variable {o : Outcome}

section

variable (hw : w.Inv)
include hw

section

variable (hop : w.system.pauseLock = some op)
include hop

theorem stepPause (hca : op.call = .pause src) (h : w.system.pauseStep op o = some t) : (w.advance op t).Inv := by
  obtain ⟨hdl, hcn⟩ := hw.held op hop
  obtain ⟨hsrc, hbef, hz, hmark, hres⟩ := (PauseOp.Consistent.pause_iff hca).1 hcn
  have hgo : ∀ {t : System} (stage : PauseStage), t.pauseLock = some { op with stage := stage } →
      t.toTq.flags = w.system.toTq.flags → stage ≠ .mark → stage ≠ .resetCommand →
      (w.advance op t).Inv := by
    intro t stage hlo hfl hmark' hres'
    apply hw.goTo hop hlo hfl hmark
    simp only [PauseOp.Consistent, hca]
    exact ⟨hsrc, hbef, hz, hmark', hres'⟩
  have hflush : ∀ (s : System) (d : Direction), s.toTq.flags = w.system.toTq.flags →
      op.stage = .flush d → (w.advance op (s.afterFlush op d)).Inv := by
    intro s d hfl hst
    cases d with
    | fromDevice => exact hgo (.flush .toDevice) rfl hfl nofun nofun
    | toDevice =>
      unfold System.afterFlush
      rw [hca]
      refine hw.returns_inactive hop rfl (System.flags_unlock _ _) ?_ ?_ fun hemp => ?_
      · exact (congrArg Flags.active hfl).trans hdl
      · simp only [PauseOp.succeeds, hca, hst, PauseCall.apply, if_true]
        exact congrArg (· ||| src) (congrArg Flags.pausedBy hfl)
      · exact absurd (BitVec.or_eq_zero_iff.1 hemp).2 (ne_zero_of_mem_pauseSources hsrc)
  -- the queue is set active again after a failure
  have hact : ∀ {q : Tq}, Flagged { w.system.toTq with active := true } q →
      op.stage = .restoreActive ∨ op.stage = .restart → t.pauseLock = none →
      t.toTq.flags = q.flags → (w.advance op t).Inv := by
    intro q hq hst hlo hfl
    refine hw.returns_active hop hlo hfl hq ?_ (hq.pausedBy.trans hz) ?_
    · rcases hst with hst | hst <;> simp only [PauseOp.rollsBack, hca, hst]
    · rcases hst with hst | hst <;> simp only [PauseOp.succeeds, hca, hst] <;>
        exact hq.pausedBy
  unfold System.pauseStep at h
  cases hst : op.stage with
  | mark => exact absurd hst hmark
  | resetCommand => exact absurd hst hres
  | drain =>
    simp only [hst] at h
    split at h
    · split at h <;> cases h
      exact hgo .restoreActive rfl rfl nofun nofun
    · cases h
      exact hgo .removePending rfl rfl nofun nofun
  | removePending =>
    simp only [hst, hca, Option.some.injEq] at h
    subst h
    exact hgo .setPaused rfl rfl nofun nofun
  | setPaused =>
    simp only [hst] at h
    split at h <;> cases h
    · exact hgo .restoreActive rfl rfl nofun nofun
    · exact hgo (.flush .fromDevice) rfl rfl nofun nofun
  | flush d =>
    simp only [hst] at h
    have hfl := w.system.flags_flushQueue d o
    split at h
    · split at h <;> cases h
      · exact hgo .setActive rfl hfl nofun nofun
      · exact hflush _ d hfl hst
    · cases h
      exact hflush _ d rfl hst
  | restoreActive =>
    simp only [hst, Option.some.injEq] at h
    subst h
    exact hact w.system.toTq.restoreActive_flagged (.inl hst) rfl (System.flags_unlock _ _)
  | setActive =>
    simp only [hst] at h
    split at h <;> cases h
    · refine hw.returns_inactive hop rfl (System.flags_unlock _ _) hdl ?_ fun _ => ?_
      · simp only [PauseOp.succeeds, hca, hst]
        rfl
      · simp only [PauseOp.rollsBack, hca, hst]
    · exact hgo .restart rfl rfl nofun nofun
  | restart =>
    simp only [hst, hca, Option.some.injEq] at h
    subst h
    exact hact w.system.toTq.restart_flagged (.inr hst) rfl (System.flags_unlock _ _)

theorem stepResume (hca : op.call = .resume src) (h : w.system.pauseStep op o = some t) : (w.advance op t).Inv := by
  obtain ⟨hdl, hcn⟩ := hw.held op hop
  obtain ⟨hsrc, hbef, hset, hst⟩ := (PauseOp.Consistent.resume_iff hca).1 hcn
  unfold System.pauseStep at h
  rcases hst with hst | hst
  · simp only [hst] at h
    split at h <;> cases h
    · -- the firmware refused, so the queue stays paused
      refine hw.returns_inactive hop rfl (System.flags_unlock _ _) hdl ?_ fun hemp => ?_
      · simp only [PauseOp.succeeds, hca, hst]
        rfl
      · exact absurd (hset.symm.trans hemp) (ne_zero_of_mem_pauseSources hsrc)
    · refine hw.goTo hop rfl rfl ?_ ?_
      · rw [hst]
        nofun
      · rw [hca]
        exact ⟨hsrc, hbef, hset, .inr rfl⟩
  simp only [hst, hca, Option.some.injEq] at h
  subst h
  have hflag := w.system.toTq.restart_flagged
  have hpaused : w.system.toTq.restart.pausedBy = src := hflag.pausedBy.trans hset
  refine hw.returns_active hop rfl (System.flags_unlock _ _) hflag ?_ ?_ ?_
  · simp only [PauseOp.rollsBack, hca]
  · show w.system.toTq.restart.pausedBy &&& ~~~src = 0#32
    rw [hpaused]
    exact BitVec.and_not_self src
  · simp only [PauseOp.succeeds, hca, hst, if_true, PauseCall.apply]
    exact congrArg (· &&& ~~~src) hflag.pausedBy

theorem stepReset (hca : op.call = .reset) (h : w.system.pauseStep op o = some t) : (w.advance op t).Inv := by
  obtain ⟨hdl, hcn⟩ := hw.held op hop
  unfold System.pauseStep at h
  rw [PauseOp.Consistent, hca] at hcn
  rcases hcn with hst | ⟨hset, hst⟩
  · -- the worker adds itself to the sources
    simp only [hst, Option.some.injEq] at h
    subst h
    unfold advance
    simp only [System.goTo, hst, PauseOp.rollsBack, hca]
    constructor
    · refine Eq.trans ?_ (sourceSet_marked _).symm
      rw [← hw.sources]
    · intro e he
      rcases List.mem_cons.1 he with rfl | he
      · trivial
      · exact hw.events e he
    · intro _
      exact hdl
    · nofun
    · intro op' hop'
      cases hop'
      exact ⟨hdl, .inr ⟨or_internalWq_ne_zero _, .inl rfl⟩⟩
  have hmark : op.stage ≠ .mark := by rcases hst with h | ⟨d, h⟩ | h <;> rw [h] <;> nofun
  have hgo : ∀ {t : System} (stage : PauseStage), t.pauseLock = some { op with stage := stage } →
      t.toTq.flags = w.system.toTq.flags →
      (stage = .removePending ∨ (∃ d, stage = .flush d) ∨ stage = .resetCommand) →
      (w.advance op t).Inv := by
    intro t stage hlo hfl hst'
    apply hw.goTo hop hlo hfl hmark
    simp only [PauseOp.Consistent, hca]
    exact .inr ⟨hset, hst'⟩
  have hflush : ∀ (s : System) (d : Direction), s.toTq.flags = w.system.toTq.flags →
      (w.advance op (s.afterFlush op d)).Inv := by
    intro s d hfl
    cases d with
    | fromDevice => exact hgo (.flush .toDevice) rfl hfl (.inr (.inl ⟨_, rfl⟩))
    | toDevice =>
      unfold System.afterFlush
      rw [hca]
      exact hgo .resetCommand rfl hfl (.inr (.inr rfl))
  rcases hst with hst | ⟨d, hst⟩ | hst
  · simp only [hst, hca, if_true, Option.some.injEq] at h
    subst h
    exact hgo (.flush .fromDevice) rfl rfl (.inr (.inl ⟨_, rfl⟩))
  · simp only [hst] at h
    split at h
    · rw [if_neg fun hne => hne.2 hca] at h
      cases h
      exact hflush _ d (w.system.flags_flushQueue d o)
    · cases h
      exact hflush _ d rfl
  · simp only [hst, Option.some.injEq] at h
    subst h
    refine hw.returns_inactive hop rfl rfl hdl ?_ fun hemp => absurd hemp hset
    simp [PauseOp.succeeds, hca, PauseCall.apply]

theorem step (h : w.system.pauseStep op o = some t) : (w.advance op t).Inv := by
  cases hca : op.call with
  | pause src => exact hw.stepPause hop hca h
  | resume src => exact hw.stepResume hop hca h
  | reset => exact hw.stepReset hop hca h

end

theorem observe {call : Option PauseCall} (h : Advances w.system call t) : (w.observe call t).Inv := by
  cases h with
  | start worker resetResume hfr hca => exact hw.started hfr hca worker resetResume
  | step op o hop hsp =>
    unfold Watched.observe
    rw [hop]
    exact hw.step hop hsp
  | under hlo hfl => exact hw.under hlo hfl

theorem next {w' : Watched} {a : PauseAction} (h : w.next a = some w') : w'.Inv := by
  cases a with
  | pause src =>
    simp only [Watched.next, ite_none_left_eq_some, Option.some.injEq] at h
    obtain ⟨hcond, rfl⟩ := h
    rw [not_or, not_not, not_isSome_iff_eq_none] at hcond
    exact hw.started hcond.1 (show PauseCall.Known (.pause src) from hcond.2) false w.system.resetResume
  | resume src =>
    simp only [Watched.next, ite_none_left_eq_some, Option.some.injEq] at h
    obtain ⟨hcond, rfl⟩ := h
    rw [not_or, not_not, not_isSome_iff_eq_none] at hcond
    exact hw.started hcond.1 (show PauseCall.Known (.resume src) from hcond.2) false w.system.resetResume
  | system a =>
    obtain ⟨t, ht, rfl⟩ := map_eq_some_iff.1 h
    exact hw.observe (System.next_advances ht)

end

end Watched.Inv

theorem Watched.inv_create (endp : Endpoint) : (Watched.create endp).Inv := by
  refine ⟨rfl, nofun, fun hne => absurd rfl hne, fun _ _ _ => ?_, nofun⟩
  exact ⟨fun _ => rfl, fun _ => rfl⟩

/-- In every reachable state `paused_by` is the set of the sources whose last successful operation was a pause; a
pause goes to the firmware only from the empty set, a resume only when its source is the last one, and a rollback only
within a failed pause; a failed call leaves the set as it was. Whenever `pause_lock` is free, a queue that is not
stalled is active exactly if the set is empty and the last call was not a pause that failed along with its rollback.
-/
theorem pause_sources {w : Watched} (h : pauseMachine.Reachable w) :
    w.system.pausedBy = sourceSet (lastPaused w.history) ∧
      (∀ src set, .issued (.pause src) set ∈ w.history → set = 0#32) ∧
      (∀ src set, .issued (.resume src) set ∈ w.history → set = src) ∧
      (∀ set, .rollback set ∈ w.history → set = 0#32) ∧
      (∀ call before after, .returned call false before after ∈ w.history → after = before) ∧
      (w.system.pauseLock = none → w.system.stalled = false →
        (w.system.active = true ↔ w.system.pausedBy = 0#32 ∧ w.rollbackFailed = false)) := by
  have hw : w.Inv := by
    apply h.invariant
    · rintro w ⟨endp, rfl⟩
      exact Watched.inv_create endp
    · intro w a w' _ _ hw hnx
      exact hw.next hnx
  refine ⟨hw.sources, fun _ _ => hw.events _, fun _ _ => hw.events _, fun _ => hw.events _,
    fun _ _ _ => hw.events _, ?_⟩
  · intro hfr hstl
    constructor
    · intro hact
      have hemp : w.system.pausedBy = 0#32 := by
        by_contra hne
        rw [hw.paused hne] at hact
        cases hact
      exact ⟨hemp, (hw.free hfr hstl hemp).1 hact⟩
    · rintro ⟨hemp, hbk⟩
      exact (hw.free hfr hstl hemp).2 hbk

/-- A command or a flush that the firmware carries out and that leaves the endpoint in `state`. -/
def Outcome.success (state : EndpointState) : Outcome := ⟨0, some state, true⟩

/-- A command or a flush that times out without effect. -/
def Outcome.timeout : Outcome := ⟨-ETIMEDOUT, none, false⟩

def bulkIn : Endpoint := .data 0 .fromDevice true

/-- The firmware and system suspend pause an endpoint, and the firmware resumes it. -/
theorem pause_sources_overlap : ∃ w, pauseMachine.Reachable w ∧ w.system.pausedBy = BCE_VHCI_PAUSE_SUSPEND ∧
      sourceSet (lastPaused w.history) = BCE_VHCI_PAUSE_SUSPEND := by
  obtain ⟨w, hw, hset⟩ := Machine.exists_of_run (M := pauseMachine)
    (P := fun w => w.system.pausedBy = BCE_VHCI_PAUSE_SUSPEND)
    (.pause BCE_VHCI_PAUSE_FIRMWARE :: List.replicate 5 (.system (.pauseStep (.success .paused))) ++
      [.pause BCE_VHCI_PAUSE_SUSPEND, .resume BCE_VHCI_PAUSE_FIRMWARE]) ⟨bulkIn, rfl⟩ (by decide)
  exact ⟨w, hw, hset, (pause_sources hw).1.symm.trans hset⟩

/-- A flush fails during a pause, and so does the command that would restore the endpoint: no source keeps the queue
paused, it has not stalled, and it stays inactive. -/
theorem failed_rollback_inactive :
    ∃ w, pauseMachine.Reachable w ∧ w.system.pauseLock = none ∧ w.system.stalled = false ∧
      w.system.pausedBy = 0#32 ∧ w.system.active = false ∧
      w.history = [.returned (.pause BCE_VHCI_PAUSE_FIRMWARE) false 0#32 0#32, .rollback 0#32,
        .issued (.pause BCE_VHCI_PAUSE_FIRMWARE) 0#32] :=
  Machine.exists_of_run (.pause BCE_VHCI_PAUSE_FIRMWARE :: List.replicate 3 (.system (.pauseStep (.success .paused))) ++
      List.replicate 2 (.system (.pauseStep .timeout))) ⟨bulkIn, rfl⟩ (by decide)

end KaiT2en.Vhci
