import KaiT2en.Vhci.Simulation

/-!
# The data window of a request

A request counts the bytes it has moved in `receive_offset` and may move the bytes before
`request_end`. The firmware chooses the end of a window, the device the size of a completion, and a
pause takes back what was submitted. `Window` is the invariant of one request that holds through all
of this: the offset never passes the buffer, the ranges of the completions counted so far tile the
bytes before it, and the submission that a request waits for lies in its window.

`Core.Windowed` says so for all linked requests, together with what the history shows of the requests
that are gone. `data_window` reads the result off.
-/

namespace KaiT2en.Vhci

open KaiT2en.Kernel KaiT2en.Dma KaiT2en.Lib.Transition List Core Function

/-! ## Consecutive ranges -/

/-- The ranges, given by offset and size, follow each other from `start` to `stop`. -/
def Tiles : Nat → List (Nat × Nat) → Nat → Prop
  | start, [], stop => start = stop
  | start, (offset, size) :: rest, stop => offset = start ∧ Tiles (start + size) rest stop

theorem Tiles.concat {size : Nat} : ∀ {start stop : Nat} {ranges : List (Nat × Nat)},
    Tiles start ranges stop → Tiles start (ranges ++ [(stop, size)]) (stop + size) := by
  intro start stop ranges h
  induction ranges generalizing start with
  | nil =>
    cases h
    exact ⟨rfl, rfl⟩
  | cons range rest ih => exact ⟨h.1, ih h.2⟩

/-! ## The window of one request -/

/-- The request `u` submitted the range on the queue to the device. -/
def Submitted (log : List Event) (u : UrbId) (range : Nat × Nat) : Prop :=
  ∃ v ahead linked, .submit .toDevice u range.1 range.2 v ahead linked ∈ log

/-- The setup packet of a control request is not completed yet. -/
def VUrb.BeforeData (v : VUrb) : Prop :=
  v.state = .initPending ∧ v.isControl = true ∨ v.state = .controlWaitingForSetupRequest ∨
    v.state = .controlWaitingForSetupCompletion

/-- The invariant of the request `u`, after the history `log`. -/
structure Window (log : List Event) (u : UrbId) (v : VUrb) : Prop where
  offset_le : v.receiveOffset ≤ v.length
  acked : Tiles 0 v.acked v.receiveOffset
  waiting : v.state = .waitingForCompletion →
    v.receiveOffset + v.submittedLength ≤ v.requestEnd ∧ v.requestEnd ≤ v.length
  setup : v.BeforeData → v.receiveOffset = 0 ∧ v.requestEnd = 0
  moved : v.state = .dataTransferComplete → v.dir = .toDevice → v.receiveOffset = v.length
  acked_submitted : v.dir = .toDevice → ∀ range ∈ v.acked, Submitted log u range
  current_submitted : v.dir = .toDevice → v.state = .waitingForCompletion →
    Submitted log u (v.receiveOffset, v.submittedLength)

namespace VUrb

variable {v : VUrb} {n : Nat}

theorem length_lt (v : VUrb) : v.length < 2 ^ 32 := v.urb.length_lt

/-- An accepted completion does not pass the buffer. -/
theorem Accepts.add_le (h : v.Accepts n) : v.receiveOffset + n ≤ v.length := by
  have hle := h.le_rest
  rw [sub32_of_le h.offset_le v.length_lt] at hle
  have := h.offset_le
  omega

/-- An accepted completion is counted without a wrap. -/
theorem Accepts.advance_eq (h : v.Accepts n) : v.advance n =
      { v with receiveOffset := v.receiveOffset + n, acked := v.acked ++ [(v.receiveOffset, n)] } := by
  unfold advance
  rw [add32_of_lt (h.add_le.trans_lt v.length_lt)]

theorem openAll_eq (h : v.receiveOffset ≤ v.length) : v.openAll = { v with requestEnd := v.length } := by
  have hlt := v.length_lt
  unfold openAll
  rw [sub32_of_le h hlt, add32_of_lt (by omega), Nat.add_sub_cancel' h]

theorem openWindow_eq (h : v.receiveOffset ≤ v.length) (size : Nat) : v.openWindow size =
      { v with requestEnd := v.receiveOffset + min (v.length - v.receiveOffset) size } := by
  have hlt := v.length_lt
  unfold openWindow
  rw [sub32_of_le h hlt, add32_of_lt (by omega)]

end VUrb

theorem Submitted.mono {log log' : List Event} {u : UrbId} {range : Nat × Nat}
    (h : Submitted log u range) (hlog : log <:+ log') : Submitted log' u range := by
  obtain ⟨v, ahead, linked, hmem⟩ := h
  exact ⟨v, ahead, linked, hlog.subset hmem⟩

namespace Window

variable {log log' : List Event} {u : UrbId} {v v' : VUrb} {n : Nat}

theorem mono (h : Window log u v) (hlog : log <:+ log') : Window log' u v :=
  { h with
    acked_submitted := fun hdir range hrng => (h.acked_submitted hdir range hrng).mono hlog
    current_submitted := fun hdir hsta => (h.current_submitted hdir hsta).mono hlog }

/-- What is left of the invariant in a state that promises nothing. -/
theorem of_state (h : Window log u v) (state : UrbState) (hwt : state ≠ .waitingForCompletion)
    (hsu : ¬VUrb.BeforeData { v with state := state })
    (hmov : state = .dataTransferComplete → v.dir = .toDevice → v.receiveOffset = v.length) :
    Window log u { v with state := state } where
  offset_le := h.offset_le
  acked := h.acked
  waiting hsta := absurd hsta hwt
  setup hsta := absurd hsta hsu
  moved := hmov
  acked_submitted := h.acked_submitted
  current_submitted _ hsta := absurd hsta hwt

theorem receivedStatus (h : Window log u v) (s : Nat) : Window log u { v with receivedStatus := s } := { h with }

theorem fresh (urb : Urb) (isControl : Bool) (sgList : Option SegmentList) :
    Window log u (VUrb.fresh urb isControl sgList) where
  offset_le := Nat.zero_le _
  acked := rfl
  waiting hsta := by cases hsta
  setup _ := ⟨rfl, rfl⟩
  moved hsta := by cases hsta
  acked_submitted _ _ hrng := absurd hrng not_mem_nil
  current_submitted _ hsta := by cases hsta

section

variable (h : Window log u v)
include h

section

variable (hac : v.Accepts n)
include hac

/-- The ranges after an accepted completion. A request to the device counts whole submissions
only. -/
theorem acked_advance (hwh : v.dir = .toDevice → n = v.submittedLength) :
    Tiles 0 (v.acked ++ [(v.receiveOffset, n)]) (v.receiveOffset + n) ∧
      (v.dir = .toDevice → ∀ range ∈ v.acked ++ [(v.receiveOffset, n)], Submitted log u range) := by
  refine ⟨h.acked.concat, fun hdir range hrng => ?_⟩
  rcases mem_append.1 hrng with hold | hnew
  · exact h.acked_submitted hdir range hold
  · rw [mem_singleton.1 hnew, hwh hdir]
    exact h.current_submitted hdir hac.state

/-- A completion that fills the buffer of a request to the device is a whole submission. -/
theorem whole_of_fills (hfil : v.length ≤ v.receiveOffset + n) : n = v.submittedLength := by
  obtain ⟨hwin, hend⟩ := h.waiting hac.state
  have := hac.le_submitted
  omega

/-- The request after a completion that ends its data stage. -/
theorem dataDone (hfil : v.dir = .toDevice → v.length ≤ v.receiveOffset + n) : Window log u { v.advance n with
      actualLength := (v.advance n).receiveOffset, state := .dataTransferComplete } := by
  obtain ⟨hack, hsub⟩ := h.acked_advance hac fun hdir => h.whole_of_fills hac (hfil hdir)
  rw [hac.advance_eq]
  constructor
  case offset_le => exact hac.add_le
  case acked => exact hack
  case waiting =>
    intro hsta
    cases hsta
  case setup => rintro (⟨hsta, -⟩ | hsta | hsta) <;> cases hsta
  case moved => exact fun _ hdir => le_antisymm hac.add_le (hfil hdir)
  case acked_submitted => exact hsub
  case current_submitted =>
    intro _ hsta
    cases hsta

end

/-- A change of a request that neither submits nor ends it. -/
theorem quiet (hqu : Quiet v v') : Window log u v' := by
  cases hqu with
  | waitForSetup hsta hctl =>
    refine { h with waiting := ?_, setup := ?_, moved := ?_, current_submitted := ?_ }
    · intro hnew
      cases hnew
    · exact fun _ => h.setup (.inl ⟨hsta, hctl⟩)
    · intro hnew
      cases hnew
    · intro _ hnew
      cases hnew
  | startOut hstr hdir =>
    have hcas : v.startState = .waitingForTransferRequest ∨ v.startState = .dataTransferComplete ∧ v.length = 0 := by
      unfold VUrb.startState
      split
      · exact .inl rfl
      · grind
    rcases hcas with hnew | ⟨hnew, hlen⟩
    · rw [hnew]
      refine h.of_state _ (by decide) ?_ (fun hsta => by cases hsta)
      rintro (⟨hsta, -⟩ | hsta | hsta) <;> cases hsta
    -- nothing to send: the data stage is over before it starts
    rw [hnew]
    refine h.of_state _ (by decide) ?_ fun _ _ => ?_
    · rintro (⟨hsta, -⟩ | hsta | hsta) <;> cases hsta
    · have hle := h.offset_le
      omega
  | failedStart stop hsta hctl =>
    refine { h with waiting := ?_, setup := ?_ }
    · intro hwt
      rw [hsta] at hwt
      cases hwt
    · rintro (⟨-, hctl'⟩ | hsta' | hsta')
      · exact absurd (hctl'.symm.trans hctl) (by decide)
      · exact absurd (hsta.symm.trans hsta') (by decide)
      · exact absurd (hsta.symm.trans hsta') (by decide)
  | waitForWindow hac hdir _ =>
    obtain ⟨hack, hsub⟩ := h.acked_advance hac fun _ => rfl
    rw [hac.advance_eq]
    constructor
    case offset_le => exact hac.add_le
    case acked => exact hack
    case acked_submitted => exact hsub
    case setup => rintro (⟨hsta, -⟩ | hsta | hsta) <;> cases hsta
    all_goals
      intros
      contradiction
  | dataDone n hac _ hfil =>
    refine h.dataDone hac fun hdir => ?_
    have hle := hfil hdir
    rw [hac.advance_eq] at hle
    exact hle
  | resumeOut hsta hdir =>
    refine { h with waiting := ?_, setup := ?_, moved := ?_, current_submitted := ?_ }
    · intro hnew
      cases hnew
    · rintro (⟨hnew, -⟩ | hnew | hnew) <;> cases hnew
    · intro hnew
      cases hnew
    · intro _ hnew
      cases hnew

end

theorem sent {d : Direction} {ahead linked : List UrbId} (hack : Tiles 0 v.acked v.receiveOffset)
    (hrng : v.receiveOffset + n ≤ v.requestEnd) (hend : v.requestEnd ≤ v.length)
    (hsub : v.dir = .toDevice → ∀ range ∈ v.acked, Submitted log u range) (hd : v.dir = .toDevice → d = .toDevice) :
    Window (.submit d u v.receiveOffset n v ahead linked :: log) u
      { v with submittedLength := n, state := .waitingForCompletion } := by
  constructor
  case offset_le => exact (Nat.le_add_right _ _).trans (hrng.trans hend)
  case acked => exact hack
  case waiting => exact fun _ => ⟨hrng, hend⟩
  case setup => rintro (⟨hsta, -⟩ | hsta | hsta) <;> cases hsta
  case moved =>
    intro hsta
    cases hsta
  case acked_submitted =>
    intro hdir range hmem
    exact (hsub hdir range hmem).mono (suffix_cons _ _)
  case current_submitted =>
    intro hdir _
    rw [hd hdir]
    exact ⟨v, ahead, linked, mem_cons_self⟩

theorem prepared {d : Direction} {limit : Nat} (h : Window log u v)
    (hpr : Prepared v v' d limit) (hle : n ≤ limit) (ahead linked : List UrbId) :
    v'.receiveOffset + n ≤ v'.requestEnd ∧ v'.requestEnd ≤ v'.length ∧
      Window (.submit d u v'.receiveOffset n v' ahead linked :: log) u
        { v' with submittedLength := n, state := .waitingForCompletion } := by
  have hoff := h.offset_le
  have hlt := v.length_lt
  cases hpr with
  | start _ hdir hlim =>
    rw [sub32_of_le hoff hlt] at hlim
    have hrng : v.receiveOffset + n ≤ v.length := by omega
    rw [VUrb.openAll_eq hoff]
    refine ⟨hrng, le_rfl, sent h.acked hrng le_rfl h.acked_submitted fun hout => ?_⟩
    exact absurd (hdir.symm.trans hout) (by decide)
  | window size _ _ hlim =>
    rw [VUrb.openWindow_eq hoff, sub32_of_le (Nat.le_add_right _ _) (by omega)] at hlim
    have hrng : v.receiveOffset + n ≤ v.receiveOffset + min (v.length - v.receiveOffset) size := by omega
    have hend : v.receiveOffset + min (v.length - v.receiveOffset) size ≤ v.length := by omega
    rw [VUrb.openWindow_eq hoff]
    exact ⟨hrng, hend, sent h.acked hrng hend h.acked_submitted fun _ => rfl⟩
  | «continue» hac hop hd hlim =>
    obtain ⟨-, hend⟩ := h.waiting hac.state
    obtain ⟨hack, hsub⟩ := h.acked_advance hac fun _ => rfl
    rw [hac.advance_eq] at hop hlim ⊢
    rw [sub32_of_le (le_of_lt hop) (hend.trans_lt hlt)] at hlim
    have hrng : v.receiveOffset + v.submittedLength + n ≤ v.requestEnd := by
      simp only at hop hlim
      omega
    exact ⟨hrng, hend, sent hack hrng hend hsub fun hdir => hd.trans hdir⟩

/-- A request to the device that ends with status 0 has counted its whole buffer. -/
theorem final {status : Int} (h : Window log u v) (hfin : Final log u v v' status)
    (hst : status = 0) (hdir : v'.dir = .toDevice) :
    Tiles 0 v'.acked v'.length ∧ ∀ range ∈ v'.acked, Submitted log u range := by
  cases hfin with
  | failed _ _ _ _ _ hne => exact absurd hst hne
  | done n hac _ hwh =>
    have hout : v.dir = .toDevice := by exact hdir
    obtain ⟨-, hfil⟩ := hwh hout
    rw [hac.advance_eq] at hfil
    have hdn := h.dataDone hac fun _ => hfil
    refine ⟨?_, hdn.acked_submitted hdir⟩
    rw [← hdn.moved rfl hdir]
    exact hdn.acked
  | succeeded hsta =>
    refine ⟨?_, h.acked_submitted hdir⟩
    show Tiles 0 v.acked v.length
    rw [← h.moved hsta hdir]
    exact h.acked
  | statusFailed | cancelled => exact absurd hst (by decide)

end Window

/-! ## All requests of a queue -/

/-- What the history may show of the data of a request. -/
def Event.Sound (log : List Event) : Event → Prop
  | .submit _ _ offset size v _ _ => v.receiveOffset ≤ offset ∧ offset + size ≤ v.requestEnd ∧ v.requestEnd ≤ v.length
  | .complete u result v => result = 0 → v.dir = .toDevice →
      Tiles 0 v.acked v.length ∧ ∀ range ∈ v.acked, Submitted log u range
  | _ => True

theorem Event.Sound.mono {log log' : List Event} {e : Event} (h : e.Sound log)
    (hlog : log <:+ log') : e.Sound log' := by
  cases e with
  | complete u status v =>
    intro hst hdir
    obtain ⟨htil, hsub⟩ := h hst hdir
    exact ⟨htil, fun range hrng => (hsub range hrng).mono hlog⟩
  | submit => exact h
  | _ => trivial

/-- Every linked request has its window, and the history is sound. -/
structure Core.Windowed (c : Core) : Prop where
  linked : ∀ u ∈ c.urbList, Window c.log u (c.vurbs u)
  history : ∀ e ∈ c.log, e.Sound c.log

namespace Core.Windowed

variable {u : UrbId} {c c' : Core}

section

variable (h : c.Windowed)
include h

theorem update (hls : ∀ w ∈ c'.urbList, w ≠ u → w ∈ c.urbList) (hoths : ∀ w, w ≠ u → c'.vurbs w = c.vurbs w)
    (events : List Event) (hlog : c'.log = events ++ c.log) (hnew : ∀ e ∈ events, e.Sound c.log)
    (hown : u ∈ c'.urbList → Window c'.log u (c'.vurbs u)) : c'.Windowed := by
  have hsuf : c.log <:+ c'.log := by
    rw [hlog]
    exact suffix_append _ _
  constructor
  · intro w hw
    by_cases heq : w = u
    · rw [heq] at hw ⊢
      exact hown hw
    · rw [hoths w heq]
      exact (h.linked w (hls w hw heq)).mono hsuf
  · intro e he
    rw [hlog] at he
    rcases mem_append.1 he with hmem | hmem
    · exact (hnew e hmem).mono hsuf
    · exact (h.history e hmem).mono hsuf

/-- A step that changes no request and links none. -/
theorem frame (hls : ∀ w ∈ c'.urbList, w ∈ c.urbList) (hvs : c'.vurbs = c.vurbs) (events : List Event)
    (hlog : c'.log = events ++ c.log) (hnew : ∀ e ∈ events, e.Sound c.log) : c'.Windowed := by
  refine h.update (u := 0) (fun w hw _ => hls w hw) (fun w _ => by rw [hvs]) events hlog hnew ?_
  intro hu
  rw [hvs, hlog]
  exact (h.linked 0 (hls 0 hu)).mono (suffix_append _ _)

theorem urbStep (hwf : c.WellFormed) (hsp : UrbStep u c c') : c'.Windowed := by
  cases hsp with
  | latch s hu =>
    refine h.update (u := u) (fun w hw _ => hw) (fun w hw => update_of_ne hw ..)
      [_] rfl (forall_mem_singleton.2 trivial) fun _ => ?_
    rw [Core.latch, vurbs_setVurb_self]
    exact ((h.linked u hu).receivedStatus s).mono (suffix_cons _ _)
  | setup element hu hsta =>
    refine h.update (u := u) (fun w hw _ => hw) (fun w hw => update_of_ne hw ..)
      [_] rfl (forall_mem_singleton.2 trivial) fun _ => ?_
    rw [Core.sendSetup, vurbs_setVurb_self]
    have hwin := (h.linked u hu).mono (suffix_cons (.setup u) _)
    refine { hwin with waiting := ?_, setup := ?_, moved := ?_, current_submitted := ?_ }
    · intro hnew
      cases hnew
    · exact fun _ => hwin.setup (.inr (.inl hsta))
    · intro hnew
      cases hnew
    · intro _ hnew
      cases hnew
  | quiet v hu _ hqu =>
    refine h.update (u := u) ?_ ?_ [] (log_charge ..) (forall_mem_nil _) fun _ => ?_
    · intro w hw _
      rw [urbList_charge] at hw
      exact hw
    · intro w hw
      rw [vurbs_charge]
      exact update_of_ne hw ..
    · rw [vurbs_charge, log_charge, vurbs_setVurb_self]
      exact (h.linked u hu).quiet hqu
  | send d v element limit n hu _ hpr hle _ =>
    obtain ⟨hrng, hend, hwin⟩ := (h.linked u hu).prepared hpr hle (c.pipe d).liveOwners c.urbList
    refine h.update (u := u) ?_ ?_ [.submit d u v.receiveOffset n v (c.pipe d).liveOwners c.urbList] ?_ (fun e he => ?_)
      fun _ => ?_
    · intro w hw _
      rw [urbList_charge, urbList_send] at hw
      exact hw
    · intro w hw
      rw [vurbs_charge, vurbs_send_of_ne _ _ _ _ _ _ hw]
    · rw [log_charge, log_send]
      rfl
    · rw [mem_singleton.1 he]
      exact ⟨le_rfl, hrng, hend⟩
    · rw [vurbs_charge, vurbs_send_self, log_charge, log_send]
      exact hwin
  | request length => exact h.frame (fun w hw => hw) rfl [_] rfl (forall_mem_singleton.2 trivial)
  | complete v status hu hfin =>
    refine h.update (u := u) ?_ ?_ [.free u, .unlink u (decide (u ∈ c.sqIn.liveOwners)),
      .complete u status v] ?_ (fun e he => ?_) fun hmem => ?_
    · intro w hw _
      rw [urbList_urbComplete] at hw
      exact mem_of_mem_erase hw
    · intro w hw
      rw [vurbs_urbComplete]
      exact update_of_ne hw ..
    · rw [log_urbComplete, vurbs_setVurb_self]
      rfl
    · simp only [mem_cons, not_mem_nil, or_false] at he
      rcases he with rfl | rfl | rfl
      · trivial
      · trivial
      · exact (h.linked u hu).final hfin
    · -- the request is no longer linked
      rw [urbList_urbComplete] at hmem
      exact absurd hmem hwf.nodup.not_mem_erase

theorem setPipe (d : Direction) (p : Pipe) : (c.setPipe d p).Windowed := by
  refine h.frame (fun w hw => ?_) (vurbs_setPipe ..) [] (log_setPipe ..) fun e he => ?_
  · rw [urbList_setPipe] at hw
    exact hw
  · cases he

theorem record {e : Event} (he : e.Sound c.log) : (c.record e).Windowed := by
  refine h.frame (fun w hw => hw) rfl [e] rfl fun e' he' => ?_
  rw [mem_singleton.1 he']
  exact he

theorem take (d : Direction) (cd : CompletionData) (sq : Sq Entry) :
    (c.take d cd sq).Windowed := (h.setPipe d _).record trivial

theorem step (hwf : c.WellFormed) (hsp : CoreStep c c') : c'.Windowed := by
  cases hsp with
  | urb u hurb => exact h.urbStep hwf hurb
  | post d e | flush d => exact h.setPipe d _
  | takeAborted d => exact (h.take d _ _).setPipe d _
  | takeEmpty d => exact h.take d _ _
  | consume d u _ _ _ hsts =>
    refine Core.Windowed.setPipe (UrbSteps.guarded_invariant (G := fun _ => True)
      (fun _ _ _ h => h) (I := Core.Windowed) ?_ hsts (hwf.take d _ _) trivial
      (h.take d _ _)) d _
    exact fun _ _ hwf _ h hsp => h.urbStep hwf hsp
  | link urb sgList =>
    refine h.update (u := c.nextUrb) ?_ (fun w hw => update_of_ne hw ..) [] rfl
      (forall_mem_nil _) fun _ => ?_
    · intro w hw hne
      rcases mem_append.1 hw with hold | hnew
      · exact hold
      · exact absurd (mem_singleton.1 hnew) hne
    · show Window _ _ (Function.update c.vurbs c.nextUrb _ c.nextUrb)
      rw [update_self]
      exact Window.fresh ..
  | reject u =>
    refine h.frame (fun w hw => mem_of_mem_erase hw) rfl
      [.free u, .unlink u (decide (u ∈ c.sqIn.liveOwners))] rfl fun e he => ?_
    simp only [mem_cons, not_mem_nil, or_false] at he
    rcases he with rfl | rfl <;> trivial
  | checkUnlink _ _ | pick _ | goOn => exact h.frame (fun w hw => hw) rfl [] rfl (forall_mem_nil _)
  | mark u status hu =>
    refine h.update (u := u) ?_ ?_ [] ?_ (forall_mem_nil _) fun _ => ?_
    · intro w hw _
      rw [urbList_urbMarkCancelled] at hw
      exact hw
    · intro w hw
      rw [vurbs_urbMarkCancelled]
      exact update_of_ne hw ..
    · exact log_urbMarkCancelled ..
    · rw [vurbs_urbMarkCancelled, update_self, log_urbMarkCancelled]
      have hwin := (h.linked u hu).of_state .cancelled (by decide)
        (by rintro (⟨hsta, -⟩ | hsta | hsta) <;> cases hsta) (fun hsta => by cases hsta)
      exact { hwin with }
  | unlink held =>
    refine h.frame (fun w hw => ?_) (vurbs_cancelUnlink ..) [_] (log_cancelUnlink ..) (forall_mem_singleton.2 trivial)
    rw [urbList_cancelUnlink] at hw
    exact mem_of_mem_erase hw
  | give _ | free _ | pop _ => exact h.frame (fun w hw => hw) rfl [_] rfl (forall_mem_singleton.2 trivial)

end

theorem create (endp : Endpoint) : (Core.create endp).Windowed :=
  ⟨fun _ hu => absurd hu not_mem_nil, fun _ he => absurd he not_mem_nil⟩

end Core.Windowed

/-! ## Results -/

/-- A request that waits for a completion has `receive_offset <= request_end <= transfer_buffer_length`, every
submission lies in the window of its request, and a request to the device that is completed with status 0 has counted
submissions of its own that tile its buffer. -/
theorem data_window {s : System} (h : tqMachine.Reachable s) :
    (∀ u ∈ s.urbList, (s.vurbs u).state = .waitingForCompletion ∨
        (s.vurbs u).state = .controlWaitingForSetupCompletion →
      (s.vurbs u).receiveOffset ≤ (s.vurbs u).requestEnd ∧ (s.vurbs u).requestEnd ≤ (s.vurbs u).length) ∧
    (∀ d u offset size v ahead linked, .submit d u offset size v ahead linked ∈ s.log →
      v.receiveOffset ≤ offset ∧ offset + size ≤ v.requestEnd ∧ v.requestEnd ≤ v.length) ∧
    ∀ u v, .complete u 0 v ∈ s.log → v.dir = .toDevice →
      Tiles 0 v.acked v.length ∧ ∀ range ∈ v.acked, Submitted s.log u range := by
  have hinv : s.toCore.Windowed := System.invariant Core.Windowed.create (fun _ _ hwf h hsp => h.step hwf hsp) h
  refine ⟨?_, ?_, ?_⟩
  · intro u hu hsta
    have hwin := hinv.linked u hu
    rcases hsta with hsta | hsta
    · obtain ⟨hrng, hend⟩ := hwin.waiting hsta
      exact ⟨(Nat.le_add_right _ _).trans hrng, hend⟩
    · obtain ⟨hoff, hend⟩ := hwin.setup (.inr (.inr hsta))
      rw [hoff, hend]
      exact ⟨le_rfl, Nat.zero_le _⟩
  · intro d u offset size v ahead linked hmem
    exact hinv.history _ hmem
  · intro u v hmem hdir
    exact hinv.history _ hmem rfl hdir

theorem bulkWrite_length_lt : 8 < 2 ^ 32 := by decide

/-- A bulk request that writes 8 bytes. -/
def bulkWrite : Urb := ⟨.toDevice, 8, 0x1000, 0, false, true, [], bulkWrite_length_lt⟩

/-- The firmware asks for 4 bytes, and the device takes them with completion `index`. -/
def windowOf4 (index : Nat) : List Action :=
  [.event true ⟨.transferRequest, 0, 0, 4⟩, .post .toDevice ⟨0, 4, index, BCE_COMPLETION_SUCCESS⟩,
    .completion .toDevice]

/-- Whether the event completes request 0 with status 0 after two windows of 4 bytes. -/
def Event.writesTwice : Event → Bool
  | .complete 0 0 v => v.dir == .toDevice && v.acked == [(0, 4), (4, 4)] && v.length == 8
  | _ => false

/-- A write of 8 bytes in two windows. -/
theorem data_window_twoWindows : ∃ s, tqMachine.Reachable s ∧ ∃ v, .complete 0 0 v ∈ s.log ∧ v.dir = .toDevice ∧
      v.acked = [(0, 4), (4, 4)] ∧ Tiles 0 v.acked v.length ∧
      ∀ range ∈ v.acked, Submitted s.log 0 range := by
  obtain ⟨s, hs, hp⟩ := Machine.exists_of_run (M := tqMachine) (P := fun s => s.log.any Event.writesTwice)
    ([.enqueue bulkWrite ⟨true, true, none, 0⟩] ++ windowOf4 0 ++ windowOf4 1)
    ⟨.data 0 .toDevice true, rfl⟩ (by decide)
  obtain ⟨e, hmem, hwrit⟩ := any_eq_true.1 hp
  unfold Event.writesTwice at hwrit
  split at hwrit
  · rename_i v
    simp only [Bool.and_eq_true, beq_iff_eq] at hwrit
    obtain ⟨⟨hdir, hack⟩, -⟩ := hwrit
    obtain ⟨htil, hsub⟩ := (data_window hs).2.2 0 v hmem hdir
    exact ⟨s, hs, v, hmem, hdir, hack, htil, hsub⟩
  · cases hwrit

end KaiT2en.Vhci
