import KaiT2en.Vhci.Ledger

/-!
# Which request a completion is charged to

A completion does not name a request: `bce_vhci_transfer_queue_completion` charges the first request of the endpoint.
On a bulk endpoint from the device several requests have submissions in the queue at once. The choice is right as long
as the requests of the outstanding submissions are the first requests of the list, in the same order (`InOrder`).

A request with a scattered buffer submits its next chunk behind the submissions of later requests
(`completion_charged_to_other`). `completion_attribution` is the result for all runs in which every submission keeps
the order (`Event.Orderly`).
-/

namespace KaiT2en.Vhci

open KaiT2en.Kernel KaiT2en.Dma KaiT2en.Lib KaiT2en.Lib.Transition List Function Core Event

/-! ## The outstanding submissions of a queue -/

/-- The outstanding submissions are in order, every one has an owner, and completions are stored for submissions and
read after that. -/
structure Pipe.Ordered (p : Pipe) : Prop where
  sorted : p.live.Pairwise (· < ·)
  range : ∀ k ∈ p.live, p.sq.taken ≤ k ∧ k < p.sq.submitted
  length_owners : p.owners.length = p.sq.submitted
  cidx_eq : p.sq.completionCidx = p.sq.taken % p.sq.elCount
  ctail_eq : p.sq.completionTail = p.sq.posted % p.sq.elCount
  taken_le : p.sq.taken ≤ p.sq.posted
  posted_le : p.sq.posted ≤ p.sq.submitted

namespace Pipe.Ordered

variable {p : Pipe}

theorem create : Pipe.create.Ordered where
  sorted := List.Pairwise.nil
  range _ hk := absurd hk not_mem_nil
  length_owners := rfl
  cidx_eq := rfl
  ctail_eq := rfl
  taken_le := le_rfl
  posted_le := le_rfl

theorem post (h : p.Ordered) (e : QeCompletion) (hpn : p.sq.posted < p.sq.submitted) :
    Ordered { p with sq := p.sq.handleCqCompletion e } :=
  { h with
    ctail_eq := by
      show (p.sq.completionTail + 1) % p.sq.elCount = (p.sq.posted + 1) % p.sq.elCount
      rw [h.ctail_eq, Nat.mod_add_mod]
    taken_le := h.taken_le.trans (Nat.le_succ _)
    posted_le := hpn }

theorem notify (h : p.Ordered) : Ordered { p with sq := p.sq.notifySubmissionComplete } := { h with }

/-- A flush keeps the oldest outstanding submissions. -/
theorem flush (h : p.Ordered) (n : Nat) : Ordered { p with live := p.live.filter fun k => decide (k < n) } ∧
      Pipe.liveOwners { p with live := p.live.filter fun k => decide (k < n) } <+: p.liveOwners := by
  refine ⟨{ h with sorted := h.sorted.filter _, range := fun k hk => ?_ }, ?_⟩
  · exact h.range k (mem_filter.1 hk).1
  · exact (prefix_filter_lt h.sorted n).filterMap _

theorem pushed {c : Core} {d : Direction} (h : (c.pipe d).Ordered) (u : UrbId) (element : QeSubmission) :
    (c.pushed d u element).Ordered ∧ (c.pushed d u element).liveOwners = (c.pipe d).liveOwners ++ [u] := by
  have hla : ((c.pipe d).owners ++ [u])[(c.pipe d).sq.submitted]? = some u := by
    rw [← h.length_owners]
    exact getElem?_concat_length
  have hold : (c.pipe d).live.filterMap (fun k => ((c.pipe d).owners ++ [u])[k]?) = (c.pipe d).liveOwners := by
    refine filterMap_congr fun k hk => ?_
    apply getElem?_append_left
    rw [h.length_owners]
    exact (h.range k hk).2
  have hall : (c.pipe d).sq.taken ≤ (c.pipe d).sq.submitted := h.taken_le.trans h.posted_le
  constructor
  · constructor
    case sorted =>
      refine pairwise_append.2 ⟨h.sorted, pairwise_singleton _ _, fun k hk w hw => ?_⟩
      rw [mem_singleton.1 hw]
      exact (h.range k hk).2
    case range =>
      intro k hk
      rcases mem_append.1 hk with hk | hk
      · obtain ⟨hlo, hhi⟩ := h.range k hk
        exact ⟨hlo, hhi.trans (Nat.lt_succ_self _)⟩
      · rw [mem_singleton.1 hk]
        exact ⟨hall, Nat.lt_succ_self _⟩
    case length_owners =>
      show ((c.pipe d).owners ++ [u]).length = (c.pipe d).sq.submitted + 1
      rw [length_append, h.length_owners]
      rfl
    case cidx_eq => exact h.cidx_eq
    case ctail_eq => exact h.ctail_eq
    case taken_le => exact h.taken_le
    case posted_le => exact h.posted_le.trans (Nat.le_succ _)
  · show List.filterMap (fun k => ((c.pipe d).owners ++ [u])[k]?)
      ((c.pipe d).live ++ [(c.pipe d).sq.submitted]) = _
    rw [filterMap_append, hold]
    exact congrArg _ (filterMap_cons_some hla)

/-- After a completion was read: either its submission had been flushed, and the outstanding ones are the same, or it
was the oldest. -/
theorem take (h : p.Ordered) {cd : CompletionData} {sq : Sq Entry} (hnx : p.sq.nextCompletion = some (cd, sq)) :
    Ordered { p with sq := sq, live := p.live.erase p.sq.taken } ∧
      (p.sq.taken ∉ p.live ∧ Pipe.liveOwners { p with sq := sq, live := p.live.erase p.sq.taken } = p.liveOwners ∨
        p.sq.taken ∈ p.live ∧ ∃ w, p.owners[p.sq.taken]? = some w ∧ p.liveOwners =
            w :: Pipe.liveOwners { p with sq := sq, live := p.live.erase p.sq.taken }) := by
  obtain ⟨⟨hne, -⟩, rfl⟩ := Sq.nextCompletion_spec hnx
  have hlt : p.sq.taken < p.sq.posted := by
    refine lt_of_le_of_ne h.taken_le fun heq => hne ?_
    rw [h.cidx_eq, h.ctail_eq, heq]
  have hnd : p.live.Nodup := h.sorted.imp fun hlt => hlt.ne
  constructor
  · constructor
    case sorted => exact h.sorted.erase _
    case range =>
      intro k hk
      obtain ⟨hneq, hmem⟩ := (hnd.mem_erase_iff).1 hk
      obtain ⟨hlo, hhi⟩ := h.range k hmem
      exact ⟨Nat.lt_of_le_of_ne hlo (Ne.symm hneq), hhi⟩
    case length_owners => exact h.length_owners
    case cidx_eq => rw [h.cidx_eq, Nat.mod_add_mod]
    case ctail_eq => exact h.ctail_eq
    case taken_le => exact hlt
    case posted_le => exact h.posted_le
  · by_cases hmem : p.sq.taken ∈ p.live
    · refine .inr ⟨hmem, ?_⟩
      -- nothing outstanding is older than the completion that is read
      have hcn : p.live = p.sq.taken :: p.live.erase p.sq.taken := by
        cases hlive : p.live with
        | nil =>
          rw [hlive] at hmem
          cases hmem
        | cons k rest =>
          have hk := (h.range k (by rw [hlive]; exact mem_cons_self)).1
          rw [hlive] at hmem
          rcases mem_cons.1 hmem with heq | hrs
          · rw [heq, erase_cons_head]
          · have hsor := h.sorted
            rw [hlive] at hsor
            exact absurd ((pairwise_cons.1 hsor).1 _ hrs) (not_lt.2 hk)
      have hbound : p.sq.taken < p.owners.length := by
        rw [h.length_owners]
        exact (h.range _ hmem).2
      refine ⟨p.owners[p.sq.taken], getElem?_eq_getElem hbound, ?_⟩
      show p.live.filterMap (fun k => p.owners[k]?) = _
      rw [hcn]
      rw [erase_cons_head]
      exact filterMap_cons_some (getElem?_eq_getElem hbound)
    · refine .inl ⟨hmem, ?_⟩
      rw [erase_of_not_mem hmem]
      rfl

end Pipe.Ordered

/-! ## Requests and submissions in the same order -/

/-- What keeps requests and submissions in the same order. A submission is queued only for the request
that follows those with outstanding submissions; the device aborts what was flushed and nothing else;
a request leaves the list only without an outstanding submission; and no completion is consumed while
the first request is cancelled. -/
def Event.Orderly : Event → Prop
  | .submit .fromDevice u _ _ _ ahead linked => ahead ++ [u] <+: linked
  | .take .fromDevice _ result flushed first =>
    (result = BCE_COMPLETION_ABORTED ↔ flushed = true) ∧
      (result ≠ BCE_COMPLETION_ABORTED → first.map Prod.snd ≠ some .cancelled)
  | .unlink _ live => live = false
  | _ => True

instance : DecidablePred Event.Orderly
  | .submit .fromDevice u _ _ _ ahead linked => inferInstanceAs (Decidable (ahead ++ [u] <+: linked))
  | .take .fromDevice _ result flushed first =>
    inferInstanceAs (Decidable ((result = BCE_COMPLETION_ABORTED ↔ flushed = true) ∧
      (result ≠ BCE_COMPLETION_ABORTED → first.map Prod.snd ≠ some .cancelled)))
  | .unlink _ live => inferInstanceAs (Decidable (live = false))
  | .submit .toDevice _ _ _ _ _ _ | .take .toDevice _ _ _ _ | .status _ _ _ | .request _ _
  | .setup _ | .complete _ _ _ | .giveback _ _ | .free _ => isTrue trivial

def Orderly (log : List Event) : Prop := ∀ e ∈ log, e.Orderly

instance (log : List Event) : Decidable (Orderly log) := List.decidableBAll _ log

theorem Orderly.of_suffix (l l' : List Event) (hl : l <:+ l') (h : Orderly l') : Orderly l :=
  fun e hmem => h e (hl.subset hmem)

/-- A completion that was not aborted was charged to the owner of its submission. -/
def Event.Charged (owners : List UrbId) : Event → Prop
  | .take .fromDevice index result _ first => result ≠ BCE_COMPLETION_ABORTED →
      ∃ w state, first = some (w, state) ∧ owners[index]? = some w
  | _ => True

theorem Event.Charged.mono {owners owners' : List UrbId} {e : Event} (h : e.Charged owners)
    (hnt : owners <+: owners') : e.Charged owners' := by
  obtain ⟨rest, rfl⟩ := hnt
  unfold Event.Charged at h ⊢
  split
  · grind
  · trivial

/-- The endpoint moves data from the device. -/
def Endpoint.IsDataIn (endp : Endpoint) : Prop := ∃ number bulk, endp = .data number .fromDevice bulk

/-- The requests of the outstanding submissions are the first requests of the list. -/
structure InOrder (c : Core) : Prop where
  endp : c.endp.IsDataIn
  requests : ∀ u ∈ c.urbList, (c.vurbs u).isControl = false ∧ (c.vurbs u).dir = .fromDevice
  ordered : c.sqIn.Ordered
  first : c.sqIn.liveOwners <+: c.urbList
  waiting : ∀ u ∈ c.sqIn.liveOwners, (c.vurbs u).state = .waitingForCompletion ∨ (c.vurbs u).state = .cancelled
  charged : ∀ e ∈ c.log, e.Charged c.sqIn.owners

/-- A request from the device without a status stage changes its state with a submission or its end
only. -/
theorem Quiet.frame_in {v v' : VUrb} (h : Quiet v v') (hctl : v.isControl = false) (hdir : v.dir = .fromDevice) :
    v'.state = v.state ∧ v'.urb = v.urb ∧ v'.isControl = v.isControl := by
  cases h with
  | waitForSetup _ hctl' | dataDone n _ hctl' => exact absurd (hctl'.symm.trans hctl) (by decide)
  | startOut _ hdir' | waitForWindow _ hdir' | resumeOut _ hdir' => exact absurd (hdir'.symm.trans hdir) (by decide)
  | failedStart stop => exact ⟨rfl, rfl, rfl⟩

namespace InOrder

variable {u : UrbId} {c c' : Core}

variable {l : List Event}

section

variable (h : InOrder c)
include h

theorem charged_append (hlog : c'.log = l ++ c.log)
    (hown : c.sqIn.owners <+: c'.sqIn.owners) (hnew : ∀ e ∈ l, e.Charged c'.sqIn.owners) :
    ∀ e ∈ c'.log, e.Charged c'.sqIn.owners := by
  intro e he
  rw [hlog] at he
  rcases mem_append.1 he with hmem | hmem
  · exact hnew e hmem
  · exact (h.charged e hmem).mono hown

/-- A step that leaves the queue from the device alone. -/
theorem frame (hendp : c'.endp = c.endp) (hpp : c'.sqIn = c.sqIn) (hfst : c.sqIn.liveOwners <+: c'.urbList)
    (hreq : ∀ w ∈ c'.urbList, (c'.vurbs w).isControl = false ∧ (c'.vurbs w).dir = .fromDevice)
    (hwt : ∀ w ∈ c.sqIn.liveOwners, (c'.vurbs w).state = .waitingForCompletion ∨ (c'.vurbs w).state = .cancelled)
    (hlog : c'.log = l ++ c.log) (hnew : ∀ e ∈ l, e.Charged c.sqIn.owners) :
    InOrder c' := by
  constructor
  case endp => exact hendp ▸ h.endp
  case requests => exact hreq
  case ordered => exact hpp ▸ h.ordered
  case first => exact hpp ▸ hfst
  case waiting => exact hpp ▸ hwt
  case charged =>
    refine h.charged_append hlog ?_ ?_
    · rw [hpp]
    · rw [hpp]
      exact hnew

/-- A step that changes neither a request nor the queue from the device, and may unlink a request
without an outstanding submission. -/
theorem frame_list (hendp : c'.endp = c.endp) (hpp : c'.sqIn = c.sqIn) (hvs : c'.vurbs = c.vurbs)
    (hls : c'.urbList = c.urbList ∨ ∃ u, u ∉ c.sqIn.liveOwners ∧ c'.urbList = c.urbList.erase u)
    (hlog : c'.log = l ++ c.log) (hnew : ∀ e ∈ l, e.Charged c.sqIn.owners) :
    InOrder c' := by
  refine h.frame hendp hpp ?_ ?_ ?_ hlog hnew
  · rcases hls with heq | ⟨u, hu, heq⟩
    · rw [heq]
      exact h.first
    · rw [heq]
      exact prefix_erase h.first hu
  · intro w hw
    rw [hvs]
    rcases hls with heq | ⟨u, -, heq⟩
    · exact h.requests w (heq ▸ hw)
    · rw [heq] at hw
      exact h.requests w (mem_of_mem_erase hw)
  · rw [hvs]
    exact h.waiting

theorem setVurb (hu : u ∈ c.urbList) {v : VUrb} (hurb : v.urb = (c.vurbs u).urb)
    (hctl : v.isControl = (c.vurbs u).isControl)
    (hsta : v.state = (c.vurbs u).state ∨ v.state = .waitingForCompletion ∨
      v.state = .cancelled) : InOrder (c.setVurb u v) := by
  refine h.frame (l := []) rfl rfl h.first (fun w hw => ?_) (fun w hw => ?_) rfl (forall_mem_nil _)
  · by_cases heq : w = u
    · rw [heq, vurbs_setVurb_self, hctl]
      refine ⟨(h.requests u hu).1, ?_⟩
      rw [VUrb.dir, hurb]
      exact (h.requests u hu).2
    · rw [c.vurbs_setVurb_of_ne _ _ heq]
      exact h.requests w hw
  · by_cases heq : w = u
    · rw [heq] at hw ⊢
      rw [vurbs_setVurb_self]
      rcases hsta with hsa | hoth
      · rw [hsa]
        exact h.waiting u hw
      · exact hoth
    · rw [c.vurbs_setVurb_of_ne _ _ heq]
      exact h.waiting w hw

end

/-- An orderly submission on the queue from the device, made from a state `c` in which the order may
be open at `u`. -/
theorem send (hendp : c.endp.IsDataIn)
    (hreq : ∀ w ∈ c.urbList, (c.vurbs w).isControl = false ∧ (c.vurbs w).dir = .fromDevice) (horde : c.sqIn.Ordered)
    (hwt : ∀ w ∈ c.sqIn.liveOwners, (c.vurbs w).state = .waitingForCompletion ∨ (c.vurbs w).state = .cancelled)
    (hchar : ∀ e ∈ c.log, e.Charged c.sqIn.owners) (hu : u ∈ c.urbList) {v : VUrb} {element : QeSubmission} {n : Nat}
    (hurb : v.urb = (c.vurbs u).urb) (hctl : v.isControl = (c.vurbs u).isControl)
    (hfst : c.sqIn.liveOwners ++ [u] <+: c.urbList) :
    InOrder (c.send .fromDevice u v element n) := by
  obtain ⟨hpus, hlive⟩ := Pipe.Ordered.pushed (d := .fromDevice) horde u element
  have hpp : (c.send .fromDevice u v element n).sqIn = c.pushed .fromDevice u element :=
    c.pipe_send .fromDevice u v element n .fromDevice
  constructor
  case endp =>
    exact hendp
  case requests =>
    intro w hw
    by_cases heq : w = u
    · rw [heq, vurbs_send_self]
      rw [hurb, hctl]
      exact hreq u hu
    · rw [vurbs_send_of_ne _ _ _ _ _ _ heq]
      exact hreq w hw
  case ordered =>
    exact hpus
  case first =>
    rw [hpp, hlive, urbList_send]
    exact hfst
  case waiting =>
    rw [hpp, hlive]
    intro w hw
    by_cases heq : w = u
    · rw [heq, vurbs_send_self]
      exact .inl rfl
    rw [vurbs_send_of_ne _ _ _ _ _ _ heq]
    rcases mem_append.1 hw with hold | hnew
    · exact hwt w hold
    · exact absurd (mem_singleton.1 hnew) heq
  case charged =>
    intro e he
    rcases mem_cons.1 he with rfl | hmem
    · trivial
    · exact (hchar e hmem).mono (prefix_append _ _)

section

variable (h : InOrder c)
include h

theorem charge (old new : UrbState) : InOrder (c.charge old new) := by
  have hpp : (c.charge old new).sqIn = c.sqIn := c.pipe_charge .fromDevice old new
  refine h.frame_list (l := []) (endp_charge ..) hpp (vurbs_charge ..)
    (.inl (urbList_charge ..)) (log_charge ..) (forall_mem_nil _)

theorem urbStep (hwf : c.WellFormed) (hord : Orderly c'.log) (hsp : UrbStep u c c') : InOrder c' := by
  cases hsp with
  | latch s hu hctl | setup element hu _ hctl => exact absurd (hctl.symm.trans (h.requests u hu).1) (by decide)
  | quiet v hu _ hqu =>
    obtain ⟨hsta, hurb, hctl⟩ := hqu.frame_in (h.requests u hu).1 (h.requests u hu).2
    exact (h.setVurb hu hurb hctl (.inl hsta)).charge _ _
  | send d v element limit n hu _ hpr _ _ =>
    have hsa := hpr.sameRequest
    cases d with
    | fromDevice =>
      have hmem : .submit .fromDevice u v.receiveOffset n v c.sqIn.liveOwners c.urbList ∈
          ((c.send .fromDevice u v element n).charge (c.vurbs u).state .waitingForCompletion).log := by
        rw [log_charge, log_send]
        exact mem_cons_self
      exact (send h.endp h.requests h.ordered h.waiting h.charged hu hsa.urb hsa.isControl (hord _ hmem)).charge _ _
    | toDevice =>
      -- the other queue: the request waits, and its place stays
      have hset := h.setVurb hu (v := { v with
        submittedLength := n, state := .waitingForCompletion }) hsa.urb hsa.isControl
        (.inr (.inl rfl))
      refine InOrder.charge ?_ _ _
      exact hset.frame_list (l := [_]) rfl rfl rfl (.inl rfl) rfl (forall_mem_singleton.2 trivial)
  | request length => exact h.frame_list (l := [_]) rfl rfl rfl (.inl rfl) rfl (forall_mem_singleton.2 trivial)
  | complete v status hu _ =>
    have hmem : unlink u (decide (u ∈ c.sqIn.liveOwners)) ∈ ((c.setVurb u v).urbComplete u status).log := by
      rw [log_urbComplete]
      exact mem_cons_of_mem _ mem_cons_self
    have hnot : u ∉ c.sqIn.liveOwners := of_decide_eq_false (hord _ hmem)
    have hne : ∀ w ∈ c.urbList.erase u, w ≠ u := by
      rintro w hw rfl
      exact hwf.nodup.not_mem_erase hw
    refine h.frame (l := [_, _, _]) (endp_urbComplete ..) (sqIn_urbComplete ..) ?_ ?_ ?_
      (log_urbComplete ..) fun e he => ?_
    · rw [urbList_urbComplete]
      exact prefix_erase h.first hnot
    · rw [urbList_urbComplete, vurbs_urbComplete]
      intro w hw
      rw [c.vurbs_setVurb_of_ne _ _ (hne w hw)]
      exact h.requests w (mem_of_mem_erase hw)
    · rw [vurbs_urbComplete]
      intro w hw
      have hwu : w ≠ u := fun heq => hnot (heq ▸ hw)
      rw [c.vurbs_setVurb_of_ne _ _ hwu]
      exact h.waiting w hw
    · simp only [mem_cons, not_mem_nil, or_false] at he
      rcases he with rfl | rfl | rfl <;> trivial

theorem urbSteps (hwf : c.WellFormed) (hord : Orderly c'.log) (hsts : UrbSteps u c c') : InOrder c' :=
  UrbSteps.guarded_invariant Orderly.of_suffix (I := InOrder)
    (fun _ _ hwf hord h hsp => h.urbStep hwf hord hsp) hsts hwf hord h

theorem setPipe_out (p : Pipe) : InOrder (c.setPipe .toDevice p) :=
  h.frame_list (l := []) rfl rfl rfl (.inl rfl) rfl (forall_mem_nil _)

theorem take_out (cd : CompletionData) (sq : Sq Entry) : InOrder (c.take .toDevice cd sq) := by
  refine (h.setPipe_out _).frame_list (l := [_]) rfl rfl rfl (.inl rfl) rfl fun e he => ?_
  rw [mem_singleton.1 he]
  trivial

/-- The queue from the device changes and keeps the owners of its outstanding submissions. -/
theorem setPipe_in {p : Pipe} (horde : p.Ordered)
    (hown : p.owners = c.sqIn.owners) (hlive : p.liveOwners <+: c.sqIn.liveOwners) :
    InOrder (c.setPipe .fromDevice p) :=
  { h with
    ordered := horde
    first := hlive.trans h.first
    waiting w hw := h.waiting w (hlive.subset hw)
    charged e he := by
      show e.Charged p.owners
      rw [hown]
      exact h.charged e he }

theorem notify (d : Direction) : InOrder (c.notifySubmissionComplete d) := by
  cases d with
  | toDevice => exact h.setPipe_out _
  | fromDevice => exact h.setPipe_in h.ordered.notify rfl prefix_rfl

theorem record {e : Event} (he : e.Charged c.sqIn.owners) : InOrder (c.record e) := by
  refine h.frame_list (l := [e]) rfl rfl rfl (.inl rfl) rfl fun e' he' => ?_
  rw [mem_singleton.1 he']
  exact he

variable {cd : CompletionData} {sq : Sq Entry}

section

variable (hnx : c.sqIn.sq.nextCompletion = some (cd, sq))
include hnx

theorem take_aborted (habor : cd.status = BCE_COMPLETION_ABORTED)
    (hord : Orderly (c.take .fromDevice cd sq).log) : InOrder (c.take .fromDevice cd sq) := by
  obtain ⟨horde, hcas⟩ := h.ordered.take hnx
  have hflus := ((hord _ mem_cons_self).1.1 habor)
  have hnot : c.sqIn.sq.taken ∉ c.sqIn.live := of_decide_eq_true hflus
  rcases hcas with ⟨-, hlive⟩ | ⟨hmem, -⟩
  · refine (h.setPipe_in horde rfl ?_).record ?_
    · rw [hlive]
    · exact fun hres => absurd habor hres
  · exact absurd hmem hnot

/-- A completion that is not aborted belongs to the first request, which waits for it. -/
theorem first_of_take (hst : cd.status ≠ BCE_COMPLETION_ABORTED) (hord : Orderly (c.take .fromDevice cd sq).log) :
    ∃ u rest, c.urbList = u :: rest ∧ c.sqIn.owners[c.sqIn.sq.taken]? = some u ∧
      (c.vurbs u).state = .waitingForCompletion ∧
      (c.take .fromDevice cd sq).sqIn.Ordered ∧
      c.sqIn.liveOwners = u :: (c.take .fromDevice cd sq).sqIn.liveOwners ∧
      (c.take .fromDevice cd sq).sqIn.liveOwners <+: rest := by
  obtain ⟨horde, hcas⟩ := h.ordered.take hnx
  obtain ⟨hflus, hcan⟩ := hord _ mem_cons_self
  have hmem : c.sqIn.sq.taken ∈ c.sqIn.live := by
    by_contra hnot
    exact hst (hflus.2 (decide_eq_true hnot))
  rcases hcas with ⟨hnot, -⟩ | ⟨-, w, howner, hlive⟩
  · exact absurd hmem hnot
  -- the oldest outstanding submission is one of the first request
  have hfst := h.first
  rw [hlive] at hfst
  cases hls : c.urbList with
  | nil => grind
  | cons u rest =>
    rw [hls] at hfst
    obtain ⟨hwu, hrs⟩ := cons_prefix_cons.1 hfst
    subst hwu
    refine ⟨w, rest, rfl, howner, ?_, horde, hlive, hrs⟩
    have hsta := h.waiting w (by rw [hlive]; exact mem_cons_self)
    rcases hsta with hsta | hsta
    · exact hsta
    · refine absurd ?_ (hcan hst)
      rw [hls, ← hsta]
      rfl

end

/-- The first request serves a completion: it ends, or it submits again in order. -/
theorem consume (hwf : c.WellFormed) {rest : List UrbId} (hnx : c.sqIn.sq.nextCompletion = some (cd, sq))
    (hst : cd.status ≠ BCE_COMPLETION_ABORTED) (hls : c.urbList = u :: rest)
    (hsuf : (c.take .fromDevice cd sq).log <:+ c'.log) (hord : Orderly c'.log)
    (hser : (c.vurbs u).isControl = false → (c.vurbs u).dir = .fromDevice →
      (c.vurbs u).state = .waitingForCompletion → Served u (c.take .fromDevice cd sq) c') :
    InOrder c' := by
  have htak := Orderly.of_suffix _ _ hsuf hord
  obtain ⟨w, rest', hls', howner, hsta, horde, hlive, hrs⟩ := h.first_of_take hnx hst htak
  obtain ⟨rfl, rfl⟩ := List.cons.inj (hls.symm.trans hls')
  have hu : u ∈ c.urbList := by
    rw [hls]
    exact mem_cons_self
  have hnotr : u ∉ rest := by
    have hnd := hwf.nodup
    rw [hls] at hnd
    exact (nodup_cons.1 hnd).1
  have hchar : ∀ e ∈ (c.take .fromDevice cd sq).log, e.Charged c.sqIn.owners := by
    intro e he
    rcases mem_cons.1 he with rfl | hmem
    · intro _
      refine ⟨u, .waitingForCompletion, ?_, howner⟩
      rw [hls, ← hsta]
      rfl
    · exact h.charged e hmem
  have hwt : ∀ w ∈ (c.take .fromDevice cd sq).sqIn.liveOwners,
      (c.vurbs w).state = .waitingForCompletion ∨ (c.vurbs w).state = .cancelled := by
    intro w hw
    exact h.waiting w (hlive ▸ mem_cons_of_mem u hw)
  have hda := h.requests u hu
  cases hser hda.1 hda.2 hsta with
  | complete v status =>
    have hne : ∀ w ∈ rest, w ≠ u := fun w hw heq => hnotr (heq ▸ hw)
    have herase : ((c.take .fromDevice cd sq).setVurb u v).urbList.erase u = rest := by
      show c.urbList.erase u = rest
      rw [hls, erase_cons_head]
    constructor
    case endp =>
      rw [endp_urbComplete]
      exact h.endp
    case requests =>
      rw [urbList_urbComplete, vurbs_urbComplete, herase]
      intro w hw
      rw [vurbs_setVurb_of_ne _ _ _ (hne w hw)]
      exact h.requests w (hls ▸ mem_cons_of_mem u hw)
    case ordered =>
      rw [sqIn_urbComplete]
      exact horde
    case first =>
      rw [sqIn_urbComplete, urbList_urbComplete, herase]
      exact hrs
    case waiting =>
      rw [sqIn_urbComplete, vurbs_urbComplete]
      intro w hw
      rw [vurbs_setVurb_of_ne _ _ _ (hne w (hrs.subset hw))]
      exact hwt w hw
    case charged =>
      rw [log_urbComplete, sqIn_urbComplete]
      intro e he
      simp only [mem_cons] at he
      rcases he with rfl | rfl | rfl | hold
      · trivial
      · trivial
      · trivial
      · exact hchar e hold
  | send v element n hurb hctl =>
    refine send (c := c.take .fromDevice cd sq) h.endp h.requests horde hwt hchar hu hurb hctl ?_
    have hmem : .submit .fromDevice u v.receiveOffset n v (c.take .fromDevice cd sq).sqIn.liveOwners c.urbList ∈
          ((c.take .fromDevice cd sq).send .fromDevice u v element n).log := by
      exact mem_cons_self
    exact hord _ hmem

theorem link (hwf : c.WellFormed) {urb : Urb} (sgList : Option SegmentList) (hdir : c.endp.hasSq urb.dir) :
    InOrder (c.usbHcdLinkUrbToEp (VUrb.fresh urb c.endp.isControl sgList)) := by
  obtain ⟨number, bulk, hendp⟩ := h.endp
  have hin : urb.dir = .fromDevice := by
    rw [hendp] at hdir
    exact (beq_iff_eq.1 hdir).symm
  have hda : c.endp.isControl = false := by
    rw [hendp]
    show (((number : Nat) + 1 + 0x80) % 16 == 0) = false
    rw [beq_eq_false_iff_ne]
    omega
  have hne : ∀ w ∈ c.urbList, w ≠ c.nextUrb := fun w hw => (hwf.lt_next w hw).ne
  refine h.frame (l := []) rfl rfl (h.first.trans (prefix_append _ _)) (fun w hw => ?_)
    (fun w hw => ?_) rfl (forall_mem_nil _)
  · show (update c.vurbs c.nextUrb _ w).isControl = false ∧ (update c.vurbs c.nextUrb _ w).dir = .fromDevice
    rcases mem_append.1 hw with hold | hnew
    · rw [update_of_ne (hne w hold)]
      exact h.requests w hold
    · rw [mem_singleton.1 hnew, update_self]
      exact ⟨hda, hin⟩
  · show (update c.vurbs c.nextUrb _ w).state = _ ∨ (update c.vurbs c.nextUrb _ w).state = _
    rw [update_of_ne (hne w (h.first.subset hw))]
    exact h.waiting w hw

theorem step (hwf : c.WellFormed) (hord : Orderly c'.log) (hsp : CoreStep c c') : InOrder c' := by
  cases hsp with
  | urb u hurb => exact h.urbStep hwf hord hurb
  | post d e hpn =>
    cases d with
    | toDevice => exact h.setPipe_out _
    | fromDevice => exact h.setPipe_in (h.ordered.post e hpn) rfl prefix_rfl
  | flush d =>
    cases d with
    | toDevice => exact h.setPipe_out _
    | fromDevice =>
      obtain ⟨horde, hlive⟩ := h.ordered.flush c.sqIn.sq.posted
      exact h.setPipe_in horde rfl hlive
  | takeAborted d hnx habor =>
    cases d with
    | toDevice => exact (h.take_out _ _).notify _
    | fromDevice => exact (h.take_aborted hnx habor hord).notify _
  | takeEmpty d hnx hst hls =>
    cases d with
    | toDevice => exact h.take_out _ _
    | fromDevice =>
      obtain ⟨u, rest, hls', -⟩ := h.first_of_take hnx hst hord
      exact absurd (hls.symm.trans hls') (cons_ne_nil _ _).symm
  | consume d u hnx hst hls hsts hser =>
    refine InOrder.notify ?_ d
    cases d with
    | toDevice => exact (h.take_out _ _).urbSteps (hwf.take _ _ _) hord hsts
    | fromDevice => exact h.consume hwf hnx hst hls (UrbSteps.log_suffix hsts) hord hser
  | link urb sgList hdir => exact h.link hwf sgList hdir
  | reject u =>
    have hnot : u ∉ c.sqIn.liveOwners := of_decide_eq_false (hord (.unlink u _) (mem_cons_of_mem _ mem_cons_self))
    refine h.frame_list (l := [_, _]) rfl rfl rfl (.inr ⟨u, hnot, rfl⟩) rfl fun e he => ?_
    simp only [mem_cons, not_mem_nil, or_false] at he
    rcases he with rfl | rfl <;> trivial
  | checkUnlink u status | pick _ | goOn => exact h.frame_list (l := []) rfl rfl rfl (.inl rfl) rfl (forall_mem_nil _)
  | mark u status hu =>
    have hset := h.setVurb hu (v := { c.vurbs u with
      state := .cancelled, cancelStatus := status,
      cancelWasActive := decide ((c.vurbs u).state ≠ .initPending) }) rfl rfl (.inr (.inr rfl))
    exact hset.frame_list (l := []) (endp_urbMarkCancelled ..)
      (c.pipe_urbMarkCancelled u status .fromDevice) (vurbs_urbMarkCancelled ..)
      (.inl (urbList_urbMarkCancelled ..)) (log_urbMarkCancelled ..)
      (forall_mem_nil _)
  | unlink held =>
    have hmem : .unlink held.urb (decide (held.urb ∈ c.sqIn.liveOwners)) ∈ (c.cancelUnlink held).log := by
      rw [log_cancelUnlink]
      exact mem_cons_self
    have hnot : held.urb ∉ c.sqIn.liveOwners := of_decide_eq_false (hord _ hmem)
    exact h.frame_list (l := [_]) (endp_cancelUnlink ..) (sqIn_cancelUnlink ..)
      (vurbs_cancelUnlink ..) (.inr ⟨_, hnot, urbList_cancelUnlink ..⟩)
      (log_cancelUnlink ..) (forall_mem_singleton.2 trivial)
  | give _ | free _ | pop _ =>
    exact h.frame_list (l := [_]) rfl rfl rfl (.inl rfl) rfl (forall_mem_singleton.2 trivial)

end

theorem create {endp : Endpoint} (h : endp.IsDataIn) : InOrder (Core.create endp) where
  endp := h
  requests _ hu := absurd hu not_mem_nil
  ordered := Pipe.Ordered.create
  first := nil_prefix
  waiting _ hu := absurd hu not_mem_nil
  charged _ he := absurd he not_mem_nil

end InOrder

/-! ## Results -/

/-- On a bulk endpoint from the device, in every orderly run: a completion that is not aborted is
charged to the request that queued its submission. -/
theorem completion_attribution {s : System} (h : tqMachine.Reachable s) {number : Fin 15}
    (hendp : s.endp = .data number .fromDevice true) (horderly : Orderly s.log) {index result : Nat} {flushed : Bool}
    {first : Option (UrbId × UrbState)} (htake : .take .fromDevice index result flushed first ∈ s.log)
    (hresult : result ≠ BCE_COMPLETION_ABORTED) :
    ∃ w state, first = some (w, state) ∧ s.sqIn.owners[index]? = some w := by
  have hinv : s.endp.IsDataIn → InOrder s.toCore := by
    refine System.guarded_invariant Orderly.of_suffix (I := fun c => c.endp.IsDataIn → InOrder c) ?_ ?_ h horderly
    · exact fun endp hin => InOrder.create hin
    · intro c c' hwf horderly hc hsp hin
      exact (hc (hsp.endp_eq ▸ hin)).step hwf horderly hsp
  exact (hinv ⟨number, true, hendp⟩).charged _ htake hresult

/-- A bulk request that reads 8 bytes. -/
def bulkRead : Urb := ⟨.fromDevice, 8, 0x1000, 0, false, true, [], by decide⟩

/-- A bulk request that reads 33 bytes into 33 pages, one more than a segment list chunk has room
for. -/
def scatteredRead : Urb := ⟨.fromDevice, 33, 0, 0, false, true, (List.range 33).map fun i => ⟨0x1000 * i, 1⟩, by decide⟩

/-- The device completes submission `index` with `size` bytes. -/
def completeIn (index size : Nat) : List Action :=
  [.post .fromDevice ⟨0, size, index, BCE_COMPLETION_SUCCESS⟩, .completion .fromDevice]

/-- Whether the event charges completion `index` to the request `u`. -/
def Event.charges (index : Nat) (u : UrbId) : Event → Bool
  | .take .fromDevice k 0 _ (some (w, _)) => k == index && w == u
  | _ => false

theorem Event.charges_iff {index : Nat} {u : UrbId} {e : Event} (h : e.charges index u) :
    ∃ flushed state, e = .take .fromDevice index BCE_COMPLETION_SUCCESS flushed (some (u, state)) := by
  unfold charges at h
  split at h
  · simp only [Bool.and_eq_true, beq_iff_eq] at h
    obtain ⟨rfl, rfl⟩ := h
    exact ⟨_, _, rfl⟩
  · cases h

/-- Two reads that are outstanding at once and complete in order. -/
theorem completion_attribution_twoReads :
    ∃ s, tqMachine.Reachable s ∧ s.endp = .data 0 .fromDevice true ∧ Orderly s.log ∧
      ∃ flushed first, .take .fromDevice 1 BCE_COMPLETION_SUCCESS flushed first ∈ s.log ∧
        ∃ w state, first = some (w, state) ∧ s.sqIn.owners[1]? = some w := by
  obtain ⟨s, hs, hendp, hord, hany⟩ := Machine.exists_of_run (M := tqMachine)
    (P := fun s => s.endp = .data 0 .fromDevice true ∧ Orderly s.log ∧ s.log.any (charges 1 1) = true)
    ([.enqueue bulkRead .granted, .enqueue bulkRead .granted] ++ completeIn 0 8 ++ completeIn 1 8)
    ⟨.data 0 .fromDevice true, rfl⟩ (by decide)
  obtain ⟨e, hmem, hcharg⟩ := any_eq_true.1 hany
  obtain ⟨flushed, state, rfl⟩ := charges_iff hcharg
  exact ⟨s, hs, hendp, hord, flushed, _, hmem, completion_attribution hs hendp hord hmem (by decide)⟩

/-- Request 0 has two chunks and request 1 one submission between them, whose completion is charged to request 0,
which ends with status 0. -/
theorem completion_charged_to_other :
    ∃ s, tqMachine.Reachable s ∧ s.endp = .data 0 .fromDevice true ∧ s.sqIn.owners = [0, 1, 0] ∧
      (∃ flushed state, .take .fromDevice 1 BCE_COMPLETION_SUCCESS flushed (some (0, state)) ∈ s.log) ∧
      s.urbList = [1] ∧ (s.cells 0).status = 0 ∧ s.sqIn.sq.taken = 2 := by
  obtain ⟨s, hs, hendp, hown, hany, hrs⟩ := Machine.exists_of_run (M := tqMachine)
    (P := fun s => s.endp = .data 0 .fromDevice true ∧ s.sqIn.owners = [0, 1, 0] ∧
      s.log.any (charges 1 0) = true ∧ s.urbList = [1] ∧ (s.cells 0).status = 0 ∧
      s.sqIn.sq.taken = 2)
    ([.enqueue scatteredRead ⟨true, true, some fun i => some (0x100000 + 0x1000 * i), 0⟩,
      .enqueue bulkRead .granted] ++ completeIn 0 32 ++ completeIn 1 1)
    ⟨.data 0 .fromDevice true, rfl⟩ (by decide)
  obtain ⟨e, hmem, hcharg⟩ := any_eq_true.1 hany
  obtain ⟨flushed, state, rfl⟩ := charges_iff hcharg
  exact ⟨s, hs, hendp, hown, ⟨flushed, state, hmem⟩, hrs⟩

end KaiT2en.Vhci
