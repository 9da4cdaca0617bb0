import KaiT2en.Dma.CommandQueue

/-!
# Which reply a command gets

`t2bce_dma_cmdq_completion` finds the owner of a completion in `tres` at `sq->head`. The completion
handler advances the head, and so does every caller that times out, without waiting for its
completion. From then on the head is ahead of the completions, and the late completion of one
command is handed to the caller of another one (`cmd_finish_foreign_reply`).

`cmd_finish_own_reply` is what the lookup does guarantee: a caller that returns 0 has the reply to
its own command in every run in which each completion is handled either before the first timed-out
caller has notified, or while no other caller is waiting.
-/

namespace KaiT2en.Dma

open KaiT2en.Kernel KaiT2en.Lib KaiT2en.Lib.Transition List Function Cmdq Caller Nat

variable {γ : Type}

/-! ## The completion table -/

/-- The completion table holds the replies that `entry` names, the newest ones in order. -/
structure Cmdq.Recorded (s : Cmdq γ) : Prop where
  length : s.replies.length = s.sq.posted
  stored : ∀ k, k < s.sq.posted → s.replies[s.entry (k % s.sq.elCount)]? = some (s.sq.completionData (k % s.sq.elCount))
  entry_eq : ∀ k, k < s.sq.posted → s.sq.posted ≤ k + s.sq.elCount → s.entry (k % s.sq.elCount) = k

variable {s : Cmdq γ}

theorem Cmdq.recorded_init (h : (cmdqMachine γ).init s) : s.Recorded := by
  obtain ⟨mem, elCount, -, hall⟩ := h
  obtain ⟨rfl, -⟩ := allocCmdq_spec hall
  exact ⟨rfl, fun k hk => absurd hk (not_lt_zero k), fun k hk => absurd hk (not_lt_zero k)⟩

theorem Cmdq.Recorded.post (h : s.Recorded) (hacc : s.Accounted)
    (reply : CompletionData) : (s.posted reply).Recorded := by
  have hct := hacc.consistent.ctail_eq
  have hda : (s.posted reply).sq.completionData = update s.sq.completionData s.sq.completionTail reply := by
    simp [posted, Sq.handleCqCompletion, hct]
  have hnew : (s.posted reply).replies[s.sq.posted]? = some reply := by simp [posted, ← h.length]
  refine ⟨?_, ?_, ?_⟩
  · show (s.replies ++ [reply]).length = s.sq.posted + 1
    simp [h.length]
  · intro k hk
    have hk : k < s.sq.posted + 1 := hk
    show (s.posted reply).replies[update s.entry s.sq.completionTail s.sq.posted (k % s.sq.elCount)]? = _
    by_cases hsl : k % s.sq.elCount = s.sq.completionTail
    · rw [hda]
      show _ = some (update s.sq.completionData s.sq.completionTail reply (k % s.sq.elCount))
      rw [hsl, update_self, update_self]
      exact hnew
    have hlt : k < s.sq.posted := by
      refine lt_of_le_of_ne (by omega) fun heq => hsl ?_
      rw [heq, hct]
    rw [hda]
    show _ = some (update s.sq.completionData s.sq.completionTail reply (k % s.sq.elCount))
    rw [update_of_ne hsl, update_of_ne hsl]
    have hold := h.stored k hlt
    have hin := (List.getElem?_eq_some_iff.1 hold).1
    show (s.replies ++ [reply])[_]? = _
    rw [getElem?_append_left hin]
    exact hold
  · intro k hk hle
    have hle : s.sq.posted + 1 ≤ k + s.sq.elCount := hle
    show update s.entry s.sq.completionTail s.sq.posted (k % s.sq.elCount) = k
    rcases Nat.lt_succ_iff_lt_or_eq.1 hk with hlt | rfl
    · have hne : k % s.sq.elCount ≠ s.sq.completionTail := by
        rw [hct]
        exact Ring.slot_ne hlt (by omega)
      rw [update_of_ne hne]
      exact h.entry_eq k hlt (by omega)
    · rw [← hct, update_self]

variable {a : CmdqAction γ}

theorem Cmdq.Recorded.step {s t : Cmdq γ} (h : s.Recorded)
    (hacc : s.Accounted) (hst : CmdqStep s a t) : t.Recorded := by
  cases hst with
  | post reply _ => exact h.post hacc reply
  | reserve _ _ hr =>
    obtain ⟨free, waiting, done, rfl⟩ := reserveStep_frame hr
    exact { h with }
  | complete hn =>
    obtain ⟨-, rfl⟩ := Sq.nextCompletion_spec hn
    exact { h with }
  | _ => exact { h with }

/-! ## The result elements in `tres` -/

/-- The caller is in `t2bce_dma_cmd_finish` without a result, and its command, in `slot`, is not notified until a
timed-out caller notifies. -/
structure Caller.Pending (c : Caller γ) (s : Cmdq γ) (slot : Nat) : Prop where
  pc : c.pc = .waiting ∨ c.pc = .expired
  cmpl : c.res.cmpl = false
  slot_eq : c.res.slot = slot
  own_lt : c.own < s.sq.submitted
  own_slot : c.own % s.sq.elCount = slot
  order : s.timeouts = 0 → s.sq.notified ≤ c.own

/-- `tres` points to result elements of pending callers only. -/
def Cmdq.Waiters (s : Cmdq γ) : Prop := ∀ slot j, s.tres slot = some j → ∃ c, s.callers[j]? = some c ∧ c.Pending s slot

variable {c : Caller γ}

theorem Caller.Pending.of_frame {s t : Cmdq γ} {slot : Nat} (h : c.Pending s slot)
    (hsub : s.sq.submitted ≤ t.sq.submitted) (hel : t.sq.elCount = s.sq.elCount)
    (hord : t.timeouts = 0 → s.timeouts = 0 ∧ t.sq.notified = s.sq.notified) :
    c.Pending t slot :=
  { h with
    own_lt := lt_of_lt_of_le h.own_lt hsub
    own_slot := hel ▸ h.own_slot
    order := fun h0 => by
      obtain ⟨hs0, hnot⟩ := hord h0
      rw [hnot]
      exact h.order hs0 }

theorem Caller.not_pending {slot : Nat} {pc : CallerPc}
    (hpc : c.pc = pc) (hw : pc ≠ .waiting) (he : pc ≠ .expired) : ¬c.Pending s slot := by
  subst hpc
  intro hp
  rcases hp.pc with h | h
  · exact hw h
  · exact he h

theorem Cmdq.Waiters.ne (h : s.Waiters) {slot i j : Nat}
    (hc : s.callers[i]? = some c) (hnot : ¬c.Pending s slot) (hj : s.tres slot = some j) :
    i ≠ j := by
  rintro rfl
  obtain ⟨c', hc', hp⟩ := h slot i hj
  rw [hc] at hc'
  cases hc'
  exact hnot hp

variable {i : Nat}

theorem Cmdq.Waiters.set {s t : Cmdq γ} (h : s.Waiters) {c c' : Caller γ} (hc : s.callers[i]? = some c)
    (hnot : ∀ slot, s.tres slot = some i → ¬c.Pending s slot) (hcal : t.callers = s.callers.set i c')
    (htres : t.tres = s.tres) (hsub : t.sq.submitted = s.sq.submitted) (hel : t.sq.elCount = s.sq.elCount)
    (hord : t.timeouts = 0 → s.timeouts = 0 ∧ t.sq.notified = s.sq.notified) : t.Waiters := by
  intro slot j hj
  rw [htres] at hj
  obtain ⟨d, hd, hp⟩ := h slot j hj
  have hij : i ≠ j := by
    rintro rfl
    exact h.ne hc (hnot slot hj) hj rfl
  refine ⟨d, ?_, hp.of_frame hsub.ge hel hord⟩
  rw [hcal, getElem?_set_ne hij]
  exact hd

section

variable (h : s.Waiters)
include h

theorem Cmdq.Waiters.submitCommand (hacc : s.Accounted) {call : ReserveCall} (hc : s.callers[i]? = some c)
    (hpc : c.pc = .reserving call) : (s.submitCommand i c).Waiters := by
  have hi : i < s.callers.length := (List.getElem?_eq_some_iff.1 hc).1
  have hti : (s.submitCommand i c).timeouts = s.timeouts := timeouts_set hc (by rw [hpc]; rfl) rfl
  intro slot j hj
  simp only [Cmdq.submitCommand] at hj
  -- the entry at the old tail is the new one, every other entry is an old one
  by_cases hsl : slot = s.sq.tail
  · rw [hsl, update_self] at hj
    cases hj
    subst hsl
    refine ⟨_, getElem?_set_self hi, .inl rfl, rfl, rfl, lt_succ_self _, ?_, ?_⟩
    · exact hacc.consistent.tail_eq.symm
    · intro h0
      show s.sq.notified ≤ s.sq.submitted
      have := hacc.notified_eq
      have := hacc.taken_le.trans hacc.posted_le
      omega
  rw [update_of_ne hsl] at hj
  obtain ⟨d, hd, hp⟩ := h slot j hj
  have hij : i ≠ j := h.ne hc (not_pending hpc (by simp) (by simp)) hj
  refine ⟨d, (getElem?_set_ne hij).trans hd, hp.of_frame (le_succ _) rfl ?_⟩
  exact fun h0 => ⟨hti.symm.trans h0, rfl⟩

theorem Cmdq.Waiters.giveUpSlot (hc : s.callers[i]? = some c) (hpc : c.pc = .expired) : (s.giveUpSlot i c).Waiters := by
  have hti : (s.giveUpSlot i c).timeouts = s.timeouts := timeouts_set hc (by rw [hpc]; rfl) rfl
  intro slot j hj
  simp only [Cmdq.giveUpSlot] at hj
  by_cases hsl : slot = c.res.slot
  · rw [hsl, update_self] at hj
    cases hj
  rw [update_of_ne hsl] at hj
  obtain ⟨d, hd, hp⟩ := h slot j hj
  have hij : i ≠ j := h.ne hc (fun hq => hsl hq.slot_eq.symm) hj
  refine ⟨d, (getElem?_set_ne hij).trans hd, hp.of_frame (le_refl _) rfl ?_⟩
  exact fun h0 => ⟨hti.symm.trans h0, rfl⟩

/-- The entry at the head leaves `tres`; the commands of the other entries are newer than the one
that is notified now. -/
theorem Cmdq.Waiters.completed (hacc : s.Accounted)
    {result : CompletionData} {sq : Sq γ} (hn : s.sq.nextCompletion = some (result, sq)) :
    (s.completed result sq).Waiters := by
  obtain ⟨-, rfl⟩ := Sq.nextCompletion_spec hn
  intro slot j hj
  simp only [Cmdq.completed] at hj
  by_cases hsl : slot = s.sq.head
  · rw [hsl, update_self] at hj
    cases hj
  rw [update_of_ne hsl] at hj
  obtain ⟨d, hd, hp⟩ := h slot j hj
  refine ⟨d, ?_, hp.pc, hp.cmpl, hp.slot_eq, hp.own_lt, hp.own_slot, ?_⟩
  · simp only [Cmdq.completed]
    cases hhd : s.tres s.sq.head with
    | none => exact hd
    | some i =>
      obtain ⟨c, hc, hq⟩ := h s.sq.head i hhd
      have hij : i ≠ j := h.ne hc (fun hr => hsl (hr.slot_eq.symm.trans hq.slot_eq)) hj
      simp only [getElem?_modify, if_neg hij, hd, Option.map_eq_map, Option.map_some]
  · intro h0
    rw [timeouts, weigh_completed] at h0
    have hle := hp.order h0
    have hne : d.own ≠ s.sq.notified := by
      intro heq
      apply hsl
      rw [← hp.own_slot, heq, hacc.consistent.head_eq]
    show s.sq.notified + 1 ≤ d.own
    omega

theorem Cmdq.Waiters.expire (hc : s.callers[i]? = some c) (hpc : c.pc = .waiting) : (s.move i c .expired).Waiters := by
  have hti : (s.move i c .expired).timeouts = s.timeouts := timeouts_set hc (by rw [hpc]; rfl) rfl
  intro slot j hj
  obtain ⟨d, hd, hp⟩ := h slot j hj
  have hp' : d.Pending (s.move i c .expired) slot := hp.of_frame (le_refl _) rfl fun h0 => ⟨hti.symm.trans h0, rfl⟩
  by_cases hij : i = j
  · subst hij
    rw [hc] at hd
    cases hd
    refine ⟨_, getElem?_set_self (List.getElem?_eq_some_iff.1 hc).1, ?_⟩
    exact ⟨.inr rfl, hp'.cmpl, hp'.slot_eq, hp'.own_lt, hp'.own_slot, hp'.order⟩
  · exact ⟨d, (getElem?_set_ne hij).trans hd, hp'⟩

end

theorem Cmdq.Waiters.step {s t : Cmdq γ} (h : s.Waiters) (hacc : s.Accounted) (hst : CmdqStep s a t) : t.Waiters := by
  cases hst with
  | call command =>
    intro slot j hj
    obtain ⟨c, hc, hp⟩ := h slot j hj
    refine ⟨c, (getElem?_append_left (List.getElem?_eq_some_iff.1 hc).1).trans hc, ?_⟩
    refine hp.of_frame (le_refl _) rfl fun h0 => ⟨?_, rfl⟩
    simpa [timeouts, weigh, start, CallerPc.late] using h0
  | reserve hc hpc hr =>
    obtain ⟨free, waiting, done, rfl⟩ := reserveStep_frame hr
    refine h.set hc (fun slot _ => not_pending hpc (by simp) (by simp)) rfl rfl rfl rfl ?_
    exact fun h0 => ⟨(timeouts_set hc (by rw [hpc]; rfl) rfl).symm.trans h0, rfl⟩
  | submit hc hpc _ => exact h.submitCommand hacc hc hpc
  | post _ _ | disable | enable =>
    intro slot j hj
    obtain ⟨c, hc, hp⟩ := h slot j hj
    exact ⟨c, hc, hp.of_frame (le_refl _) rfl fun h0 => ⟨h0, rfl⟩⟩
  | complete hn => exact h.completed hacc hn
  | wake hc hpc hcl =>
    refine h.set hc (fun slot _ hp => ?_) rfl rfl rfl rfl ?_
    · have := hp.cmpl
      rw [hcl] at this
      cases this
    · exact fun h0 => ⟨(timeouts_set hc (by rw [hpc]; rfl) rfl).symm.trans h0, rfl⟩
  | expire hc hpc _ => exact h.expire hc hpc
  | giveUp hc hpc => exact h.giveUpSlot hc hpc
  | @notifyTimeout i c hc hpc =>
    refine h.set hc (fun slot _ => not_pending hpc (by simp) (by simp)) rfl rfl rfl rfl ?_
    intro h0
    -- there is a timeout now
    have hle := le_total (fun c : Caller γ => c.pc.late)
      (getElem?_set_self (a := { c with pc := .timedOut })
        (List.getElem?_eq_some_iff.1 hc).1)
    have hbad : 1 ≤ 0 := hle.trans h0.le
    exact absurd hbad (by decide)

/-! ## Replies -/

/-- The result element holds the status and the result of the reply to the caller's own command. -/
def Caller.HasOwnReply (c : Caller γ) (s : Cmdq γ) : Prop :=
  ∃ reply, s.replies[c.own]? = some reply ∧ c.res.status = reply.status ∧ c.res.result = reply.result

/-- No timed-out caller has notified yet, or no caller but the one that submitted the completed command is waiting. -/
def Cmdq.Attributable (s : Cmdq γ) : Prop :=
  s.timeouts = 0 ∨ ∀ c ∈ s.callers, c.pc = .waiting → c.res.cmpl = false → c.own = s.entry s.sq.completionCidx
  deriving Decidable

/-- The condition on the steps of a run: every completion is attributable when it is handled. -/
def attributed (s : Cmdq γ) : CmdqAction γ → Prop
  | .complete => s.Attributable
  | _ => True

instance (s : Cmdq γ) (a : CmdqAction γ) : Decidable (attributed s a) :=
  match a with
  | .complete => inferInstanceAs (Decidable s.Attributable)
  | .call _ | .reserve _ _ | .submit _ | .post _ | .wake _ | .expire _ | .giveUp _
  | .notifyTimeout _ | .disable | .enable => isTrue trivial

/-- Callers with a result, in particular those that returned 0, have their own reply. -/
def Cmdq.Answered (s : Cmdq γ) : Prop :=
  ∀ (i : Nat) (c : Caller γ), s.callers[i]? = some c →
    c.pc = .waiting ∧ c.res.cmpl = true ∨ c.pc = .succeeded → c.HasOwnReply s

theorem Cmdq.own_eq_entry (hacc : s.Accounted) (hrec : s.Recorded)
    (hattr : s.Attributable) (hc : s.callers[i]? = some c)
    (hp : c.Pending s s.sq.head) (hpc : c.pc = .waiting) (hlt : s.sq.taken < s.sq.posted) :
    c.own = s.entry s.sq.completionCidx := by
  rcases hattr with h0 | honly
  · -- before the first timeout the head is at the oldest command that is not notified
    have hnot : s.sq.notified = s.sq.taken := by rw [hacc.notified_eq, h0, add_zero]
    have hbal := hacc.consistent.balance
    have hnn := hacc.consistent.nonneg
    have hle := hp.order h0
    have hown := hp.own_lt
    have hps := hacc.posted_le
    have hnear : c.own < s.sq.notified + s.sq.elCount := by omega
    have htak : s.sq.notified = c.own := by
      refine Ring.slot_inj hle hnear ?_
      rw [hp.own_slot, hacc.consistent.head_eq]
    rw [hacc.consistent.cidx_eq, hrec.entry_eq s.sq.taken hlt (by omega)]
    omega
  · exact honly c (mem_of_getElem? hc) hpc hp.cmpl

theorem Cmdq.Answered.completed (h : s.Answered) (hacc : s.Accounted) (hrec : s.Recorded) (hwt : s.Waiters)
    (hattr : s.Attributable) {result : CompletionData} {sq : Sq γ} (hn : s.sq.nextCompletion = some (result, sq)) :
    (s.completed result sq).Answered := by
  have hlt := hacc.taken_lt hn
  obtain ⟨⟨-, hres⟩, rfl⟩ := Sq.nextCompletion_spec hn
  intro i c' hc' hdn
  simp only [Cmdq.completed] at hc'
  cases hhd : s.tres s.sq.head with
  | none =>
    rw [hhd] at hc'
    exact h i c' hc' hdn
  | some j =>
    obtain ⟨d, hd, hp⟩ := hwt s.sq.head j hhd
    rw [hhd] at hc'
    simp only [getElem?_modify, Option.map_eq_map, Option.map_eq_some_iff] at hc'
    obtain ⟨c, hc, rfl⟩ := hc'
    by_cases hij : j = i
    · subst hij
      rw [hd] at hc
      cases hc
      simp only [if_true] at hdn ⊢
      unfold deliver at hdn ⊢
      split
      · rename_i hgen
        rw [if_pos hgen] at hdn
        -- only a caller that is still waiting can return 0
        have hpc : d.pc = .waiting := by
          rcases hdn with ⟨hw, -⟩ | hs
          · exact hw
          rcases hp.pc with hw | he
          · exact hw
          · exact absurd (he.symm.trans hs) (by simp)
        have hown := own_eq_entry hacc hrec hattr hd hp hpc hlt
        have hstor := hrec.stored s.sq.taken hlt
        rw [← hacc.consistent.cidx_eq] at hstor
        refine ⟨result, ?_, rfl, rfl⟩
        rw [hres, ← hstor]
        exact congrArg (fun k => s.replies[k]?) hown
      · rename_i hgen
        rw [if_neg hgen] at hdn
        exact h j d hd hdn
    · simp only [if_neg hij] at hdn ⊢
      exact h i c hc hdn

theorem Cmdq.Answered.set {s t : Cmdq γ} (h : s.Answered) {c c' : Caller γ} (hc : s.callers[i]? = some c)
    (hcal : t.callers = s.callers.set i c') (hrep : t.replies = s.replies)
    (hdn : c'.pc = .waiting ∧ c'.res.cmpl ∨ c'.pc = .succeeded → c.HasOwnReply s → c'.HasOwnReply s)
    (hold : c'.pc = .waiting ∧ c'.res.cmpl ∨ c'.pc = .succeeded →
      c.pc = .waiting ∧ c.res.cmpl ∨ c.pc = .succeeded) : t.Answered := by
  intro j d hd hdd
  rw [Caller.HasOwnReply, hrep]
  rw [hcal] at hd
  by_cases hij : i = j
  · subst hij
    rw [getElem?_set_self (List.getElem?_eq_some_iff.1 hc).1] at hd
    cases hd
    exact hdn hdd (h i c hc (hold hdd))
  · rw [getElem?_set_ne hij] at hd
    exact h j d hd hdd

theorem Cmdq.Answered.step {s t : Cmdq γ} (h : s.Answered) (hacc : s.Accounted) (hrec : s.Recorded) (hwt : s.Waiters)
    (hok : attributed s a) (hst : CmdqStep s a t) : t.Answered := by
  cases hst with
  | call command =>
    intro j d hd hdd
    rcases getElem?_concat_cases hd with hold | ⟨-, rfl⟩
    · exact h j d hold hdd
    · simp [start] at hdd
  | reserve hc _ _ | submit hc _ _ | expire hc _ _ | giveUp hc _ | notifyTimeout hc _ =>
    exact h.set hc rfl rfl (by simp) (by simp)
  | post reply _ =>
    intro j d hd hdd
    obtain ⟨r, hr, hstat, hres⟩ := h j d hd hdd
    refine ⟨r, ?_, hstat, hres⟩
    exact (getElem?_append_left (List.getElem?_eq_some_iff.1 hr).1).trans hr
  | complete hn => exact h.completed hacc hrec hwt hok hn
  | wake hc hpc hcl => exact h.set hc rfl rfl (fun _ hr => hr) (fun _ => .inl ⟨hpc, hcl⟩)
  | disable | enable => exact h

/-- In every run whose completions are all attributable, a caller that returned 0 has the reply to its own command. -/
theorem cmd_finish_own_reply {s : Cmdq γ} (h : (cmdqMachine γ).Reach attributed s) :
    ∀ c ∈ s.callers, c.pc = .succeeded → c.HasOwnReply s := by
  have hinv : s.Accounted ∧ s.Recorded ∧ s.Waiters ∧ s.Answered := by
    refine h.invariant (I := fun s => s.Accounted ∧ s.Recorded ∧ s.Waiters ∧ s.Answered) ?_ ?_
    · intro s hi
      refine ⟨accounted_init hi, recorded_init hi, ?_, ?_⟩
      all_goals
        obtain ⟨mem, elCount, -, hall⟩ := hi
        obtain ⟨rfl, -⟩ := allocCmdq_spec hall
      · intro slot j hj
        cases hj
      · intro i c hc
        simp at hc
    · rintro s a t - hok ⟨hacc, hrec, hwt, hans⟩ hst
      have hst := cmdqStep_of_next hst
      exact ⟨hacc.step hst, hrec.step hacc hst, hwt.step hacc hst, hans.step hacc hrec hwt hok hst⟩
  intro c hc hpc
  obtain ⟨i, hi⟩ := mem_iff_getElem?.1 hc
  exact hinv.2.2.2 i c hi (.inr hpc)

/-- Two commands are answered in time, and the callers wake up in the other order. -/
theorem cmd_finish_own_reply_two_commands : ∃ s, (cmdqMachine Unit).Reach attributed s ∧
      (∃ c ∈ s.callers, c.pc = .succeeded ∧ c.own = 1 ∧ c.res.result = 71) ∧
      ∀ c ∈ s.callers, c.pc = .succeeded → c.HasOwnReply s := by
  obtain ⟨s, hs, hp⟩ := Machine.exists_of_guarded_run (M := cmdqMachine Unit)
    (P := fun s => ∃ c ∈ s.callers, c.pc = .succeeded ∧ c.own = 1 ∧ c.res.result = 71)
    attributed (issue 0 () ++ issue 1 () ++
      [.post ⟨0, 0, 70⟩, .post ⟨0, 0, 71⟩, .complete, .complete, .wake 1, .wake 0])
    initial_init (by decide)
  exact ⟨s, hs, hp, cmd_finish_own_reply hs⟩

/-- Caller 0 times out while caller 1 is waiting; then the completion of caller 0 arrives. -/
def foreignReplyRun : List (CmdqAction Unit) :=
  issue 0 () ++ issue 1 () ++ [.expire 0, .giveUp 0, .notifyTimeout 0, .post ⟨0, 0, 70⟩, .complete, .wake 1]

/-- Caller 1 returns 0 with the result 70 of the command of caller 0, before its own command is answered. -/
theorem cmd_finish_foreign_reply :
    ∃ s, (cmdqMachine Unit).Reachable s ∧ ∃ c ∈ s.callers, c.pc = .succeeded ∧ c.own = 1 ∧
      c.res.result = 70 ∧ s.replies = [⟨0, 0, 70⟩] ∧ ¬c.HasOwnReply s := by
  obtain ⟨s, hs, c, hc, hpc, hown, hres, hrep⟩ := Machine.exists_of_run (M := cmdqMachine Unit)
    (P := fun s => ∃ c ∈ s.callers, c.pc = .succeeded ∧ c.own = 1 ∧ c.res.result = 70 ∧
      s.replies = [⟨0, 0, 70⟩]) foreignReplyRun initial_init (by decide)
  refine ⟨s, hs, c, hc, hpc, hown, hres, hrep, ?_⟩
  rintro ⟨reply, hrpl, -⟩
  rw [hrep, hown] at hrpl
  simp at hrpl

end KaiT2en.Dma
