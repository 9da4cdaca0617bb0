import KaiT2en.Kernel.Primitives
import KaiT2en.Lib.Ring
import KaiT2en.Lib.Transition

/-!
# Replies to audio commands

The command path of `t2bce_audio/protocol_bce.c`. A call of `t2audio_send_cmd_sync` takes the next of 1000 tags,
stores a pointer to an object on its stack in `pending_entries` and waits; the handler of replies copies a reply into
the buffer of the entry with its tag and completes it.

An action of `audioMachine` is a section under `b->spinlock` or a step of a caller outside of it. The section of the
reply handler is split where it wakes the caller, who returns without the lock and can be gone while its entry is
still in the table (`entry_outlives_caller`). Nobody reads the table before the handler has cleared the entry;
`audio_replies` is about the states in which the lock is free.
-/

namespace KaiT2en.Audio

open KaiT2en.Kernel KaiT2en.Lib.Transition List Option Function

/-! ## Tags -/

def T2AUDIO_BCE_QUEUE_TAG_COUNT : Nat := 1000

/-- The text of a tag, `S` and three decimal digits. -/
def tagText (n : Nat) : List Nat := [83, 48 + n / 100, 48 + n / 10 % 10, 48 + n % 10]

/-- `t2audio_send_create_tag`: the new `tag_num` and the text. -/
def sendCreateTag (tagNum : Nat) : Nat × List Nat :=
  let n := (tagNum + 1) % T2AUDIO_BCE_QUEUE_TAG_COUNT
  (n, tagText n)

/-- Whether a character is a decimal digit. -/
def isDigit (c : Nat) : Bool := decide (48 ≤ c ∧ c ≤ 57)

/-- `_kstrtoull` with base 10: digits, and nothing behind them but one line feed. -/
def kstrtoull (s : List Nat) : Option Nat :=
  let digits := s.takeWhile isDigit
  let rest := s.dropWhile isDigit
  if digits = [] then none
  else if rest = [] ∨ rest = [10] then some (digits.foldl (fun v c => 10 * v + (c - 48)) 0)
  else none

/-- `kstrtoint` with base 10, for texts too short to overflow. -/
def kstrtoint : List Nat → Option Int
  | 45 :: s => (kstrtoull s).map fun v => -(v : Int)
  | 43 :: s => (kstrtoull s).map Int.ofNat
  | s => (kstrtoull s).map Int.ofNat

/-- The part of `t2audio_handle_reply` that reads the tag; the text ends at the first NUL. -/
def parseTag : List Nat → Option Int
  | 83 :: s => kstrtoint ((s.take 3).takeWhile (· ≠ 0))
  | _ => none

theorem parseTag_tagText {n : Nat} (h : n < T2AUDIO_BCE_QUEUE_TAG_COUNT) : parseTag (tagText n) = some (n : Int) := by
  have hlt : n < 1000 := h
  have hdig : ∀ d, d < 10 → isDigit (48 + d) := by
    intro d hd
    apply decide_eq_true
    omega
  have hhun := hdig (n / 100) (by omega)
  have htens := hdig (n / 10 % 10) (by omega)
  have hones := hdig (n % 10) (by omega)
  have hcut : ([48 + n / 100, 48 + n / 10 % 10, 48 + n % 10].takeWhile (· ≠ 0)) =
      [48 + n / 100, 48 + n / 10 % 10, 48 + n % 10] := by
    simp
  have hnum : kstrtoull [48 + n / 100, 48 + n / 10 % 10, 48 + n % 10] = some n := by
    unfold kstrtoull
    simp only [takeWhile_cons, hhun, htens, hones, if_true, takeWhile_nil,
      dropWhile_cons, dropWhile_nil, reduceCtorEq, if_false, true_or,
      foldl_cons, foldl_nil, Option.some.injEq]
    omega
  -- a digit is not a sign
  have hsign : ∀ (c : Nat) (s : List Nat), 48 ≤ c → kstrtoint (c :: s) = (kstrtoull (c :: s)).map Int.ofNat := by
    intro c s hc
    unfold kstrtoint
    split
    · rename_i heq
      have := (List.cons.inj heq).1
      omega
    · rename_i heq
      have := (List.cons.inj heq).1
      omega
    · rfl
  show kstrtoint (([48 + n / 100, 48 + n / 10 % 10, 48 + n % 10].take 3).takeWhile (· ≠ 0)) = _
  rw [take_of_length_le (by simp), hcut, hsign _ _ (by omega), hnum]
  rfl

/-! ## The command path -/

/-- The number of a call of `t2audio_send_cmd_sync`. -/
abbrev CallerId := Nat

/-- `struct t2audio_msg`. The header at the start of the data begins with the tag. -/
structure AudioMsg where
  size : Nat
  data : List Nat
  deriving DecidableEq

def AudioMsg.tag (m : AudioMsg) : List Nat := m.data.take 4

/-! ## The index of a reply -/

theorem foldl_digits_lt {l : List Nat} (h : ∀ c ∈ l, isDigit c) (acc : Nat) :
    l.foldl (fun v c => 10 * v + (c - 48)) acc < (acc + 1) * 10 ^ l.length := by
  induction l generalizing acc with
  | nil => simp
  | cons c l ih =>
    have hc : 48 ≤ c ∧ c ≤ 57 := of_decide_eq_true (h c mem_cons_self)
    have hrs := ih (fun d hd => h d (mem_cons_of_mem c hd)) (10 * acc + (c - 48))
    calc
      _ < (10 * acc + (c - 48) + 1) * 10 ^ l.length := hrs
      _ ≤ 10 * (acc + 1) * 10 ^ l.length := Nat.mul_le_mul_right _ (by omega)
      _ = (acc + 1) * 10 ^ (c :: l).length := by rw [length_cons, pow_succ]; ring

/-- A number has at most as many digits as the text has characters. -/
theorem kstrtoull_lt {s : List Nat} {v : Nat} (h : kstrtoull s = some v) : v < 10 ^ s.length := by
  have hdigi := foldl_digits_lt (l := s.takeWhile isDigit) (all_eq_true.1 all_takeWhile) 0
  have hle : 10 ^ (s.takeWhile isDigit).length ≤ 10 ^ s.length :=
    Nat.pow_le_pow_right (by decide) ( takeWhile_prefix _).length_le
  simp only [kstrtoull] at h
  split at h
  · cases h
  split at h <;> cases h
  omega

theorem kstrtoint_lt {s : List Nat} {n : Int} (hsign : s.head? ≠ some 45) (h : kstrtoint s = some n) :
    0 ≤ n ∧ n < 10 ^ s.length := by
  unfold kstrtoint at h
  split at h
  · exact absurd rfl hsign
  · next s =>
      obtain ⟨v, hv, rfl⟩ := map_eq_some_iff.1 h
      have hlt := kstrtoull_lt hv
      rw [length_cons, pow_succ]
      exact ⟨Int.natCast_nonneg v, by simp only [Int.ofNat_eq_natCast]; norm_cast; omega⟩
  · obtain ⟨v, hv, rfl⟩ := map_eq_some_iff.1 h
    exact ⟨Int.natCast_nonneg v, by simp only [Int.ofNat_eq_natCast]; exact_mod_cast kstrtoull_lt hv⟩

theorem kstrtoull_pair (b c : Nat) : kstrtoull ([b, c].takeWhile (· ≠ 0)) = if isDigit b then
      if isDigit c then some (10 * (b - 48) + (c - 48)) else if c = 0 ∨ c = 10 then some (b - 48) else none
    else none := by
  by_cases hb : b = 0
  · subst hb
    rfl
  by_cases hc : c = 0
  · subst hc
    cases hdig : isDigit b <;> simp [kstrtoull, hb, hdig, show isDigit 0 = false from rfl]
  · cases hdig : isDigit b <;> cases hdig' : isDigit c <;> simp [kstrtoull, hb, hc, hdig, hdig']

/-- The last three bytes of the tag are a minus sign and a number that is not zero. -/
def NegativeTag (b₁ b₂ b₃ : Nat) : Prop :=
  b₁ = 45 ∧ isDigit b₂ = true ∧ (isDigit b₃ = true ∨ b₃ = 0 ∨ b₃ = 10) ∧ (b₂ ≠ 48 ∨ isDigit b₃ = true ∧ b₃ ≠ 48)

/-- A reply makes the handler read `pending_entries` inside its bounds, or is ignored, exactly if its tag is not
negative. -/
theorem reply_index_in_table (size b₀ b₁ b₂ b₃ : Nat) (rest : List Nat) :
    (∀ tagn, parseTag (AudioMsg.tag ⟨size, b₀ :: b₁ :: b₂ :: b₃ :: rest⟩) = some tagn →
      0 ≤ tagn ∧ tagn < T2AUDIO_BCE_QUEUE_TAG_COUNT) ↔ ¬(b₀ = 83 ∧ NegativeTag b₁ b₂ b₃) := by
  by_cases h₀ : b₀ = 83
  · subst h₀
    by_cases h₁ : b₁ = 45
    · subst h₁
      show (∀ tagn, (kstrtoull ([b₂, b₃].takeWhile (· ≠ 0))).map (fun v => -(v : Int)) = some tagn → _) ↔ _
      rw [kstrtoull_pair]
      simp only [NegativeTag, isDigit, decide_eq_true_eq, T2AUDIO_BCE_QUEUE_TAG_COUNT]
      split
      · split
        · simp
          omega
        split
        · simp
          omega
        · simp
          omega
      · simp
        omega
    refine iff_of_true (fun tagn htag => ?_) fun h => h₁ h.2.1
    have hlen := ( takeWhile_prefix (fun c => decide (c ≠ 0)) (l := [b₁, b₂, b₃])).length_le
    have hsign : ([b₁, b₂, b₃].takeWhile (· ≠ 0)).head? ≠ some 45 := by
      rw [takeWhile_cons]
      split <;> simp [h₁]
    obtain ⟨hnn, hlt⟩ := kstrtoint_lt hsign htag
    have hpow : (10 : Int) ^ ([b₁, b₂, b₃].takeWhile (· ≠ 0)).length ≤ 10 ^ 3 := pow_le_pow_right₀ (by decide) hlen
    exact ⟨hnn, hlt.trans_le hpow⟩
  · refine iff_of_true (fun tagn htag => ?_) fun h => h₀ h.1
    unfold parseTag at htag
    split at htag
    · next heq => exact absurd (List.cons.inj heq).1 h₀
    · cases htag

theorem reply_before_table : ∃ reply tagn, parseTag (AudioMsg.tag reply) = some tagn ∧
    ¬(0 ≤ tagn ∧ tagn < T2AUDIO_BCE_QUEUE_TAG_COUNT) :=
  ⟨⟨16, [83, 45, 49, 48]⟩, -10, by decide, by decide⟩

/-- How far a caller is. -/
inductive SendStage where
  | idle
  /-- Reserve a submission. -/
  | reserve
  /-- Take the lock, register the entry and send. -/
  | send
  | wait
  /-- The wait has timed out: withdraw the entry. -/
  | timedOut
  | returned (status : Int)
  deriving DecidableEq

/-- A reply as it was copied: the number of the command it answers and its contents. -/
structure CopiedReply where
  command : Nat
  msg : AudioMsg
  deriving DecidableEq

/-- The locals of a caller. The history `command`, `completed` and `copied` is the number of its command, how often it
was completed and what was copied into its buffer. -/
structure AudioCaller where
  stage : SendStage
  tagN : Nat
  /-- The buffer for the reply. -/
  reply : AudioMsg
  /-- The counter of `cmpl`. -/
  done : Nat
  command : Option Nat
  completed : Nat
  copied : List CopiedReply
  deriving DecidableEq

/-- A message that was sent under a new tag; a notification has no caller. -/
structure SentCommand where
  caller : Option CallerId
  tag : List Nat
  deriving DecidableEq

/-- `struct t2audio_bce`. -/
structure AudioBce where
  tagNum : Nat
  pendingEntries : Nat → Option CallerId
  /-- The reply handler holds `spinlock` and is about to clear this entry. -/
  handling : Option Nat
  callers : CallerId → AudioCaller
  /-- The messages sent so far. -/
  commands : List SentCommand

namespace AudioBce

variable (b : AudioBce)

variable (i : CallerId)

def setCaller (c : AudioCaller) : AudioBce := { b with callers := update b.callers i c }

/-- The caller `i` goes on to `stage`. -/
def goTo (stage : SendStage) : AudioBce := b.setCaller i { b.callers i with stage := stage }

/-- The section from `__t2audio_send_prepare` to `__t2audio_send` in a call of
`t2audio_send_cmd_sync`. -/
def sendCmd : AudioBce :=
  let r := sendCreateTag b.tagNum
  { b.setCaller i
      { b.callers i with
        stage := .wait
        tagN := r.1
        command := some b.commands.length } with
    tagNum := r.1
    pendingEntries := update b.pendingEntries r.1 (some i)
    commands := b.commands ++ [⟨some i, r.2⟩] }

/-- The section of `t2audio_send`, which takes a tag and registers nobody. -/
def sendNotification : AudioBce :=
  let r := sendCreateTag b.tagNum
  { b with tagNum := r.1, commands := b.commands ++ [⟨none, r.2⟩] }

/-- `pending_entries[tagn]`. A tag of the driver is never negative nor above the table. -/
def entry (tagn : Int) : Option CallerId :=
  if 0 ≤ tagn ∧ tagn < T2AUDIO_BCE_QUEUE_TAG_COUNT then b.pendingEntries tagn.toNat else none

/-- Copy a reply into the buffer of the caller `c` and complete it. -/
def deliver (c : AudioCaller) (k : Nat) (msg : AudioMsg) : AudioCaller :=
  let size := if msg.size < c.reply.size then msg.size else c.reply.size
  { c with
    reply := ⟨size, msg.data.take size ++ c.reply.data.drop size⟩
    done := c.done + 1
    completed := c.completed + 1
    copied := ⟨k, msg⟩ :: c.copied }

/-- `t2audio_handle_reply` for a reply to command `k`, up to the call of `complete`. -/
def handleReply (k : Nat) (msg : AudioMsg) : AudioBce :=
  match parseTag msg.tag with
  | none => b
  | some tagn =>
    match b.entry tagn with
    | none => b
    | some i => { b.setCaller i (deliver (b.callers i) k msg) with handling := some tagn.toNat }

/-- The rest of the section of `t2audio_handle_reply`. -/
def clearEntry (tagn : Nat) : AudioBce :=
  { b with pendingEntries := update b.pendingEntries tagn none, handling := none }

/-- The section of `__t2audio_send_cmd_sync` after a timeout. -/
def withdraw : AudioBce :=
  let tagn := (b.callers i).tagN
  let b := b.goTo i (.returned (-ETIMEDOUT))
  if b.pendingEntries tagn = some i then { b with pendingEntries := update b.pendingEntries tagn none }
  else b

end AudioBce

inductive AudioAction where
  /-- A thread calls `t2audio_send_cmd_sync` with a buffer for the reply. -/
  | enter (i : CallerId) (reply : AudioMsg)
  /-- The reservation of a submission returns. -/
  | reserve (i : CallerId) (status : Int)
  | sendCmd (i : CallerId)
  | sendNotification
  /-- A reply to command `k` arrives, perhaps not the first one. -/
  | reply (k : Nat) (msg : AudioMsg)
  | clearEntry
  /-- The wait of a caller that was completed ends. -/
  | wake (i : CallerId)
  /-- The wait of a caller times out. -/
  | expire (i : CallerId)
  | withdraw (i : CallerId)

variable (b : AudioBce)

/-- The caller `i` is at `stage`. -/
def AudioBce.At (i : CallerId) (stage : SendStage) : Prop := (b.callers i).stage = stage
  deriving Decidable

def AudioBce.next : AudioAction → Option AudioBce
  | .enter i reply =>
    if b.At i .idle then some (b.setCaller i { b.callers i with stage := .reserve, reply := reply })
    else none
  | .reserve i status =>
    if b.At i .reserve then some (b.goTo i (if status = 0 then .send else .returned status))
    else none
  | .sendCmd i => if b.At i .send ∧ b.handling = none then some (b.sendCmd i) else none
  | .sendNotification => if b.handling = none then some b.sendNotification else none
  | .reply k msg =>
    match b.commands[k]? with
    | some ⟨some _, tag⟩ => if b.handling = none ∧ msg.tag = tag then some (b.handleReply k msg) else none
    | _ => none
  | .clearEntry => b.handling.map b.clearEntry
  | .wake i =>
    if b.At i .wait ∧ 0 < (b.callers i).done then
      some (b.setCaller i { b.callers i with
        stage := .returned 0
        done := (b.callers i).done - 1 })
    else none
  | .expire i => if b.At i .wait ∧ (b.callers i).done = 0 then some (b.goTo i .timedOut) else none
  | .withdraw i => if b.At i .timedOut ∧ b.handling = none then some (b.withdraw i) else none

def AudioCaller.idle : AudioCaller := ⟨.idle, 0, ⟨0, []⟩, 0, none, 0, []⟩

def AudioBce.create : AudioBce where
  tagNum := 0
  pendingEntries := fun _ => none
  handling := none
  callers := fun _ => .idle
  commands := []

def audioMachine : Machine AudioBce AudioAction where
  init b := b = AudioBce.create
  next := AudioBce.next

/-- Fewer than 1000 commands are sent between a command and a reply to it. -/
def AudioBce.InTime : AudioAction → Prop
  | .reply k _ => b.commands.length - (k + 1) < T2AUDIO_BCE_QUEUE_TAG_COUNT
  | _ => True

instance (a : AudioAction) : Decidable (b.InTime a) := by cases a <;> unfold AudioBce.InTime <;> infer_instance

/-! ## The invariant -/

/-- The tag of the command with number `k`. -/
def tagOf (k : Nat) : Nat := (k + 1) % T2AUDIO_BCE_QUEUE_TAG_COUNT

/-- The caller has not sent its command. -/
def SendStage.unsent : SendStage → Bool
  | .idle | .reserve | .send => true
  | _ => false

/-- The caller may still be completed. -/
def SendStage.waiting : SendStage → Bool
  | .wait | .timedOut => true
  | _ => false

/-- The entry of `i` is that of command `k`, and no later command of a caller has its tag. -/
structure Registered (commands : List SentCommand) (t : Nat) (i : CallerId) (k : Nat) : Prop where
  sent : ∃ tag, commands[k]? = some ⟨some i, tag⟩
  tag_eq : tagOf k = t
  last : ∀ k' j tag, k < k' → commands[k']? = some ⟨some j, tag⟩ → tagOf k' ≠ t

structure AudioBce.Inv : Prop where
  tagNum : b.tagNum = b.commands.length % T2AUDIO_BCE_QUEUE_TAG_COUNT
  tags : ∀ k c, b.commands[k]? = some c → c.tag = tagText (tagOf k)
  owner : ∀ k i tag, b.commands[k]? = some ⟨some i, tag⟩ → (b.callers i).command = some k ∧ (b.callers i).tagN = tagOf k
  entries : ∀ t i, b.pendingEntries t = some i → ∃ k, Registered b.commands t i k
  unsent : ∀ i, (b.callers i).stage.unsent = true →
    (b.callers i).command = none ∧ (b.callers i).completed = 0 ∧ (b.callers i).copied = [] ∧ (b.callers i).done = 0
  /-- An entry that is not being cleared belongs to a caller that was not completed. -/
  awaited : ∀ t i, b.pendingEntries t = some i → b.handling ≠ some t →
    (b.callers i).stage.waiting = true ∧ (b.callers i).done = 0 ∧ (b.callers i).completed = 0
  once : ∀ i, (b.callers i).completed ≤ 1
  copied : ∀ i, ∀ r ∈ (b.callers i).copied, (b.callers i).command = some r.command ∧
    r.msg.tag = tagText (b.callers i).tagN

theorem AudioBce.inv_create : AudioBce.create.Inv := by
  refine ⟨rfl, ?_, ?_, nofun, fun _ _ => ⟨rfl, rfl, rfl, rfl⟩, nofun, fun _ => Nat.zero_le 1, nofun⟩
  · intro k c hk
    cases hk
  · intro k i tag hk
    cases hk

namespace AudioBce.Inv

variable {b : AudioBce} {i : CallerId}

section

variable (h : b.Inv)
include h

/-- The caller `i` moves on and leaves the table, the tags and its history alone. -/
theorem setCaller {c : AudioCaller} (hcom : c.command = (b.callers i).command) (htag : c.tagN = (b.callers i).tagN)
    (hcmpd : c.completed = (b.callers i).completed) (hcop : c.copied = (b.callers i).copied)
    (huns : c.stage.unsent → (b.callers i).stage.unsent ∧ c.done = (b.callers i).done)
    (hawait : ∀ t, b.pendingEntries t = some i → b.handling ≠ some t → c.stage.waiting ∧ c.done = 0) :
    (b.setCaller i c).Inv := by
  have hrd j : (b.setCaller i c).callers j = if j = i then c else b.callers j := update_apply ..
  refine { h with owner := fun k j tag hk => ?_, unsent := fun j => ?_, awaited := fun t j ht hhan => ?_,
                  once := fun j => ?_, copied := fun j => ?_ }
  · have := h.owner k j tag hk
    grind
  · have := h.unsent j
    grind
  · have := h.awaited t j ht hhan
    grind [AudioBce.setCaller]
  · have := h.once j
    grind
  · have := h.copied j
    grind

theorem not_registered (hst : (b.callers i).stage.unsent) (t : Nat) : b.pendingEntries t ≠ some i := by
  intro ht
  obtain ⟨k, hk⟩ := h.entries t i ht
  obtain ⟨tag, hsent⟩ := hk.sent
  have hcom := (h.owner k i tag hsent).1
  rw [(h.unsent i hst).1] at hcom
  cases hcom

theorem begin (huns : (b.callers i).stage.unsent) {c : AudioCaller} (hcom : c.command = (b.callers i).command)
    (htag : c.tagN = (b.callers i).tagN) (hcmpd : c.completed = (b.callers i).completed)
    (hcop : c.copied = (b.callers i).copied) (hdn : c.done = (b.callers i).done) : (b.setCaller i c).Inv :=
  h.setCaller hcom htag hcmpd hcop (fun _ => ⟨huns, hdn⟩)
    fun t ht => absurd ht (h.not_registered huns t)

theorem remove (t : Nat) : AudioBce.Inv { b with pendingEntries := update b.pendingEntries t none } := by
  have hkp : ∀ {t' j}, update b.pendingEntries t none t' = some j → b.pendingEntries t' = some j := by grind
  exact { h with
    entries := fun t' j ht' => h.entries t' j (hkp ht')
    awaited := fun t' j ht' => h.awaited t' j (hkp ht') }

theorem clearEntry {t : Nat} (ht : b.handling = some t) : (b.clearEntry t).Inv := by
  have hrem := h.remove t
  refine { hrem with awaited := fun t' j hent _ => hrem.awaited t' j hent fun hhan => ?_ }
  cases ht.symm.trans hhan
  have hno : update b.pendingEntries t none t = some j := hent
  rw [update_self] at hno
  cases hno

theorem tagN_eq {t : Nat} (ht : b.pendingEntries t = some i) : (b.callers i).tagN = t := by
  obtain ⟨k, hk⟩ := h.entries t i ht
  obtain ⟨tag, hsent⟩ := hk.sent
  exact (h.owner k i tag hsent).2.trans hk.tag_eq

theorem withdraw : (b.withdraw i).Inv := by
  have hmov : ∀ {b : AudioBce}, b.Inv → (∀ t, b.pendingEntries t ≠ some i) →
      (b.goTo i (.returned (-ETIMEDOUT))).Inv := by
    intro b hb hfr
    exact hb.setCaller rfl rfl rfl rfl nofun fun t ht => absurd ht (hfr t)
  by_cases hent : b.pendingEntries (b.callers i).tagN = some i
  · have hclear := hmov (h.remove (b.callers i).tagN) ?_
    · show AudioBce.Inv (if b.pendingEntries (b.callers i).tagN = some i then _ else _)
      rw [if_pos hent]
      exact hclear
    · intro t ht
      by_cases heq : t = (b.callers i).tagN
      · grind
      · have hold : update b.pendingEntries (b.callers i).tagN none t = some i := ht
        rw [update_of_ne heq] at hold
        exact heq (h.tagN_eq hold).symm
  show AudioBce.Inv (if b.pendingEntries (b.callers i).tagN = some i then _ else _)
  rw [if_neg hent]
  apply hmov h
  intro t ht
  have htag := h.tagN_eq ht
  subst htag
  exact hent ht

theorem tag_next : (sendCreateTag b.tagNum).1 = tagOf b.commands.length := by
  show (b.tagNum + 1) % _ = (b.commands.length + 1) % _
  rw [h.tagNum, Nat.mod_add_mod]

end

theorem getElem?_sent {c : SentCommand} {k : Nat} {c' : SentCommand} (hk : (b.commands ++ [c])[k]? = some c') :
    b.commands[k]? = some c' ∨ k = b.commands.length ∧ c' = c := by
  rcases Nat.lt_trichotomy k b.commands.length with hlt | rfl | hgt
  · rw [getElem?_append_left hlt] at hk
    exact .inl hk
  · rw [getElem?_concat_length] at hk
    cases hk
    exact .inr ⟨rfl, rfl⟩
  · rw [getElem?_eq_none (by simp; omega)] at hk
    cases hk

theorem registered_append {t k : Nat} {c : SentCommand} (hk : Registered b.commands t i k)
    (hoth : c.caller = none ∨ tagOf b.commands.length ≠ t) :
    Registered (b.commands ++ [c]) t i k := by
  obtain ⟨tag, hsent⟩ := hk.sent
  refine ⟨⟨tag, ?_⟩, hk.tag_eq, ?_⟩
  · rw [getElem?_append_left (List.getElem?_eq_some_iff.1 hsent).1]
    exact hsent
  · intro k' j tag' hlt hk'
    rcases getElem?_sent hk' with hold | ⟨rfl, rfl⟩
    · exact hk.last k' j tag' hlt hold
    rcases hoth with hno | hne
    · cases hno
    · exact hne

section

variable (h : b.Inv)
include h

theorem tags_append (caller : Option CallerId) : (sendCreateTag b.tagNum).1 =
        (b.commands ++ [SentCommand.mk caller (sendCreateTag b.tagNum).2]).length % T2AUDIO_BCE_QUEUE_TAG_COUNT ∧
      ∀ k c, (b.commands ++ [SentCommand.mk caller (sendCreateTag b.tagNum).2])[k]? = some c → c.tag = tagText (tagOf k) := by
  constructor
  · rw [h.tag_next, length_append]
    rfl
  · intro k c hk
    rcases getElem?_sent hk with hold | ⟨rfl, rfl⟩
    · exact h.tags k c hold
    · exact congrArg tagText h.tag_next

theorem sendNotification : b.sendNotification.Inv := by
  obtain ⟨htagNum, htags⟩ := h.tags_append none
  refine { h with tagNum := htagNum, tags := htags, owner := fun k j tag hk => ?_, entries := fun t j ht => ?_ }
  · rcases getElem?_sent hk with hold | ⟨-, hnew⟩
    · exact h.owner k j tag hold
    · cases hnew
  · obtain ⟨k, hk⟩ := h.entries t j ht
    exact ⟨k, registered_append hk (.inl rfl)⟩

theorem sendCmd (hst : b.At i .send) : (b.sendCmd i).Inv := by
  have htag := h.tag_next
  have hsd : (b.callers i).stage.unsent := by
    rw [show (b.callers i).stage = .send from hst]
    rfl
  obtain ⟨hcom, hcmpd, hcop, hdn⟩ := h.unsent i hsd
  have hrd j : (b.sendCmd i).callers j = if j = i then { b.callers i with
      stage := .wait
      tagN := (sendCreateTag b.tagNum).1
      command := some b.commands.length } else b.callers j := update_apply ..
  have howner : ∀ {k : Nat} {j : CallerId} {tag : List Nat}, b.commands[k]? = some ⟨some j, tag⟩ → j ≠ i := by
    rintro k j tag hk rfl
    have hsent := (h.owner k j tag hk).1
    rw [hcom] at hsent
    cases hsent
  have hent : ∀ {t j}, (b.sendCmd i).pendingEntries t = some j → t = (sendCreateTag b.tagNum).1 ∧ j = i ∨
        t ≠ (sendCreateTag b.tagNum).1 ∧ j ≠ i ∧ b.pendingEntries t = some j := by
    intro t j ht
    have ht' : update b.pendingEntries (sendCreateTag b.tagNum).1 (some i) t = some j := ht
    by_cases heq : t = (sendCreateTag b.tagNum).1
    · grind
    rw [update_of_ne heq] at ht'
    refine .inr ⟨heq, ?_, ht'⟩
    rintro rfl
    exact h.not_registered hsd t ht'
  obtain ⟨htagNum, htags⟩ := h.tags_append (some i)
  refine ⟨htagNum, htags, fun k j tag hk => ?_, fun t j ht => ?_, fun j hj => ?_, fun t j ht hhan => ?_,
    fun j => ?_, fun j => ?_⟩
  · rcases getElem?_sent hk with hold | ⟨rfl, hnew⟩
    · rw [hrd, if_neg (howner hold)]
      exact h.owner k j tag hold
    · cases hnew
      rw [hrd, if_pos rfl]
      exact ⟨rfl, htag⟩
  · rcases hent ht with ⟨rfl, rfl⟩ | ⟨hne, -, hold⟩
    · refine ⟨b.commands.length, ⟨_, getElem?_concat_length⟩, htag.symm, ?_⟩
      intro k' j' tag' hlt hk'
      rcases getElem?_sent hk' with hold | ⟨rfl, -⟩
      · have := (List.getElem?_eq_some_iff.1 hold).1
        omega
      · exact absurd hlt (Nat.lt_irrefl _)
    · obtain ⟨k, hk⟩ := h.entries t j hold
      exact ⟨k, registered_append hk (.inr fun heq => hne (heq.symm.trans htag.symm))⟩
  · have := h.unsent j
    grind [SendStage.unsent]
  · rcases hent ht with ⟨-, rfl⟩ | ⟨-, hne, hold⟩
    · rw [hrd, if_pos rfl]
      exact ⟨rfl, hdn, hcmpd⟩
    · rw [hrd, if_neg hne]
      exact h.awaited t j hold hhan
  · have := h.once j
    grind
  · have := h.copied j
    grind

theorem entry_own {k : Nat} {i₀ : CallerId} {tag : List Nat} (hk : b.commands[k]? = some ⟨some i₀, tag⟩)
    (hti : b.commands.length - (k + 1) < T2AUDIO_BCE_QUEUE_TAG_COUNT)
    (hent : b.pendingEntries (tagOf k) = some i) : i = i₀ := by
  obtain ⟨k₁, hk₁⟩ := h.entries _ i hent
  obtain ⟨tag₁, hsent⟩ := hk₁.sent
  have hlt₁ := (List.getElem?_eq_some_iff.1 hsent).1
  have heq : k = k₁ := by
    rcases Nat.lt_trichotomy k k₁ with hlt | heq | hgt
    · -- a later command with this tag comes 1000 commands later
      have hsl : k + 1 = k₁ + 1 := by
        apply Lib.Ring.slot_inj (by omega) _ hk₁.tag_eq.symm
        omega
      omega
    · exact heq
    · exact absurd rfl (hk₁.last k i₀ tag hgt hk)
  subst heq
  rw [hsent] at hk
  cases hk
  rfl

theorem handleReply (hfr : b.handling = none) {k : Nat} {i₀ : CallerId}
    {msg : AudioMsg} (hk : b.commands[k]? = some ⟨some i₀, msg.tag⟩)
    (hti : b.commands.length - (k + 1) < T2AUDIO_BCE_QUEUE_TAG_COUNT) :
    (b.handleReply k msg).Inv := by
  have hlt : tagOf k < T2AUDIO_BCE_QUEUE_TAG_COUNT := Nat.mod_lt _ (by decide)
  have htx : msg.tag = tagText (tagOf k) := h.tags k _ hk
  have hent : b.entry (tagOf k : Int) = b.pendingEntries (tagOf k) := by
    unfold AudioBce.entry
    rw [if_pos ⟨by omega, by exact_mod_cast hlt⟩, Int.toNat_natCast]
  unfold AudioBce.handleReply
  rw [htx, parseTag_tagText hlt]
  simp only [hent]
  split
  · exact h
  rename_i i hi
  have hown := h.entry_own hk hti hi
  subst hown
  obtain ⟨hcom, htagN⟩ := h.owner k i _ hk
  obtain ⟨hst, hdn, hcmpd⟩ := h.awaited _ i hi (by rw [hfr]; nofun)
  have hrd j : (b.setCaller i (deliver (b.callers i) k msg)).callers j =
      if j = i then deliver (b.callers i) k msg else b.callers j := update_apply ..
  refine { h with owner := fun k' j tag hk' => ?_, unsent := fun j hj => ?_, awaited := fun t j ht hne => ?_,
                  once := fun j => ?_, copied := fun j r hr => ?_ }
  · have := h.owner k' j tag hk'
    grind [deliver]
  · -- the caller waits, so it has sent its command
    have := h.unsent j
    grind [deliver]
  · have hj : j ≠ i := by
      rintro rfl
      exact hne (congrArg some (htagN.symm.trans (h.tagN_eq ht)))
    rw [hrd, if_neg hj]
    exact h.awaited t j ht (by rw [hfr]; nofun)
  · have := h.once j
    grind [deliver]
  · have := h.copied j r
    grind [deliver]

theorem next {b' : AudioBce} {a : AudioAction} (hti : b.InTime a) (hnx : b.next a = some b') : b'.Inv := by
  cases a
  case reply k msg =>
    simp only [AudioBce.next] at hnx
    split at hnx
    · rename_i i₀ tag hk
      rw [ite_none_right_eq_some] at hnx
      obtain ⟨⟨hfr, htag⟩, hsome⟩ := hnx
      cases hsome
      rw [← htag] at hk
      exact h.handleReply hfr hk hti
    · cases hnx
  case clearEntry =>
    obtain ⟨t, ht, rfl⟩ := map_eq_some_iff.1 hnx
    exact h.clearEntry ht
  all_goals simp only [AudioBce.next, ite_none_right_eq_some, Option.some.injEq] at hnx
  case enter i reply =>
    obtain ⟨hdl, rfl⟩ := hnx
    exact h.begin (by rw [show (b.callers i).stage = .idle from hdl]; rfl) rfl rfl rfl rfl rfl
  case reserve i status =>
    obtain ⟨hrsv, rfl⟩ := hnx
    exact h.begin (by rw [show (b.callers i).stage = .reserve from hrsv]; rfl) rfl rfl rfl rfl rfl
  case sendCmd i =>
    obtain ⟨hsd, rfl⟩ := hnx
    exact h.sendCmd hsd.1
  case sendNotification =>
    obtain ⟨-, rfl⟩ := hnx
    exact h.sendNotification
  case wake i =>
    obtain ⟨⟨-, hdn⟩, rfl⟩ := hnx
    refine h.setCaller rfl rfl rfl rfl nofun fun t ht hhan => ?_
    have hz := (h.awaited t i ht hhan).2.1
    omega
  case expire i =>
    obtain ⟨⟨-, hdn⟩, rfl⟩ := hnx
    exact h.setCaller rfl rfl rfl rfl nofun fun t ht _ => ⟨rfl, hdn⟩
  case withdraw i =>
    obtain ⟨-, rfl⟩ := hnx
    exact h.withdraw

end

end AudioBce.Inv

/-- As long as fewer than 1000 commands are sent between a command and a reply to it: what is copied into a buffer
answers the command of its caller and carries its tag, a caller is completed at most once, and while the lock is free
no entry points at a caller that has returned. -/
theorem audio_replies {b : AudioBce} (h : audioMachine.Reach AudioBce.InTime b) (i : CallerId) :
    (∀ r ∈ (b.callers i).copied, (b.callers i).command = some r.command ∧ r.msg.tag = tagText (b.callers i).tagN) ∧
      (b.callers i).completed ≤ 1 ∧
      ∀ status, b.handling = none → (b.callers i).stage = .returned status → ∀ t, b.pendingEntries t ≠ some i := by
  have hinv : b.Inv := by
    apply h.invariant
    · rintro b rfl
      exact AudioBce.inv_create
    · intro b a b' _ hti hb hnx
      exact hb.next hti hnx
  refine ⟨hinv.copied i, hinv.once i, ?_⟩
  intro status hfr hret t ht
  have hwt := (hinv.awaited t i ht (by rw [hfr]; nofun)).1
  rw [hret] at hwt
  cases hwt

/-- A reply of 8 bytes to the command with number `k`. -/
def replyFor (k : Nat) : AudioMsg := ⟨8, tagText (tagOf k) ++ [2, 0, 0, 0]⟩

/-- The caller `i` sends a command. -/
def sends (i : CallerId) : List AudioAction := [.enter i ⟨8, List.replicate 8 0⟩, .reserve i 0, .sendCmd i]

/-- Two callers wait, the replies come in the other order, and the second one twice. -/
theorem audio_replies_reordered : ∃ b, audioMachine.Reach AudioBce.InTime b ∧ (b.callers 0).stage = .returned 0 ∧
      (b.callers 0).copied = [⟨0, replyFor 0⟩] ∧ b.handling = none ∧
      (b.callers 0).command = some 0 ∧ (b.callers 0).completed ≤ 1 ∧
      ∀ t, b.pendingEntries t ≠ some 0 := by
  obtain ⟨b, hre, hst, hcop, hfr⟩ := Machine.exists_of_guarded_run (M := audioMachine)
    (P := fun b => (b.callers 0).stage = .returned 0 ∧ (b.callers 0).copied = [⟨0, replyFor 0⟩] ∧ b.handling = none)
    AudioBce.InTime (sends 0 ++ sends 1 ++ [.reply 1 (replyFor 1), .clearEntry, .reply 1 (replyFor 1),
      .reply 0 (replyFor 0), .clearEntry, .wake 0]) rfl (by decide)
  obtain ⟨hown, honce, hgone⟩ := audio_replies hre 0
  refine ⟨b, hre, hst, hcop, hfr, ?_, honce, hgone 0 hfr hst⟩
  exact (hown ⟨0, replyFor 0⟩ (hcop ▸ mem_cons_self)).1

/-- A caller that is woken returns before the handler has cleared its entry. -/
theorem entry_outlives_caller : ∃ b, audioMachine.Reach AudioBce.InTime b ∧ (b.callers 0).stage = .returned 0 ∧
      b.pendingEntries 1 = some 0 :=
  Machine.exists_of_guarded_run _ (sends 0 ++ [.reply 0 (replyFor 0), .wake 0]) rfl (by decide)

end KaiT2en.Audio
