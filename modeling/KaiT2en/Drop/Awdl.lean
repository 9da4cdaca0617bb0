import KaiT2en.Lib.Transition
import Mathlib.Data.Prod.Lex
import Mathlib.Tactic

/-!
# Masters and peers of AWDL

Two parts of `awdl.rs`. `follow` picks the master from what the peers announce. The choice does not depend on the order
of the announcements, so that devices agree on it (`masters_agree`), but the distance to the master is taken from the
last one (`distance_runs_away`). `peer_ops` holds the peers that were added to the firmware, but also a peer that the
firmware has refused (`refused_peer_kept`).
-/

namespace KaiT2en.Drop

open KaiT2en.Lib.Transition Machine Function List

/-! ## The master -/

section Master

variable {α : Type} [LinearOrder α]

/-- What a peer announces in its election TLV. An address is any ordered type. -/
structure Election (α : Type) where
  master : α
  masterCounter : Nat
  distance : Nat
  masterMetric : Nat
  deriving DecidableEq

/-- The announcement has a better master. -/
def Election.better (e m : Election α) : Prop := m.master ≠ e.master ∧
  (m.masterMetric < e.masterMetric ∨ e.masterMetric = m.masterMetric ∧ m.master < e.master)
  deriving Decidable

/-- The distance that `patch_election_tlv` writes. -/
def Election.announced (m : Election α) : Nat := (m.distance + 1) % 2 ^ 32

/-- The master, with the announcements so far and the distances announced for the master since it was adopted. -/
structure Following (α : Type) where
  master : Option (Election α)
  heard : List (Election α)
  since : List Nat

/-- `Awdl::follow` of the device with the address `mac`. -/
def Following.follow (mac : α) (s : Following α) (e : Election α) : Following α :=
  let s := { s with heard := e :: s.heard }
  if e.master = mac then s
  else
    match s.master with
    | none => { s with master := some e, since := [e.distance] }
    | some m =>
      if e.better m then { s with master := some e, since := [e.distance] }
      else if m.master = e.master then { s with master := some e, since := e.distance :: s.since }
      else s

def followMachine (mac : α) : Machine (Following α) (Election α) where
  init s := s = ⟨none, [], []⟩
  next s e := some (s.follow mac e)

/-- A master is always announced with the same metric. -/
def Following.Consistent (s : Following α) : Prop :=
  ∀ e ∈ s.heard, ∀ e' ∈ s.heard, e.master = e'.master → e.masterMetric = e'.masterMetric

/-- The master is the greatest one that was announced, besides the device itself. -/
def Following.Elected (mac : α) (s : Following α) : Prop :=
  match s.master with
  | none => ∀ e ∈ s.heard, e.master = mac
  | some m => m ∈ s.heard ∧ m.master ≠ mac ∧
      ∀ e ∈ s.heard, e.master ≠ mac → toLex (e.masterMetric, e.master) ≤ toLex (m.masterMetric, m.master)

/-- The device is at most one further away than a peer has been. -/
def Following.Near (s : Following α) : Prop := ∀ m ∈ s.master, ∀ d ∈ s.since, m.announced ≤ d + 1

/-- The announcement does not move the followed master further away. -/
def Following.Closer (s : Following α) (e : Election α) : Prop :=
  ∀ m ∈ s.master, m.master = e.master → e.distance ≤ m.distance

variable {mac : α} {s : Following α} {e m : Election α}

theorem Election.better_iff (h : m.master ≠ e.master) :
    e.better m ↔ toLex (m.masterMetric, m.master) < toLex (e.masterMetric, e.master) := by
  rw [better, and_iff_right h, Prod.Lex.toLex_lt_toLex, eq_comm (a := e.masterMetric)]

namespace Following

theorem heard_follow (mac : α) (s : Following α) (e : Election α) : (s.follow mac e).heard = e :: s.heard := by
  unfold follow
  simp only
  split
  · rfl
  · split
    · rfl
    · split <;> first | rfl | split <;> rfl

theorem Elected.follow (h : s.Consistent → s.Elected mac) (hc : (s.follow mac e).Consistent) :
    (s.follow mac e).Elected mac := by
  simp only [Consistent, heard_follow, forall_mem_cons] at hc
  obtain ⟨⟨-, hsa⟩, hc⟩ := hc
  have hel := h fun a ha => (hc a ha).2
  unfold Elected at hel
  unfold Elected Following.follow
  by_cases hme : e.master = mac
  · simp only [if_pos hme, forall_mem_cons]
    cases hm : s.master with
    | none =>
      rw [hm] at hel
      exact ⟨hme, hel⟩
    | some m =>
      rw [hm] at hel
      exact ⟨mem_cons_of_mem _ hel.1, hel.2.1, fun hne => absurd hme hne, hel.2.2⟩
  simp only [if_neg hme]
  cases hm : s.master with
  | none =>
    rw [hm] at hel
    exact ⟨mem_cons_self, hme, forall_mem_cons.2 ⟨fun _ => le_rfl, fun a ha hne => absurd (hel a ha) hne⟩⟩
  | some m =>
    rw [hm] at hel
    obtain ⟨hmem, hno, hle⟩ := hel
    simp only
    by_cases heq : m.master = e.master
    · -- the same master, with its old metric
      have hmt := hsa m hmem heq.symm
      rw [if_neg fun hb => hb.1 heq, if_pos heq]
      refine ⟨mem_cons_self, hme, forall_mem_cons.2 ⟨fun _ => le_rfl, fun a ha hne => ?_⟩⟩
      rw [hmt, ← heq]
      exact hle a ha hne
    by_cases hb : e.better m
    · rw [if_pos hb]
      refine ⟨mem_cons_self, hme, forall_mem_cons.2 ⟨fun _ => le_rfl, fun a ha hne => ?_⟩⟩
      exact (hle a ha hne).trans ((Election.better_iff heq).1 hb).le
    · rw [if_neg hb, if_neg heq]
      rw [Election.better_iff heq, not_lt] at hb
      exact ⟨mem_cons_of_mem _ hmem, hno, forall_mem_cons.2 ⟨fun _ => hb, hle⟩⟩

/-- The followed distance is the least of those that were announced. -/
def Least (s : Following α) : Prop := ∀ m ∈ s.master, ∀ d ∈ s.since, m.distance ≤ d

theorem Least.follow (h : s.Least) (hc : s.Closer e) : (s.follow mac e).Least := by
  have hnew : ∀ d ∈ [e.distance], e.distance ≤ d := forall_mem_singleton.2 le_rfl
  unfold Following.follow Least
  simp only
  split
  · exact h
  · split
    · rintro _ ⟨⟩
      exact hnew
    · next m hm =>
      split
      · rintro _ ⟨⟩
        exact hnew
      · split
        · next heq =>
          rintro _ ⟨⟩
          exact forall_mem_cons.2 ⟨le_rfl, fun d hd => (hc m hm heq).trans (h m hm d hd)⟩
        · exact h

omit [LinearOrder α] in
theorem Least.near (h : s.Least) : s.Near := fun m hm d hd => (Nat.mod_le _ _).trans (Nat.succ_le_succ (h m hm d hd))

end Following

/-- In every run in which a master has one metric, the greatest one is followed; and while no announcement moves it
further away, the device is near. -/
theorem election_and_distance (mac : α) :
    (∀ s, (followMachine mac).Reachable s → s.Consistent → s.Elected mac) ∧
      ∀ s, (followMachine mac).Reach Following.Closer s → s.Near := by
  constructor
  · intro s hs
    apply hs.invariant (I := fun s => s.Consistent → s.Elected mac)
    · rintro _ rfl _
      exact fun _ he => nomatch he
    · rintro s e _ - - hel ⟨⟩
      exact Following.Elected.follow hel
  · intro s hs
    apply Following.Least.near
    apply hs.invariant (I := Following.Least)
    · rintro _ rfl
      exact nofun
    · rintro s e _ - hcl hle ⟨⟩
      exact hle.follow hcl

/-- A peer that follows this device announces its master at the distance 2; this device then announces 3, although the
master is at the distance 0 of another peer. -/
theorem distance_runs_away : ∃ s : Following Nat, (followMachine 0).Reachable s ∧
    s.heard = [⟨1, 0, 2, 5⟩, ⟨1, 0, 0, 5⟩] ∧ s.since = [2, 0] ∧ s.master.map Election.announced = some 3 :=
  exists_of_run [⟨1, 0, 0, 5⟩, ⟨1, 0, 2, 5⟩] rfl (by decide)

theorem Following.elected_of_reachable (h : (followMachine mac).Reachable s) : s.Consistent → s.Elected mac := by
  refine h.invariant (I := fun s => s.Consistent → s.Elected mac) ?_ ?_
  · rintro _ rfl -
    exact nofun
  · rintro s e _ - - hel ⟨⟩
    exact Elected.follow hel

/-- Two devices that have heard the same announcements, in any order and however often, follow the same master, unless
one of them is the master of the other. -/
theorem masters_agree {mac' : α} {t : Following α} {m' : Election α} (hs : (followMachine mac).Reachable s)
    (ht : (followMachine mac').Reachable t) (hheard : ∀ e, e ∈ s.heard ↔ e ∈ t.heard) (hcons : s.Consistent)
    (hm : s.master = some m) (hm' : t.master = some m') (hother : m.master ≠ mac') (hother' : m'.master ≠ mac) :
    m.master = m'.master := by
  have hcons' : t.Consistent := fun e he e' he' => hcons e ((hheard e).2 he) e' ((hheard e').2 he')
  have hel := s.elected_of_reachable hs hcons
  have hel' := t.elected_of_reachable ht hcons'
  rw [Following.Elected, hm] at hel
  rw [Following.Elected, hm'] at hel'
  have hle := hel.2.2 m' ((hheard m').2 hel'.1) hother'
  have hge := hel'.2.2 m ((hheard m).1 hel.1) hother
  exact congrArg Prod.snd (toLex_inj.1 (hge.antisymm hle))

theorem masters_agree_reordered : ∃ s t : Following Nat, (followMachine 0).Reachable s ∧ (followMachine 9).Reachable t ∧
    ∃ m m', s.master = some m ∧ t.master = some m' ∧ m.master = m'.master := by
  have hs : (followMachine 0).Reachable ((Following.follow 0 ⟨none, [], []⟩ ⟨1, 0, 0, 5⟩).follow 0 ⟨2, 0, 0, 7⟩) :=
    .step (.step (.init rfl) trivial rfl) trivial rfl
  have ht : (followMachine 9).Reachable ((Following.follow 9 ⟨none, [], []⟩ ⟨2, 0, 0, 7⟩).follow 9 ⟨1, 0, 0, 5⟩) :=
    .step (.step (.init rfl) trivial rfl) trivial rfl
  have hag := masters_agree hs ht (by simp [Following.heard_follow, or_comm])
    (by simp [Following.Consistent, Following.heard_follow]) rfl rfl (by decide) (by decide)
  exact ⟨_, _, hs, ht, _, _, rfl, rfl, hag⟩

end Master

/-! ## The peers -/

section Peers

variable {α : Type} [DecidableEq α]

/-- The elements of the peers, `peer_ops`, and what the last successful `peer_add` for a peer has sent. -/
structure PeerTable (α : Type) where
  peers : α → Option (List UInt8)
  peerOps : α → Option (List UInt8)
  firmware : α → Option (List UInt8)

inductive PeerAction (α : Type) where
  /-- A frame with its HT and VHT elements; `peer_add` succeeds if it is called. -/
  | frame (addr : α) (ht vht : Option (List UInt8)) (ok : Bool)
  /-- A call of `add_peer`, which has run `ip`. -/
  | add (mac : α) (ran ok : Bool)

def PeerAction.mac : PeerAction α → α
  | .frame mac _ _ _ | .add mac _ _ => mac

def PeerAction.ok : PeerAction α → Bool
  | .frame _ _ _ ok | .add _ _ ok => ok

namespace PeerTable

variable (s : PeerTable α)

def updatePeer (mac : α) (ok : Bool) : PeerTable α :=
  let ies := (s.peers mac).getD []
  if ok then { s with peerOps := update s.peerOps mac (some ies), firmware := update s.firmware mac (some ies) } else s

/-- What `handle_frame` does about the elements. -/
def handleFrame (own : α × α) (addr : α) (ht vht : Option (List UInt8)) (ok : Bool) : PeerTable α :=
  if addr = own.1 ∨ addr = own.2 then s
  else
    let old := (s.peers addr).getD []
    let ies := ht.elim old (· ++ vht.getD [])
    let t := { s with peers := update s.peers addr (some ies) }
    if ies ≠ old ∧ (s.peerOps addr).isSome then t.updatePeer addr ok else t

def addPeer (mac : α) (ran ok : Bool) : PeerTable α :=
  if (s.peerOps mac).isSome ∨ ran = false then s
  else { s with peerOps := update s.peerOps mac (some []) }.updatePeer mac ok

/-- `own` are the zero address and the one of the device. -/
def next (own : α × α) : PeerAction α → PeerTable α
  | .frame addr ht vht ok => s.handleFrame own addr ht vht ok
  | .add mac ran ok => s.addPeer mac ran ok

def Mirrors : Prop := s.peerOps = s.firmware

/-- The step calls `peer_add`. -/
def Sends (own : α × α) : PeerAction α → Prop
  | .frame addr ht vht _ => ¬(addr = own.1 ∨ addr = own.2) ∧
      ht.elim ((s.peers addr).getD []) (· ++ vht.getD []) ≠ (s.peers addr).getD [] ∧ (s.peerOps addr).isSome
  | .add mac ran _ => s.peerOps mac = none ∧ ran = true

/-- A `peer_add` that the step calls succeeds. -/
def Accepted (own : α × α) (a : PeerAction α) : Prop := s.Sends own a → a.ok = true

/-- After a failed `peer_add`, `add_peer` sends the peer again. -/
def Resends (own : α × α) (a : PeerAction α) : Prop :=
  s.Sends own a → a.ok = false → (s.next own a).Sends own (.add a.mac true true)

variable {s} {own : α × α} {a : PeerAction α}

theorem Mirrors.updatePeer (h : s.Mirrors) (mac : α) (ok : Bool) : (s.updatePeer mac ok).Mirrors := by
  unfold PeerTable.updatePeer
  split
  · exact congrArg (update · mac _) h
  · exact h

theorem Mirrors.next (h : s.Mirrors) (ha : s.Accepted own a) : (s.next own a).Mirrors := by
  cases a with
  | add mac ran ok =>
    simp only [PeerTable.next, addPeer]
    split
    · exact h
    · next hin =>
      rw [not_or, Option.not_isSome_iff_eq_none, Bool.not_eq_false] at hin
      obtain rfl : ok = true := ha hin
      exact (update_idem ..).trans (congrArg (update · mac _) h)
  | frame addr ht vht ok =>
    simp only [PeerTable.next, handleFrame]
    split
    · exact h
    · split
      · exact Mirrors.updatePeer (by exact h) addr ok
      · exact h

/-- Whether `peer_add` succeeds or not, the peer is in the table afterwards. -/
theorem isSome_next (h : s.Sends own a) : ((s.next own a).peerOps a.mac).isSome := by
  cases a with
  | add mac ran ok =>
    obtain ⟨hno, rfl⟩ := h
    cases ok <;> simp [PeerTable.next, addPeer, updatePeer, PeerAction.mac, hno]
  | frame addr ht vht ok =>
    obtain ⟨hoth, hne, hin⟩ := h
    simp only [PeerTable.next, handleFrame, if_neg hoth, if_pos (And.intro hne hin)]
    cases ok <;> simp [updatePeer, PeerAction.mac, hin]

end PeerTable

def peerMachine (own : α × α) : Machine (PeerTable α) (PeerAction α) where
  init s := s = ⟨fun _ => none, fun _ => none, fun _ => none⟩
  next s a := some (s.next own a)

/-- The table is what the firmware was told, and a refused peer is sent again, as long as no `peer_add` fails. -/
theorem peer_table_mirrors (own : α × α) :
    (∀ s, (peerMachine own).Reach (PeerTable.Accepted · own) s → s.Mirrors) ∧
      ∀ (s : PeerTable α) a, s.Mirrors → ((s.next own a).Mirrors ∧ s.Resends own a ↔ s.Accepted own a) := by
  constructor
  · intro s hs
    apply hs.invariant (I := PeerTable.Mirrors)
    · rintro _ rfl
      rfl
    · rintro s a _ - ha h ⟨⟩
      exact h.next ha
  · refine fun s a h => ⟨fun ⟨_, hre⟩ hse => ?_, fun ha => ⟨h.next ha, fun hse hno => nomatch hno.symm.trans (ha hse)⟩⟩
    by_contra hno
    have hin := PeerTable.isSome_next hse
    rw [(hre hse (Bool.eq_false_of_not_eq_true hno)).1] at hin
    cases hin

/-- The firmware refuses a peer. The second call of `add_peer` would succeed, but does not send it again. -/
theorem refused_peer_kept : ∃ s : PeerTable Nat, (peerMachine (0, 1)).Reachable s ∧ s.peerOps 2 = some [] ∧
    s.firmware 2 = none :=
  exists_of_run [.add 2 true false, .add 2 true true] rfl (by decide)

end Peers

end KaiT2en.Drop
