import KaiT2en.Sidecar.Writer

/-!
# Where a frame is written

The T2 reports the planes of its pixel buffers, and `t2sc_session_open` accepts them if the header, the properties of a
frame and the two planes follow one another. `t2sc_session_prepare` writes every frame row by row into the packet.
`frame_writes_fit` says that the writes for an accepted layout stand one behind the other inside the packet.
-/

namespace KaiT2en.Sidecar

open List Nat Option

def T2SC_HDR_LEN : Nat := 8
def T2SC_ENCODE_HDR_LEN : Nat := 0x70
def T2SC_PLIST_MAX : Nat := 512
def T2SC_MAX_HEIGHT : Nat := 4096
def SZ_64K : Nat := 2 ^ 16
def SZ_256M : Nat := 2 ^ 28

/-- `EncoderForceKeyframe`. -/
def T2SC_FORCE_KEYFRAME : CString :=
  ⟨[69, 110, 99, 111, 100, 101, 114, 70, 111, 114, 99, 101, 75, 101, 121, 102, 114, 97, 109, 101], by decide, by decide⟩

/-- The `ByteOffset` and the `BytesPerRow` of a plane in the reply, which are `s64`. -/
structure Reported where
  offset : Int
  stride : Int

/-- `plane_offset` and `plane_stride` of a plane, which are `u32`. -/
structure Plane where
  offset : Nat
  stride : Nat

/-- What `t2sc_get_layout` stores for a plane. -/
def takePlane (r : Reported) : Option Plane :=
  if r.offset ≤ 0 ∨ r.stride ≤ 0 ∨ SZ_256M < r.offset ∨ SZ_64K < r.stride then none
  else some ⟨(r.offset % 2 ^ 32).toNat, (r.stride % 2 ^ 32).toNat⟩

/-- The properties of a frame. -/
def frameProps (force : Bool) : Bpw :=
  bpwInit.add ⟨T2SC_FORCE_KEYFRAME, .bool, force.toNat, by cases force <;> decide⟩

/-- The fields of `struct t2sc_session` that `t2sc_session_prepare` writes by. -/
structure FrameLayout where
  width : Nat
  height : Nat
  propsLen : Nat
  luma : Plane
  chroma : Plane
  txLen : Nat

/-- `DIV_ROUND_UP(height, 2)`. -/
def uvRows (height : Nat) : Nat := (height + 1) % 2 ^ 32 / 2

/-- `t2sc_session_open` from the reply to the request for the layout on; its sums are `size_t`. -/
def sessionOpen (width height : Nat) (luma chroma : Reported) : Option FrameLayout := do
  let luma ← takePlane luma
  let chroma ← takePlane chroma
  let propsLen := ((bpwDict (frameProps false) (fun _ => 0) T2SC_PLIST_MAX).1 % 2 ^ 64).toNat
  let ySize := luma.stride * height % 2 ^ 64
  let uvSize := chroma.stride * uvRows height % 2 ^ 64
  if luma.offset < (T2SC_HDR_LEN + T2SC_ENCODE_HDR_LEN + propsLen) % 2 ^ 64 ∨
      chroma.offset < (luma.offset + ySize) % 2 ^ 64 ∨ luma.stride < width ∨ chroma.stride < width then none
  else some ⟨width, height, propsLen, luma, chroma, (chroma.offset + uvSize) % 2 ^ 64⟩

/-- A write of `len` bytes to the packet from `start` on. -/
structure Span where
  start : Nat
  len : Nat

/-- The copies of the first `n` rows of a plane; the product is a `u32`. -/
def Plane.rows (p : Plane) (width n : Nat) : List Span :=
  (List.range n).map fun row => ⟨p.offset + row * p.stride % 2 ^ 32, width⟩

/-- The writes of `t2sc_session_prepare`. The properties are written by `t2sc_bpw_dict` with `props_len` as its limit. -/
def FrameLayout.prepare (s : FrameLayout) : List Span :=
  ⟨T2SC_HDR_LEN, T2SC_ENCODE_HDR_LEN⟩ :: ⟨T2SC_HDR_LEN + T2SC_ENCODE_HDR_LEN, s.propsLen⟩ ::
    (s.luma.rows s.width s.height ++ s.chroma.rows s.width (uvRows s.height))

/-- The first write ends before the second one starts. -/
def Span.Before (a b : Span) : Prop := a.start + a.len ≤ b.start

variable {width height n : Nat} {p : Plane}

theorem takePlane_eq {r : Reported} (h : takePlane r = some p) :
    r = ⟨p.offset, p.stride⟩ ∧ p.offset ≤ SZ_256M ∧ p.stride ≤ SZ_64K := by
  unfold takePlane at h
  split at h
  · exact nomatch h
  next hrng =>
  cases h
  obtain ⟨offset, stride⟩ := r
  simp only [SZ_256M, SZ_64K, Reported.mk.injEq] at hrng ⊢
  omega

theorem mul_stride_le (hstr : p.stride ≤ SZ_64K) (hn : n ≤ T2SC_MAX_HEIGHT) :
    p.stride * n ≤ SZ_64K * T2SC_MAX_HEIGHT := Nat.mul_le_mul hstr hn

section Rows

variable (hstr : p.stride ≤ SZ_64K) (hn : n ≤ T2SC_MAX_HEIGHT) (hwid : width ≤ p.stride)
include hstr hn

theorem row_spec {row : Nat} (hrow : row < n) :
    row * p.stride % 2 ^ 32 = row * p.stride ∧ row * p.stride + p.stride ≤ p.stride * n := by
  have hle : (row + 1) * p.stride ≤ n * p.stride := mul_le_mul_right _ hrow
  have hsm : p.stride * n ≤ 2 ^ 28 := mul_stride_le hstr hn
  rw [succ_mul, mul_comm n] at hle
  exact ⟨mod_eq_of_lt (by omega), hle⟩

include hwid

theorem mem_rows {w : Span} (h : w ∈ p.rows width n) :
    p.offset ≤ w.start ∧ w.start + w.len ≤ p.offset + p.stride * n := by
  obtain ⟨row, hrow, rfl⟩ := mem_map.1 h
  obtain ⟨hmod, hle⟩ := row_spec hstr hn (mem_range.1 hrow)
  simp only [hmod]
  omega

theorem rows_pairwise : (p.rows width n).Pairwise Span.Before := by
  refine pairwise_map.2 (pairwise_lt_range.imp_of_mem ?_)
  intro i j hi hj hlt
  have hle : (i + 1) * p.stride ≤ j * p.stride := mul_le_mul_right _ hlt
  rw [succ_mul] at hle
  simp only [Span.Before, (row_spec hstr hn (mem_range.1 hi)).1, (row_spec hstr hn (mem_range.1 hj)).1]
  omega

end Rows

theorem bpwDict_frameProps : ((bpwDict (frameProps false) (fun _ => 0) T2SC_PLIST_MAX).1 % 2 ^ 64).toNat = 73 := by
  decide +kernel

/-- The writes for a frame stand one behind the other inside the packet, the properties stay in their room, and 32-bit
numbers change neither the planes nor their sizes. -/
theorem frame_writes_fit {luma chroma : Reported} {s : FrameLayout} (hheight : height ≤ T2SC_MAX_HEIGHT)
    (hopen : sessionOpen width height luma chroma = some s) :
    (∀ w ∈ s.prepare, w.start + w.len ≤ s.txLen) ∧ s.prepare.Pairwise Span.Before ∧
      (∀ force out p, s.propsLen ≤ p → (bpwDict (frameProps force) out s.propsLen).2 p = out p) ∧
      (luma = ⟨s.luma.offset, s.luma.stride⟩ ∧ s.luma.stride * s.height < 2 ^ 32) ∧
      chroma = ⟨s.chroma.offset, s.chroma.stride⟩ ∧ s.chroma.stride * uvRows s.height < 2 ^ 32 := by
  obtain ⟨y, hy, hopen⟩ := bind_eq_some_iff.1 hopen
  obtain ⟨uv, huv, hopen⟩ := bind_eq_some_iff.1 hopen
  obtain ⟨hluma, hyOf, hySt⟩ := takePlane_eq hy
  obtain ⟨hchr, huvO, huvS⟩ := takePlane_eq huv
  have hrows : uvRows height ≤ T2SC_MAX_HEIGHT := by
    simp only [uvRows, T2SC_MAX_HEIGHT] at hheight ⊢
    omega
  have hySize : y.stride * height ≤ 2 ^ 28 := mul_stride_le hySt hheight
  have huvSi : uv.stride * uvRows height ≤ 2 ^ 28 := mul_stride_le huvS hrows
  simp only [bpwDict_frameProps, ite_none_left_eq_some, some.injEq, not_or, not_lt] at hopen
  obtain ⟨⟨hprops, hplan, hyWid, huvW⟩, rfl⟩ := hopen
  simp only [T2SC_HDR_LEN, T2SC_ENCODE_HDR_LEN, SZ_256M] at hprops hyOf huvO
  have hplan : y.offset + y.stride * height ≤ uv.offset := by omega
  have hend : (uv.offset + uv.stride * uvRows height % 2 ^ 64) % 2 ^ 64 = uv.offset + uv.stride * uvRows height := by omega
  have hyRows : ∀ w ∈ y.rows width height, _ := fun w => mem_rows hySt hheight hyWid
  have huvR : ∀ w ∈ uv.rows width (uvRows height), _ := fun w => mem_rows huvS hrows huvW
  refine ⟨?_, ?_, fun force out p hp => (bpwDict_spec _ out _).1 p hp, ⟨hluma, ?_⟩, hchr, ?_⟩
  · intro w hw
    simp only [FrameLayout.prepare, mem_cons, mem_append] at hw
    show _ ≤ (uv.offset + uv.stride * uvRows height % 2 ^ 64) % 2 ^ 64
    rw [hend]
    rcases hw with rfl | rfl | hw | hw
    · show 8 + 112 ≤ _
      omega
    · show 120 + 73 ≤ _
      omega
    · exact (hyRows w hw).2.trans (hplan.trans (le_add_right _ _))
    · exact (huvR w hw).2
  · have hlat : ∀ w ∈ y.rows width height ++ uv.rows width (uvRows height), y.offset ≤ w.start := by
      intro w hw
      rcases mem_append.1 hw with hw | hw
      · exact (hyRows w hw).1
      · exact (le_add_right _ _).trans (hplan.trans (huvR w hw).1)
    refine pairwise_cons.2 ⟨?_, pairwise_cons.2 ⟨?_, pairwise_append.2 ⟨?_, ?_, ?_⟩⟩⟩
    · intro w hw
      rcases mem_cons.1 hw with rfl | hw
      · exact le_refl _
      · exact (show 120 ≤ y.offset by omega).trans (hlat w hw)
    · exact fun w hw => (show 193 ≤ y.offset by omega).trans (hlat w hw)
    · exact rows_pairwise hySt hheight hyWid
    · exact rows_pairwise huvS hrows huvW
    · intro a ha b hb
      exact (hyRows a ha).2.trans (hplan.trans (huvR b hb).1)
  · exact lt_of_le_of_lt hySize (by decide)
  · exact lt_of_le_of_lt huvSi (by decide)

/-- A layout with the smallest frames, without a gap between the planes. -/
theorem frame_writes_fit_smallest : ∃ s, sessionOpen 128 128 ⟨256, 128⟩ ⟨16640, 128⟩ = some s ∧
    ∀ w ∈ s.prepare, w.start + w.len ≤ s.txLen := by
  have hsome : (sessionOpen 128 128 ⟨256, 128⟩ ⟨16640, 128⟩).isSome = true := by decide +kernel
  obtain ⟨s, hop⟩ := isSome_iff_exists.1 hsome
  exact ⟨s, hop, (frame_writes_fit (by decide) hop).1⟩

end KaiT2en.Sidecar
