import KaiT2en.Dma.Queue

/-!
# Submissions and segment lists

What `t2bce_dma/queue.c` writes into the elements of a submission queue: either one mapped buffer or a byte range of
one chunk of a segment list. Chunks have at most `BCE_SEGMENT_LIST_ELEMENTS` elements and are never chained, so one
submission covers at most the rest of the chunk that its offset falls into.

The loop that fills the chunks keeps them consecutive, nonempty ranges of the data (`Tiled`) that hold the entries in
order (`Filling`), so that every range inside the list can be submitted, and the device selects exactly its bytes
(`segment_list_covers`).
-/

namespace KaiT2en.Dma

open KaiT2en.Kernel List Nat

variable {α : Type}

/-- `struct bce_qe_submission`. -/
structure QeSubmission where
  length : Nat
  addr : Nat
  seglAddr : Nat
  seglLength : Nat
  deriving DecidableEq, Repr

/-- `struct bce_submission`. -/
inductive Submission where
  | single (addr size : Nat)
  | segmentList (offset length addr size : Nat)
  deriving DecidableEq, Repr

def writeSubmission : Submission → QeSubmission
  | .single addr size => { addr, length := size, seglAddr := 0, seglLength := 0 }
  | .segmentList offset length addr size => { addr := offset, length, seglAddr := addr, seglLength := size }

/-- `t2bce_dma_set_next_submission_single`; `tag` turns the descriptor into a ring element. -/
def Sq.setNextSubmissionSingle (sq : Sq α) (tag : QeSubmission → α) (addr size : Nat) : Sq α :=
  sq.nextSubmission (tag (writeSubmission (.single addr size)))

/-! ## Segment lists -/

/-- `struct t2bce_dma_segment_list_chunk` with the elements stored in its page. -/
structure SegmentListChunk where
  dmaAddr : Nat
  dataOffset : Nat
  dataSize : Nat
  elements : List (Nat × Nat)
  deriving DecidableEq, Repr, Inhabited

/-- `struct t2bce_dma_segment_list`. -/
structure SegmentList where
  chunks : List SegmentListChunk
  dataSize : Nat
  deriving DecidableEq, Repr

/-- One mapped entry of a `struct scatterlist`. -/
structure Scatterlist where
  dmaAddress : Nat
  dmaLen : Nat
  deriving DecidableEq, Repr

def BCE_SEGMENT_LIST_MAX_ELEMENTS : Nat := 32
def sizeofSegmentListHeader : Nat := 32
def sizeofSegmentListElement : Nat := 16

def BCE_SEGMENT_LIST_ELEMENTS : Nat :=
  min BCE_SEGMENT_LIST_MAX_ELEMENTS ((PAGE_SIZE - sizeofSegmentListHeader) / sizeofSegmentListElement)

/-- The full chunks and the chunk that element `i` goes into: a new one from the pool if `i` is the first of a chunk.
-/
def openChunk (pool : Nat → Option Nat) (list : SegmentList) (i : Nat) :
    Except Int (List SegmentListChunk × SegmentListChunk) :=
  if i % BCE_SEGMENT_LIST_ELEMENTS = 0 then
    match pool (i / BCE_SEGMENT_LIST_ELEMENTS) with
    | none => .error (-ENOMEM)
    | some dmaAddr => .ok (list.chunks, ⟨dmaAddr, list.dataSize, 0, []⟩)
  else .ok (list.chunks.dropLast, list.chunks.getLastD default)

/-- The body of the loop of `t2bce_dma_create_segment_list`. -/
def addSegment (pool : Nat → Option Nat) (list : SegmentList) (i : Nat) (sg : Scatterlist) :
    Except Int SegmentList := do
  let (full, chunk) ← openChunk pool list i
  if sg.dmaLen = 0 then throw (-EINVAL)
  -- `check_add_overflow` on the two `size_t` sums
  if 2 ^ 64 ≤ chunk.dataSize + sg.dmaLen ∨ 2 ^ 64 ≤ list.dataSize + sg.dmaLen then throw (-EOVERFLOW)
  pure
    { chunks := full ++ [{ chunk with
        dataSize := chunk.dataSize + sg.dmaLen
        elements := chunk.elements ++ [(sg.dmaAddress, sg.dmaLen)] }]
      dataSize := list.dataSize + sg.dmaLen }

/-- The loop of `t2bce_dma_create_segment_list` from entry `i` on. -/
def addSegments (pool : Nat → Option Nat) : SegmentList → Nat → List Scatterlist → Except Int SegmentList
  | list, _, [] => .ok list
  | list, i, sg :: sgl => do
    let list' ← addSegment pool list i sg
    addSegments pool list' (i + 1) sgl

/-- `t2bce_dma_create_segment_list`. `kzalloc` tells whether the list can be allocated and `pool` what
`dma_pool_zalloc` returns; an absent pool is `none`. -/
def createSegmentList (kzalloc : Bool) (pool : Option (Nat → Option Nat))
    (sgl : List Scatterlist) : Except Int SegmentList :=
  match pool with
  | none => .error (-EINVAL)
  | some pool =>
    if sgl = [] then .error (-EINVAL)
    else if !kzalloc then .error (-ENOMEM)
    else addSegments pool ⟨[], 0⟩ 0 sgl

/-- The search of `t2bce_dma_set_next_submission_segment_list` for the chunk of `offset`. -/
def SegmentList.findChunk (list : SegmentList) (offset : Nat) : Option SegmentListChunk :=
  list.chunks.find? fun candidate =>
    decide (candidate.dataOffset ≤ offset) && decide (offset - candidate.dataOffset < candidate.dataSize)

/-- `t2bce_dma_set_next_submission_segment_list`; the result is the new queue and
`*submitted_size`. -/
def Sq.setNextSubmissionSegmentList (sq : Sq α) (tag : QeSubmission → α) (list : SegmentList)
    (offset size : Nat) : Except Int (Sq α × Nat) :=
  if size = 0 ∨ list.dataSize ≤ offset ∨ list.dataSize - offset < size then .error (-EINVAL)
  else
    match list.findChunk offset with
    | none => .error (-EINVAL)
    | some chunk =>
      let chunkOffset := offset - chunk.dataOffset
      let submittedSize := min size (chunk.dataSize - chunkOffset)
      .ok (sq.nextSubmission (tag (writeSubmission
        (.segmentList chunkOffset submittedSize chunk.dmaAddr PAGE_SIZE))), submittedSize)

variable {list : SegmentList}

theorem Sq.setNextSubmissionSegmentList_ok {sq sq' : Sq α} {tag : QeSubmission → α} {offset size submittedSize : Nat}
    (h : sq.setNextSubmissionSegmentList tag list offset size = .ok (sq', submittedSize)) :
    (∃ element : QeSubmission, element.length = submittedSize ∧ sq' = sq.nextSubmission (tag element)) ∧
      0 < submittedSize ∧ submittedSize ≤ size ∧ offset + size ≤ list.dataSize := by
  unfold Sq.setNextSubmissionSegmentList at h
  split at h
  · cases h
  cases hfd : list.findChunk offset with
  | none => simp [hfd] at h
  | some chunk =>
    simp only [hfd, Except.ok.injEq, Prod.mk.injEq] at h
    obtain ⟨rfl, rfl⟩ := h
    have hin := find?_some hfd
    simp only [Bool.and_eq_true, decide_eq_true_eq] at hin
    refine ⟨⟨_, rfl, rfl⟩, ?_, ?_, ?_⟩ <;> omega

theorem Sq.setNextSubmissionSegmentList_error {sq : Sq α} {tag : QeSubmission → α} {offset size : Nat} {status : Int}
    (h : sq.setNextSubmissionSegmentList tag list offset size = .error status) :
    status = -EINVAL := by
  unfold Sq.setNextSubmissionSegmentList at h
  split at h
  · cases h
    rfl
  split at h
  · cases h
    rfl
  · cases h

/-! ## The chunks of a created list -/

/-- The chunks are consecutive nonempty ranges from `start` to `stop`. -/
inductive Tiled : Nat → List SegmentListChunk → Nat → Prop
  | nil (start : Nat) : Tiled start [] start
  | cons {start stop : Nat} {chunk : SegmentListChunk} {chunks : List SegmentListChunk} :
      chunk.dataOffset = start → 0 < chunk.dataSize →
      Tiled (start + chunk.dataSize) chunks stop → Tiled start (chunk :: chunks) stop

namespace Tiled

variable {start mid stop : Nat} {chunks more : List SegmentListChunk}

theorem append (h : Tiled start chunks mid) (h' : Tiled mid more stop) : Tiled start (chunks ++ more) stop := by
  induction h with
  | nil => exact h'
  | cons hoff hpos _ ih => exact Tiled.cons hoff hpos (ih h')

/-- Every offset of the tiled range falls into one of the chunks. -/
theorem exists_chunk (h : Tiled start chunks stop) {offset : Nat} (hlo : start ≤ offset) (hhi : offset < stop) :
    ∃ chunk ∈ chunks, chunk.dataOffset ≤ offset ∧ offset - chunk.dataOffset < chunk.dataSize := by
  induction h with
  | nil => omega
  | @cons start stop chunk chunks hoff hpos _ ih =>
    by_cases hin : offset < start + chunk.dataSize
    · exact ⟨chunk, by simp, by omega, by omega⟩
    · obtain ⟨c, hc, hle, hlt⟩ := ih (by omega) hhi
      exact ⟨c, mem_cons_of_mem _ hc, hle, hlt⟩

end Tiled

@[simp] theorem segmentListElements_eq : BCE_SEGMENT_LIST_ELEMENTS = 32 := rfl

/-- The table entry of a mapped entry. -/
def Scatterlist.range (sg : Scatterlist) : Nat × Nat := (sg.dmaAddress, sg.dmaLen)

/-- The full chunks and the last one hold the entries `sgl`. -/
structure Filling (full : List SegmentListChunk) (last : SegmentListChunk) (sgl : List Scatterlist) :
    Prop where
  tiled : Tiled 0 full last.dataOffset
  size : last.dataOffset + last.dataSize = (sgl.map (·.dmaLen)).sum
  entries : (full ++ [last]).flatMap (·.elements) = sgl.map Scatterlist.range
  sized : ∀ chunk ∈ full ++ [last], chunk.dataSize = (chunk.elements.map Prod.snd).sum
  length : ∀ chunk ∈ full, chunk.elements.length = BCE_SEGMENT_LIST_ELEMENTS
  length_le : last.elements.length ≤ BCE_SEGMENT_LIST_ELEMENTS
  count : BCE_SEGMENT_LIST_ELEMENTS * full.length + last.elements.length = sgl.length
  pos : last.elements ≠ [] → 0 < last.dataSize

section Filling

variable (pool : Nat → Option Nat) {full : List SegmentListChunk} {last : SegmentListChunk} {sg : Scatterlist}
  {sgl : List Scatterlist}

theorem Filling.next (h : Filling full last sgl) (hla : last.elements.length = 32) (dmaAddr : Nat) :
    Filling (full ++ [last]) ⟨dmaAddr, (sgl.map (·.dmaLen)).sum, 0, []⟩ sgl where
  tiled := h.tiled.append (.cons rfl (h.pos (ne_nil_of_length_eq_add_one hla)) (h.size ▸ .nil _))
  size := rfl
  entries := by simpa using h.entries
  sized := forall_mem_append.2 ⟨h.sized, forall_mem_singleton.2 rfl⟩
  length := forall_mem_append.2 ⟨h.length, forall_mem_singleton.2 hla⟩
  length_le := zero_le _
  count := by simp [← h.count, hla, mul_add]
  pos hne := absurd rfl hne

theorem Filling.add (h : Filling full last sgl) (hla : last.elements.length < 32) (hpos : 0 < sg.dmaLen) :
    Filling full { last with
      dataSize := last.dataSize + sg.dmaLen
      elements := last.elements ++ [sg.range] } (sgl ++ [sg]) where
  tiled := h.tiled
  size := by simp [← h.size, add_assoc]
  entries := by simp [← h.entries]
  sized := by
    obtain ⟨hfl, hsiz⟩ := forall_mem_append.1 h.sized
    refine forall_mem_append.2 ⟨hfl, forall_mem_singleton.2 ?_⟩
    simp [hsiz last mem_cons_self, Scatterlist.range]
  length := h.length
  length_le := by simpa using hla
  count := by simp [← h.count, add_assoc]
  pos _ := Nat.add_pos_right _ hpos

/-- What the loop has made of the entries `sgl`. -/
def Filled (list : SegmentList) (sgl : List Scatterlist) : Prop :=
  list.dataSize = (sgl.map (·.dmaLen)).sum ∧ (list.chunks = [] ∧ sgl = [] ∨
      ∃ full last, list.chunks = full ++ [last] ∧ last.elements ≠ [] ∧ Filling full last sgl)

theorem filled_nil : Filled ⟨[], 0⟩ [] := ⟨rfl, .inl ⟨rfl, rfl⟩⟩

/-- The pool has run out of pages. -/
def NoPage {β : Type} (pool : Nat → Option Nat) (result : Except Int β) : Prop :=
  result = .error (-ENOMEM) ∧ ∃ k, pool k = none

theorem Filled.openChunk {list : SegmentList} (h : Filled list sgl) :
    ∃ full last, last.elements.length < 32 ∧ Filling full last sgl ∧
      (openChunk pool list sgl.length = .ok (full, last) ∨ NoPage pool (openChunk pool list sgl.length)) := by
  obtain ⟨hsz, ⟨hchs, rfl⟩ | ⟨full, last, hchs, hne, hfi⟩⟩ := h
  · refine ⟨[], ⟨(pool 0).getD 0, 0, 0, []⟩, succ_pos 31, ⟨.nil 0, rfl, rfl,
      forall_mem_singleton.2 rfl, forall_mem_nil _, zero_le _, rfl, nofun⟩, ?_⟩
    rw [Dma.openChunk, if_pos (by rfl), hchs, hsz]
    cases hpool : pool 0 with
    | none => exact .inr ⟨by rw [length_nil, Nat.zero_div, hpool], 0, hpool⟩
    | some dmaAddr => exact .inl (by rw [length_nil, Nat.zero_div, hpool]; rfl)
  · have hcnt := hfi.count
    have hle := hfi.length_le
    have hpos := length_pos_iff.2 hne
    rw [segmentListElements_eq] at hcnt hle
    by_cases hfl : last.elements.length = 32
    · refine ⟨_, ⟨(pool (sgl.length / 32)).getD 0, _, 0, []⟩, succ_pos 31, hfi.next hfl _, ?_⟩
      rw [Dma.openChunk, segmentListElements_eq, if_pos (by omega), hchs, hsz]
      cases hpool : pool (sgl.length / 32) with
      | none => exact .inr ⟨rfl, _, hpool⟩
      | some dmaAddr => exact .inl rfl
    · refine ⟨full, last, by omega, hfi, .inl ?_⟩
      rw [Dma.openChunk, if_neg (by rw [segmentListElements_eq]; omega), hchs]
      simp

theorem Filled.addSegment {list : SegmentList} (h : Filled list sgl) (hpos : 0 < sg.dmaLen)
    (hft : (sgl.map (·.dmaLen)).sum + sg.dmaLen < 2 ^ 64) :
    ∃ list', Filled list' (sgl ++ [sg]) ∧ (addSegment pool list sgl.length sg = .ok list' ∨
      NoPage pool (addSegment pool list sgl.length sg)) := by
  obtain ⟨full, last, hla, hfi, hop⟩ := h.openChunk pool
  refine ⟨⟨_, list.dataSize + sg.dmaLen⟩, ⟨by simp [h.1], .inr ⟨full, _, rfl, by simp, hfi.add hla hpos⟩⟩, ?_⟩
  rw [Dma.addSegment, h.1]
  rcases hop with hop | ⟨hop, hpool⟩
  · have hend := hfi.size
    rw [hop]
    simp only [bind, Except.bind]
    rw [if_neg (by omega), if_neg (by omega)]
    exact .inl rfl
  · rw [hop]
    exact .inr ⟨rfl, hpool⟩

theorem Filled.addSegments {more : List Scatterlist} (hpos : ∀ sg ∈ more, 0 < sg.dmaLen) :
    ∀ {list : SegmentList} {sgl : List Scatterlist}, Filled list sgl → ((sgl ++ more).map (·.dmaLen)).sum < 2 ^ 64 →
      ∃ list', Filled list' (sgl ++ more) ∧ (addSegments pool list sgl.length more = .ok list' ∨
        NoPage pool (addSegments pool list sgl.length more)) := by
  induction more with
  | nil =>
    intro list sgl h _
    exact ⟨list, (append_nil sgl).symm ▸ h, .inl rfl⟩
  | cons sg more ih =>
    intro list sgl h hft
    obtain ⟨hsg, hmo⟩ := forall_mem_cons.1 hpos
    rw [append_cons] at hft ⊢
    obtain ⟨mid, hmid, hadd⟩ := h.addSegment pool hsg (by
      simp only [map_append, map_cons, map_nil, sum_append, sum_cons] at hft
      omega)
    obtain ⟨list', hls', hrs⟩ := ih hmo hmid hft
    rw [length_append] at hrs
    refine ⟨list', hls', ?_⟩
    rw [Dma.addSegments]
    rcases hadd with hadd | ⟨hadd, hpool⟩
    · rw [hadd]
      exact hrs
    · rw [hadd]
      exact .inr ⟨rfl, hpool⟩

/-- A list of nonempty entries is created, unless an allocation fails. -/
theorem createSegmentList_filling (hne : sgl ≠ []) (hpos : ∀ sg ∈ sgl, 0 < sg.dmaLen)
    (hft : (sgl.map (·.dmaLen)).sum < 2 ^ 64) :
    ∃ full last, Filling full last sgl ∧ Tiled 0 (full ++ [last]) (sgl.map (·.dmaLen)).sum ∧
      (createSegmentList true (some pool) sgl = .ok ⟨full ++ [last], (sgl.map (·.dmaLen)).sum⟩ ∨
        NoPage pool (createSegmentList true (some pool) sgl)) := by
  obtain ⟨⟨chunks, dataSize⟩, ⟨rfl, ⟨-, hnil⟩ | ⟨full, last, rfl, hla, hfi⟩⟩, hls⟩ :=
    Filled.addSegments pool hpos filled_nil hft
  · exact absurd hnil hne
  · refine ⟨full, last, hfi, ?_, ?_⟩
    · exact hfi.tiled.append (.cons rfl (hfi.pos hla) (hfi.size ▸ .nil _))
    · rw [createSegmentList, if_neg hne]
      exact hls

end Filling

theorem Sq.setNextSubmissionSegmentList_eq (sq : Sq α) (tag : QeSubmission → α) {offset size : Nat}
    (htil : Tiled 0 list.chunks list.dataSize) (hpos : 0 < size) (hend : offset + size ≤ list.dataSize) :
    ∃ chunk ∈ list.chunks, chunk.dataOffset ≤ offset ∧ offset < chunk.dataOffset + chunk.dataSize ∧
      sq.setNextSubmissionSegmentList tag list offset size =
        .ok (sq.nextSubmission (tag (writeSubmission (.segmentList (offset - chunk.dataOffset)
          (min size (chunk.dataSize - (offset - chunk.dataOffset))) chunk.dmaAddr PAGE_SIZE))),
          min size (chunk.dataSize - (offset - chunk.dataOffset))) := by
  obtain ⟨other, hmem, hle, hlt⟩ := htil.exists_chunk (zero_le offset) (by omega : offset < list.dataSize)
  have hfd : (list.findChunk offset).isSome := find?_isSome.2 ⟨other, hmem, by simp [hle, hlt]⟩
  obtain ⟨chunk, hchk⟩ := Option.isSome_iff_exists.1 hfd
  have hin := find?_some hchk
  simp only [Bool.and_eq_true, decide_eq_true_eq] at hin
  refine ⟨chunk, mem_of_find?_eq_some hchk, hin.1, by omega, ?_⟩
  rw [Sq.setNextSubmissionSegmentList, if_neg (by omega), hchk]

/-! ## What the device reads -/

/-- The addresses of the bytes of some ranges, in order. -/
def rangeBytes (ranges : List (Nat × Nat)) : List Nat := ranges.flatMap fun range => List.range' range.1 range.2

/-- The bytes that a descriptor selects; `mem` are the tables in the memory of the pool. -/
def QeSubmission.select (mem : Nat → List (Nat × Nat)) (element : QeSubmission) : List Nat :=
  ((rangeBytes (mem element.seglAddr)).drop element.addr).take element.length

/-- Calls of `t2bce_dma_set_next_submission_segment_list`, each at the offset behind the one before it, and
the elements that they write. -/
def Sq.submitRange (list : SegmentList) : Nat → Sq QeSubmission → Nat → Nat → Option (List QeSubmission)
  | _, _, _, 0 => some []
  | 0, _, _, _ + 1 => none
  | fuel + 1, sq, offset, size + 1 =>
    match sq.setNextSubmissionSegmentList id list offset (size + 1) with
    | .error _ => none
    | .ok (sq', submitted) => do
      let element ← sq'.data sq.tail
      let elements ← submitRange list fuel sq' (offset + submitted) (size + 1 - submitted)
      some (element :: elements)

theorem Tiled.drop_bytes {start stop : Nat} {chunks : List SegmentListChunk} (h : Tiled start chunks stop)
    (hsiz : ∀ chunk ∈ chunks, chunk.dataSize = (rangeBytes chunk.elements).length)
    {chunk : SegmentListChunk} (hchk : chunk ∈ chunks) :
    ∃ k after, chunk.dataOffset = start + k ∧ (rangeBytes (chunks.flatMap (·.elements))).drop k =
      rangeBytes chunk.elements ++ after := by
  induction h with
  | nil => exact nomatch hchk
  | @cons start stop first rest hoff hpos _ ih =>
    obtain ⟨hfst, hrs⟩ := forall_mem_cons.1 hsiz
    have happ : rangeBytes ((first :: rest).flatMap (·.elements)) =
        rangeBytes first.elements ++ rangeBytes (rest.flatMap (·.elements)) := by
      simp [rangeBytes]
    rw [happ]
    rcases mem_cons.1 hchk with rfl | hchk
    · exact ⟨0, _, hoff, rfl⟩
    · obtain ⟨k, after, hk, hbs⟩ := ih hrs hchk
      refine ⟨first.dataSize + k, after, by omega, ?_⟩
      rw [hfst, drop_length_add_append, hbs]

/-- A descriptor that selects bytes of one chunk. -/
def OneChunk (list : SegmentList) (element : QeSubmission) : Prop :=
  0 < element.length ∧ ∃ chunk ∈ list.chunks, element.seglAddr = chunk.dmaAddr ∧
    chunk.elements.length ≤ BCE_SEGMENT_LIST_MAX_ELEMENTS ∧
    element.addr + element.length ≤ (rangeBytes chunk.elements).length

section Submit

variable {list : SegmentList} (htil : Tiled 0 list.chunks list.dataSize)
  (hsiz : ∀ chunk ∈ list.chunks, chunk.dataSize = (rangeBytes chunk.elements).length)
  (hln : ∀ chunk ∈ list.chunks, chunk.elements.length ≤ BCE_SEGMENT_LIST_MAX_ELEMENTS)
  {mem : Nat → List (Nat × Nat)} (hmem : ∀ chunk ∈ list.chunks, mem chunk.dmaAddr = chunk.elements)

include htil hsiz hln hmem

theorem submitRange_eq (fuel : Nat) : ∀ (sq : Sq QeSubmission) (offset size : Nat), size ≤ fuel →
    offset + size ≤ list.dataSize → ∃ elements, sq.submitRange list fuel offset size = some elements ∧
      (∀ element ∈ elements, OneChunk list element) ∧ elements.flatMap (·.select mem) =
        ((rangeBytes (list.chunks.flatMap (·.elements))).drop offset).take size := by
  induction fuel with
  | zero =>
    intro sq offset size hfu _
    obtain rfl : size = 0 := le_zero.1 hfu
    exact ⟨[], rfl, forall_mem_nil _, rfl⟩
  | succ fuel ih =>
    intro sq offset size hfu hend
    cases size with
    | zero => exact ⟨[], rfl, forall_mem_nil _, rfl⟩
    | succ size =>
      obtain ⟨chunk, hchk, hlo, hhi, hset⟩ := sq.setNextSubmissionSegmentList_eq id htil (succ_pos size) hend
      obtain ⟨start, after, hstr, hbs⟩ := htil.drop_bytes hsiz hchk
      rw [zero_add] at hstr
      have hlen := hsiz chunk hchk
      generalize hn : min (size + 1) (chunk.dataSize - (offset - chunk.dataOffset)) = n at hset
      generalize helement : writeSubmission (.segmentList (offset - chunk.dataOffset) n chunk.dmaAddr
        PAGE_SIZE) = element at hset
      obtain ⟨elements, hrs, hone, hsel⟩ :=
        ih (sq.nextSubmission element) (offset + n) (size + 1 - n) (by omega) (by omega)
      refine ⟨element :: elements, ?_, ?_, ?_⟩
      · rw [Sq.submitRange, hset]
        have hda : (sq.nextSubmission element).data sq.tail = some element := Function.update_self ..
        simp [id, hda, hrs]
      · subst helement
        refine forall_mem_cons.2 ⟨⟨?_, chunk, hchk, rfl, hln chunk hchk, ?_⟩, hone⟩
        · show 0 < n
          omega
        · show offset - chunk.dataOffset + n ≤ _
          omega
      · -- the bytes of the element are those of the range up to `offset + n`
        have hfst : element.select mem = ((rangeBytes (list.chunks.flatMap (·.elements))).drop offset).take n := by
          obtain ⟨k, rfl⟩ := Nat.exists_eq_add_of_le hlo
          rw [← hstr] at hbs
          rw [← helement, QeSubmission.select, writeSubmission, hmem chunk hchk, ← drop_drop, hbs,
            Nat.add_sub_cancel_left, drop_append_of_le_length (by omega),
            take_append_of_le_length (by rw [length_drop]; omega)]
        have hsum : size + 1 = n + (size + 1 - n) := by omega
        rw [flatMap_cons, hsel, hfst, hsum, take_add, drop_drop, Nat.add_sub_cancel_left]

end Submit

/-- Submitting the range selects exactly its bytes, each time from one chunk. -/
def Covers (list : SegmentList) (sgl : List Scatterlist) (offset size : Nat) : Prop :=
  ∀ mem : Nat → List (Nat × Nat), (∀ chunk ∈ list.chunks, mem chunk.dmaAddr = chunk.elements) →
    ∀ sq : Sq QeSubmission, ∃ elements, sq.submitRange list size offset size = some elements ∧
      (∀ element ∈ elements, OneChunk list element) ∧ elements.flatMap (·.select mem) =
        ((rangeBytes (sgl.map Scatterlist.range)).drop offset).take size

theorem segment_list_covers {pool : Nat → Nat} {sgl : List Scatterlist} {offset size : Nat} (hne : sgl ≠ [])
    (hpos : ∀ sg ∈ sgl, 0 < sg.dmaLen) (hfits : (sgl.map (·.dmaLen)).sum < 2 ^ 64)
    (hinside : offset + size ≤ (sgl.map (·.dmaLen)).sum) :
    ∃ list, createSegmentList true (some fun k => some (pool k)) sgl = .ok list ∧ Covers list sgl offset size := by
  obtain ⟨full, last, hfi, htil, hls⟩ := createSegmentList_filling (fun k => some (pool k)) hne hpos hfits
  replace hls := hls.resolve_right fun h => nomatch h.2.choose_spec
  refine ⟨_, hls, fun mem hmem sq => ?_⟩
  rw [← hfi.entries]
  refine submitRange_eq htil (fun chunk hchk => ?_) (fun chunk hchk => ?_) hmem size sq offset size
    (le_refl _) hinside
  · simp [hfi.sized chunk hchk, rangeBytes, length_flatMap]
  · rcases mem_append.1 hchk with hchk | hchk
    · exact le_of_eq (hfi.length chunk hchk)
    · rw [mem_singleton.1 hchk]
      exact hfi.length_le

/-- The middle of two entries. -/
theorem segment_list_covers_two :
    ∃ list, createSegmentList true (some fun k => some (4096 * k)) [⟨512, 8⟩, ⟨1024, 4⟩] = .ok list ∧
      Covers list [⟨512, 8⟩, ⟨1024, 4⟩] 6 4 :=
  segment_list_covers (by decide) (by decide) (by decide) (by decide)

end KaiT2en.Dma
