import KaiT2en.Dma.SegmentList

/-!
# Frame data for the encoder

`t2bce_ave_submit_frame_data_async` maps the pages of a frame and submits them with one element of the
parameter queue. A frame in several pieces needs a segment list, and one element covers only its first chunk.
If the frame is longer, the element has been appended before the reservation is cancelled.
-/

namespace KaiT2en.Ave

open KaiT2en.Kernel KaiT2en.Dma List

/-- What the rest of the kernel does during a call. -/
structure FrameEnv where
  kcalloc : Bool
  /-- Whether the buffer has a page at this place. -/
  page : Nat → Bool
  /-- The result of `sg_alloc_table_from_pages`. -/
  sgAlloc : Int
  /-- The result of `dma_map_sgtable` and the mapped entries. -/
  dmaMap : Except Int (List Scatterlist)
  kzalloc : Bool
  pool : Option (Nat → Option Nat)
  available : Bool

/-- The segment list of a frame in more than one piece. -/
def FrameEnv.segments (env : FrameEnv) (sgl : List Scatterlist) : Except Int (Option SegmentList) :=
  if sgl.length = 1 then .ok none else (createSegmentList env.kzalloc env.pool sgl).map some

/-- The end of `t2bce_ave_submit_frame_data_async`, from the reservation on. -/
def submitSegments (available : Bool) (sq : Sq QeSubmission) (sgl : List Scatterlist)
    (segments : Option SegmentList) (size : Nat) : Int × Sq QeSubmission :=
  match sq.reserveSubmission available with
  | .error status => (status, sq)
  | .ok reserved =>
    match segments with
    | none => (0, reserved.setNextSubmissionSingle id ((sgl.map (·.dmaAddress)).headD 0) size)
    | some list =>
      match reserved.setNextSubmissionSegmentList id list 0 size with
      | .error status => (status, reserved.cancelSubmissionReservation)
      | .ok (appended, submitted) =>
        if submitted ≠ size then (-EIo, appended.cancelSubmissionReservation) else (0, appended)

/-- `t2bce_ave_submit_frame_data_async`; `offset` is `offset_in_page(data)`. -/
def submitFrameDataAsync (env : FrameEnv) (sq : Sq QeSubmission) (offset size : Nat) : Int × Sq QeSubmission :=
  let pageCount := (offset + size + (PAGE_SIZE - 1)) / PAGE_SIZE % 2 ^ 32
  if env.kcalloc = false then (-ENOMEM, sq)
  else if (List.range pageCount).all env.page = false then (-EFAULT, sq)
  else if env.sgAlloc ≠ 0 then (env.sgAlloc, sq)
  else
    match env.dmaMap with
    | .error status => (status, sq)
    | .ok sgl =>
      match env.segments sgl with
      | .error status => (status, sq)
      | .ok segments => submitSegments env.available sq sgl segments size

/-- The counters of the queue are as before. -/
def Kept (sq sq' : Sq QeSubmission) : Prop :=
  sq'.tail = sq.tail ∧ sq'.head = sq.head ∧ sq'.availableCommands = sq.availableCommands

/-- What a mapping consists of. -/
structure Mapped (sgl : List Scatterlist) : Prop where
  nonempty : sgl ≠ []
  pos : ∀ sg ∈ sgl, 0 < sg.dmaLen
  fits : (sgl.map (·.dmaLen)).sum < 2 ^ 64

/-- The frame ends in the first chunk of its segment list, or behind the mapping. -/
def InFirstChunk (sgl : List Scatterlist) (size : Nat) : Prop :=
  size ≤ ((sgl.take BCE_SEGMENT_LIST_ELEMENTS).map (·.dmaLen)).sum ∨ (sgl.map (·.dmaLen)).sum < size

variable {sgl : List Scatterlist}

theorem first_chunk {full : List SegmentListChunk} {last : SegmentListChunk}
    (h : Filling full last sgl) : ∃ chunk rest, full ++ [last] = chunk :: rest ∧
      chunk.dataSize = ((sgl.take BCE_SEGMENT_LIST_ELEMENTS).map (·.dmaLen)).sum := by
  have hsum : ∀ chunk ∈ full ++ [last], chunk.elements = (sgl.map Scatterlist.range).take BCE_SEGMENT_LIST_ELEMENTS →
      chunk.dataSize = ((sgl.take BCE_SEGMENT_LIST_ELEMENTS).map (·.dmaLen)).sum := by
    intro chunk hchk helem
    rw [h.sized chunk hchk, helem, ← map_take, map_map]
    rfl
  have hents := h.entries
  cases full with
  | nil =>
    refine ⟨last, [], rfl, hsum last mem_cons_self ?_⟩
    simp only [nil_append, flatMap_singleton] at hents
    rw [← hents, take_of_length_le h.length_le]
  | cons chunk full =>
    refine ⟨chunk, full ++ [last], rfl, hsum chunk mem_cons_self ?_⟩
    rw [cons_append, flatMap_cons] at hents
    rw [← hents, take_left' (h.length chunk mem_cons_self)]

theorem setNextSubmission_first {full : List SegmentListChunk} {last : SegmentListChunk} (h : Filling full last sgl)
    (htil : Tiled 0 (full ++ [last]) (sgl.map (·.dmaLen)).sum) (sq : Sq QeSubmission) (size : Nat) :
    ∃ element, sq.setNextSubmissionSegmentList id ⟨full ++ [last], (sgl.map (·.dmaLen)).sum⟩ 0 size =
      if size = 0 ∨ (sgl.map (·.dmaLen)).sum < size then .error (-EINVAL)
      else .ok (sq.nextSubmission element, min size ((sgl.take BCE_SEGMENT_LIST_ELEMENTS).map (·.dmaLen)).sum) := by
  obtain ⟨chunk, rest, hchs, hfst⟩ := first_chunk h
  rw [hchs] at htil ⊢
  cases htil with
  | cons hoff hlg _ =>
    have hfd : SegmentList.findChunk ⟨chunk :: rest, (sgl.map (·.dmaLen)).sum⟩ 0 = some chunk := by
      apply find?_cons_of_pos
      simpa [hoff] using hlg
    refine ⟨writeSubmission (.segmentList 0 (min size chunk.dataSize) chunk.dmaAddr PAGE_SIZE), ?_⟩
    rw [Sq.setNextSubmissionSegmentList, hfd, ← hfst]
    simp only [hoff, Nat.sub_zero, id]
    split
    · rw [if_pos (by omega)]
    · rw [if_neg (by omega)]

variable {env : FrameEnv}

theorem filling_of_segments {list : SegmentList} (hmapp : Mapped sgl) (h : env.segments sgl = .ok (some list)) :
    ∃ full last, list = ⟨full ++ [last], (sgl.map (·.dmaLen)).sum⟩ ∧ Filling full last sgl ∧
      Tiled 0 (full ++ [last]) (sgl.map (·.dmaLen)).sum := by
  unfold FrameEnv.segments at h
  split at h
  · cases h
  generalize env.kzalloc = kzalloc, env.pool = pool at h
  cases pool with
  | none => cases h
  | some pool =>
    obtain ⟨full, last, hfi, htil, hls⟩ := createSegmentList_filling pool hmapp.nonempty hmapp.pos hmapp.fits
    cases kzalloc with
    | false =>
      rw [createSegmentList, if_neg hmapp.nonempty] at h
      cases h
    | true =>
      rcases hls with hls | hfa
      · rw [hls] at h
        cases h
        exact ⟨full, last, rfl, hfi, htil⟩
      · rw [hfa.1] at h
        cases h

/-- From the reservation on only the reservation has to be given back. -/
theorem submitSegments_kept {sq : Sq QeSubmission} {segments : Option SegmentList} {size : Nat} (hmapp : Mapped sgl)
    (hfst : InFirstChunk sgl size) (hseg : env.segments sgl = .ok segments)
    (h : (submitSegments env.available sq sgl segments size).1 ≠ 0) :
    Kept sq (submitSegments env.available sq sgl segments size).2 := by
  unfold submitSegments at h ⊢
  cases hrsv : sq.reserveSubmission env.available with
  | error status => exact ⟨rfl, rfl, rfl⟩
  | ok reserved =>
    obtain ⟨-, hres⟩ := Sq.reserveSubmission_ok hrsv
    rw [hrsv] at h
    cases segments with
    | none => exact absurd rfl h
    | some list =>
      obtain ⟨full, last, rfl, hfi, htil⟩ := filling_of_segments hmapp hseg
      obtain ⟨element, heq⟩ := setNextSubmission_first hfi htil reserved size
      simp only [heq] at h ⊢
      by_cases hrng : size = 0 ∨ (sgl.map (·.dmaLen)).sum < size
      · rw [if_pos hrng, hres]
        exact ⟨rfl, rfl, Int.sub_add_cancel _ _⟩
      -- the element covers the frame, so the call succeeds
      rw [if_neg hrng] at h
      have hall : min size ((sgl.take BCE_SEGMENT_LIST_ELEMENTS).map (·.dmaLen)).sum = size := by
        rcases hfst with hfst | hfst <;> omega
      rw [hall] at h
      exact absurd (by simp) h

/-- Before the reservation the queue is not touched. -/
theorem submitFrameDataAsync_eq (hmap : env.dmaMap = .ok sgl) (sq : Sq QeSubmission) (offset size : Nat) :
    (∃ status, submitFrameDataAsync env sq offset size = (status, sq)) ∨
      ∃ segments, env.segments sgl = .ok segments ∧ submitFrameDataAsync env sq offset size =
        submitSegments env.available sq sgl segments size := by
  unfold submitFrameDataAsync
  simp only [hmap]
  split
  · exact .inl ⟨_, rfl⟩
  split
  · exact .inl ⟨_, rfl⟩
  split
  · exact .inl ⟨_, rfl⟩
  split
  · exact .inl ⟨_, rfl⟩
  · next hseg => exact .inr ⟨_, hseg, rfl⟩

/-- All goes well until the frame is submitted. -/
def FrameEnv.calm (sgl : List Scatterlist) : FrameEnv :=
  ⟨true, fun _ => true, 0, .ok sgl, true, some fun k => some (PAGE_SIZE * k), true⟩

theorem submitFrameDataAsync_calm {size : Nat} (hmapp : Mapped sgl) (hlong : ¬InFirstChunk sgl size) (offset : Nat) :
    (submitFrameDataAsync (.calm sgl) (.fresh 8) offset size).1 = -EIo ∧
      (submitFrameDataAsync (.calm sgl) (.fresh 8) offset size).2.tail = 1 := by
  obtain ⟨hfst, hend⟩ := not_or.1 hlong
  have hmany : sgl.length ≠ 1 := by
    intro hone
    rw [take_of_length_le (by rw [hone]; decide)] at hfst
    omega
  obtain ⟨full, last, hfi, htil, hls | ⟨-, k, hk⟩⟩ := createSegmentList_filling
    (fun k => some (PAGE_SIZE * k)) hmapp.nonempty hmapp.pos hmapp.fits
  · have hcalm : submitFrameDataAsync (.calm sgl) (.fresh 8) offset size = submitSegments true (.fresh 8) sgl
        (some ⟨full ++ [last], (sgl.map (·.dmaLen)).sum⟩) size := by
      simp [submitFrameDataAsync, FrameEnv.calm, FrameEnv.segments, hmany, hls, Except.map]
    have hrsv : (Sq.fresh 8 : Sq QeSubmission).reserveSubmission true =
        .ok { (Sq.fresh 8 : Sq QeSubmission) with availableCommands := 6 } := rfl
    obtain ⟨element, heq⟩ := setNextSubmission_first hfi htil
      { (Sq.fresh 8 : Sq QeSubmission) with availableCommands := 6 } size
    rw [if_neg (by omega)] at heq
    rw [hcalm, submitSegments, hrsv]
    simp only [heq]
    rw [if_pos (by omega)]
    exact ⟨rfl, rfl⟩
  · exact nomatch hk

/-- A failed call keeps the queue, whatever has failed, exactly for the frames of one chunk. -/
theorem failed_frame_keeps_queue {sgl : List Scatterlist} (hmapped : Mapped sgl) (offset size : Nat) :
    (∀ (env : FrameEnv) (sq : Sq QeSubmission), env.dmaMap = .ok sgl → (submitFrameDataAsync env sq offset size).1 ≠ 0 →
        Kept sq (submitFrameDataAsync env sq offset size).2) ↔ InFirstChunk sgl size := by
  constructor
  · intro hkp
    by_contra hlong
    obtain ⟨herr, hta⟩ := submitFrameDataAsync_calm hmapped hlong offset
    have hsa := hkp (.calm sgl) (.fresh 8) rfl (by rw [herr]; decide)
    exact absurd (hta.symm.trans hsa.1) nofun
  · intro hfst env sq hmap h
    rcases submitFrameDataAsync_eq hmap sq offset size with ⟨status, heq⟩ | ⟨segments, hseg, heq⟩
    · rw [heq]
      exact ⟨rfl, rfl, rfl⟩
    · rw [heq] at h ⊢
      exact submitSegments_kept hmapped hfst hseg h

/-- A frame in 33 pages that are not next to each other. -/
def scattered : List Scatterlist := (List.range 33).map fun k => ⟨2 * PAGE_SIZE * k, PAGE_SIZE⟩

theorem mapped_scattered : Mapped scattered := ⟨by decide, by decide, by decide⟩

theorem failed_frame_keeps_queue_scattered :
    Kept (.fresh 8) (submitFrameDataAsync { FrameEnv.calm scattered with available := false } (.fresh 8) 0 PAGE_SIZE).2 :=
  (failed_frame_keeps_queue mapped_scattered 0 _).2 (.inl (by decide)) _ _ rfl (by decide)

/-- The last page of the frame is in the second chunk: the call fails and the queue has one element more. -/
theorem frame_element_left : (submitFrameDataAsync (.calm scattered) (.fresh 8) 0 (33 * PAGE_SIZE)).1 = -EIo ∧
      ¬Kept (.fresh 8) (submitFrameDataAsync (.calm scattered) (.fresh 8) 0 (33 * PAGE_SIZE)).2 := by
  obtain ⟨herr, hta⟩ := submitFrameDataAsync_calm mapped_scattered
    (not_or.2 ⟨by decide, by decide⟩ : ¬InFirstChunk scattered (33 * PAGE_SIZE)) 0
  exact ⟨herr, fun hkp => nomatch hta.symm.trans hkp.1⟩

end KaiT2en.Ave
