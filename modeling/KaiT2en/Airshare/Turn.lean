import KaiT2en.Airshare.Receive

/-!
# What a turn of the receiving loop does

`Session.PayloadStep` lists the outcomes of `Session::on_payload`, `TurnStep` those of a turn of the loop of
`run`, as far as the files and texts are concerned. What is proved about whole sessions goes by cases on
these.
-/

namespace KaiT2en.Airshare.Receive

open KaiT2en.Lib.Encoding KaiT2en.Lib.Transition List AList Bool Nat

/-! ## Maps -/

variable {α : Type} {β : Type}

theorem forall_lookup_iff [DecidableEq α] {m : AList fun _ : α => β} {p : α → β → Prop} :
    (∀ key value, m.lookup key = some value → p key value) ↔ ∀ e ∈ m.entries, p e.1 e.2 :=
  ⟨fun h e he => h e.1 e.2 (mem_lookup_iff.2 he),
    fun h key value hvalue => h ⟨key, value⟩ (mem_lookup_iff.1 hvalue)⟩

variable {key other : α}

theorem lookup_insert_eq_some [DecidableEq α] {m : AList fun _ : α => β} {value value' : β} :
    (m.insert key value).lookup other = some value' ↔
      other = key ∧ value = value' ∨ other ≠ key ∧ m.lookup other = some value' := by
  by_cases h : other = key
  · grind [lookup_insert]
  · simp_all

theorem lookup_erase_eq_some [DecidableEq α] {m : AList fun _ : α => β} {value : β} :
    (m.erase key).lookup other = some value ↔ other ≠ key ∧ m.lookup other = some value := by
  by_cases h : other = key
  · grind [lookup_erase]
  · rw [lookup_erase_ne h]
    exact (and_iff_right h).symm

theorem eq_of_erase_eq_nil [DecidableEq α] {m : AList fun _ : α => β} (h : (m.erase key).entries = [])
    (hmem : other ∈ m) : other = key := by
  by_contra hne
  have hoth : other ∈ m.erase key := AList.mem_erase.2 ⟨hne, hmem⟩
  rw [AList.mem_keys, AList.keys, h] at hoth
  exact nomatch hoth

theorem notMem_of_entries_eq_nil {m : AList fun _ : α => β} (h : m.entries = []) (key : α) : key ∉ m := by
  intro hmem
  rw [AList.mem_keys, AList.keys, h] at hmem
  exact nomatch hmem

/-! ## Free names -/

theorem toString_nat_injective {m n : Nat} (h : toString m = toString n) : m = n := by
  have hdig : toDigits 10 m = toDigits 10 n := by grind [toList_repr]
  have hvalue := congrArg (fun digits => ofDigitChars 10 digits 0) hdig
  simp only [ofDigitChars_toDigits (b := 10) (by decide) (by decide)] at hvalue
  exact hvalue

theorem numberedName_injective {base : String} {m n : Nat} (h : numberedName base m = numberedName base n) : m = n := by
  have hmid : ∀ before after : String,
      before ++ " (" ++ toString m ++ after = before ++ " (" ++ toString n ++ after → m = n := by
    intro before after heq
    have hls := congrArg String.toList heq
    simp only [String.toList_append, append_assoc, append_cancel_left_eq, append_cancel_right_eq] at hls
    exact toString_nat_injective (String.toList_inj.1 hls)
  unfold numberedName at h
  split at h
  · grind [String.append_assoc]
  · exact hmid base ")" h

theorem uniquePath_notMem (taken : List String) (name : String) : uniquePath taken name ∉ taken := by
  unfold uniquePath
  simp only
  obtain ⟨base, hbase⟩ : ∃ base, base = (fileName name).getD "received" := ⟨_, rfl⟩
  rw [← hbase]
  split
  · -- there are more numbered names than names taken
    obtain ⟨numbered, hnum⟩ : ∃ numbered, numbered =
        (List.range (taken.length + 1)).map fun n => numberedName base (n + 1) := ⟨_, rfl⟩
    have hnd : numbered.Nodup := by
      rw [hnum]
      apply List.Nodup.map _ nodup_range
      intro m n h
      exact succ.inj (numberedName_injective h)
    have hlen : numbered.length = taken.length + 1 := by rw [hnum, length_map, length_range]
    rw [← hnum]
    cases hfd : numbered.find? fun path => decide (path ∉ taken) with
    | some path =>
      have hfree := find?_some hfd
      exact of_decide_eq_true hfree
    | none =>
      have hsub : numbered ⊆ taken := by grind
      have hle := (subperm_of_subset hnd hsub).length_le
      omega
  · assumption

def CreateFails (env : Env) (frame : IntroductionFrame) : Prop :=
  ∃ n, n < frame.fileMetadata.length ∧ env.create n = true

instance (env : Env) (frame : IntroductionFrame) : Decidable (CreateFails env frame) :=
  inferInstanceAs (Decidable (∃ n, n < frame.fileMetadata.length ∧ _))

/-- A statement about the introduction, if the frame is one. -/
instance decidableIntroduction (p : IntroductionFrame → Prop) [DecidablePred p] :
    ∀ r : Option SharingFrame, Decidable (∀ frame, r = some (some (.introduction frame)) → p frame)
  | none | some none => .isTrue fun _ heq => nomatch heq
  | some (some v1) => by
    cases v1 with
    | introduction frame =>
      exact decidable_of_iff (p frame) ⟨fun h _ heq => by cases heq; exact h, fun h => h frame rfl⟩
    | _ => exact .isTrue fun _ heq => nomatch heq

/-! ## What the operations of a session do -/

namespace Session

variable {self : Session} {env : Env}

variable {path : String}

theorem mem_pendingPaths :
    path ∈ self.pendingPaths ↔ ∃ id pending, self.files.lookup id = some pending ∧ pending.path = path := by
  unfold pendingPaths
  rw [mem_map]
  constructor
  · rintro ⟨⟨id, pending⟩, hmem, hpa⟩
    exact ⟨id, pending, mem_lookup_iff.2 hmem, hpa⟩
  · rintro ⟨id, pending, hlk, hpa⟩
    exact ⟨⟨id, pending⟩, mem_lookup_iff.1 hlk, hpa⟩

theorem lookup_append (path : String) (body : List UInt8) (q : String) :
    (self.append path body).disk.lookup q = (self.disk.lookup q).map fun file =>
      if q = path then { file with content := file.content ++ body } else file := by
  unfold append
  cases hfi : self.disk.lookup path with
  | none => grind [Option.map_id']
  | some file => grind [lookup_insert, lookup_insert_ne, Option.map_id']

theorem lookup_append_ne {path q : String} (body : List UInt8) (h : q ≠ path) :
    (self.append path body).disk.lookup q = self.disk.lookup q := by
  rw [lookup_append]
  simp only [if_neg h, Option.map_id']

theorem lookup_append_self {file : DiskFile} (body : List UInt8) (h : self.disk.lookup path = some file) :
    (self.append path body).disk.lookup path = some { file with content := file.content ++ body } := by
  rw [lookup_append, h, Option.map_some, if_pos rfl]

theorem mem_append_disk {path q : String} {body : List UInt8} : q ∈ (self.append path body).disk ↔ q ∈ self.disk := by
  rw [← lookup_isSome, ← lookup_isSome, lookup_append, Option.isSome_map]

theorem mem_pendingPaths_insert {id : Int} {pending pending' : PendingFile}
    (h : self.files.lookup id = some pending) (hpa : pending'.path = pending.path) :
    path ∈ ({ self with files := self.files.insert id pending' } : Session).pendingPaths ↔
      path ∈ self.pendingPaths := by
  rw [mem_pendingPaths, mem_pendingPaths]
  constructor
  · rintro ⟨other, entry, hent, heq⟩
    rcases lookup_insert_eq_some.1 hent with ⟨rfl, rfl⟩ | ⟨hne, hold⟩
    · exact ⟨other, pending, h, hpa.symm.trans heq⟩
    · exact ⟨other, entry, hold, heq⟩
  · rintro ⟨other, entry, hent, heq⟩
    by_cases hid : other = id
    · subst hid
      rw [h] at hent
      cases hent
      exact ⟨other, pending', lookup_insert _, hpa.trans heq⟩
    · exact ⟨other, entry, (lookup_insert_ne hid).trans hent, heq⟩

theorem append_eq (path : String) (body : List UInt8) :
    self.append path body = { self with disk := (self.append path body).disk } := by
  unfold append
  split
  · rfl
  · rfl

theorem lookup_removeFiles (paths : List String) (q : String) (self : Session) :
    (removeFiles env paths self).disk.lookup q =
      if q ∈ paths ∧ env.remove q = false then none else self.disk.lookup q := by
  induction paths generalizing self with
  | nil => rw [removeFiles, if_neg (fun h => nomatch h.1)]
  | cons path paths ih =>
    rw [removeFiles, ih]
    by_cases hq : q = path
    · grind [lookup_erase]
    · grind [lookup_erase_ne]

theorem lookup_discard (q : String) : (self.discard env).disk.lookup q =
      if q ∈ self.pendingPaths ∧ env.remove q = false then none else self.disk.lookup q :=
  lookup_removeFiles self.pendingPaths q self

/-! ### Payloads -/

/-- The file chunk begins where the last one has ended, and the file does not grow past its size. -/
def Room (pending : PendingFile) (chunk : PayloadChunk) : Prop :=
  chunk.offset = pending.written ∧ pending.written + chunk.body.length ≤ pending.size
  deriving Decidable

def data (self : Session) (header : PayloadHeader) (chunk : PayloadChunk) : List UInt8 :=
  self.bytes.buffer header.id ++ chunk.body

/-- The sharing frame that is complete with this chunk. -/
def sharing (self : Session) (codec : Codec SharingFrame) (header : PayloadHeader)
    (chunk : PayloadChunk) : Option SharingFrame :=
  if header.payloadType = .bytes ∧ chunk.last = true ∧ self.textIds.lookup header.id = none then
    codec.decode (self.data header chunk)
  else none

/-- The chunk can be processed: it is of a payload announced or a sharing frame, it continues the payload,
and writing it does not fail. -/
def Fits (self : Session) (codec : Codec SharingFrame) (env : Env) (header : PayloadHeader)
    (chunk : PayloadChunk) : Prop :=
  match header.payloadType with
  | .bytes => self.bytes.Fits header chunk ∧ (chunk.last = true →
      self.textIds.lookup header.id = none → codec.decode (self.data header chunk) ≠ none)
  | .file => env.write = none ∧ (chunk.last = true → env.sync = false) ∧ match self.files.lookup header.id with
      | some pending => Room pending chunk
      | none => False
  | _ => False

instance (self : Session) (codec : Codec SharingFrame) (env : Env) (header : PayloadHeader)
    (chunk : PayloadChunk) : Decidable (self.Fits codec env header chunk) := by
  unfold Fits
  cases header.payloadType with
  | file => cases self.files.lookup header.id <;> infer_instance
  | _ => infer_instance

/-- Nothing is created, and what is there keeps its introduction. -/
def Within (self' self : Session) : Prop :=
  ∀ path file, self'.disk.lookup path = some file → ∃ old, self.disk.lookup path = some old ∧ old.intro = file.intro

theorem within_append (path : String) (body : List UInt8) : (self.append path body).Within self := by
  intro q file h
  rw [lookup_append] at h
  obtain ⟨old, hold, heq⟩ := Option.map_eq_some_iff.1 h
  refine ⟨old, hold, ?_⟩
  split at heq
  · rw [← heq]
  · rw [heq]

/-- The outcomes of `on_payload`. -/
inductive PayloadStep (codec : Codec SharingFrame) (env : Env) (self : Session)
    (header : PayloadHeader) (chunk : PayloadChunk) :
    Session → Except LinkError (Option SharingFrame) → Prop
  | error {self' : Session} {e : LinkError} : ¬self.Fits codec env header chunk → self'.Within self →
      PayloadStep codec env self header chunk self' (.error e)
  | part {bytes : BytesPayloads} : header.payloadType = .bytes → chunk.last = false →
      PayloadStep codec env self header chunk { self with bytes := bytes } (.ok none)
  | text {bytes : BytesPayloads} {title : Announced String} : header.payloadType = .bytes →
      chunk.last = true → self.textIds.lookup header.id = some title →
      PayloadStep codec env self header chunk
        { self with
          bytes := bytes
          textIds := self.textIds.erase header.id
          doneTexts := self.doneTexts ++ [⟨self.data header chunk, title.intro⟩] } (.ok none)
  | sharing {bytes : BytesPayloads} {frame : SharingFrame} : header.payloadType = .bytes →
      chunk.last = true → self.textIds.lookup header.id = none →
      self.sharing codec header chunk = some frame →
      PayloadStep codec env self header chunk { self with bytes := bytes } (.ok (some frame))
  | chunk {pending : PendingFile} : header.payloadType = .file →
      self.files.lookup header.id = some pending → Room pending chunk → chunk.last = false →
      PayloadStep codec env self header chunk
        { self with
          disk := (self.append pending.path chunk.body).disk
          files := self.files.insert header.id
            { pending with written := pending.written + chunk.body.length } } (.ok none)
  | lastChunk {pending : PendingFile} : header.payloadType = .file →
      self.files.lookup header.id = some pending → Room pending chunk → chunk.last = true →
      PayloadStep codec env self header chunk
        { self with
          disk := (self.append pending.path chunk.body).disk
          files := self.files.erase header.id
          doneFiles := self.doneFiles ++ [pending.path] } (.ok none)

variable {codec : Codec SharingFrame} {self' : Session} {header : PayloadHeader} {chunk : PayloadChunk}

theorem onPayload_bytes (hty : header.payloadType = .bytes) :
    PayloadStep codec env self header chunk (self.onPayload codec env header chunk).1
      (self.onPayload codec env header chunk).2 := by
  unfold onPayload
  simp only [hty]
  by_cases hft : self.bytes.Fits header chunk
  · rw [BytesPayloads.add_eq hft]
    cases hla : chunk.last with
    | false => exact .part hty hla
    | true =>
      simp only [if_true]
      cases htx : self.textIds.lookup header.id with
      | some title =>
        exact .text hty hla htx
      | none =>
        have hshar : self.sharing codec header chunk = codec.decode (self.data header chunk) := if_pos ⟨hty, hla, htx⟩
        cases hfr : codec.decode (self.bytes.buffer header.id ++ chunk.body) with
        | some frame => exact .sharing hty hla htx (hshar.trans hfr)
        | none =>
          refine .error ?_ fun path file h => ⟨file, h, rfl⟩
          simp only [Fits, hty]
          rintro ⟨-, hdec⟩
          exact hdec hla htx hfr
  · obtain ⟨e, herr⟩ := BytesPayloads.add_error hft
    rw [herr]
    refine .error ?_ fun path file h => ⟨file, h, rfl⟩
    simp only [Fits, hty]
    exact fun h => hft h.1

theorem onPayload_file (hty : header.payloadType = .file) :
    PayloadStep codec env self header chunk (self.onPayload codec env header chunk).1
      (self.onPayload codec env header chunk).2 := by
  have hsa : self.Within self := fun path file h => ⟨file, h, rfl⟩
  unfold onPayload
  simp only [hty]
  cases hpn : self.files.lookup header.id with
  | none =>
    refine .error ?_ hsa
    simp only [Fits, hty, hpn]
    exact fun h => h.2.2
  | some pending =>
    by_cases hrm : Room pending chunk
    · simp only [hrm.1, ne_eq, not_true_eq_false, if_false, if_neg (not_lt.2 hrm.2)]
      unfold writeChunk
      cases hwr : env.write with
      | some n =>
        refine .error ?_ (within_append _ _)
        simp only [Fits, hty]
        exact fun h => nomatch h.1.symm.trans hwr
      | none =>
        cases hla : chunk.last with
        | false =>
          rw [append_eq]
          exact .chunk hty hpn hrm hla
        | true =>
          cases hsync : env.sync with
          | true =>
            refine .error ?_ (within_append _ _)
            simp only [Fits, hty]
            exact fun h => nomatch (h.2.1 hla).symm.trans hsync
          | false =>
            rw [append_eq]
            exact .lastChunk hty hpn hrm hla
    · have hft : ¬self.Fits codec env header chunk := by
        simp only [Fits, hty, hpn]
        exact fun h => hrm h.2.2
      by_cases hoff : chunk.offset = pending.written
      · have hlg : pending.written + chunk.body.length > pending.size := not_le.1 fun hle => hrm ⟨hoff, hle⟩
        simp only [hoff, ne_eq, not_true_eq_false, if_false, if_pos hlg]
        exact .error hft hsa
      · simp only [ne_eq, hoff, not_false_eq_true, if_true]
        exact .error hft hsa

variable (codec env self header chunk) in
theorem onPayload_step : PayloadStep codec env self header chunk
    (self.onPayload codec env header chunk).1 (self.onPayload codec env header chunk).2 := by
  cases hty : header.payloadType with
  | bytes => exact onPayload_bytes hty
  | file => exact onPayload_file hty
  | unknown | stream =>
    unfold onPayload
    simp only [hty]
    exact .error (by simp [Fits, hty]) fun path file h => ⟨file, h, rfl⟩

/-- Payloads create nothing. -/
theorem PayloadStep.within {r : Except LinkError (Option SharingFrame)}
    (h : self.PayloadStep codec env header chunk self' r) : self'.Within self := by
  have hsa : self.Within self := fun path file hfi => ⟨file, hfi, rfl⟩
  cases h with
  | error hft hwi => exact hwi
  | part | text | sharing => exact hsa
  | chunk | lastChunk => exact within_append _ _

/-! ### Introductions -/

/-- With `unique_path` creating a file fails only if the environment makes it fail. -/
theorem prepareFiles_cons (intro n : Nat) (file : FileMetadata) (rest : List FileMetadata) :
    prepareFiles env intro n (file :: rest) self = if env.create n then
        (self, .error (.createFile (uniquePath (self.names env) file.name)))
      else prepareFiles env intro (n + 1) rest
        (self.createFile intro file (uniquePath (self.names env) file.name)) := by
  rw [prepareFiles]
  simp [uniquePath_notMem]

theorem prepareFiles_ok (intro : Nat) (files : List FileMetadata) (n : Nat) (self : Session)
    (h : ∀ k, n ≤ k → k < n + files.length → env.create k = false) :
    (prepareFiles env intro n files self).2 = .ok () := by
  induction files generalizing n self with
  | nil => rfl
  | cons file rest ih => grind [prepareFiles_cons]

variable (self) in
theorem prepareFiles_first (intro : Nat) {files : List FileMetadata} (hfiles : files ≠ [])
    (h : env.create 0) : (prepareFiles env intro 0 files self).1 = self := by
  cases files with
  | nil => exact absurd rfl hfiles
  | cons file rest => rw [prepareFiles_cons, if_pos h]

theorem prepareTexts_eq (intro : Nat) (texts : List TextMetadata) (self : Session) :
    ∃ textIds, prepareTexts intro texts self = { self with textIds := textIds } := by
  induction texts generalizing self with
  | nil => exact ⟨self.textIds, rfl⟩
  | cons text rest ih =>
    obtain ⟨textIds, htexts⟩ := ih { self with
      textIds := self.textIds.insert text.payloadId ⟨text.textTitle, intro⟩ }
    exact ⟨textIds, htexts⟩

theorem complete_iff : self.complete ↔ self.files.entries = [] ∧ self.textIds.entries = [] := by
  unfold complete
  rw [and_eq_true, List.isEmpty_iff, List.isEmpty_iff]

/-- With this chunk everything announced may be there. -/
def Completing (self : Session) (header : PayloadHeader) (chunk : PayloadChunk) : Prop :=
  match header.payloadType with
  | .file => self.textIds.entries = [] ∧ chunk.last = true ∧ ∀ id ∈ self.files, id = header.id
  | .bytes => self.files.entries = [] ∧ ∀ id ∈ self.textIds, id = header.id ∧ chunk.last = true
  | _ => False

instance (self : Session) (header : PayloadHeader) (chunk : PayloadChunk) :
    Decidable (self.Completing header chunk) := by
  unfold Completing
  have hfiles : Decidable (∀ id ∈ self.files, id = header.id) :=
    inferInstanceAs (Decidable (∀ id ∈ self.files.keys, id = header.id))
  have htexts : Decidable (∀ id ∈ self.textIds, id = header.id ∧ chunk.last = true) :=
    inferInstanceAs (Decidable (∀ id ∈ self.textIds.keys, id = header.id ∧ chunk.last = true))
  cases header.payloadType <;> infer_instance

/-- A payload that leaves nothing to come was the last one to come. -/
theorem PayloadStep.completing {r : Option SharingFrame}
    (h : self.PayloadStep codec env header chunk self' (.ok r)) (hcm : self'.complete) :
    self.Completing header chunk := by
  obtain ⟨hfiles, htexts⟩ := complete_iff.1 hcm
  unfold Completing
  cases h with
  | part hty hla | sharing hty hla htx hfr =>
    simp only [hty]
    exact ⟨hfiles, fun id hid => absurd hid (notMem_of_entries_eq_nil htexts id)⟩
  | text hty hla htx =>
    simp only [hty]
    exact ⟨hfiles, fun id hid => ⟨eq_of_erase_eq_nil htexts hid, hla⟩⟩
  | chunk hty hpn hrm hla => exact absurd hfiles (cons_ne_nil _ _)
  | lastChunk hty hpn hrm hla =>
    simp only [hty]
    exact ⟨htexts, hla, fun id hid => eq_of_erase_eq_nil hfiles hid⟩

variable (env self) in
theorem prepareFiles_files_ne_nil (intro : Nat) (files : List FileMetadata) (n : Nat) (h : self.files.entries ≠ []) :
    (prepareFiles env intro n files self).1.files.entries ≠ [] := by
  induction files generalizing n self with
  | nil => exact h
  | cons file rest ih =>
    rw [prepareFiles_cons]
    split
    · exact h
    · apply ih
      exact cons_ne_nil _ _

theorem prepareTexts_textIds_ne_nil (intro : Nat) (texts : List TextMetadata)
    (h : self.textIds.entries ≠ []) : (prepareTexts intro texts self).textIds.entries ≠ [] := by
  induction texts generalizing self with
  | nil => exact h
  | cons text rest ih =>
    apply ih
    exact cons_ne_nil _ _

/-- An introduction after which nothing is to come announces nothing. -/
theorem prepare_complete {intro : Nat} {frame : IntroductionFrame}
    (h : self.prepare env intro frame = (self', .ok ())) (hcm : self'.complete) :
    self' = self := by
  obtain ⟨hfiles, htexts⟩ := complete_iff.1 hcm
  unfold prepare at h
  cases hres : prepareFiles env intro 0 frame.fileMetadata self with
  | mk middle r =>
    rw [hres] at h
    cases r with
    | error e => exact nomatch h
    | ok _ =>
      cases h
      cases htx : frame.textMetadata with
      | cons text rest =>
        rw [htx] at htexts
        refine absurd htexts ?_
        rw [prepareTexts]
        exact prepareTexts_textIds_ne_nil intro rest (cons_ne_nil _ _)
      | nil =>
        rw [htx] at hfiles
        cases hfi : frame.fileMetadata with
        | nil =>
          rw [hfi] at hres
          cases hres
          rfl
        | cons file rest =>
          rw [hfi, prepareFiles_cons] at hres
          split at hres
          · exact nomatch hres
          have hne := prepareFiles_files_ne_nil
            (self.createFile intro file (uniquePath (self.names env) file.name)) env intro rest 1
            (cons_ne_nil _ _)
          rw [hres] at hne
          exact absurd hfiles hne

/-- If the first file cannot be created, the session is as before. -/
theorem prepare_error {intro : Nat} {frame : IntroductionFrame} {e : LinkError}
    (h : self.prepare env intro frame = (self', .error e)) :
    CreateFails env frame ∧ (env.create 0 → self' = self) := by
  have hcreate : CreateFails env frame := by
    by_contra hno
    have hok := prepareFiles_ok intro frame.fileMetadata 0 self (by
      intro k _ hlt
      rw [zero_add] at hlt
      by_contra hk
      exact hno ⟨k, hlt, eq_true_of_not_eq_false hk⟩)
    unfold prepare at h
    cases hres : prepareFiles env intro 0 frame.fileMetadata self with
    | mk middle r => grind
  refine ⟨hcreate, ?_⟩
  intro hfst
  have hne : frame.fileMetadata ≠ [] := by
    intro hnil
    obtain ⟨n, hlt, -⟩ := hcreate
    rw [hnil] at hlt
    exact absurd hlt (not_lt_zero n)
  have hsa := prepareFiles_first self intro hne hfst
  unfold prepare at h
  cases hres : prepareFiles env intro 0 frame.fileMetadata self with
  | mk middle r => grind

end Session

/-! ## What a turn of the loop does to the session -/

/-- The connection is lost, or a write to it fails. -/
def Event.Broken : Event → Prop
  | .lost => True
  | .frame _ env | .answer _ env | .prepared _ env | .connected _ env | .keepAlive env =>
    env.link 0 = true ∨ env.link 1 = true

instance : DecidablePred Event.Broken
  | .lost => .isTrue trivial
  | .frame _ _ | .answer _ _ | .prepared _ _ | .connected _ _ | .keepAlive _ => inferInstanceAs (Decidable (_ ∨ _))

/-- The end of a payload frame: the loop goes on, or everything is there and the transfer is over. -/
inductive Completion (env : Env) (accepted : Bool) (session : Session) :
    Option (Except LinkError Outcome) → Prop
  | goesOn : Completion env accepted session none
  | received : accepted = true → session.complete = true → Completion env accepted session (some (.ok session.outcome))
  | broken {e : LinkError} : accepted = true → session.complete = true → env.link 1 = true →
      Completion env accepted session (some (.error e))

/-- What a turn does: the session, the introductions granted, the flag `accepted` and the end. -/
inductive TurnStep (codec : Codec SharingFrame) (s : Run) :
    Event → Session → List Nat → Bool → Option (Except LinkError Outcome) → Prop
  | idle {event : Event} : TurnStep codec s event s.session s.granted s.accepted none
  | broken {event : Event} {e : LinkError} : event.Broken → (∀ env, event ≠ .answer true env) →
      TurnStep codec s event s.session s.granted s.accepted (some (.error e))
  | disconnected {env : Env} : TurnStep codec s (.frame (some .disconnection) env) s.session s.granted s.accepted
        (some (.ok (if s.accepted then s.session.outcome else .cancelled)))
  | payloadError {env : Env} {header : PayloadHeader} {chunk : PayloadChunk} {session : Session}
      {e : LinkError} : s.session.PayloadStep codec env header chunk session (.error e) →
      TurnStep codec s (.frame (some (.payloadTransfer header chunk)) env) session s.granted s.accepted
        (some (.error e))
  | payload {env : Env} {header : PayloadHeader} {chunk : PayloadChunk} {session : Session}
      {ended : Option (Except LinkError Outcome)} {r : Option SharingFrame} :
      s.session.PayloadStep codec env header chunk session (.ok r) →
      Completion env s.accepted session ended →
      TurnStep codec s (.frame (some (.payloadTransfer header chunk)) env) session s.granted s.accepted ended
  | keyBroken {env : Env} {header : PayloadHeader} {chunk : PayloadChunk} {session : Session}
      {e : LinkError} {r : Option SharingFrame} :
      s.session.PayloadStep codec env header chunk session (.ok r) → env.link 0 = true →
      TurnStep codec s (.frame (some (.payloadTransfer header chunk)) env) session s.granted s.accepted
        (some (.error e))
  | introduced {env : Env} {header : PayloadHeader} {chunk : PayloadChunk} {session session' : Session}
      {frame : IntroductionFrame} {ended : Option (Except LinkError Outcome)} :
      s.session.PayloadStep codec env header chunk session (.ok (some (some (.introduction frame)))) →
      session.prepare env s.introductions frame = (session', .ok ()) →
      Completion env s.accepted session' ended →
      TurnStep codec s (.frame (some (.payloadTransfer header chunk)) env) session' s.granted s.accepted ended
  | introductionError {env : Env} {header : PayloadHeader} {chunk : PayloadChunk}
      {session session' : Session} {frame : IntroductionFrame} {e : LinkError} :
      s.session.PayloadStep codec env header chunk session (.ok (some (some (.introduction frame)))) →
      session.prepare env s.introductions frame = (session', .error e) →
      TurnStep codec s (.frame (some (.payloadTransfer header chunk)) env) session' s.granted s.accepted
        (some (.error e))
  | cancelled {env : Env} {header : PayloadHeader} {chunk : PayloadChunk} {session : Session} :
      s.session.PayloadStep codec env header chunk session (.ok (some (some .cancel))) →
      TurnStep codec s (.frame (some (.payloadTransfer header chunk)) env) (session.discard env)
        s.granted s.accepted (some (.ok .cancelled))
  | granted {env : Env} {intro : Nat} {ended : Option (Except LinkError Outcome)} : s.pendingConsent = some intro →
      (ended = none ∨ env.link 0 = true ∧ ∃ e, ended = some (.error e)) →
      TurnStep codec s (.answer true env) s.session (s.granted ++ [intro]) true ended
  | rejected {env : Env} : s.accepted = false →
      TurnStep codec s (.answer false env) (s.session.discard env) s.granted s.accepted (some (.ok .rejected))

namespace Run

variable {codec : Codec SharingFrame} {s : Run} {env : Env}

/-- Two states that differ in what is noted only. -/
def Alike (s t : Run) : Prop :=
  t.session = s.session ∧ t.granted = s.granted ∧ t.accepted = s.accepted ∧ t.ended = s.ended

theorem send_cases (n : Nat) (frames : List V1Frame) (next : Run → Run) :
    (env.link n ∧ s.send env n frames next = (s.note frames).fail .write) ∨
      (env.link n = false ∧ s.send env n frames next = next (s.note frames)) := by
  unfold send
  cases hli : env.link n with
  | true => exact .inl ⟨rfl, if_pos rfl⟩
  | false => exact .inr ⟨rfl, if_neg Bool.false_ne_true⟩

theorem checkComplete_completion (hend : s.ended = none) :
    (s.checkComplete env).session = s.session ∧ (s.checkComplete env).granted = s.granted ∧
      (s.checkComplete env).accepted = s.accepted ∧
      Completion env s.accepted s.session (s.checkComplete env).ended := by
  unfold checkComplete
  cases hcm : s.accepted && s.session.complete with
  | false =>
    simp only [false_eq_true, if_false]
    refine ⟨trivial, trivial, trivial, ?_⟩
    rw [hend]
    exact .goesOn
  | true =>
    obtain ⟨hacc, hall⟩ := and_eq_true_iff.1 hcm
    rcases send_cases (s := s) 1 [.disconnection] (fun s => s.finish s.session.outcome) with ⟨hli, hsd⟩ | ⟨-, hsd⟩
    · rw [hsd]
      exact ⟨rfl, rfl, rfl, .broken hacc hall hli⟩
    · rw [hsd]
      exact ⟨rfl, rfl, rfl, .received hacc hall⟩

/-- A turn that leaves the session alone and either goes on or breaks off. -/
def Plain (s : Run) (event : Event) (t : Run) : Prop :=
  t.session = s.session ∧ t.granted = s.granted ∧ t.accepted = s.accepted ∧
    (t.ended = none ∨ event.Broken ∧ ∃ e, t.ended = some (.error e))

variable {event : Event} {t : Run}

theorem Plain.step (h : Plain s event t) (hev : ∀ env, event ≠ .answer true env) :
    TurnStep codec s event t.session t.granted t.accepted t.ended := by
  obtain ⟨hses, hgr, hacc, hend | ⟨hbrk, e, hend⟩⟩ := h
  · rw [hses, hgr, hacc, hend]
    exact .idle
  · rw [hses, hgr, hacc, hend]
    exact .broken hbrk hev

theorem Alike.plain (hend : s.ended = none) (h : Alike s t) :
    Plain s event t :=
  ⟨h.1, h.2.1, h.2.2.1, .inl (h.2.2.2.trans hend)⟩

theorem plain_send {n : Nat} {frames : List V1Frame} {next : Run → Run} (ht : Alike s t)
    (hn : env.link n → event.Broken) (hnx : ∀ u, Alike s u → Plain s event (next u)) :
    Plain s event (t.send env n frames next) := by
  rcases send_cases (s := t) n frames next with ⟨hli, hsd⟩ | ⟨-, hsd⟩
  · rw [hsd]
    exact ⟨ht.1, ht.2.1, ht.2.2.1, .inr ⟨hn hli, .write, rfl⟩⟩
  · rw [hsd]
    exact hnx _ ht

theorem plain_startSwitch {n : Nat} {ok : Bool} {next : Run → Run} (ht : Alike s t) (hn : env.link n → event.Broken)
    (hnx : ∀ u, Alike s u → Plain s event (next u)) :
    Plain s event (t.startSwitch env n ok next) := by
  unfold startSwitch
  cases ok with
  | true =>
    simp only [if_true]
    apply plain_send ht hn
    intro u hu
    exact hnx _ hu
  | false => exact hnx _ ht

theorem takeSwitch_alike (ht : Alike s t) : Alike s t.takeSwitch := by
  unfold takeSwitch
  split
  · split
    · exact ht
    · exact ht
  · exact ht

theorem onSafeToClose_alike : Alike s s.onSafeToClose := by
  unfold onSafeToClose
  split
  · split
    · exact ⟨rfl, rfl, rfl, rfl⟩
    · exact ⟨rfl, rfl, rfl, rfl⟩
  · exact ⟨rfl, rfl, rfl, rfl⟩

theorem onLastWrite_plain {frame : OfflineFrame} (hend : s.ended = none) :
    Plain s (.frame frame env) (s.onLastWrite env takeSwitch) := by
  have hsa : Alike s s := ⟨rfl, rfl, rfl, rfl⟩
  have hrs : ∀ u : Run, Alike s u → Plain s (.frame frame env) (u.confirmLastWrite env takeSwitch) := by
    intro u hu
    unfold confirmLastWrite
    split
    · apply plain_send hu Or.inr
      intro v hv
      exact Alike.plain hend (takeSwitch_alike ⟨hv.1, hv.2.1, hv.2.2.1, hv.2.2.2⟩)
    · exact (takeSwitch_alike hu).plain hend
  rw [onLastWrite_eq]
  split
  · exact plain_startSwitch hsa .inl hrs
  · exact hrs s hsa

theorem onNegotiation_plain {frame : OfflineFrame} (hend : s.ended = none) (event : EventType) :
    Plain s (.frame frame env) (s.onNegotiation env event) := by
  have hsa : Alike s s := ⟨rfl, rfl, rfl, rfl⟩
  cases event with
  | lastWriteToPriorChannel => exact onLastWrite_plain hend
  | safeToClosePriorChannel => exact (takeSwitch_alike onSafeToClose_alike).plain hend
  | upgradeFailure => exact Alike.plain hend ⟨rfl, rfl, rfl, rfl⟩
  | unknown | upgradePathAvailable | clientIntroduction | clientIntroductionAck => exact (takeSwitch_alike hsa).plain hend

variable {header : PayloadHeader} {chunk : PayloadChunk}

theorem checkComplete_step {session : Session} (hend : t.ended = none)
    (ht : t.granted = s.granted ∧ t.accepted = s.accepted) (hsp : ∀ ended, Completion env s.accepted t.session ended →
      TurnStep codec s (.frame (some (.payloadTransfer header chunk)) env) session s.granted s.accepted ended)
    (hses : t.session = session) :
    TurnStep codec s (.frame (some (.payloadTransfer header chunk)) env)
      (t.checkComplete env).session (t.checkComplete env).granted (t.checkComplete env).accepted
      (t.checkComplete env).ended := by
  obtain ⟨hs, hg, ha, hcl⟩ := checkComplete_completion hend
  rw [hs, hg, ha, ht.1, ht.2, hses]
  rw [ht.2] at hcl
  exact hsp _ hcl

section

variable (hend : s.ended = none)
include hend

theorem onSharing_step {session : Session} {setup : SharingFrame}
    (h : s.session.PayloadStep codec env header chunk session (.ok (some setup))) :
    TurnStep codec s (.frame (some (.payloadTransfer header chunk)) env)
      (onSharing codec { s with session := session } env setup).session
      (onSharing codec { s with session := session } env setup).granted
      (onSharing codec { s with session := session } env setup).accepted
      (onSharing codec { s with session := session } env setup).ended := by
  -- most sharing frames change nothing
  have hoth : TurnStep codec s (.frame (some (.payloadTransfer header chunk)) env)
      (checkComplete { s with session := session } env).session
      (checkComplete { s with session := session } env).granted
      (checkComplete { s with session := session } env).accepted
      (checkComplete { s with session := session } env).ended :=
    checkComplete_step hend ⟨rfl, rfl⟩ (fun _ hcl => .payload h hcl) rfl
  cases setup with
  | none => exact hoth
  | some v1 =>
    cases v1 with
    | unknown | response _ | pairedKeyResult | certificateInfo => exact hoth
    | pairedKeyEncryption =>
      unfold onSharing
      rcases send_cases (s := { s with session := session }) 0
        (sharingFrames codec env.payloadId .pairedKeyResult) (fun s => s.checkComplete env)
        with ⟨hli, hsd⟩ | ⟨-, hsd⟩
      · rw [hsd]
        exact .keyBroken h hli
      · rw [hsd]
        exact checkComplete_step hend ⟨rfl, rfl⟩ (fun _ hcl => .payload h hcl) rfl
    | introduction frame =>
      unfold onSharing
      simp only
      cases hpr : session.prepare env s.introductions frame with
      | mk session' result =>
        cases result with
        | error e => exact .introductionError h hpr
        | ok _ => exact checkComplete_step hend ⟨rfl, rfl⟩ (fun _ hcl => .introduced h hpr hcl) rfl
    | cancel => exact .cancelled h

theorem onPayload_turnStep : TurnStep codec s (.frame (some (.payloadTransfer header chunk)) env)
      (s.onPayload codec env header chunk).session (s.onPayload codec env header chunk).granted
      (s.onPayload codec env header chunk).accepted (s.onPayload codec env header chunk).ended := by
  have hsp := s.session.onPayload_step env codec header chunk
  unfold onPayload
  cases hres : s.session.onPayload codec env header chunk with
  | mk session result =>
    rw [hres] at hsp
    cases result with
    | error e => exact .payloadError hsp
    | ok r =>
      cases r with
      | none => exact checkComplete_step hend ⟨rfl, rfl⟩ (fun _ hcl => .payload hsp hcl) rfl
      | some setup => exact onSharing_step hend hsp

theorem onAnswer_step {intro : Nat} (hpn : s.pendingConsent = some intro) (yes : Bool) :
    TurnStep codec s (.answer yes env) (s.onAnswer codec env intro yes).session
      (s.onAnswer codec env intro yes).granted (s.onAnswer codec env intro yes).accepted
      (s.onAnswer codec env intro yes).ended := by
  unfold onAnswer
  cases yes with
  | true =>
    simp only [if_true, Bool.or_true]
    unfold send
    split
    · rename_i hli
      exact .granted hpn (.inr ⟨hli, .write, rfl⟩)
    · exact .granted hpn (.inl hend)
  | false =>
    simp only [Bool.false_eq_true, if_false, Bool.or_false]
    unfold send
    split
    · rename_i hli
      exact .broken (.inl hli) (fun _ h => nomatch h)
    cases hacc : s.accepted with
    | true =>
      have hdl : TurnStep codec s (.answer false env) s.session s.granted s.accepted none := .idle
      rw [hacc, ← hend] at hdl
      exact hdl
    | false =>
      have hrej := @TurnStep.rejected codec s env hacc
      rw [hacc] at hrej
      exact hrej

theorem turn_step (h : s.turn codec event = some t) :
    TurnStep codec s event t.session t.granted t.accepted t.ended := by
  have hsa : Alike s s := ⟨rfl, rfl, rfl, rfl⟩
  cases event with
  | frame frame env =>
    cases h
    unfold onFrame
    split
    · exact onPayload_turnStep hend
    · exact (onNegotiation_plain hend _).step (fun _ h => nomatch h)
    · exact .disconnected
    · exact (hsa.plain hend).step (fun _ h => nomatch h)
  | lost =>
    cases h
    exact .broken trivial (fun _ h => nomatch h)
  | answer yes env => grind [turn, onAnswer_step]
  | prepared ok env =>
    simp only [turn] at h
    split at h
    · cases h
      unfold onPrepared
      split
      · refine Plain.step ?_ (fun _ h => nomatch h)
        exact plain_send (s := s) ⟨rfl, rfl, rfl, rfl⟩ .inl (fun u hu => Alike.plain hend hu)
      · exact (Alike.plain (s := s) hend ⟨rfl, rfl, rfl, rfl⟩).step (fun _ h => nomatch h)
    · exact nomatch h
  | connected ok env =>
    simp only [turn] at h
    split at h
    · cases h
      refine Plain.step ?_ (fun _ h => nomatch h)
      exact plain_startSwitch (s := s) ⟨rfl, rfl, rfl, rfl⟩ .inl (fun u hu => Alike.plain hend hu)
    · exact nomatch h
  | keepAlive env =>
    cases h
    unfold onKeepAlive
    split
    · exact (hsa.plain hend).step (fun _ h => nomatch h)
    · refine Plain.step ?_ (fun _ h => nomatch h)
      exact plain_send hsa .inl (fun u hu => Alike.plain hend hu)

end

end Run

end KaiT2en.Airshare.Receive
