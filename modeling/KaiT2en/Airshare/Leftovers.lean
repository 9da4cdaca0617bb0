import KaiT2en.Airshare.Turn

/-!
# The files a session leaves

A session that returns `Received` lists the files it has received. These should be all the files it leaves, each as
long as announced, and a session that ends in another way should leave none.

`run` cleans up at a rejection and a cancel only, and then only what is not complete. `Tended` says which turns leave
nothing else, and `reported_files_exact` that a session made up of them leaves the reported files;
`accepted_file_left` is a session that reports nothing and leaves an empty file. The invariant is `Session.Kept`:
every file is either complete and in `done_files`, or the file of exactly one entry of `files`, with as many bytes as
the entry counts.
-/

namespace KaiT2en.Airshare.Receive

open KaiT2en.Lib.Encoding KaiT2en.Lib.Transition List AList Session

variable (self : Session)

/-- The session has created no file that is still there. -/
def Session.NoFiles : Prop := self.disk.entries = []
  deriving Decidable

/-- The files that are there are the files listed, and they are as long as announced. -/
def Session.Exactly (files : List String) : Prop :=
  (∀ path, path ∈ self.disk ↔ path ∈ files) ∧
    ∀ path file, self.disk.lookup path = some file → (file.content.length : Int) = file.size

/-- The files left at the end of a session are those it reports. -/
def ExactEnd (session : Session) : Option (Except LinkError Outcome) → Prop
  | none => True
  | some (.ok (.received files _)) => session.Exactly files
  | some _ => session.NoFiles

def Run.Exact (s : Run) : Prop := ExactEnd s.session s.ended

/-! ## The turns that leave nothing else -/

/-- No file is complete, and all can be removed. -/
def Session.Removable (env : Env) : Prop :=
  self.doneFiles = [] ∧ ∀ path ∈ self.pendingPaths, env.remove path = false
  deriving Decidable

/-- The payload ids of the introduction are new, and if a file cannot be created, it is the first one, and
there are no others. -/
def Session.Announces (env : Env) (frame : IntroductionFrame) : Prop :=
  (frame.fileMetadata.map FileMetadata.payloadId).Nodup ∧ (∀ file ∈ frame.fileMetadata, file.payloadId ∉ self.files) ∧
    (CreateFails env frame → env.create 0 = true ∧ self.NoFiles)
  deriving Decidable

/-- The last chunk of a file is the one that completes it. -/
def Session.Full (header : PayloadHeader) (chunk : PayloadChunk) : Prop :=
  header.payloadType = .file → chunk.last = true → ∀ pending ∈ self.files.lookup header.id,
    pending.written + chunk.body.length = pending.size
  deriving Decidable

/-- A payload chunk: an error comes only when there are no files; when the sender cancels, no file is
complete. -/
structure Session.TendedPayload (codec : Codec SharingFrame) (session : Session) (env : Env)
    (header : PayloadHeader) (chunk : PayloadChunk) : Prop where
  fits : ¬session.Fits codec env header chunk → session.NoFiles
  announces : ∀ frame, session.sharing codec header chunk = some (some (.introduction frame)) →
    session.Announces env frame
  cancel : session.sharing codec header chunk = some (some .cancel) → session.Removable env
  full : session.Full header chunk

/-- The session ends with a file that it does not report only by a rejection or a cancel before any file is complete.
-/
def Tended (codec : Codec SharingFrame) (s : Run) (event : Event) : Prop :=
  (event.Broken → s.session.NoFiles) ∧
  match event with
  | .answer false env => s.accepted = false → s.session.Removable env
  | .frame (some (.payloadTransfer header chunk)) env => s.session.TendedPayload codec env header chunk
  | .frame (some .disconnection) _ => if s.accepted then s.session.files.entries = [] else s.session.NoFiles
  | _ => True

/-! The guard can be evaluated. -/

section Decidable

variable (s : Run) (self : Session) (env : Env) (header : PayloadHeader) (chunk : PayloadChunk)

instance (codec : Codec SharingFrame) : Decidable (self.TendedPayload codec env header chunk) :=
  decidable_of_iff ((¬self.Fits codec env header chunk → self.NoFiles) ∧
      (∀ frame, self.sharing codec header chunk = some (some (.introduction frame)) → self.Announces env frame) ∧
      (self.sharing codec header chunk = some (some .cancel) → self.Removable env) ∧
      self.Full header chunk)
    ⟨fun h => ⟨h.1, h.2.1, h.2.2.1, h.2.2.2⟩, fun h => ⟨h.fits, h.announces, h.cancel, h.full⟩⟩

instance (codec : Codec SharingFrame) : (event : Event) → Decidable (Tended codec s event)
  | .answer false _ => inferInstanceAs (Decidable (_ ∧ (_ → _)))
  | .frame (some (.payloadTransfer _ _)) _ => inferInstanceAs (Decidable (_ ∧ _))
  | .frame (some .disconnection) _ => inferInstanceAs (Decidable (_ ∧ ite _ _ _))
  | .frame (some (.bandwidthUpgradeNegotiation _)) _ | .frame (some .keepAlive) _
  | .frame (some .other) _ | .frame none _ | .lost | .answer true _ | .prepared _ _
  | .connected _ _ | .keepAlive _ => inferInstanceAs (Decidable (_ ∧ True))

end Decidable

/-! ## Where the files are -/

/-- Every file is complete or pending. -/
structure Session.Kept (session : Session) : Prop where
  tracked : ∀ path, path ∈ session.disk ↔ path ∈ session.doneFiles ∨ path ∈ session.pendingPaths
  /-- A pending file has as many bytes as its entry counts. -/
  pending : ∀ id pending, session.files.lookup id = some pending →
    ∃ file, session.disk.lookup pending.path = some file ∧
      (file.content.length : Int) = pending.written ∧ file.size = pending.size
  apart : ∀ id other pending pending', session.files.lookup id = some pending →
    session.files.lookup other = some pending' → pending.path = pending'.path → id = other
  unfinished : ∀ id pending, session.files.lookup id = some pending → pending.path ∉ session.doneFiles
  done : ∀ path ∈ session.doneFiles, ∃ file, session.disk.lookup path = some file ∧
    (file.content.length : Int) = file.size

section Kept

variable {codec : Codec SharingFrame} {env : Env} {self self' : Session} {header : PayloadHeader}
  {chunk : PayloadChunk}

theorem Session.Kept.empty : empty.Kept := ⟨fun _ => ⟨nofun, nofun⟩, nofun, nofun, nofun, nofun⟩

variable {pending : PendingFile}

section

variable (h : self.Kept)
include h

section

variable (hpn : self.files.lookup header.id = some pending)
include hpn

theorem Session.Kept.done_append {path : String} (hpa : path ∈ self.doneFiles) :
    ∃ file, (self.append pending.path chunk.body).disk.lookup path = some file ∧
      (file.content.length : Int) = file.size := by
  obtain ⟨file, hfi, hlen⟩ := h.done path hpa
  have hne : path ≠ pending.path := by
    rintro rfl
    exact h.unfinished _ _ hpn hpa
  exact ⟨file, (lookup_append_ne chunk.body hne).trans hfi, hlen⟩

theorem Session.Kept.partChunk : ({ self with
        disk := (self.append pending.path chunk.body).disk
        files := self.files.insert header.id
          { pending with written := pending.written + chunk.body.length } } : Session).Kept where
  tracked path := by
    refine mem_append_disk.trans ((h.tracked path).trans (or_congr Iff.rfl ?_))
    exact (mem_pendingPaths_insert hpn rfl).symm
  pending id entry hent := by
    rcases lookup_insert_eq_some.1 hent with ⟨rfl, rfl⟩ | ⟨hne, hold⟩
    · -- the entry of the chunk
      obtain ⟨file, hfi, hwrn, hsz⟩ := h.pending _ _ hpn
      refine ⟨_, lookup_append_self chunk.body hfi, ?_, hsz⟩
      simp [hwrn]
    · have hpa : entry.path ≠ pending.path := fun heq => hne (h.apart _ _ _ _ hold hpn heq)
      rw [lookup_append_ne chunk.body hpa]
      exact h.pending id entry hold
  apart id other entry entry' hent hent' hpa := by
    have hapart := h.apart
    rcases lookup_insert_eq_some.1 hent with ⟨rfl, rfl⟩ | ⟨hne, hold⟩ <;>
      rcases lookup_insert_eq_some.1 hent' with ⟨rfl, rfl⟩ | ⟨hne', hold'⟩ <;> grind
  unfinished id entry hent := by
    rcases lookup_insert_eq_some.1 hent with ⟨rfl, rfl⟩ | ⟨hne, hold⟩
    · exact h.unfinished _ pending hpn
    · exact h.unfinished id entry hold
  done _ hpa := h.done_append hpn hpa

theorem Session.Kept.lastChunk (hfl : pending.written + chunk.body.length = pending.size) : ({ self with
        disk := (self.append pending.path chunk.body).disk
        files := self.files.erase header.id
        doneFiles := self.doneFiles ++ [pending.path] } : Session).Kept where
  tracked path := by
    refine mem_append_disk.trans ((h.tracked path).trans ?_)
    rw [mem_append, mem_singleton, or_assoc]
    refine or_congr Iff.rfl ?_
    rw [mem_pendingPaths, mem_pendingPaths]
    constructor
    · rintro ⟨id, entry, hent, heq⟩
      by_cases hid : id = header.id
      · subst hid
        rw [hpn] at hent
        cases hent
        exact .inl heq.symm
      · exact .inr ⟨id, entry, lookup_erase_eq_some.2 ⟨hid, hent⟩, heq⟩
    · rintro (rfl | ⟨id, entry, hent, heq⟩)
      · exact ⟨_, _, hpn, rfl⟩
      · exact ⟨id, entry, (lookup_erase_eq_some.1 hent).2, heq⟩
  pending id entry hent := by
    obtain ⟨hne, hold⟩ := lookup_erase_eq_some.1 hent
    have hpa : entry.path ≠ pending.path := fun heq => hne (h.apart _ _ _ _ hold hpn heq)
    rw [lookup_append_ne chunk.body hpa]
    exact h.pending id entry hold
  apart id other entry entry' hent hent' hpa :=
    h.apart _ _ _ _ (lookup_erase_eq_some.1 hent).2 (lookup_erase_eq_some.1 hent').2 hpa
  unfinished id entry hent := by
    obtain ⟨hne, hold⟩ := lookup_erase_eq_some.1 hent
    rw [mem_append, mem_singleton]
    rintro (hdn | heq)
    · exact h.unfinished id entry hold hdn
    · exact hne (h.apart _ _ _ _ hold hpn heq)
  done path hpa := by
    rcases mem_append.1 hpa with hdn | hla
    · exact h.done_append hpn hdn
    -- the file that is complete now
    rw [mem_singleton.1 hla]
    obtain ⟨file, hfi, hwrn, hsz⟩ := h.pending _ _ hpn
    refine ⟨_, lookup_append_self chunk.body hfi, ?_⟩
    simp [hwrn, hfl, hsz]

end

theorem Session.Kept.payload {r : Option SharingFrame} (hfl : self.Full header chunk)
    (hsp : self.PayloadStep codec env header chunk self' (.ok r)) : self'.Kept := by
  cases hsp with
  | part | text | sharing => exact { h with }
  | chunk hty hpn hrm hla => exact h.partChunk hpn
  | lastChunk hty hpn hrm hla => exact h.lastChunk hpn (hfl hty hla _ hpn)

theorem Session.Kept.createFile (intro : Nat) {file : FileMetadata} {path : String}
    (hid : file.payloadId ∉ self.files) (hpa : path ∉ self.disk) :
    (self.createFile intro file path).Kept where
  tracked q := by
    have hmem : q ∈ (self.createFile intro file path).pendingPaths ↔ q = path ∨ q ∈ self.pendingPaths := by
      rw [mem_pendingPaths, mem_pendingPaths]
      constructor
      · rintro ⟨id, entry, hent, heq⟩
        rcases lookup_insert_eq_some.1 hent with ⟨rfl, rfl⟩ | ⟨hne, hold⟩
        · exact .inl heq.symm
        · exact .inr ⟨id, entry, hold, heq⟩
      · rintro (rfl | ⟨id, entry, hent, heq⟩)
        · exact ⟨_, _, lookup_insert _, rfl⟩
        · refine ⟨id, entry, lookup_insert_eq_some.2 (.inr ⟨?_, hent⟩), heq⟩
          rintro rfl
          exact hid (lookup_isSome.1 (Option.isSome_of_eq_some hent))
    rw [hmem]
    refine (mem_insert _).trans ((or_congr Iff.rfl (h.tracked q)).trans ?_)
    exact or_left_comm
  pending id entry hent := by
    rcases lookup_insert_eq_some.1 hent with ⟨rfl, rfl⟩ | ⟨hne, hold⟩
    · exact ⟨⟨[], intro, file.size⟩, lookup_insert _, rfl, rfl⟩
    obtain ⟨old, hfi, hwrn, hsz⟩ := h.pending id entry hold
    refine ⟨old, lookup_insert_eq_some.2 (.inr ⟨?_, hfi⟩), hwrn, hsz⟩
    rintro heq
    exact hpa (heq ▸ lookup_isSome.1 (Option.isSome_of_eq_some hfi))
  apart id other entry entry' hent hent' heq := by
    have hnew : ∀ id entry, self.files.lookup id = some entry → entry.path ≠ path := by
      intro id entry hold heq
      obtain ⟨old, hfi, -⟩ := h.pending id entry hold
      exact hpa (heq ▸ lookup_isSome.1 (Option.isSome_of_eq_some hfi))
    have hapart := h.apart
    rcases lookup_insert_eq_some.1 hent with ⟨rfl, rfl⟩ | ⟨hne, hold⟩ <;>
      rcases lookup_insert_eq_some.1 hent' with ⟨rfl, rfl⟩ | ⟨hne', hold'⟩ <;> grind
  unfinished id entry hent := by
    rcases lookup_insert_eq_some.1 hent with ⟨rfl, rfl⟩ | ⟨hne, hold⟩
    · exact fun hdn => hpa ((h.tracked path).2 (.inl hdn))
    · exact h.unfinished id entry hold
  done q hq := by
    obtain ⟨old, hfi, hlen⟩ := h.done q hq
    refine ⟨old, lookup_insert_eq_some.2 (.inr ⟨?_, hfi⟩), hlen⟩
    rintro rfl
    exact hpa ((h.tracked _).2 (.inl hq))

end

variable (env) in
theorem Session.Kept.prepareFiles (intro : Nat) (files : List FileMetadata) (n : Nat) (h : self.Kept)
    (hnd : (files.map FileMetadata.payloadId).Nodup) (hnew : ∀ file ∈ files, file.payloadId ∉ self.files) :
    (prepareFiles env intro n files self).1.Kept := by
  induction files generalizing n self with
  | nil => exact h
  | cons file rest ih =>
    rw [map_cons, nodup_cons] at hnd
    rw [prepareFiles_cons]
    split
    · exact h
    have hpa : uniquePath (self.names env) file.name ∉ self.disk := fun hmem =>
      uniquePath_notMem (self.names env) file.name (mem_append_right _ hmem)
    apply ih (n + 1) (h.createFile intro (hnew file mem_cons_self) hpa) hnd.2
    intro other hoth hmem
    rcases (mem_insert _).1 hmem with heq | hold
    · exact hnd.1 (heq ▸ mem_map_of_mem hoth)
    · exact hnew other (mem_cons_of_mem _ hoth) hold

theorem Session.Kept.prepare {intro : Nat} {frame : IntroductionFrame} (h : self.Kept)
    (hann : self.Announces env frame) (hpr : self.prepare env intro frame = (self', .ok ())) :
    self'.Kept := by
  have hfiles := h.prepareFiles env intro frame.fileMetadata 0 hann.1 hann.2.1
  unfold Session.prepare at hpr
  cases hres : Session.prepareFiles env intro 0 frame.fileMetadata self with
  | mk middle r =>
    rw [hres] at hpr hfiles
    cases r with
    | error e => exact nomatch hpr
    | ok _ =>
      cases hpr
      obtain ⟨textIds, htexts⟩ := prepareTexts_eq intro frame.textMetadata middle
      rw [htexts]
      exact { hfiles with }

end Kept

/-! ## The ends of a session -/

section Ends

variable {codec : Codec SharingFrame} {env : Env} {self self' : Session} {header : PayloadHeader}
  {chunk : PayloadChunk}

theorem Session.noFiles_iff : self.NoFiles ↔ ∀ path, path ∉ self.disk := by
  constructor
  · exact fun h path => notMem_of_entries_eq_nil h path
  · intro h
    rw [Session.NoFiles, eq_nil_iff_forall_not_mem]
    intro entry hmem
    exact h entry.1 (mem_keys.2 (mem_map_of_mem hmem))

theorem Session.exists_file {path : String} (hmem : path ∈ self.disk) : ∃ file, self.disk.lookup path = some file :=
  Option.isSome_iff_exists.1 (lookup_isSome.2 hmem)

theorem Session.NoFiles.within (h : self.NoFiles) (hwi : self'.Within self) : self'.NoFiles := by
  rw [noFiles_iff] at h ⊢
  intro path hmem
  obtain ⟨file, hfi⟩ := exists_file hmem
  obtain ⟨old, hold, -⟩ := hwi path file hfi
  exact h path (lookup_isSome.1 (Option.isSome_of_eq_some hold))

/-- Nothing is pending: the files are those in `done_files`. -/
theorem Session.Kept.exactly (h : self.Kept) (hfiles : self.files.entries = []) : self.Exactly self.doneFiles := by
  have htrac : ∀ path, path ∈ self.disk ↔ path ∈ self.doneFiles := by
    intro path
    rw [h.tracked path, pendingPaths, hfiles]
    exact or_iff_left (fun hmem => nomatch hmem)
  refine ⟨htrac, ?_⟩
  intro path file hfi
  have hmem : path ∈ self.disk := lookup_isSome.1 (Option.isSome_of_eq_some hfi)
  obtain ⟨complete, hcm, hlen⟩ := h.done path ((htrac path).1 hmem)
  rw [hfi] at hcm
  cases hcm
  exact hlen

theorem Session.Kept.discard_noFiles (h : self.Kept) (hrem : self.Removable env) : (self.discard env).NoFiles := by
  rw [noFiles_iff]
  intro path hmem
  obtain ⟨file, hfi⟩ := exists_file hmem
  rw [lookup_discard] at hfi
  split at hfi
  · exact nomatch hfi
  rename_i hkp
  have hdisk : path ∈ self.disk := lookup_isSome.1 (Option.isSome_of_eq_some hfi)
  rcases (h.tracked path).1 hdisk with hdn | hpn
  · rw [hrem.1] at hdn
    exact nomatch hdn
  · exact hkp ⟨hpn, hrem.2 path hpn⟩

theorem Completion.exact {accepted : Bool} {ended : Option (Except LinkError Outcome)}
    (h : Completion env accepted self ended) (hkp : self.Kept)
    (hbrk : env.link 1 → self.complete → self.NoFiles) : ExactEnd self ended := by
  cases h with
  | goesOn => trivial
  | received hacc hcm => exact hkp.exactly (complete_iff.1 hcm).1
  | broken hacc hcm hli => exact hbrk hli hcm

end Ends

/-! ## Whole sessions -/

section Run

variable {codec : Codec SharingFrame}

/-- One turn: the files left are those reported, and every file is complete or pending. -/
theorem TurnStep.exact {s : Run} {event : Event} {session : Session} {granted : List Nat} {accepted : Bool}
    {ended : Option (Except LinkError Outcome)} (h : TurnStep codec s event session granted accepted ended)
    (hkp : s.session.Kept) (htend : Tended codec s event) :
    ExactEnd session ended ∧ (ended = none → session.Kept) := by
  obtain ⟨hnn, htend⟩ := htend
  cases h with
  | idle => exact ⟨trivial, fun _ => hkp⟩
  | broken hbrk hno => exact ⟨hnn hbrk, nofun⟩
  | disconnected =>
    refine ⟨?_, nofun⟩
    cases hacc : s.accepted with
    | true =>
      rw [hacc, if_pos rfl] at htend
      exact hkp.exactly htend
    | false =>
      rw [hacc, if_neg Bool.false_ne_true] at htend
      exact htend
  | payloadError hsp =>
    refine ⟨?_, nofun⟩
    cases hsp with
    | error hft hwi => exact (htend.fits hft).within hwi
  | payload hsp hcl =>
    have hnx := hkp.payload htend.full hsp
    refine ⟨hcl.exact hnx ?_, fun _ => hnx⟩
    intro hli _
    exact (hnn (.inr hli)).within hsp.within
  | keyBroken hsp hli => exact ⟨(hnn (.inl hli)).within hsp.within, nofun⟩
  | introduced hsp hpr hcl =>
    have haft := hkp.payload htend.full hsp
    cases hsp with
    | sharing hty hla htx hfr =>
      have hnx := haft.prepare (htend.announces _ hfr) hpr
      refine ⟨hcl.exact hnx ?_, fun _ => hnx⟩
      intro hli hcm
      rw [prepare_complete hpr hcm]
      exact hnn (.inr hli)
  | introductionError hsp hpr =>
    refine ⟨?_, nofun⟩
    obtain ⟨hfa, hsa⟩ := prepare_error hpr
    cases hsp with
    | sharing hty hla htx hfr =>
      obtain ⟨hfst, hemp⟩ := (htend.announces _ hfr).2.2 hfa
      rw [hsa hfst]
      exact hemp
  | cancelled hsp =>
    refine ⟨?_, nofun⟩
    have haft := hkp.payload htend.full hsp
    cases hsp with
    | sharing hty hla htx hfr => exact haft.discard_noFiles (htend.cancel hfr)
  | granted hpn hend =>
    rcases hend with rfl | ⟨hli, e, rfl⟩
    · exact ⟨trivial, fun _ => hkp⟩
    · exact ⟨hnn (.inl hli), nofun⟩
  | rejected hacc =>
    refine ⟨?_, nofun⟩
    exact hkp.discard_noFiles (htend hacc)

/-- A session whose turns are all tended leaves the files it reports, and each is as long as announced. -/
theorem reported_files_exact (codec : Codec SharingFrame) {s : Run}
    (h : (receiveMachine codec).Reach (Tended codec) s) : s.Exact := by
  have hinv : ExactEnd s.session s.ended ∧ (s.ended = none → s.session.Kept) := by
    apply h.invariant (I := fun s => ExactEnd s.session s.ended ∧ (s.ended = none → s.session.Kept))
    · rintro _ ⟨upgrade, rfl⟩
      exact ⟨trivial, fun _ => Session.Kept.empty⟩
    · intro s event t _ htend hs hnx
      simp only [receiveMachine, Option.ite_none_left_eq_some] at hnx
      obtain ⟨hop, htu⟩ := hnx
      have hend : s.ended = none := Option.not_isSome_iff_eq_none.1 hop
      exact (Run.turn_step hend htu).exact (hs.2 hend) htend
  exact hinv.1

end Run

/-- A file is received. -/
theorem reported_files_exact_oneFile : ∃ s, (receiveMachine sampleCodec).Reach (Tended sampleCodec) s ∧
    s.ended = some (.ok (.received ["photo.jpg"] [])) ∧ s.Exact := by
  obtain ⟨s, hre, hp⟩ := Machine.exists_of_guarded_run (M := receiveMachine sampleCodec)
    (P := fun s => s.ended = some (.ok (.received ["photo.jpg"] [])))
    (Tended sampleCodec) [.frame (some introductionFrame) .calm, .answer true .calm,
      .frame (some (lastChunkFrame [10, 20, 30])) .calm] ⟨false, rfl⟩ (by decide +kernel)
  exact ⟨s, hre, hp, reported_files_exact sampleCodec hre⟩

/-- The sender disconnects after the user has accepted: the session reports no files and leaves one. -/
theorem accepted_file_left : ∃ s, (receiveMachine sampleCodec).Reachable s ∧ s.ended = some (.ok (.received [] [])) ∧
    s.session.disk.lookup "photo.jpg" = some ⟨[], 0, 3⟩ ∧ ¬s.Exact := by
  obtain ⟨s, hs, hend, hfi⟩ := Machine.exists_of_run (M := receiveMachine sampleCodec)
    (P := fun s => s.ended = some (.ok (.received [] [])) ∧ s.session.disk.lookup "photo.jpg" = some ⟨[], 0, 3⟩)
    [.frame (some introductionFrame) .calm, .answer true .calm, .frame (some .disconnection) .calm]
    ⟨false, rfl⟩ (by decide +kernel)
  refine ⟨s, hs, hend, hfi, ?_⟩
  intro hex
  rw [Run.Exact, hend] at hex
  exact nomatch (hex.1 "photo.jpg").1 (lookup_isSome.1 (Option.isSome_of_eq_some hfi))

end KaiT2en.Airshare.Receive
