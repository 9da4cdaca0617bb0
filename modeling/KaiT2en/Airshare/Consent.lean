import KaiT2en.Airshare.Turn

/-!
# No file without consent

A receiving session creates the files of an introduction before it asks the user. What the user does not want has to
be gone when the session ends.

`Session::discard` removes the files that are not complete, and only a rejection and a cancel call it. Files completed
before the answer stay, and so do all files when the session ends in another way. A second introduction meets the flag
`accepted` of the first. `Heeded` says which turns are free of this, and `kept_files_consented` that a session made up
of them keeps nothing the user has not accepted; `rejected_file_kept` is one that keeps a rejected file.
-/

namespace KaiT2en.Airshare.Receive

open KaiT2en.Lib.Encoding KaiT2en.Lib.Transition Session List

/-- Every file was announced in an introduction the user has accepted. -/
def Session.Granted (self : Session) (granted : List Nat) : Prop :=
  ∀ path file, self.disk.lookup path = some file → file.intro ∈ granted

/-- Every text received was announced in an introduction the user has accepted. -/
def Session.TextsGranted (self : Session) (granted : List Nat) : Prop := ∀ text ∈ self.doneTexts, text.intro ∈ granted
  deriving Decidable

/-- What a session leaves at its end, files and reported texts, was announced in introductions the user has accepted.
-/
def ConsentedEnd (session : Session) (granted : List Nat) : Option (Except LinkError Outcome) → Prop
  | none => True
  | some (.ok (.received _ texts)) => session.Granted granted ∧ ∀ text ∈ texts, text.intro ∈ granted
  | some _ => session.Granted granted

def Run.Consented (s : Run) : Prop := ConsentedEnd s.session s.granted s.ended

/-! ## The turns that keep nothing -/

/-- A file that the user has not accepted is neither complete nor replaced, and can be removed. -/
def Run.Disposable (s : Run) (env : Env) : Prop :=
  ∀ path file, s.session.disk.lookup path = some file → file.intro ∈ s.granted ∨
    path ∉ s.session.doneFiles ∧ path ∉ s.session.replaced ∧ env.remove path = false

/-- A payload chunk: an error comes only when every file so far is accepted; at a cancel no other file is complete or
replaced; when everything is there, all of it is accepted. -/
structure Run.HeededPayload (codec : Codec SharingFrame) (s : Run) (env : Env) (header : PayloadHeader)
    (chunk : PayloadChunk) : Prop where
  fits : ¬s.session.Fits codec env header chunk → s.session.Granted s.granted
  creates : ∀ frame, s.session.sharing codec header chunk = some (some (.introduction frame)) →
    CreateFails env frame → env.create 0 = true ∧ s.session.Granted s.granted
  cancel : s.session.sharing codec header chunk = some (some .cancel) → s.Disposable env
  completing : s.accepted = true → s.session.Completing header chunk →
    s.session.Granted s.granted ∧ s.session.TextsGranted s.granted ∧
      ∀ title, s.session.textIds.lookup header.id = some title → title.intro ∈ s.granted

/-- The session ends before the user has accepted a file only by a rejection or a cancel before the file is complete.
-/
def Heeded (codec : Codec SharingFrame) (s : Run) (event : Event) : Prop :=
  match event with
  | .answer true env => env.link 0 = true →
      ∀ intro, s.pendingConsent = some intro → s.session.Granted (s.granted ++ [intro])
  | .answer false env => (event.Broken → s.session.Granted s.granted) ∧ (s.accepted = false → s.Disposable env)
  | .frame (some (.payloadTransfer header chunk)) env =>
    (event.Broken → s.session.Granted s.granted) ∧ s.HeededPayload codec env header chunk
  | .frame (some .disconnection) _ => s.session.Granted s.granted ∧
      (s.accepted = true → s.session.TextsGranted s.granted)
  | _ => event.Broken → s.session.Granted s.granted

/-! The guard can be evaluated. -/

section Decidable

variable (s : Run) (self : Session) (granted : List Nat) (env : Env) (header : PayloadHeader)
  (chunk : PayloadChunk)

instance : Decidable (self.Granted granted) := decidable_of_iff _ forall_lookup_iff.symm

instance : Decidable (s.Disposable env) := decidable_of_iff _ forall_lookup_iff.symm

instance (codec : Codec SharingFrame) : Decidable (s.HeededPayload codec env header chunk) := by
  exact decidable_of_iff ((¬s.session.Fits codec env header chunk → s.session.Granted s.granted) ∧
      (∀ frame, s.session.sharing codec header chunk = some (some (.introduction frame)) →
        CreateFails env frame → env.create 0 = true ∧ s.session.Granted s.granted) ∧
      (s.session.sharing codec header chunk = some (some .cancel) → s.Disposable env) ∧
      (s.accepted = true → s.session.Completing header chunk →
        s.session.Granted s.granted ∧ s.session.TextsGranted s.granted ∧
          ∀ title ∈ s.session.textIds.lookup header.id, title.intro ∈ s.granted))
    ⟨fun h => ⟨h.1, h.2.1, h.2.2.1, h.2.2.2⟩, fun h => ⟨h.fits, h.creates, h.cancel, h.completing⟩⟩

instance (codec : Codec SharingFrame) : (event : Event) → Decidable (Heeded codec s event)
  | .answer true _ => inferInstanceAs (Decidable (_ → ∀ intro, _ = some intro → _))
  | .answer false _ => inferInstanceAs (Decidable ((_ → _) ∧ (_ → _)))
  | .frame (some (.payloadTransfer _ _)) _ => inferInstanceAs (Decidable ((_ → _) ∧ _))
  | .frame (some .disconnection) _ => inferInstanceAs (Decidable (_ ∧ (_ → _)))
  | .frame (some (.bandwidthUpgradeNegotiation _)) _ | .frame (some .keepAlive) _
  | .frame (some .other) _ | .frame none _ | .lost | .prepared _ _
  | .connected _ _ | .keepAlive _ => inferInstanceAs (Decidable (_ → _))

end Decidable

/-! ## Where a file is -/

/-- Every file is complete, replaced or pending. -/
def Session.Tracked (self : Session) : Prop :=
  ∀ path, path ∈ self.disk → path ∈ self.doneFiles ∨ path ∈ self.replaced ∨ path ∈ self.pendingPaths

section Tracked

variable {codec : Codec SharingFrame} {env : Env} {self self' : Session} {header : PayloadHeader}
  {chunk : PayloadChunk}

theorem Session.Tracked.payload {r : Option SharingFrame} (h : self.Tracked)
    (hsp : self.PayloadStep codec env header chunk self' (.ok r)) : self'.Tracked := by
  cases hsp with
  | part | text | sharing => exact h
  | chunk hty hpn hrm hla =>
    intro path hpa
    rcases h path (mem_append_disk.1 hpa) with hdn | hrep | hmem
    · exact .inl hdn
    · exact .inr (.inl hrep)
    · exact .inr (.inr ((mem_pendingPaths_insert hpn rfl).2 hmem))
  | lastChunk hty hpn hrm hla =>
    intro path hpa
    rcases h path (mem_append_disk.1 hpa) with hdn | hrep | hmem
    · exact .inl (mem_append_left _ hdn)
    · exact .inr (.inl hrep)
    · rw [mem_pendingPaths] at hmem
      obtain ⟨id, entry, hent, heq⟩ := hmem
      by_cases hid : id = header.id
      · -- the file that is complete now
        subst hid
        rw [hpn] at hent
        cases hent
        exact .inl (mem_append_right _ (by rw [heq]; exact mem_singleton_self _))
      · refine .inr (.inr (mem_pendingPaths.2 ⟨id, entry, ?_, heq⟩))
        exact (AList.lookup_erase_ne hid).trans hent

theorem Session.Tracked.createFile (h : self.Tracked) (intro : Nat) (file : FileMetadata)
    (path : String) : (self.createFile intro file path).Tracked := by
  intro q hq
  rcases (AList.mem_insert _).1 hq with rfl | hq
  · refine .inr (.inr (mem_pendingPaths.2 ⟨file.payloadId, _, AList.lookup_insert _, rfl⟩))
  rcases h q hq with hdn | hrep | hmem
  · exact .inl hdn
  · refine .inr (.inl ?_)
    simp only [Session.createFile]
    split
    · exact mem_append_left _ hrep
    · exact hrep
  · obtain ⟨id, entry, hent, heq⟩ := mem_pendingPaths.1 hmem
    by_cases hid : id = file.payloadId
    · -- the entry is overwritten
      subst hid
      refine .inr (.inl ?_)
      simp only [Session.createFile, hent]
      exact mem_append_right _ (by rw [heq]; exact mem_singleton_self _)
    · refine .inr (.inr (mem_pendingPaths.2 ⟨id, entry, ?_, heq⟩))
      exact (AList.lookup_insert_ne hid).trans hent

variable (env) in
theorem Session.Tracked.prepareFiles (intro : Nat) (files : List FileMetadata) (n : Nat)
    (h : self.Tracked) : (prepareFiles env intro n files self).1.Tracked := by
  induction files generalizing n self with
  | nil => exact h
  | cons file rest ih =>
    rw [prepareFiles_cons]
    split
    · exact h
    · exact ih (n + 1) (h.createFile intro file _)

theorem Session.Tracked.prepare {intro : Nat} {frame : IntroductionFrame} {result : Except LinkError Unit}
    (h : self.Tracked) (hpr : self.prepare env intro frame = (self', result)) :
    self'.Tracked := by
  have hfiles := h.prepareFiles env intro frame.fileMetadata 0
  unfold Session.prepare at hpr
  cases hres : Session.prepareFiles env intro 0 frame.fileMetadata self with
  | mk middle r =>
    rw [hres] at hpr hfiles
    cases r with
    | ok _ =>
      cases hpr
      obtain ⟨textIds, htexts⟩ := prepareTexts_eq intro frame.textMetadata middle
      rw [htexts]
      exact hfiles
    | error e =>
      cases hpr
      exact hfiles

end Tracked

/-! ## The ends of a session -/

section Ends

variable {codec : Codec SharingFrame} {env : Env} {self self' : Session} {header : PayloadHeader}
  {chunk : PayloadChunk} {granted : List Nat}

theorem Session.Granted.within (h : self.Granted granted) (hwi : self'.Within self) :
    self'.Granted granted := by
  intro path file hfi
  obtain ⟨old, hold, hint⟩ := hwi path file hfi
  rw [← hint]
  exact h path old hold

theorem Session.PayloadStep.textsGranted {r : Option SharingFrame}
    (h : self.PayloadStep codec env header chunk self' (.ok r)) (htexts : self.TextsGranted granted)
    (hnew : ∀ title, self.textIds.lookup header.id = some title → title.intro ∈ granted) :
    self'.TextsGranted granted := by
  cases h with
  | part | sharing | chunk | lastChunk => exact htexts
  | text hty hla htx =>
    intro text hmem
    rcases mem_append.1 hmem with hold | hla
    · exact htexts text hold
    · rw [mem_singleton.1 hla]
      exact hnew _ htx

/-- What `discard` leaves is accepted, if the rest is pending and can be removed. -/
theorem Session.Tracked.discard_granted (htrac : self.Tracked)
    (h : ∀ path file, self.disk.lookup path = some file → file.intro ∈ granted ∨
      path ∉ self.doneFiles ∧ path ∉ self.replaced ∧ env.remove path = false) :
    (self.discard env).Granted granted := by
  intro path file hfi
  rw [lookup_discard] at hfi
  split at hfi
  · exact nomatch hfi
  rename_i hkp
  rcases h path file hfi with hgr | ⟨hdn, hrep, hrem⟩
  · exact hgr
  exfalso
  have hmem : path ∈ self.disk := by
    rw [← AList.lookup_isSome, hfi]
    rfl
  rcases htrac path hmem with hd | hr | hpn
  · exact hdn hd
  · exact hrep hr
  · exact hkp ⟨hpn, hrem⟩

end Ends

/-! ## Whole sessions -/

section Run

variable {codec : Codec SharingFrame}

theorem Completion.consented {env : Env} {accepted : Bool} {session : Session} {granted : List Nat}
    {ended : Option (Except LinkError Outcome)} (h : Completion env accepted session ended)
    (hend : accepted → session.complete → session.Granted granted ∧ session.TextsGranted granted) :
    ConsentedEnd session granted ended := by
  cases h with
  | goesOn => trivial
  | received hacc hcm => exact hend hacc hcm
  | broken hacc hcm hli => exact (hend hacc hcm).1

/-- When the connection breaks, every file is accepted. -/
theorem Heeded.granted {s : Run} {event : Event} (h : Heeded codec s event) (hbrk : event.Broken)
    (hno : ∀ env, event ≠ .answer true env) : s.session.Granted s.granted := by
  cases event with
  | frame frame env =>
    cases frame with
    | none => exact h hbrk
    | some v1 =>
      cases v1 with
      | payloadTransfer header chunk => exact h.1 hbrk
      | disconnection => exact h.1
      | bandwidthUpgradeNegotiation _ | keepAlive | other => exact h hbrk
  | lost | prepared _ _ | connected _ _ | keepAlive _ => exact h hbrk
  | answer yes env =>
    cases yes with
    | true => exact absurd rfl (hno env)
    | false => exact h.1 hbrk

theorem TurnStep.consented {s : Run} {event : Event} {session : Session} {granted : List Nat} {accepted : Bool}
    {ended : Option (Except LinkError Outcome)} (h : TurnStep codec s event session granted accepted ended)
    (htrac : s.session.Tracked) (hheed : Heeded codec s event) :
    ConsentedEnd session granted ended ∧ (ended = none → session.Tracked) := by
  cases h with
  | idle => exact ⟨trivial, fun _ => htrac⟩
  | broken hbrk hno =>
    refine ⟨?_, nofun⟩
    exact hheed.granted hbrk hno
  | disconnected =>
    refine ⟨?_, nofun⟩
    obtain ⟨hgr, htexts⟩ := hheed
    cases hacc : s.accepted with
    | true => exact ⟨hgr, htexts hacc⟩
    | false => exact hgr
  | payloadError hsp =>
    refine ⟨?_, nofun⟩
    cases hsp with
    | error hft hwi => exact (hheed.2.fits hft).within hwi
  | payload hsp hcl =>
    refine ⟨hcl.consented ?_, fun _ => htrac.payload hsp⟩
    intro hacc hcm
    obtain ⟨hgr, htexts, hnew⟩ := hheed.2.completing hacc (hsp.completing hcm)
    exact ⟨hgr.within hsp.within, hsp.textsGranted htexts hnew⟩
  | keyBroken hsp hli => exact ⟨(hheed.1 (.inl hli)).within hsp.within, nofun⟩
  | introduced hsp hpr hcl =>
    refine ⟨hcl.consented ?_, fun _ => (htrac.payload hsp).prepare hpr⟩
    intro hacc hcm
    have hsa := prepare_complete hpr hcm
    rw [hsa] at hcm ⊢
    obtain ⟨hgr, htexts, hnew⟩ := hheed.2.completing hacc (hsp.completing hcm)
    exact ⟨hgr.within hsp.within, hsp.textsGranted htexts hnew⟩
  | introductionError hsp hpr =>
    refine ⟨?_, nofun⟩
    obtain ⟨hfa, hsa⟩ := prepare_error hpr
    cases hsp with
    | sharing hty hla htx hfr =>
      obtain ⟨hfst, hgr⟩ := hheed.2.creates _ hfr hfa
      rw [hsa hfst]
      exact hgr
  | cancelled hsp =>
    refine ⟨?_, nofun⟩
    cases hsp with
    | sharing hty hla htx hfr =>
      apply Session.Tracked.discard_granted
      · exact htrac
      · exact hheed.2.cancel hfr
  | granted hpn hen =>
    rcases hen with rfl | ⟨hli, e, rfl⟩
    · exact ⟨trivial, fun _ => htrac⟩
    · exact ⟨hheed hli _ hpn, nofun⟩
  | rejected hacc =>
    refine ⟨?_, nofun⟩
    exact htrac.discard_granted (hheed.2 hacc)

/-- A session whose turns are all heeded keeps nothing that the user has not accepted. -/
theorem kept_files_consented (codec : Codec SharingFrame) {s : Run}
    (h : (receiveMachine codec).Reach (Heeded codec) s) : s.Consented := by
  have hinv : ConsentedEnd s.session s.granted s.ended ∧ (s.ended = none → s.session.Tracked) := by
    apply h.invariant (I := fun s => ConsentedEnd s.session s.granted s.ended ∧ (s.ended = none → s.session.Tracked))
    · rintro _ ⟨upgrade, rfl⟩
      exact ⟨trivial, fun _ path hpa => nomatch hpa⟩
    · intro s event t _ hheed hs hnx
      simp only [receiveMachine, Option.ite_none_left_eq_some] at hnx
      obtain ⟨hop, htu⟩ := hnx
      have hen : s.ended = none := Option.not_isSome_iff_eq_none.1 hop
      exact (Run.turn_step hen htu).consented (hs.2 hen) hheed
  exact hinv.1

end Run

/-! ## Two sessions with one file -/

/-- The user accepts the file, and it stays. -/
theorem kept_files_consented_accepted : ∃ s, (receiveMachine sampleCodec).Reach (Heeded sampleCodec) s ∧
    s.ended = some (.ok (.received ["photo.jpg"] [])) ∧ s.granted = [0] ∧ s.Consented := by
  obtain ⟨s, hre, hen, hgr⟩ := Machine.exists_of_guarded_run (M := receiveMachine sampleCodec)
    (P := fun s => s.ended = some (.ok (.received ["photo.jpg"] [])) ∧ s.granted = [0])
    (Heeded sampleCodec) [.frame (some introductionFrame) .calm, .answer true .calm,
      .frame (some (lastChunkFrame [10, 20, 30])) .calm] ⟨false, rfl⟩ (by decide +kernel)
  exact ⟨s, hre, hen, hgr, kept_files_consented sampleCodec hre⟩

/-- The user rejects the file, and it stays. -/
theorem rejected_file_kept : ∃ s, (receiveMachine sampleCodec).Reachable s ∧
    s.ended = some (.ok .rejected) ∧ s.granted = [] ∧
    s.session.disk.lookup "photo.jpg" = some ⟨[10, 20, 30], 0, 3⟩ ∧ ¬s.Consented := by
  obtain ⟨s, hs, hen, hgr, hfi⟩ := Machine.exists_of_run (M := receiveMachine sampleCodec)
    (P := fun s => s.ended = some (.ok .rejected) ∧ s.granted = [] ∧
      s.session.disk.lookup "photo.jpg" = some ⟨[10, 20, 30], 0, 3⟩)
    [.frame (some introductionFrame) .calm, .frame (some (lastChunkFrame [10, 20, 30])) .calm,
      .answer false .calm] ⟨false, rfl⟩ (by decide +kernel)
  refine ⟨s, hs, hen, hgr, hfi, ?_⟩
  intro hcon
  rw [Run.Consented, hen] at hcon
  have hmem : 0 ∈ s.granted := hcon "photo.jpg" _ hfi
  rw [hgr] at hmem
  exact nomatch hmem

end KaiT2en.Airshare.Receive
