import KaiT2en.Airshare.Send
import KaiT2en.Airshare.Turn

/-!
# Receiving what `send_files` sends

`Session.Receiving` says how far a session is with the files of an introduction: which are complete, which
are to come, and how many bytes of the first of these are there. An introduction begins it, and the chunks
of `send_files` lead through it file by file.
-/

namespace KaiT2en.Airshare.Receive

open KaiT2en.Lib.Encoding List AList
open Send (OutgoingFile)

/-- There is a file with these bytes. -/
def Session.Holds (self : Session) (path : String) (content : List UInt8) : Prop :=
  ∃ file, self.disk.lookup path = some file ∧ file.content = content

/-- The files to come have entries and are there, the first with the bytes before the offset. -/
def Session.Pending (self : Session) : List OutgoingFile → Nat → List String → Prop
  | [], _, [] => True
  | file :: todo, offset, path :: rest =>
    self.files.lookup file.payloadId = some ⟨path, file.content.length, offset⟩ ∧
      self.Holds path (file.content.take offset) ∧ self.Pending todo 0 rest
  | _, _, _ => False

structure Session.Receiving (session : Session) (done todo : List OutgoingFile) (offset : Nat)
    (paths rest : List String) : Prop where
  doneFiles : session.doneFiles = paths
  textIds : session.textIds.entries = []
  doneTexts : session.doneTexts = []
  apart : (paths ++ rest).Nodup
  received : List.Forall₂ (fun file path => session.Holds path file.content) done paths
  pending : session.Pending todo offset rest
  announced : ∀ id ∈ session.files, ∃ file ∈ todo, file.payloadId = id

namespace Session

variable {codec : Codec SharingFrame} {env : Env} {self self' : Session} {done todo : List OutgoingFile}
  {file : OutgoingFile} {offset n : Nat} {path : String} {paths rest : List String}

/-! ## Frames of the state -/

theorem Holds.congr {content : List UInt8} (h : self.Holds path content)
    (hdisk : self'.disk.lookup path = self.disk.lookup path) : self'.Holds path content := by
  obtain ⟨entry, hent, hcont⟩ := h
  exact ⟨entry, hdisk.trans hent, hcont⟩

theorem Holds.mem {content : List UInt8} (h : self.Holds path content) : path ∈ self.disk := by
  obtain ⟨entry, hent, -⟩ := h
  exact lookup_isSome.1 (Option.isSome_of_eq_some hent)

theorem Pending.congr (h : self.Pending todo offset rest)
    (hfiles : ∀ file ∈ todo, self'.files.lookup file.payloadId = self.files.lookup file.payloadId)
    (hdisk : ∀ path ∈ rest, self'.disk.lookup path = self.disk.lookup path) :
    self'.Pending todo offset rest := by
  induction todo generalizing offset rest with
  | nil =>
    cases rest with
    | nil => trivial
    | cons path rest => exact h.elim
  | cons file todo ih =>
    cases rest with
    | nil => exact h.elim
    | cons path rest =>
      obtain ⟨hent, hho, hrs⟩ := h
      refine ⟨(hfiles file mem_cons_self).trans hent, hho.congr (hdisk path mem_cons_self), ?_⟩
      apply ih hrs
      · intro other hoth
        exact hfiles other (mem_cons_of_mem _ hoth)
      · intro other hoth
        exact hdisk other (mem_cons_of_mem _ hoth)

theorem Pending.mem (h : self.Pending todo offset rest) : ∀ path ∈ rest, path ∈ self.disk := by
  induction todo generalizing offset rest with
  | nil =>
    cases rest with
    | nil => exact fun _ hpa => nomatch hpa
    | cons path rest => exact h.elim
  | cons file todo ih =>
    cases rest with
    | nil => exact h.elim
    | cons path rest =>
      obtain ⟨-, hho, hrs⟩ := h
      intro other hoth
      rcases mem_cons.1 hoth with rfl | hoth
      · exact hho.mem
      · exact ih hrs other hoth

theorem Pending.snoc (h : self.Pending todo 0 rest)
    (hent : self.files.lookup file.payloadId = some ⟨path, file.content.length, 0⟩)
    (hho : self.Holds path []) : self.Pending (todo ++ [file]) 0 (rest ++ [path]) := by
  induction todo generalizing rest with
  | nil =>
    cases rest with
    | nil => exact ⟨hent, hho, trivial⟩
    | cons path rest => exact h.elim
  | cons other todo ih =>
    cases rest with
    | nil => exact h.elim
    | cons path rest => exact ⟨h.1, h.2.1, ih h.2.2⟩

section

variable (h : self.Receiving done todo offset paths rest)
include h

theorem Receiving.complete : self.complete ↔ todo = [] := by
  rw [complete_iff]
  constructor
  · rintro ⟨hfiles, -⟩
    cases todo with
    | nil => rfl
    | cons file todo =>
      cases rest with
      | nil => exact h.pending.elim
      | cons path rest =>
        have hmem : file.payloadId ∈ self.files := lookup_isSome.1 (Option.isSome_of_eq_some h.pending.1)
        exact absurd hmem (notMem_of_entries_eq_nil hfiles _)
  · rintro rfl
    refine ⟨?_, h.textIds⟩
    rw [eq_nil_iff_forall_not_mem]
    intro entry hent
    obtain ⟨file, hfi, -⟩ := h.announced entry.1 (mem_keys.2 (mem_map_of_mem hent))
    exact nomatch hfi

theorem Receiving.complete_eq_false (htodo : todo ≠ []) : self.complete = false := by
  rw [Bool.eq_false_iff, ne_eq, h.complete]
  exact htodo

end

theorem Receiving.empty_bytes (h : self.Receiving [] [] 0 [] []) (bytes : BytesPayloads) :
    ({ self with bytes := bytes } : Session).Receiving [] [] 0 [] [] :=
  ⟨h.doneFiles, h.textIds, h.doneTexts, h.apart, .nil, trivial, h.announced⟩

theorem received_congr (h : List.Forall₂ (fun file path => self.Holds path file.content) done paths)
    (hdisk : ∀ path ∈ paths, self'.disk.lookup path = self.disk.lookup path) :
    List.Forall₂ (fun file path => self'.Holds path file.content) done paths := by
  induction h with
  | nil => exact .nil
  | cons hho _ ih =>
    refine .cons (hho.congr (hdisk _ mem_cons_self)) (ih ?_)
    intro path hpa
    exact hdisk path (mem_cons_of_mem _ hpa)

/-! ## Chunks -/

theorem onPayload_of_fits {header : PayloadHeader} {chunk : PayloadChunk} (h : self.Fits codec env header chunk) :
    ∃ self' r, self.onPayload codec env header chunk = (self', .ok r) ∧
      self.PayloadStep codec env header chunk self' (.ok r) := by
  have hsp := self.onPayload_step env codec header chunk
  cases hres : self.onPayload codec env header chunk with
  | mk self' r =>
    rw [hres] at hsp
    cases r with
    | error e =>
      cases hsp with
      | error hft => exact absurd h hft
    | ok r => exact ⟨self', r, rfl, hsp⟩

theorem Receiving.fits {flags : Int32} (body : List UInt8)
    (h : self.Receiving done (file :: todo) offset paths (path :: rest)) (hwr : env.write = none)
    (hsync : env.sync = false) (hle : offset + body.length ≤ file.content.length) :
    self.Fits codec env file.header ⟨flags, offset, body⟩ := by
  refine ⟨hwr, fun _ => hsync, ?_⟩
  have hent := h.pending.1
  simp only [OutgoingFile.header, hent]
  refine ⟨rfl, ?_⟩
  simp only
  exact_mod_cast hle

/-- The file that chunks arrive for is none of the others. -/
theorem Receiving.path_notMem (h : self.Receiving done (file :: todo) offset paths (path :: rest)) :
    path ∉ paths ∧ path ∉ rest := by
  have hnd := nodup_middle.1 h.apart
  rw [nodup_cons, mem_append, not_or] at hnd
  exact hnd.1

/-- What follows the first file is as before when only that file and its entry change. -/
theorem Receiving.tail (self' : Session) {body : List UInt8}
    (h : self.Receiving done (file :: todo) offset paths (path :: rest))
    (hids : ((file :: todo).map OutgoingFile.payloadId).Nodup) (hdisk : self'.disk = (self.append path body).disk)
    (hfiles : ∀ id, id ≠ file.payloadId → self'.files.lookup id = self.files.lookup id) :
    List.Forall₂ (fun file path => self'.Holds path file.content) done paths ∧ self'.Pending todo 0 rest := by
  obtain ⟨hpat, hrs⟩ := h.path_notMem
  rw [map_cons, nodup_cons] at hids
  have hoth : ∀ q, q ≠ path → self'.disk.lookup q = self.disk.lookup q := by
    intro q hq
    rw [hdisk, lookup_append_ne body hq]
  constructor
  · apply received_congr h.received
    intro q hq
    apply hoth
    rintro rfl
    exact hpat hq
  · apply h.pending.2.2.congr
    · intro other hmem
      apply hfiles
      intro heq
      exact hids.1 (heq ▸ mem_map_of_mem hmem)
    · intro q hq
      apply hoth
      rintro rfl
      exact hrs hq

theorem Receiving.onPayload_chunk (codec : Codec SharingFrame)
    (h : self.Receiving done (file :: todo) offset paths (path :: rest))
    (hids : ((file :: todo).map OutgoingFile.payloadId).Nodup) (hwr : env.write = none)
    (hsync : env.sync = false) (hle : offset + n ≤ file.content.length) :
    ∃ self', self.onPayload codec env file.header ⟨0, offset, (file.content.drop offset).take n⟩ = (self', .ok none) ∧
      self'.Receiving done (file :: todo) (offset + n) paths (path :: rest) := by
  have hlen : ((file.content.drop offset).take n).length = n := by
    rw [length_take, length_drop]
    omega
  obtain ⟨self', r, hres, hsp⟩ := onPayload_of_fits (h.fits _ hwr hsync (hlen.symm ▸ hle))
  obtain ⟨hent, ⟨entry, hfi, hcont⟩, -⟩ := h.pending
  cases hsp with
  | part hty | text hty | sharing hty => exact nomatch hty
  | lastChunk hty hpn hrm hla =>
    rw [PayloadChunk.last_zero] at hla
    exact nomatch hla
  | chunk hty hpn hrm hla =>
    cases hent.symm.trans hpn
    refine ⟨_, hres, ?_⟩
    obtain ⟨hrec, hrs⟩ := h.tail { self with
        disk := (self.append path ((file.content.drop offset).take n)).disk
        files := self.files.insert file.payloadId ⟨path, file.content.length,
          offset + ((file.content.drop offset).take n).length⟩ }
      hids rfl (fun id hid => lookup_insert_ne hid)
    refine ⟨h.doneFiles, h.textIds, h.doneTexts, h.apart, hrec, ⟨?_, ?_, hrs⟩, ?_⟩
    · simp [OutgoingFile.header, lookup_insert, hlen]
    · refine ⟨_, lookup_append_self _ hfi, ?_⟩
      simp only [hcont, take_add]
    · intro id hid
      rcases (mem_insert _).1 hid with rfl | hold
      · exact ⟨file, mem_cons_self, rfl⟩
      · exact h.announced id hold

theorem Receiving.onPayload_last (codec : Codec SharingFrame)
    (h : self.Receiving done (file :: todo) file.content.length paths (path :: rest))
    (hids : ((file :: todo).map OutgoingFile.payloadId).Nodup) (hwr : env.write = none) (hsync : env.sync = false) :
    ∃ self', self.onPayload codec env file.header ⟨1, file.content.length, []⟩ = (self', .ok none) ∧
      self'.Receiving (done ++ [file]) todo 0 (paths ++ [path]) rest := by
  obtain ⟨self', r, hres, hsp⟩ := onPayload_of_fits (h.fits [] hwr hsync (Nat.le_refl _))
  obtain ⟨hent, ⟨entry, hfi, hcont⟩, -⟩ := h.pending
  cases hsp with
  | part hty | text hty | sharing hty => exact nomatch hty
  | chunk hty hpn hrm hla =>
    rw [PayloadChunk.last_one] at hla
    exact nomatch hla
  | lastChunk hty hpn hrm hla =>
    cases hent.symm.trans hpn
    refine ⟨_, hres, ?_⟩
    obtain ⟨hrec, hrs⟩ := h.tail { self with
        disk := (self.append path []).disk
        files := self.files.erase file.payloadId
        doneFiles := self.doneFiles ++ [path] }
      hids rfl (fun id hid => lookup_erase_ne hid)
    have hho : ({ self with
        disk := (self.append path []).disk
        files := self.files.erase file.payloadId
        doneFiles := self.doneFiles ++ [path] } : Session).Holds path file.content := by
      refine ⟨_, lookup_append_self _ hfi, ?_⟩
      simp [hcont, take_length]
    refine ⟨congrArg (· ++ [path]) h.doneFiles, h.textIds, h.doneTexts, ?_, ?_, hrs, ?_⟩
    · rw [append_assoc]
      exact h.apart
    · exact rel_append hrec (.cons hho .nil)
    · intro id hid
      obtain ⟨hne, hold⟩ := mem_erase.1 hid
      obtain ⟨other, hoth, heq⟩ := h.announced id hold
      rcases mem_cons.1 hoth with rfl | hoth
      · exact absurd heq.symm hne
      · exact ⟨other, hoth, heq⟩

/-! ## The introduction -/

theorem Receiving.createFile (h : self.Receiving [] todo 0 [] rest) (intro : Nat)
    (hid : file.payloadId ∉ todo.map OutgoingFile.payloadId) (hpa : path ∉ self.disk) :
    (self.createFile intro file.metadata path).Receiving [] (todo ++ [file]) 0 [] (rest ++ [path]) := by
  have hrs : path ∉ rest := fun hmem => hpa (h.pending.mem path hmem)
  refine ⟨h.doneFiles, h.textIds, h.doneTexts, ?_, .nil, ?_, ?_⟩
  · have hapart : rest.Nodup := h.apart
    exact hapart.append (nodup_singleton path) (disjoint_singleton.2 hrs)
  · apply Pending.snoc
    · apply h.pending.congr
      · intro other hoth
        apply lookup_insert_ne
        intro heq
        exact hid (mem_map.2 ⟨other, hoth, heq⟩)
      · intro q hq
        apply lookup_insert_ne
        rintro rfl
        exact hrs hq
    · exact lookup_insert _
    · exact ⟨⟨[], intro, file.content.length⟩, lookup_insert _, rfl⟩
  · intro id hmem
    rcases (mem_insert _).1 hmem with rfl | hold
    · exact ⟨file, mem_append_right _ (mem_singleton_self _), rfl⟩
    · obtain ⟨other, hoth, heq⟩ := h.announced id hold
      exact ⟨other, mem_append_left _ hoth, heq⟩

theorem Receiving.prepareFiles (intro : Nat) (files : List OutgoingFile) (n : Nat)
    (h : self.Receiving [] todo 0 [] rest) (hids : ((todo ++ files).map OutgoingFile.payloadId).Nodup)
    (hcreate : ∀ k, n ≤ k → k < n + files.length → env.create k = false) :
    ∃ self' rest', Session.prepareFiles env intro n (files.map OutgoingFile.metadata) self =
        (self', .ok ()) ∧ self'.Receiving [] (todo ++ files) 0 [] rest' := by
  induction files generalizing n todo self rest with
  | nil =>
    rw [append_nil]
    exact ⟨self, rest, rfl, h⟩
  | cons file files ih =>
    have hfst : env.create n = false := hcreate n (Nat.le_refl n) (by rw [length_cons]; omega)
    have hpa : uniquePath (self.names env) file.name ∉ self.disk := fun hmem =>
      uniquePath_notMem (self.names env) file.name (mem_append_right _ hmem)
    have hid : file.payloadId ∉ todo.map OutgoingFile.payloadId := by
      rw [map_append, map_cons] at hids
      have hnd := nodup_middle.1 hids
      rw [nodup_cons, mem_append, not_or] at hnd
      exact hnd.1.1
    have hnx := h.createFile intro hid hpa
    rw [append_cons] at hids
    obtain ⟨self', rest', hres, hrcvg⟩ := ih (n + 1) hnx hids (by
      intro k hle hlt
      exact hcreate k (by omega) (by rw [length_cons]; omega))
    refine ⟨self', rest', ?_, ?_⟩
    · rw [map_cons, prepareFiles_cons, hfst, if_neg Bool.false_ne_true]
      exact hres
    · rw [append_cons]
      exact hrcvg

theorem Receiving.prepare (intro : Nat) {files : List OutgoingFile} (h : self.Receiving [] [] 0 [] [])
    (hids : (files.map OutgoingFile.payloadId).Nodup) (hcreate : ∀ k < files.length, env.create k = false) :
    ∃ self' rest, self.prepare env intro ⟨files.map OutgoingFile.metadata, []⟩ = (self', .ok ()) ∧
      self'.Receiving [] files 0 [] rest := by
  obtain ⟨self', rest, hres, hrcvg⟩ := h.prepareFiles intro files 0 hids (by
    intro k _ hlt
    exact hcreate k (by omega))
  refine ⟨self', rest, ?_, hrcvg⟩
  unfold Session.prepare
  simp only [hres, prepareTexts]

end Session

end KaiT2en.Airshare.Receive
