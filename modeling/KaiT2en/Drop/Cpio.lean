import KaiT2en.Lib.Numeral
import KaiT2en.Lib.Text
import Mathlib.Algebra.Order.BigOperators.Group.List

/-!
# AirDrop archives

AirDrop sends files as a cpio archive. `cpio_odc` of `airdrop.rs` writes one and `cpio_files` of `receive.rs` reads
one, in the portable format and in two others. Every entry has a header with numbers of fixed width, a name and
contents; an entry with the name `TRAILER!!!` is the last one. `save` of `agent.rs` checks the names once more.

An archive is read as it was written (`cpio_round_trip`). Whatever bytes are read, the files returned have contents
from the archive and names below any directory (`cpio_files_contained`).

Text is a list of characters, and `usize` has 64 bits. A result is missing where the program would panic.
-/

namespace KaiT2en.Drop

open KaiT2en.Lib.Numeral KaiT2en.Lib.Utf8 List Nat

/-! ## Names -/

/-- The loop of `safe_path`: the components without the empty ones and `.`, unless one is `..`. -/
def safeParts : List (List Char) → Option (List (List Char))
  | [] => some []
  | part :: parts =>
    if part = [] ∨ part = ['.'] then safeParts parts
    else if part = ['.', '.'] then none
    else (safeParts parts).map (part :: ·)

def safePath (name : List Char) : Option (List Char) :=
  (safeParts (name.splitOn '/')).bind fun parts =>
    if name.head? = some '/' ∨ parts = [] then none else some (['/'].intercalate parts)

/-- The check of `save`: the name is refused. -/
def unsafeFileName (name : List Char) : Bool :=
  name.head? = some '/' || (name.splitOn '/').any fun part => part = [] || part = ['.'] || part = ['.', '.']

/-- The directory that a path leads to, component by component. -/
def walk (dir : List (List Char)) (part : List Char) : List (List Char) :=
  if part = [] ∨ part = ['.'] then dir else if part = ['.', '.'] then dir.dropLast else dir ++ [part]

/-- A component that leads one level down. -/
def Plain (part : List Char) : Prop := part ≠ [] ∧ part ≠ ['.'] ∧ part ≠ ['.', '.'] ∧ '/' ∉ part

theorem safeParts_subset {parts safe : List (List Char)} (h : safeParts parts = some safe) :
    ∀ part ∈ safe, part ∈ parts ∧ part ≠ [] ∧ part ≠ ['.'] ∧ part ≠ ['.', '.'] := by
  induction parts generalizing safe with
  | nil =>
    cases h
    exact forall_mem_nil _
  | cons p parts ih =>
    rw [safeParts] at h
    split at h
    · grind
    next hp =>
      split at h
      · cases h
      next hdots =>
        obtain ⟨rest, hrs, rfl⟩ := Option.map_eq_some_iff.1 h
        refine forall_mem_cons.2 ⟨⟨mem_cons_self, ?_, ?_, hdots⟩, fun part hpt => ?_⟩
        · exact fun hemp => hp (.inl hemp)
        · exact fun hdot => hp (.inr hdot)
        · grind

theorem safePath_eq {name path : List Char} (h : safePath name = some path) :
    ∃ parts, parts ≠ [] ∧ path.splitOn '/' = parts ∧ ∀ part ∈ parts, Plain part := by
  obtain ⟨parts, hparts, h⟩ := Option.bind_eq_some_iff.1 h
  split at h
  · cases h
  next hok =>
    have hpl : ∀ part ∈ parts, Plain part := by
      intro part hpt
      obtain ⟨hmem, hemp, hdot, hdots⟩ := safeParts_subset hparts part hpt
      exact ⟨hemp, hdot, hdots, Lib.Text.notMem_of_mem_splitOn hmem⟩
    have hne : parts ≠ [] := fun hnil => hok (.inr hnil)
    refine ⟨parts, hne, ?_, hpl⟩
    rw [← Option.some.inj h]
    exact splitOn_intercalate '/' (fun part hpt => (hpl part hpt).2.2.2) hne

theorem head?_ne_of_splitOn {path first : List Char} {rest : List (List Char)}
    (h : path.splitOn '/' = first :: rest) (hfst : first ≠ []) : path.head? ≠ some '/' := by
  intro hhd
  obtain ⟨path, rfl⟩ : ∃ tail, path = '/' :: tail := by
    cases path with
    | nil => cases hhd
    | cons c tail => exact ⟨tail, by rw [Option.some.inj hhd]⟩
  exact hfst (List.cons.inj h).1.symm

theorem foldl_walk {parts : List (List Char)} (h : ∀ part ∈ parts, Plain part) (dir : List (List Char)) :
    parts.foldl walk dir = dir ++ parts := by
  induction parts generalizing dir with
  | nil => exact (append_nil dir).symm
  | cons part parts ih =>
    obtain ⟨hpt, hparts⟩ := forall_mem_cons.1 h
    rw [foldl_cons, walk, if_neg (not_or.2 ⟨hpt.1, hpt.2.1⟩), if_neg hpt.2.2.1, ih hparts, append_assoc]
    rfl

/-- A name that `save` takes and that leads below every directory. -/
structure Contained (name : List Char) : Prop where
  accepted : unsafeFileName name = false
  relative : name.head? ≠ some '/'
  plain : ∀ part ∈ name.splitOn '/', part ≠ [] ∧ part ≠ ['.'] ∧ part ≠ ['.', '.']
  below : ∀ dir, ∃ parts, parts ≠ [] ∧ (name.splitOn '/').foldl walk dir = dir ++ parts

/-- The names that `safe_path` gives are accepted by `save`. -/
theorem contained_of_safePath {name path : List Char} (h : safePath name = some path) : Contained path := by
  obtain ⟨parts, hne, hspl, hpl⟩ := safePath_eq h
  have hrel : path.head? ≠ some '/' := by
    obtain ⟨first, rest, rfl⟩ := exists_cons_of_ne_nil hne
    exact head?_ne_of_splitOn hspl (hpl first mem_cons_self).1
  refine ⟨?_, hrel, fun part hpt => ?_, fun dir => ⟨parts, hne, ?_⟩⟩
  · rw [unsafeFileName, hspl, Bool.or_eq_false_iff, decide_eq_false_iff_not, any_eq_false]
    refine ⟨hrel, fun part hpt => ?_⟩
    obtain ⟨hemp, hdot, hdots, -⟩ := hpl part hpt
    simp [hemp, hdot, hdots]
  · rw [hspl] at hpt
    obtain ⟨hemp, hdot, hdots, -⟩ := hpl part hpt
    exact ⟨hemp, hdot, hdots⟩
  · rw [hspl, foldl_walk hpl]

variable {name : List Char}

theorem safePath_current (hna : Plain name) : safePath ('.' :: '/' :: name) = some name := by
  have hjoin : '.' :: '/' :: name = ['/'].intercalate [['.'], name] := by simp_all
  have hspl : (('.' :: '/' :: name : List Char)).splitOn '/' = [['.'], name] := by
    rw [hjoin]
    refine splitOn_intercalate '/' (fun part hpt => ?_) (cons_ne_nil _ _)
    rcases mem_cons.1 hpt with rfl | hpt
    · decide
    · rw [mem_singleton.1 hpt]
      exact hna.2.2.2
  have hparts : safeParts [['.'], name] = some [name] := by
    rw [safeParts, if_pos (.inr rfl), safeParts, if_neg (not_or.2 ⟨hna.1, hna.2.1⟩), if_neg hna.2.2.1]
    rfl
  rw [safePath, hspl, hparts, Option.bind_some, if_neg]
  · simp_all
  · grind

/-! ## Reading -/

/-- A file that was received. -/
structure File where
  name : List Char
  data : List UInt8
  deriving DecidableEq

/-- The errors of `cpio_files`. -/
inductive CpioError
  /-- `cpio archive ends early`. -/
  | endsEarly
  /-- `not a cpio archive`. -/
  | notCpio
  /-- `short header`. -/
  | shortHeader
  /-- A field of the header is not a number. -/
  | badField
  /-- `short name`. -/
  | shortName
  /-- `short file data`. -/
  | shortData
  deriving DecidableEq

variable (data : List UInt8)

/-- `slice::get` of a range. -/
def get (start stop : Nat) : Option (List UInt8) :=
  if start ≤ stop ∧ stop ≤ data.length then some ((data.take stop).drop start) else none

/-- A `usize`, or an overflow. -/
def usize (n : Nat) : Option Nat := if n < 2 ^ 64 then some n else none

/-- `next_multiple_of` without its check. -/
def nextMultipleOf (n align : Nat) : Nat := if n % align = 0 then n else n + (align - n % align)

/-- The numbers that are taken from a header, its length and the alignment of its format. -/
structure Header where
  mode : Nat
  namesize : Nat
  filesize : Nat
  header : Nat
  align : Nat

/-- A number of a header. -/
def field (radix : Nat) (data : List UInt8) (offset len : Nat) : Except CpioError Nat :=
  match get data offset (offset + len) with
  | none => .error .shortHeader
  | some bytes =>
    match fromStrRadix radix (2 ^ 64) bytes with
    | none => .error .badField
    | some n => .ok n

/-- The bytes `070707`. -/
def ODC_MAGIC : List UInt8 := [48, 55, 48, 55, 48, 55]

/-- The bytes `070701` and `070702`. -/
def NEWC_MAGICS : List (List UInt8) := [[48, 55, 48, 55, 48, 49], [48, 55, 48, 55, 48, 50]]

/-- The three numbers, in the order in which they are read. -/
def readHeader (mode namesize filesize : Except CpioError Nat) (header align : Nat) : Except CpioError Header :=
  match mode with
  | .error e => .error e
  | .ok mode =>
    match namesize with
    | .error e => .error e
    | .ok namesize =>
      match filesize with
      | .error e => .error e
      | .ok filesize => .ok ⟨mode, namesize, filesize, header, align⟩

/-- The header of an entry, in one of the formats. -/
def parseHeader : Except CpioError Header :=
  let magic := data.take 6
  if magic = ODC_MAGIC then readHeader (field 8 data 18 6) (field 8 data 59 6) (field 8 data 65 11) 76 1
  else if magic ∈ NEWC_MAGICS then
    let field n := field 16 data (6 + n * 8) 8
    readHeader (field 1) (field 11) (field 6) 110 4
  else .error .notCpio

structure Entry where
  mode : Nat
  name : List Char
  content : List UInt8
  dataEnd : Nat
  align : Nat

/-- `cpio_files` up to the test for the trailer. -/
def cpioEntry : Option (Except CpioError Entry) :=
  if data.length < 6 then some (.error .endsEarly)
  else
    match parseHeader data with
    | .error e => some (.error e)
    | .ok h =>
      (usize (h.header + h.namesize)).bind fun nameEnd =>
        match get data h.header (nameEnd - 1) with
        | none => some (.error .shortName)
        | some rawName =>
          (usize (nextMultipleOf nameEnd h.align)).bind fun dataStart =>
            (usize (dataStart + h.filesize)).bind fun dataEnd =>
              match get data dataStart dataEnd with
              | none => some (.error .shortData)
              | some content => some (.ok ⟨h.mode, lossy rawName, content, dataEnd, h.align⟩)

def TRAILER : List Char := ['T', 'R', 'A', 'I', 'L', 'E', 'R', '!', '!', '!']

/-- Regular files with a safe path are kept. -/
def keep (files : List File) (entry : Entry) : List File :=
  if entry.mode &&& 0o170000 = 0o100000 then
    match safePath entry.name with
    | some path => files ++ [⟨path, entry.content⟩]
    | none => files
  else files

/-- The loop of `cpio_files`, with at most `fuel` rounds. -/
def cpioLoop : Nat → List UInt8 → List File → Option (Except CpioError (List File))
  | 0, _, _ => none
  | fuel + 1, data, files =>
    match cpioEntry data with
    | none => none
    | some (.error e) => some (.error e)
    | some (.ok entry) =>
      if entry.name = TRAILER then some (.ok files)
      else
        (usize (nextMultipleOf entry.dataEnd entry.align)).bind fun next =>
          cpioLoop fuel (data.drop (min next data.length)) (keep files entry)

def cpioFiles : Option (Except CpioError (List File)) := cpioLoop (data.length + 1) data []

/-! ### No panic -/

variable {start stop : Nat}

variable {data bytes : List UInt8}

section

variable (h : get data start stop = some bytes)
include h

theorem get_eq_some :
    start ≤ stop ∧ stop ≤ data.length ∧ bytes = (data.take stop).drop start := by
  obtain ⟨hrng, h⟩ := Option.ite_none_right_eq_some.1 h
  exact ⟨hrng.1, hrng.2, (Option.some.inj h).symm⟩

theorem get_infix : bytes <:+: data := by
  obtain ⟨-, -, rfl⟩ := get_eq_some h
  exact (drop_suffix _ _).isInfix.trans ( take_prefix _ _).isInfix

theorem length_get : bytes.length = stop - start := by
  obtain ⟨-, hso, rfl⟩ := get_eq_some h
  rw [length_drop, length_take, min_eq_left hso]

end

variable {data : List UInt8}

theorem field_lt {radix : Nat} (hrad : 0 < radix) {offset len n : Nat}
    (h : field radix data offset len = .ok n) : n < radix ^ len := by
  rw [field] at h
  split at h
  · cases h
  next bytes hbs =>
    split at h
    · cases h
    next m hm =>
      cases h
      have hlt := fromStrRadix_lt hrad hm
      rwa [length_get hbs, Nat.add_sub_cancel_left] at hlt

theorem readHeader_ok {mode namesize filesize : Except CpioError Nat} {header align : Nat} {h : Header}
    (hrd : readHeader mode namesize filesize header align = .ok h) :
    mode = .ok h.mode ∧ namesize = .ok h.namesize ∧ filesize = .ok h.filesize ∧ h.header = header ∧
      h.align = align := by
  cases mode with
  | error e => cases hrd
  | ok mode =>
    cases namesize with
    | error e => cases hrd
    | ok namesize =>
      cases filesize with
      | error e => cases hrd
      | ok filesize =>
        cases hrd
        exact ⟨rfl, rfl, rfl, rfl, rfl⟩

theorem parseHeader_ok {h : Header} (hpar : parseHeader data = .ok h) :
    h.namesize < 2 ^ 33 ∧ h.filesize < 2 ^ 33 ∧ 0 < h.header ∧ h.header ≤ 110 ∧ 0 < h.align ∧ h.align ≤ 4 := by
  simp only [parseHeader] at hpar
  split at hpar
  · obtain ⟨-, hna, hfi, hhdr, halign⟩ := readHeader_ok hpar
    have hna := field_lt (by decide) hna
    have hfi := field_lt (by decide) hfi
    omega
  split at hpar
  · obtain ⟨-, hna, hfi, hhdr, halign⟩ := readHeader_ok hpar
    have hna := field_lt (by decide) hna
    have hfi := field_lt (by decide) hfi
    omega
  · cases hpar

theorem usize_of_lt {n : Nat} (h : n < 2 ^ 64) : usize n = some n := if_pos h

theorem le_nextMultipleOf (n align : Nat) : n ≤ nextMultipleOf n align := by
  rw [nextMultipleOf]
  split
  · exact le_refl n
  · exact le_add_right _ _

theorem nextMultipleOf_le (n align : Nat) : nextMultipleOf n align ≤ n + align := by
  rw [nextMultipleOf]
  split <;> omega

/-- What is known of an entry: it ends in the archive, not at its beginning, and has its contents from there. -/
structure Entry.Within (entry : Entry) (data : List UInt8) : Prop where
  pos : 0 < entry.dataEnd
  bound : entry.dataEnd ≤ data.length
  small : nextMultipleOf entry.dataEnd entry.align < 2 ^ 64
  content : entry.content <:+: data

theorem cpioEntry_cases (data : List UInt8) :
    (∃ e, cpioEntry data = some (.error e)) ∨ ∃ entry, cpioEntry data = some (.ok entry) ∧ entry.Within data := by
  rw [cpioEntry]
  split
  · exact .inl ⟨_, rfl⟩
  split
  · exact .inl ⟨_, rfl⟩
  next h hpar =>
    obtain ⟨hna, hfi, hhdr, hhdr', halign, halign'⟩ := parseHeader_ok hpar
    have hstr := nextMultipleOf_le (h.header + h.namesize) h.align
    have hstr' := le_nextMultipleOf (h.header + h.namesize) h.align
    rw [usize_of_lt (by omega), Option.bind_some]
    split
    · exact .inl ⟨_, rfl⟩
    rw [usize_of_lt (by omega), Option.bind_some, usize_of_lt (by omega), Option.bind_some]
    split
    · exact .inl ⟨_, rfl⟩
    next content hcont =>
      have hnx := nextMultipleOf_le (nextMultipleOf (h.header + h.namesize) h.align + h.filesize) h.align
      refine .inr ⟨_, rfl, ?_, (get_eq_some hcont).2.1, ?_, get_infix hcont⟩
      · grind
      · grind

/-- A file whose contents are in the archive and whose name is safe. -/
def File.Good (archive : List UInt8) (file : File) : Prop := file.data <:+: archive ∧ Contained file.name

theorem keep_good {archive : List UInt8} {files : List File} {entry : Entry}
    (hfiles : ∀ file ∈ files, file.Good archive) (hcont : entry.content <:+: archive) :
    ∀ file ∈ keep files entry, file.Good archive := by
  rw [keep]
  split
  · split
    · next path hpa =>
        intro file hfi
        rcases mem_append.1 hfi with hfi | hfi
        · exact hfiles file hfi
        · rw [mem_singleton.1 hfi]
          exact ⟨hcont, contained_of_safePath hpa⟩
    · exact hfiles
  · exact hfiles

/-- The loop returns, and more rounds than there are bytes make no difference. -/
theorem cpioLoop_returns (archive : List UInt8) (n : Nat) : ∀ (data : List UInt8) (files : List File),
    data.length ≤ n → data <:+ archive → (∀ file ∈ files, file.Good archive) →
    ∃ r, (∀ fuel, data.length < fuel → cpioLoop fuel data files = some r) ∧
      ∀ found, r = .ok found → ∀ file ∈ found, file.Good archive := by
  induction n with
  | zero =>
    intro data files hln hsuf hfiles
    refine ⟨.error .endsEarly, fun fuel hfu => ?_, fun found hfnd => by cases hfnd⟩
    obtain ⟨fuel, rfl⟩ : ∃ k, fuel = k + 1 := ⟨fuel - 1, by omega⟩
    rw [cpioLoop, cpioEntry, if_pos (by omega)]
  | succ n ih =>
    intro data files hln hsuf hfiles
    rcases cpioEntry_cases data with ⟨e, he⟩ | ⟨entry, hent, hwi⟩
    · refine ⟨.error e, fun fuel hfu => ?_, fun found hfnd => by cases hfnd⟩
      obtain ⟨fuel, rfl⟩ : ∃ k, fuel = k + 1 := ⟨fuel - 1, by omega⟩
      rw [cpioLoop, he]
    by_cases htrail : entry.name = TRAILER
    · refine ⟨.ok files, fun fuel hfu => ?_, fun found hfnd => ?_⟩
      · obtain ⟨fuel, rfl⟩ : ∃ k, fuel = k + 1 := ⟨fuel - 1, by omega⟩
        rw [cpioLoop, hent]
        exact if_pos htrail
      · cases hfnd
        exact hfiles
    -- the rest of the archive is shorter
    have hpos := hwi.pos
    have hbound := hwi.bound
    have hnx := le_nextMultipleOf entry.dataEnd entry.align
    obtain ⟨r, hlp, hgood⟩ := ih
      (data.drop (min (nextMultipleOf entry.dataEnd entry.align) data.length)) (keep files entry)
      (by rw [length_drop]; omega) ((drop_suffix _ _).trans hsuf)
      (keep_good hfiles (hwi.content.trans hsuf.isInfix))
    refine ⟨r, fun fuel hfu => ?_, hgood⟩
    obtain ⟨fuel, rfl⟩ : ∃ k, fuel = k + 1 := ⟨fuel - 1, by omega⟩
    rw [cpioLoop, hent]
    show (if entry.name = TRAILER then _ else _) = _
    rw [if_neg htrail, usize_of_lt hwi.small, Option.bind_some]
    refine hlp fuel ?_
    rw [length_drop]
    omega

/-- For every byte string the reader returns; the content of every file is a contiguous part of the input, and its
name passes the check of `save` and leads below every directory. -/
theorem cpio_files_contained (data : List UInt8) :
    ∃ r, cpioFiles data = some r ∧ (∀ fuel, data.length < fuel → cpioLoop fuel data [] = some r) ∧
      ∀ files, r = .ok files → ∀ file ∈ files, file.data <:+: data ∧ Contained file.name := by
  obtain ⟨r, hlp, hgood⟩ := cpioLoop_returns data data.length data [] (le_refl _) (suffix_refl _) (forall_mem_nil _)
  exact ⟨r, hlp _ (lt_succ_self _), hlp, hgood⟩

/-! ## Writing -/

/-- The numbers of a header of `cpio_odc`, which is the text of a format string. `now` is the time. -/
def odcFields (now ino mode namesize size : Nat) : List UInt8 :=
  ODC_MAGIC ++ padded 8 6 0 ++ padded 8 6 ino ++ padded 8 6 mode ++ padded 8 6 0 ++ padded 8 6 0 ++ padded 8 6 1 ++
    padded 8 6 0 ++ padded 8 11 now ++ padded 8 6 namesize ++ padded 8 11 size

/-- The closure `header` of `cpio_odc`. -/
def odcHeader (now ino : Nat) (name : List Char) (mode size : Nat) : List UInt8 :=
  odcFields now ino mode ((utf8 name).length + 1) size ++ utf8 name ++ [0]

/-- The loop of `cpio_odc` from the file number `i` on. -/
def odcEntries (now : Nat) : Nat → List (List Char × List UInt8) → List UInt8
  | _, [] => []
  | i, (name, data) :: files => odcHeader now (i + 1) name 0o100644 data.length ++ data ++ odcEntries now (i + 1) files

def cpioOdc (now : Nat) (files : List (List Char × List UInt8)) : List UInt8 :=
  odcEntries now 0 files ++ odcHeader now 0 TRAILER 0 0

/-- The numbers of a header fit into their fields. -/
structure Fits (now ino mode namesize size : Nat) : Prop where
  now : now < 8 ^ 11
  ino : ino < 8 ^ 6
  mode : mode < 8 ^ 6
  namesize : namesize < 8 ^ 6
  size : size < 8 ^ 11

theorem get_append {before bytes : List UInt8} (hstr : before.length = start)
    (hso : start + bytes.length = stop) (after : List UInt8) :
    get (before ++ (bytes ++ after)) start stop = some bytes := by
  subst hstr hso
  have hln : before.length + bytes.length ≤ (before ++ (bytes ++ after)).length := by
    rw [length_append, length_append]
    omega
  rw [get, if_pos ⟨le_add_right _ _, hln⟩, ← append_assoc, ← length_append, take_left, drop_left]

theorem field_padded {before : List UInt8} {offset len n : Nat} (hbef : before.length = offset) (hlen : 0 < len)
    (hn : n < 8 ^ len) (hsm : n < 2 ^ 64) (after : List UInt8) :
    field 8 (before ++ (padded 8 len n ++ after)) offset len = .ok n := by
  have hwid := length_padded (by decide : 1 < 8) hlen hn
  rw [field, get_append hbef (by rw [hwid])]
  show (match fromStrRadix 8 (2 ^ 64) (padded 8 len n) with | none => _ | some n => _) = _
  rw [fromStrRadix_padded (by decide) (by decide) len hsm]

section Odc

variable {now ino mode namesize size : Nat}

theorem length_odcFields (h : Fits now ino mode namesize size) : (odcFields now ino mode namesize size).length = 76 := by
  have h6 : ∀ n, n < 8 ^ 6 → (padded 8 6 n).length = 6 := fun n hn => length_padded (by decide) (by decide) hn
  have h11 : ∀ n, n < 8 ^ 11 → (padded 8 11 n).length = 11 := fun n hn => length_padded (by decide) (by decide) hn
  simp only [odcFields, length_append, h6 0 (by decide), h6 1 (by decide), h6 ino h.ino, h6 mode h.mode,
    h6 namesize h.namesize, h11 now h.now, h11 size h.size]
  rfl

theorem parseHeader_odcFields (h : Fits now ino mode namesize size) (rest : List UInt8) :
    parseHeader (odcFields now ino mode namesize size ++ rest) = .ok ⟨mode, namesize, size, 76, 1⟩ := by
  have h6 : ∀ n, n < 8 ^ 6 → (padded 8 6 n).length = 6 := fun n hn => length_padded (by decide) (by decide) hn
  have h11 : ∀ n, n < 8 ^ 11 → (padded 8 11 n).length = 11 := fun n hn => length_padded (by decide) (by decide) hn
  have hmag : (odcFields now ino mode namesize size ++ rest).take 6 = ODC_MAGIC := by
    simp only [odcFields, append_assoc]
    exact take_left' rfl
  have hmd : field 8 (odcFields now ino mode namesize size ++ rest) 18 6 = .ok mode := by
    have hat : odcFields now ino mode namesize size ++ rest =
        (ODC_MAGIC ++ padded 8 6 0 ++ padded 8 6 ino) ++ (padded 8 6 mode ++ (padded 8 6 0 ++ padded 8 6 0 ++
          padded 8 6 1 ++ padded 8 6 0 ++ padded 8 11 now ++ padded 8 6 namesize ++ padded 8 11 size ++ rest)) := by
      simp [odcFields]
    rw [hat]
    refine field_padded ?_ (by decide) h.mode (lt_trans h.mode (by decide)) _
    simp only [length_append, h6 0 (by decide), h6 ino h.ino]
    rfl
  have hna : field 8 (odcFields now ino mode namesize size ++ rest) 59 6 = .ok namesize := by
    have hat : odcFields now ino mode namesize size ++ rest =
        (ODC_MAGIC ++ padded 8 6 0 ++ padded 8 6 ino ++ padded 8 6 mode ++ padded 8 6 0 ++ padded 8 6 0 ++
          padded 8 6 1 ++ padded 8 6 0 ++ padded 8 11 now) ++
          (padded 8 6 namesize ++ (padded 8 11 size ++ rest)) := by
      simp [odcFields]
    rw [hat]
    refine field_padded ?_ (by decide) h.namesize (lt_trans h.namesize (by decide)) _
    simp only [length_append, h6 0 (by decide), h6 1 (by decide), h6 ino h.ino, h6 mode h.mode, h11 now h.now]
    rfl
  have hsz : field 8 (odcFields now ino mode namesize size ++ rest) 65 11 = .ok size := by
    have hat : odcFields now ino mode namesize size ++ rest =
        (ODC_MAGIC ++ padded 8 6 0 ++ padded 8 6 ino ++ padded 8 6 mode ++ padded 8 6 0 ++ padded 8 6 0 ++
          padded 8 6 1 ++ padded 8 6 0 ++ padded 8 11 now ++ padded 8 6 namesize) ++ (padded 8 11 size ++ rest) := by
      simp [odcFields]
    rw [hat]
    refine field_padded ?_ (by decide) h.size (lt_trans h.size (by decide)) _
    simp only [length_append, h6 0 (by decide), h6 1 (by decide), h6 ino h.ino, h6 mode h.mode,
      h6 namesize h.namesize, h11 now h.now]
    rfl
  simp only [parseHeader, hmag, hmd, hna, hsz, if_true]
  rfl

end Odc

theorem nextMultipleOf_one (n : Nat) : nextMultipleOf n 1 = n := if_pos (mod_one n)

/-- An entry is read back, whatever follows it. -/
theorem cpioEntry_odcHeader {now ino mode : Nat}
    (h : Fits now ino mode ((utf8 name).length + 1) data.length) (rest : List UInt8) :
    cpioEntry (odcHeader now ino name mode data.length ++ data ++ rest) =
      some (.ok ⟨mode, name, data, (odcHeader now ino name mode data.length ++ data).length, 1⟩) := by
  have hfiel := length_odcFields h
  have hna := h.namesize
  have hsz := h.size
  have hln : (odcHeader now ino name mode data.length ++ data).length =
      76 + ((utf8 name).length + 1) + data.length := by
    simp only [odcHeader, length_append, hfiel, length_singleton]
    omega
  have hat : odcHeader now ino name mode data.length ++ data ++ rest =
      odcFields now ino mode ((utf8 name).length + 1) data.length ++ (utf8 name ++ ([0] ++ (data ++ rest))) := by
    simp [odcHeader]
  have hraw : get (odcHeader now ino name mode data.length ++ data ++ rest) 76
      (76 + ((utf8 name).length + 1) - 1) = some (utf8 name) := by
    rw [hat]
    exact get_append hfiel (by omega) _
  have hcont : get (odcHeader now ino name mode data.length ++ data ++ rest) (76 + ((utf8 name).length + 1))
      (76 + ((utf8 name).length + 1) + data.length) = some data := by
    rw [append_assoc]
    refine get_append ?_ rfl rest
    rw [length_append] at hln
    omega
  have hlg : ¬ (odcHeader now ino name mode data.length ++ data ++ rest).length < 6 := by
    rw [length_append, hln]
    omega
  have hpar : parseHeader (odcHeader now ino name mode data.length ++ data ++ rest) =
      .ok ⟨mode, (utf8 name).length + 1, data.length, 76, 1⟩ := by
    rw [hat]
    exact parseHeader_odcFields h _
  rw [cpioEntry, if_neg hlg, hpar]
  dsimp only
  rw [usize_of_lt (by omega), Option.bind_some, hraw]
  dsimp only
  rw [nextMultipleOf_one, usize_of_lt (by omega), Option.bind_some, usize_of_lt (by omega), Option.bind_some, hcont,
    lossy_utf8, hln]

theorem drop_min_length (bytes rest : List UInt8) :
    (bytes ++ rest).drop (min bytes.length (bytes ++ rest).length) = rest := by
  rw [length_append, min_eq_left (le_add_right _ _), drop_left]

theorem keep_regular {entry : Entry} {path : List Char} (hmd : entry.mode = 0o100644)
    (hpa : safePath entry.name = some path) (files : List File) :
    keep files entry = files ++ [⟨path, entry.content⟩] := by
  rw [keep, hmd, if_pos (by decide), hpa]

theorem current_ne_trailer (name : List Char) : '.' :: '/' :: name ≠ TRAILER :=
  fun h => absurd (List.cons.inj h).1 (by decide)

theorem cpioLoop_odcHeader {now ino fuel : Nat} (hna : Plain name)
    (h : Fits now ino 0o100644 ((utf8 ('.' :: '/' :: name)).length + 1) data.length) (rest : List UInt8)
    (files : List File) :
    cpioLoop (fuel + 1) (odcHeader now ino ('.' :: '/' :: name) 0o100644 data.length ++ data ++ rest) files =
      cpioLoop fuel rest (files ++ [⟨name, data⟩]) := by
  have hent := cpioEntry_odcHeader h rest
  have hln : (odcHeader now ino ('.' :: '/' :: name) 0o100644 data.length ++ data).length < 2 ^ 64 := by
    have hfiel := length_odcFields h
    have hsz := h.size
    have hnam := h.namesize
    simp only [odcHeader, length_append, hfiel, length_singleton]
    omega
  have hkeep : keep files ⟨0o100644, '.' :: '/' :: name, data,
      (odcHeader now ino ('.' :: '/' :: name) 0o100644 data.length ++ data).length, 1⟩ = files ++ [⟨name, data⟩] :=
    keep_regular rfl (safePath_current hna) files
  rw [cpioLoop, hent]
  dsimp only
  rw [if_neg (current_ne_trailer name), nextMultipleOf_one, usize_of_lt hln, Option.bind_some, hkeep, drop_min_length]

/-- A file that can be sent: its name is one component, and name and contents fit into a header. -/
structure Sendable (file : List Char × List UInt8) : Prop where
  plain : Plain file.1
  name : (utf8 file.1).length < 65536
  size : file.2.length ≤ 2 ^ 31

/-- The name with which a file is sent. -/
def inCurrent (file : List Char × List UInt8) : List Char × List UInt8 := ('.' :: '/' :: file.1, file.2)

theorem length_utf8_current (name : List Char) : (utf8 ('.' :: '/' :: name)).length = (utf8 name).length + 2 := by
  rw [utf8_cons, utf8_cons, length_append, length_append]
  have hdot : (String.utf8EncodeChar '.').length = 1 := by decide
  have hslash : (String.utf8EncodeChar '/').length = 1 := by decide
  omega

theorem cpioLoop_odcEntries {now : Nat} (hnow : now < 8 ^ 11) (rest : List UInt8)
    {files : List (List Char × List UInt8)} : ∀ {i fuel : Nat} {found : List File},
    (∀ file ∈ files, Sendable file) → i + files.length ≤ 256 →
    cpioLoop (fuel + files.length) (odcEntries now i (files.map inCurrent) ++ rest) found =
      cpioLoop fuel rest (found ++ files.map fun file => ⟨file.1, file.2⟩) := by
  induction files with
  | nil =>
    intro i fuel found _ _
    rw [map_nil, map_nil, append_nil]
    rfl
  | cons file files ih =>
    intro i fuel found hfiles hcnt
    obtain ⟨hfi, hrs⟩ := forall_mem_cons.1 hfiles
    rw [length_cons] at hcnt ⊢
    have hft : Fits now (i + 1) 0o100644 ((utf8 ('.' :: '/' :: file.1)).length + 1) file.2.length := by
      have hna := hfi.name
      have hsz := hfi.size
      rw [length_utf8_current]
      exact ⟨hnow, by omega, by decide, by omega, by omega⟩
    rw [map_cons, ← add_assoc]
    show cpioLoop _ (odcHeader now (i + 1) ('.' :: '/' :: file.1) 0o100644 file.2.length ++ file.2 ++
      odcEntries now (i + 1) (files.map inCurrent) ++ rest) found = _
    rw [append_assoc, cpioLoop_odcHeader hfi.plain hft, ih hrs (by omega), append_assoc]
    rfl

theorem cpioLoop_trailer {now fuel : Nat} (hnow : now < 8 ^ 11) (files : List File) :
    cpioLoop (fuel + 1) (odcHeader now 0 TRAILER 0 0) files = some (.ok files) := by
  have hft : Fits now 0 0 ((utf8 TRAILER).length + 1) ([] : List UInt8).length :=
    ⟨hnow, by decide, by decide, by decide, by decide⟩
  have hent := cpioEntry_odcHeader hft []
  rw [append_nil, append_nil] at hent
  rw [cpioLoop, show odcHeader now 0 TRAILER 0 0 = odcHeader now 0 TRAILER 0 ([] : List UInt8).length from rfl, hent]
  exact if_pos rfl

theorem length_le_odcEntries (now i : Nat) (files : List (List Char × List UInt8)) :
    files.length ≤ (odcEntries now i files).length := by
  induction files generalizing i with
  | nil => exact le_refl 0
  | cons file files ih =>
    have hrs := ih (i + 1)
    simp only [odcEntries, odcHeader, length_append, length_cons]
    omega

/-- Up to 256 files of up to 2^31 bytes in total, with names of one component shorter than 65536 bytes, are read as
they were written, before the year 2242. -/
theorem cpio_round_trip {now : Nat} (hclock : now < 8 ^ 11) (files : List (List Char × List UInt8))
    (hcount : files.length ≤ 256) (htotal : (files.map fun file => file.2.length).sum ≤ 2 ^ 31)
    (hname : ∀ file ∈ files, file.1 ≠ [] ∧ '/' ∉ file.1 ∧ file.1 ≠ ['.'] ∧ file.1 ≠ ['.', '.'] ∧
      (utf8 file.1).length < 65536) :
    cpioFiles (cpioOdc now (files.map fun file => ('.' :: '/' :: file.1, file.2))) =
      some (.ok (files.map fun file => ⟨file.1, file.2⟩)) := by
  have hsen : ∀ file ∈ files, Sendable file := by
    intro file hfi
    obtain ⟨hne, hslash, hdot, hdots, hln⟩ := hname file hfi
    have hsz := le_sum_of_mem (mem_map_of_mem (f := fun file => file.2.length) hfi)
    exact ⟨⟨hne, hdot, hdots, hslash⟩, hln, le_trans hsz htotal⟩
  -- there are enough rounds: one for each file and one for the trailer
  have hroun := length_le_odcEntries now 0 (files.map inCurrent)
  rw [length_map] at hroun
  obtain ⟨fuel, hfu⟩ : ∃ fuel, (cpioOdc now (files.map inCurrent)).length + 1 = fuel + 1 + files.length := by
    refine ⟨(cpioOdc now (files.map inCurrent)).length - files.length, ?_⟩
    rw [cpioOdc, length_append]
    omega
  show cpioLoop ((cpioOdc now (files.map inCurrent)).length + 1) (odcEntries now 0 (files.map inCurrent) ++ _) [] = _
  rw [hfu, cpioLoop_odcEntries hclock _ hsen (by omega), cpioLoop_trailer hclock, nil_append]

/-- Two files, one of which looks like a trailer. -/
theorem cpio_round_trip_two :
    cpioFiles (cpioOdc 1760000000 [("./a.txt".toList, [104, 105]), ("./TRAILER!!!".toList, ODC_MAGIC)]) =
      some (.ok [⟨"a.txt".toList, [104, 105]⟩, ⟨TRAILER, ODC_MAGIC⟩]) :=
  cpio_round_trip (by decide) [("a.txt".toList, [104, 105]), (TRAILER, ODC_MAGIC)] (by decide) (by decide)
    (by decide +kernel)

end KaiT2en.Drop
