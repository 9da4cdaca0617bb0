import KaiT2en.Lib.BufReader
import KaiT2en.Lib.Numeral
import KaiT2en.Lib.Text

/-!
# AirDrop requests

`read_request` of `receive.rs` reads a request from a buffered reader: a request line, header fields up to an empty line,
and a body with a given length or in chunks. `Message` is a request as a client writes it. A message is read as the
request that it is, and exactly its bytes are used up, however they arrive (`readRequest_ahead`).
-/

namespace KaiT2en.Drop

open KaiT2en.Lib.BufReader KaiT2en.Lib.Numeral KaiT2en.Lib.Text KaiT2en.Lib.Utf8 List Nat

/-! ## Reading a request -/

/-- Largest request body accepted. -/
def MAX_BODY : Nat := 2 * 2 ^ 30

structure Request where
  path : List Char
  contentType : Option (List Char)
  body : List UInt8
  deriving DecidableEq

/-- The errors of `read_request`. -/
inductive HttpError
  /-- `bad request line`. -/
  | badRequestLine
  /-- `unexpected`, with the method and the path. -/
  | unexpectedMethod
  /-- A line is not UTF-8. -/
  | invalidText
  /-- The size of a chunk is not a number. -/
  | badChunkSize
  /-- `request body too large`. -/
  | tooLarge
  | unexpectedEof
  deriving DecidableEq

/-- `read_line`. The text is empty at the end of the connection. -/
def readLine (r : Reader) : Except HttpError (List Char) × Reader :=
  let p := r.readUntil 10 (r.total + 1)
  (if utf8 (lossy p.1) = p.1 then .ok (lossy p.1) else .error .invalidText, p.2)

/-- What is kept of the header fields. -/
structure Fields where
  length : Option Nat := none
  chunked : Bool := false
  contentType : Option (List Char) := none

/-- Header field names, and the value that says that the body comes in chunks. -/
def contentLength : List Char := "content-length".toList
def transferEncoding : List Char := "transfer-encoding".toList
def contentType : List Char := "content-type".toList
def chunkedCoding : List Char := "chunked".toList

variable (c : Char) (fields : Fields)

/-- What a header field changes. -/
def heed (k v : List Char) : Fields :=
  if eqIgnoreAsciiCase k contentLength then { fields with length := fromStrRadix 10 (2 ^ 64) (utf8 v) }
  else if eqIgnoreAsciiCase k transferEncoding && eqIgnoreAsciiCase v chunkedCoding then
    { fields with chunked := true }
  else if eqIgnoreAsciiCase k contentType then { fields with contentType := some v }
  else fields

/-- A line of the header. -/
def heedLine (l : List Char) : Fields :=
  match splitOnce ':' l with
  | some (k, v) => heed fields k (trim v)
  | none => fields

/-- The loop over the header fields, with at most `fuel` rounds. -/
def readFields : Nat → Fields → Reader → Except HttpError Fields × Reader
  | 0, _, r => (.error .unexpectedEof, r)
  | fuel + 1, fields, r =>
    match readLine r with
    | (.error e, r) => (.error e, r)
    | (.ok line, r) => if trimEnd line = [] then (.ok fields, r) else readFields fuel (heedLine fields (trimEnd line)) r

def chunkSize (line : List Char) : Option Nat := fromStrRadix 16 (2 ^ 64) (utf8 (before ';' (trim line)))

/-- The loop over the chunks, with at most `fuel` rounds. -/
def readChunks : Nat → List UInt8 → Reader → Except HttpError (List UInt8) × Reader
  | 0, _, r => (.error .unexpectedEof, r)
  | fuel + 1, body, r =>
    match readLine r with
    | (.error e, r) => (.error e, r)
    | (.ok line, r) =>
      match chunkSize line with
      | none => (.error .badChunkSize, r)
      | some size =>
        if size = 0 then
          match readLine r with
          | (.error e, r) => (.error e, r)
          | (.ok _, r) => (.ok body, r)
        else if MAX_BODY < body.length + size then (.error .tooLarge, r)
        else
          match r.readExact (r.total + 1) size with
          | (none, r) => (.error .unexpectedEof, r)
          | (some data, r) =>
            match readLine r with
            | (.error e, r) => (.error e, r)
            | (.ok _, r) => readChunks fuel (body ++ data) r

/-- The part of `read_request` after the header. -/
def readBody (r : Reader) : Except HttpError (List UInt8) × Reader :=
  if fields.chunked then readChunks (r.total + 1) [] r
  else
    match fields.length with
    | none => (.ok [], r)
    | some n =>
      if MAX_BODY < n then (.error .tooLarge, r)
      else
        match r.readExact (r.total + 1) n with
        | (none, r) => (.error .unexpectedEof, r)
        | (some body, r) => (.ok body, r)

def requestPath (line : List Char) : Except HttpError (List Char) :=
  match words line with
  | method :: path :: _ => if method = "POST".toList then .ok path else .error .unexpectedMethod
  | _ => .error .badRequestLine

/-- `read_request`. There is no request when the peer closed the connection. -/
def readRequest (r : Reader) : Except HttpError (Option Request) × Reader :=
  match readLine r with
  | (.error e, r) => (.error e, r)
  | (.ok line, r) =>
    if line = [] then (.ok none, r)
    else
      match requestPath line with
      | .error e => (.error e, r)
      | .ok path =>
        match readFields (r.total + 1) {} r with
        | (.error e, r) => (.error e, r)
        | (.ok fields, r) =>
          match readBody fields r with
          | (.error e, r) => (.error e, r)
          | (.ok body, r) => (.ok (some ⟨path, fields.contentType, body⟩), r)

/-! ## Requests as they are written -/

/-- A character that can be in a path or in the name of a field. -/
def Visible : Prop := 0x21 ≤ c.toNat ∧ c.toNat ≤ 0x7E
  deriving Decidable

def FieldText : Prop := Visible c ∨ c = ' ' ∨ c = '\t'
  deriving Decidable

/-- A header field: its name, and what is between the colon and the end of the line. -/
abbrev Field := List Char × List Char

/-- A chunk: the digits of its size, its extensions and its data. -/
structure Chunk where
  digits : List Char
  extensions : List Char
  data : List UInt8

inductive Payload
  | plain (body : List UInt8)
  | chunked (chunks : List Chunk) (last : Chunk) (trailers : List Field)

/-- A request as a client writes it. -/
structure Message where
  path : List Char
  fields : List Field
  payload : Payload

def lineBytes (text : List Char) : List UInt8 := utf8 (text ++ CRLF)

def fieldBytes (field : Field) : List UInt8 := lineBytes (field.1 ++ ':' :: field.2)

def Chunk.bytes (c : Chunk) : List UInt8 := lineBytes (c.digits ++ c.extensions) ++ (c.data ++ lineBytes [])

namespace Payload

def bytes : Payload → List UInt8
  | .plain body => body
  | .chunked chunks last trailers =>
    chunks.flatMap Chunk.bytes ++ (lineBytes (last.digits ++ last.extensions) ++
      (trailers.flatMap fieldBytes ++ lineBytes []))

def body : Payload → List UInt8
  | .plain body => body
  | .chunked chunks _ _ => chunks.flatMap Chunk.data

def trailers : Payload → List Field
  | .plain _ => []
  | .chunked _ _ trailers => trailers

end Payload

namespace Message

def requestLine (m : Message) : List Char := "POST ".toList ++ (m.path ++ " HTTP/1.1".toList)

def bytes (m : Message) : List UInt8 :=
  lineBytes m.requestLine ++ (m.fields.flatMap fieldBytes ++ (lineBytes [] ++ m.payload.bytes))

end Message

/-- The field has the name `name`, in lower or upper case. -/
def Field.isNamed (name : List Char) (field : Field) : Bool := eqIgnoreAsciiCase field.1 name

/-- The field says that the body comes in chunks. -/
def Field.isChunked (field : Field) : Bool :=
  field.isNamed transferEncoding && eqIgnoreAsciiCase (trim field.2) chunkedCoding

def Message.request (m : Message) : Request where
  path := m.path
  contentType := (m.fields.reverse.find? (Field.isNamed contentType)).map fun field => trim field.2
  body := m.payload.body

def IsNumber (radix n : Nat) (text : List Char) : Prop :=
  text ≠ [] ∧ (∀ c ∈ text, Visible c) ∧ readDigits radix 0 (utf8 text) = some n

structure Field.WellFormed (field : Field) : Prop where
  named : field.1 ≠ []
  name : ∀ c ∈ field.1, Visible c ∧ c ≠ ':'
  value : ∀ c ∈ field.2, FieldText c

/-- A chunk of `n` bytes. -/
structure Chunk.WellFormed (c : Chunk) (n : Nat) : Prop where
  size : IsNumber 16 n c.digits
  extensions : c.extensions = [] ∨ ∃ rest, c.extensions = ';' :: rest ∧ ∀ d ∈ rest, FieldText d

/-- The body is as the header fields say. -/
def Payload.WellFormed (fields : List Field) : Payload → Prop
  | .plain body =>
    (∀ field ∈ fields, field.isChunked = false) ∧
    (∀ field ∈ fields, field.isNamed contentLength = true → IsNumber 10 body.length (trim field.2)) ∧
    (body = [] ∨ ∃ field ∈ fields, field.isNamed contentLength = true)
  | .chunked chunks last trailers =>
    (∃ field ∈ fields, field.isChunked = true) ∧
    (∀ c ∈ chunks, c.WellFormed c.data.length ∧ c.data ≠ []) ∧ last.WellFormed 0 ∧
    ∀ field ∈ trailers, field.WellFormed

structure Message.WellFormed (m : Message) : Prop where
  path : m.path ≠ [] ∧ ∀ c ∈ m.path, Visible c
  fields : ∀ field ∈ m.fields, field.WellFormed
  payload : m.payload.WellFormed m.fields

/-! ## Messages are read as they were written -/

def LineText (text : List Char) : Prop := ∀ c ∈ text, c.toNat < 128 ∧ c ≠ '\n'

variable {c : Char}

theorem Visible.lineText (h : Visible c) : c.toNat < 128 ∧ c ≠ '\n' := by
  refine ⟨lt_of_le_of_lt h.2 (by decide), ?_⟩
  rintro rfl
  exact absurd h.1 (by decide)

theorem Visible.not_whitespace (h : Visible c) : isWhitespace c = false := by
  obtain ⟨hlow, hhi⟩ := h
  simp only [isWhitespace, Bool.or_eq_false_iff, Bool.and_eq_false_iff, decide_eq_false_iff_not, beq_eq_false_iff_ne]
  omega

theorem FieldText.lineText (h : FieldText c) : c.toNat < 128 ∧ c ≠ '\n' := by
  rcases h with h | rfl | rfl
  · exact h.lineText
  · decide
  · decide

theorem LineText.append {text text' : List Char} (h : LineText text) (h' : LineText text') : LineText (text ++ text') :=
  forall_mem_append.2 ⟨h, h'⟩

variable {text : List Char}

theorem LineText.cons (hc : c.toNat < 128 ∧ c ≠ '\n') (h : LineText text) : LineText (c :: text) :=
  forall_mem_cons.2 ⟨hc, h⟩

variable {r : Reader} {y z : List UInt8} {B : List (List UInt8)}

theorem readLine_ahead (htx : LineText text) (h : r.Ahead (lineBytes text ++ y) z B) :
    ∃ r', readLine r = (.ok (text ++ CRLF), r') ∧ r'.Ahead y z B := by
  have hline : LineText (text ++ ['\r']) := htx.append (LineText.cons (by decide) (forall_mem_nil _))
  have hasc : ∀ c ∈ text ++ ['\r'], c.toNat < 128 := fun c hc => (hline c hc).1
  have hmem : (10 : UInt8) ∉ utf8 (text ++ ['\r']) :=
    notMem_utf8 hasc (c := '\n') (by decide) fun hmem => (hline '\n' hmem).2 rfl
  have hbs : lineBytes text = utf8 (text ++ ['\r']) ++ [10] := by
    rw [lineBytes, show text ++ CRLF = (text ++ ['\r']) ++ ['\n'] by rw [append_assoc]; rfl, utf8_append]
    rfl
  have hah := h
  rw [hbs, append_assoc] at hah
  have hlen := h.length_le
  rw [hbs, length_append, length_append] at hlen
  obtain ⟨r', hrd, hr'⟩ := Reader.readUntil_ahead hmem hah (show _ < r.total + 1 by omega)
  refine ⟨r', ?_, hr'⟩
  rw [readLine, hrd, ← hbs, lineBytes, lossy_utf8, if_pos rfl]

theorem readLine_empty (h : r.Ahead (lineBytes [] ++ y) z B) : ∃ r', readLine r = (.ok CRLF, r') ∧ r'.Ahead y z B :=
  readLine_ahead (forall_mem_nil _) h

/-! ### Header fields -/

variable {field : Field}

theorem Field.WellFormed.lineText (h : field.WellFormed) : LineText (field.1 ++ ':' :: field.2) :=
  LineText.append (fun c hc => (h.name c hc).1.lineText)
    (LineText.cons (by decide) fun c hc => (h.value c hc).lineText)

theorem Field.WellFormed.heedLine_eq (h : field.WellFormed) (fields : Fields) :
    trimEnd (field.1 ++ ':' :: field.2 ++ CRLF) ≠ [] ∧
      heedLine fields (trimEnd (field.1 ++ ':' :: field.2 ++ CRLF)) = heed fields field.1 (trim field.2) := by
  have hcol : ':' ∉ field.1 := fun hmem => (h.name ':' hmem).2 rfl
  rw [trimEnd_crlf, trimEnd_append_cons (by decide)]
  refine ⟨append_ne_nil_of_right_ne_nil _ (cons_ne_nil _ _), ?_⟩
  rw [heedLine, splitOnce_append hcol]
  dsimp only
  rw [trim_trimEnd]

def heedAll (fields : List Field) (kept : Fields) : Fields :=
  fields.foldl (fun kept field => heed kept field.1 (trim field.2)) kept

variable {fuel : Nat}

theorem readFields_ahead {fields : List Field} : ∀ (kept : Fields) {r : Reader},
    (∀ field ∈ fields, field.WellFormed) → r.Ahead (fields.flatMap fieldBytes ++ (lineBytes [] ++ y)) z B →
    fields.length < fuel → ∃ r', readFields fuel kept r = (.ok (heedAll fields kept), r') ∧ r'.Ahead y z B := by
  induction fields generalizing fuel with
  | nil =>
    intro kept r _ h hfu
    obtain ⟨fuel, rfl⟩ : ∃ n, fuel = n + 1 := ⟨fuel - 1, by omega⟩
    obtain ⟨r', hr', hah⟩ := readLine_empty h
    refine ⟨r', ?_, hah⟩
    rw [readFields, hr']
    exact if_pos rfl
  | cons field fields ih =>
    intro kept r hfiel h hfu
    obtain ⟨hfld, hrs⟩ := forall_mem_cons.1 hfiel
    obtain ⟨fuel, rfl⟩ : ∃ n, fuel = n + 1 := ⟨fuel - 1, by omega⟩
    rw [flatMap_cons, append_assoc] at h
    obtain ⟨r₁, hr₁, hah₁⟩ := readLine_ahead hfld.lineText h
    obtain ⟨hne, hheed⟩ := hfld.heedLine_eq kept
    obtain ⟨r', hr', hah⟩ := ih (heed kept field.1 (trim field.2)) hrs hah₁ (lt_of_succ_lt_succ hfu)
    refine ⟨r', ?_, hah⟩
    rw [readFields, hr₁]
    dsimp only
    rw [if_neg hne, hheed, hr']
    rfl

theorem eqIgnoreAsciiCase_trans {k a b : List Char} (ha : eqIgnoreAsciiCase k a)
    (hb : eqIgnoreAsciiCase k b) : eqIgnoreAsciiCase a b :=
  decide_eq_true ((of_decide_eq_true ha).symm.trans (of_decide_eq_true hb))

theorem IsNumber.fromStrRadix_eq {radix n limit : Nat} (h : IsNumber radix n text) :
    fromStrRadix radix limit (utf8 text) = if n < limit then some n else none := by
  obtain ⟨hne, -, hrd⟩ := h
  have hbs : utf8 text ≠ [] := by
    obtain ⟨c, text, rfl⟩ := exists_cons_of_ne_nil hne
    exact append_ne_nil_of_left_ne_nil (length_pos_iff.1 (length_utf8EncodeChar_pos c)) _
  rw [fromStrRadix_of_notMem hbs (notMem_of_readDigits rfl hrd), hrd, Option.filter_some]
  exact if_congr decide_eq_true_iff rfl rfl

section Heed

variable {kept : Fields} {field : Field} {fields : List Field}

variable (kept : Fields) (field : Field)

theorem heed_length : (heed kept field.1 (trim field.2)).length =
    if field.isNamed contentLength then fromStrRadix 10 (2 ^ 64) (utf8 (trim field.2)) else kept.length := by
  unfold heed Field.isNamed
  split
  · rfl
  split
  · rfl
  split <;> rfl

theorem heed_chunked :
    (heed kept field.1 (trim field.2)).chunked = (kept.chunked || field.isChunked) := by
  unfold heed Field.isChunked Field.isNamed
  split
  · next hlen =>
      have hoth : eqIgnoreAsciiCase field.1 transferEncoding = false :=
        Bool.eq_false_iff.2 fun h => absurd (eqIgnoreAsciiCase_trans hlen h) (by decide)
      rw [hoth, Bool.false_and, Bool.or_false]
  · grind

theorem heed_contentType : (heed kept field.1 (trim field.2)).contentType =
    if field.isNamed contentType then some (trim field.2) else kept.contentType := by
  unfold heed Field.isNamed
  split
  · next hlen => rw [if_neg fun h => absurd (eqIgnoreAsciiCase_trans hlen h) (by decide)]
  split
  · next hchun =>
      have htran := (Bool.and_eq_true_iff.1 hchun).1
      rw [if_neg fun h => absurd (eqIgnoreAsciiCase_trans htran h) (by decide)]
  split <;> rfl

theorem heedAll_chunked (fields : List Field) (kept : Fields) :
    (heedAll fields kept).chunked = (kept.chunked || fields.any Field.isChunked) := by
  induction fields generalizing kept with
  | nil => rw [any_nil, Bool.or_false]; rfl
  | cons field fields ih =>
    rw [any_cons, ← Bool.or_assoc, ← heed_chunked]
    exact ih _

theorem heedAll_length {n : Nat}
    (hfiel : ∀ field ∈ fields, field.isNamed contentLength → IsNumber 10 n (trim field.2)) (kept : Fields) :
    (heedAll fields kept).length =
      if fields.any (Field.isNamed contentLength) then if n < 2 ^ 64 then some n else none else kept.length := by
  induction fields generalizing kept with
  | nil => rfl
  | cons field fields ih =>
    obtain ⟨hfld, hrs⟩ := forall_mem_cons.1 hfiel
    refine (ih hrs _).trans ?_
    rw [any_cons]
    cases hany : fields.any (Field.isNamed contentLength) with
    | true => rw [if_pos rfl, Bool.or_true, if_pos rfl]
    | false =>
      rw [if_neg Bool.false_ne_true, Bool.or_false, heed_length]
      cases hnam : field.isNamed contentLength with
      | false => rfl
      | true => exact (hfld hnam).fromStrRadix_eq

theorem heedAll_contentType (fields : List Field) (kept : Fields) : (heedAll fields kept).contentType =
    ((fields.reverse.find? (Field.isNamed contentType)).map fun field => trim field.2).or kept.contentType := by
  induction fields generalizing kept with
  | nil => rfl
  | cons field fields ih =>
    refine (ih _).trans ?_
    rw [reverse_cons, find?_append, heed_contentType]
    cases (fields.reverse.find? (Field.isNamed contentType)) with
    | some found => rfl
    | none => grind

end Heed

/-! ### Bodies -/

theorem trimEnd_visible (h : ∀ c ∈ text, Visible c) : trimEnd text = text := by
  rcases eq_nil_or_concat text with rfl | ⟨init, last, rfl⟩
  · rfl
  · rw [concat_eq_append] at h ⊢
    exact trimEnd_of_last (h last (by simp)).not_whitespace

theorem trim_append (hne : text ≠ []) (h : ∀ c ∈ text, Visible c) (rest : List Char) :
    trim (text ++ rest) = trimEnd (text ++ rest) := by
  obtain ⟨c, text, rfl⟩ := exists_cons_of_ne_nil hne
  have hc := (h c mem_cons_self).not_whitespace
  rw [trim, cons_append, dropWhile_cons_of_neg (by rw [hc]; exact Bool.false_ne_true)]

theorem IsNumber.semicolon_notMem {n : Nat} (h : IsNumber 16 n text) : ';' ∉ text := by
  intro hmem
  have hbt : (59 : UInt8) ∈ utf8 text := by
    rw [utf8_ascii fun c hc => (h.2.1 c hc).lineText.1]
    exact mem_map.2 ⟨';', hmem, rfl⟩
  exact notMem_of_readDigits rfl h.2.2 hbt

section Chunk

variable {c : Chunk} {n : Nat}

theorem Chunk.WellFormed.lineText (h : c.WellFormed n) : LineText (c.digits ++ c.extensions) := by
  refine LineText.append (fun d hd => (h.size.2.1 d hd).lineText) ?_
  rcases h.extensions with hnil | ⟨rest, hrs, htx⟩
  · rw [hnil]
    exact forall_mem_nil _
  · rw [hrs]
    exact LineText.cons (by decide) fun d hd => (htx d hd).lineText

theorem Chunk.WellFormed.chunkSize_eq (h : c.WellFormed n) :
    chunkSize (c.digits ++ c.extensions ++ CRLF) = if n < 2 ^ 64 then some n else none := by
  obtain ⟨hne, hvis, -⟩ := h.size
  have hbef : before ';' (trim (c.digits ++ c.extensions ++ CRLF)) = c.digits := by
    rw [append_assoc, trim_append hne hvis, ← append_assoc, trimEnd_crlf]
    rcases h.extensions with hnil | ⟨rest, hrs, -⟩
    · rw [hnil, append_nil, trimEnd_visible hvis]
      exact before_of_notMem h.size.semicolon_notMem
    · rw [hrs, trimEnd_append_cons (by decide)]
      exact before_append h.size.semicolon_notMem _
  rw [chunkSize, hbef]
  exact h.size.fromStrRadix_eq

end Chunk

theorem MAX_BODY_lt : MAX_BODY < 2 ^ 64 := by decide

/-- Chunks are put together. One line is read after the last of them. -/
theorem readChunks_ahead {chunks : List Chunk} {last : Chunk} (hla : last.WellFormed 0) {line : List Char}
    (hline : LineText line) :
    ∀ (body : List UInt8) {r : Reader}, (∀ c ∈ chunks, c.WellFormed c.data.length ∧ c.data ≠ []) →
    body.length + (chunks.flatMap Chunk.data).length ≤ MAX_BODY →
    r.Ahead (chunks.flatMap Chunk.bytes ++ (lineBytes (last.digits ++ last.extensions) ++ (lineBytes line ++ y))) z B →
    chunks.length < fuel →
    ∃ r', readChunks fuel body r = (.ok (body ++ chunks.flatMap Chunk.data), r') ∧ r'.Ahead y z B := by
  induction chunks generalizing fuel with
  | nil =>
    intro body r _ _ h hfu
    obtain ⟨fuel, rfl⟩ : ∃ n, fuel = n + 1 := ⟨fuel - 1, by omega⟩
    obtain ⟨r₁, hr₁, hah₁⟩ := readLine_ahead hla.lineText h
    obtain ⟨r', hr', hah⟩ := readLine_ahead hline hah₁
    refine ⟨r', ?_, hah⟩
    rw [readChunks, hr₁]
    dsimp only
    rw [hla.chunkSize_eq, if_pos (by decide)]
    dsimp only
    rw [if_pos rfl, hr', flatMap_nil, append_nil]
  | cons c chunks ih =>
    intro body r hchs hbo h hfu
    obtain ⟨⟨hc, hda⟩, hrs⟩ := forall_mem_cons.1 hchs
    obtain ⟨fuel, rfl⟩ : ∃ n, fuel = n + 1 := ⟨fuel - 1, by omega⟩
    rw [flatMap_cons, length_append] at hbo
    rw [flatMap_cons, Chunk.bytes, append_assoc, append_assoc, append_assoc] at h
    obtain ⟨r₁, hr₁, hah₁⟩ := readLine_ahead hc.lineText h
    have hlen := hah₁.length_le
    rw [length_append] at hlen
    obtain ⟨r₂, hr₂, hah₂⟩ := Reader.readExact_ahead hah₁ (show _ ≤ r₁.total + 1 by omega)
    obtain ⟨r₃, hr₃, hah₃⟩ := readLine_empty hah₂
    obtain ⟨r', hr', hah⟩ := ih (body ++ c.data) hrs (by rw [length_append]; omega) hah₃ (lt_of_succ_lt_succ hfu)
    refine ⟨r', ?_, hah⟩
    have hsm := MAX_BODY_lt
    have hpos := length_pos_iff.2 hda
    rw [readChunks, hr₁]
    dsimp only
    rw [hc.chunkSize_eq, if_pos (by omega)]
    dsimp only
    rw [if_neg (by omega), if_neg (by omega), hr₂]
    dsimp only
    rw [hr₃]
    dsimp only
    rw [hr', append_assoc, flatMap_cons]

theorem length_le_flatMap {α : Type} {f : α → List UInt8} (hf : ∀ a, f a ≠ []) (l : List α) :
    l.length ≤ (l.flatMap f).length := by
  induction l with
  | nil => exact le_refl 0
  | cons a l ih =>
    have hpos := length_pos_iff.2 (hf a)
    rw [length_cons, flatMap_cons, length_append]
    omega

theorem lineBytes_ne_nil (text : List Char) : lineBytes text ≠ [] := by
  rw [lineBytes, utf8_append]
  exact append_ne_nil_of_right_ne_nil _ (by decide)

theorem readChunks_large {chunks : List Chunk} : ∀ (body : List UInt8) {r : Reader},
    (∀ c ∈ chunks, c.WellFormed c.data.length ∧ c.data ≠ []) → body.length ≤ MAX_BODY →
    MAX_BODY < body.length + (chunks.flatMap Chunk.data).length → r.Ahead (chunks.flatMap Chunk.bytes ++ y) z B →
    ∃ e, (readChunks fuel body r).1 = .error e := by
  induction chunks generalizing fuel with
  | nil => exact fun body _ _ hbo hlg _ => absurd hlg (not_lt.2 hbo)
  | cons c chunks ih =>
    intro body r hchs hbo hlg h
    cases fuel with
    | zero => exact ⟨_, rfl⟩
    | succ fuel =>
      obtain ⟨⟨hc, hda⟩, hrs⟩ := forall_mem_cons.1 hchs
      rw [flatMap_cons, length_append] at hlg
      rw [flatMap_cons, Chunk.bytes, append_assoc, append_assoc, append_assoc] at h
      obtain ⟨r₁, hr₁, hah₁⟩ := readLine_ahead hc.lineText h
      have hpos := length_pos_iff.2 hda
      rw [readChunks, hr₁]
      dsimp only
      rw [hc.chunkSize_eq]
      by_cases hsm : c.data.length < 2 ^ 64
      · rw [if_pos hsm]
        dsimp only
        rw [if_neg (by omega)]
        by_cases hover : MAX_BODY < body.length + c.data.length
        · rw [if_pos hover]
          exact ⟨_, rfl⟩
        have hlen := hah₁.length_le
        rw [length_append] at hlen
        obtain ⟨r₂, hr₂, hah₂⟩ := Reader.readExact_ahead hah₁ (show _ ≤ r₁.total + 1 by omega)
        obtain ⟨r₃, hr₃, hah₃⟩ := readLine_empty hah₂
        rw [if_neg hover, hr₂]
        dsimp only
        rw [hr₃]
        refine ih (body ++ c.data) hrs ?_ ?_ hah₃
        · rw [length_append]
          omega
        · rw [length_append]
          omega
      · rw [if_neg hsm]
        exact ⟨_, rfl⟩

namespace Payload

def lastLine : List Field → List Char
  | [] => []
  | field :: _ => field.1 ++ ':' :: field.2

/-- The part of the body that is read. -/
def used : Payload → List UInt8
  | .plain body => body
  | .chunked chunks last trailers =>
    chunks.flatMap Chunk.bytes ++ (lineBytes (last.digits ++ last.extensions) ++ lineBytes (lastLine trailers))

/-- The part of the body that is not read: only one line is read after the last chunk. -/
def leftover : Payload → List UInt8
  | .chunked _ _ (_ :: trailers) => trailers.flatMap fieldBytes ++ lineBytes []
  | _ => []

theorem used_append_leftover (payload : Payload) : payload.used ++ payload.leftover = payload.bytes := by
  cases payload with
  | plain body => exact append_nil body
  | chunked chunks last trailers =>
    cases trailers with
    | nil => exact append_nil _
    | cons field trailers => simp only [used, leftover, bytes, lastLine, fieldBytes, flatMap_cons, append_assoc]

theorem leftover_of_trailers {payload : Payload} (h : payload.trailers = []) : payload.leftover = [] := by
  cases payload with
  | plain body => rfl
  | chunked chunks last trailers =>
    have hnil : trailers = [] := h
    rw [hnil]
    rfl

theorem leftover_ne_nil {payload : Payload} (h : payload.trailers ≠ []) : payload.leftover ≠ [] := by
  cases payload with
  | plain body => exact absurd rfl h
  | chunked chunks last trailers =>
    cases trailers with
    | nil => exact absurd rfl h
    | cons field trailers => exact append_ne_nil_of_right_ne_nil _ (lineBytes_ne_nil [])

end Payload

section Body

variable {fields : List Field} {payload : Payload}

theorem heedAll_plain {body : List UInt8} (h : (Payload.plain body).WellFormed fields) :
    (heedAll fields {}).chunked = false ∧ ((body = [] ∧ (heedAll fields {}).length = none) ∨
      (heedAll fields {}).length = if body.length < 2 ^ 64 then some body.length else none) := by
  obtain ⟨hpl, hnum, hemp⟩ := h
  rw [heedAll_chunked, heedAll_length hnum, Bool.false_or]
  constructor
  · grind
  · grind

theorem heedAll_of_chunked {chunks : List Chunk} {last : Chunk} {trailers : List Field}
    (h : (Payload.chunked chunks last trailers).WellFormed fields) : (heedAll fields {}).chunked := by
  obtain ⟨⟨field, hfld, hcod⟩, -⟩ := h
  rw [heedAll_chunked, Bool.false_or, any_eq_true]
  exact ⟨field, hfld, hcod⟩

theorem Payload.lastLine_lineText {trailers : List Field} (h : ∀ field ∈ trailers, field.WellFormed) :
    LineText (lastLine trailers) := by
  cases trailers with
  | nil => exact forall_mem_nil _
  | cons field trailers => exact (h field mem_cons_self).lineText

theorem readBody_ahead (hpay : payload.WellFormed fields) (hsm : payload.body.length ≤ MAX_BODY)
    (h : r.Ahead (payload.used ++ y) z B) :
    ∃ r', readBody (heedAll fields {}) r = (.ok payload.body, r') ∧ r'.Ahead y z B := by
  have hbound := MAX_BODY_lt
  cases payload with
  | plain body =>
    have hsm : body.length ≤ MAX_BODY := hsm
    have hah : r.Ahead (body ++ y) z B := h
    obtain ⟨hchun, hlen⟩ := heedAll_plain hpay
    rw [readBody, hchun, if_neg Bool.false_ne_true]
    rcases hlen with ⟨rfl, hno⟩ | hlen
    · rw [hno]
      exact ⟨r, rfl, hah⟩
    have htot := hah.length_le
    rw [length_append] at htot
    obtain ⟨r', hr', hrs⟩ := Reader.readExact_ahead hah (show _ ≤ r.total + 1 by omega)
    refine ⟨r', ?_, hrs⟩
    rw [hlen, if_pos (lt_of_le_of_lt hsm hbound)]
    dsimp only
    rw [if_neg (not_lt.2 hsm), hr']
    rfl
  | chunked chunks last trailers =>
    have hchun := heedAll_of_chunked hpay
    obtain ⟨-, hchs, hla, htrs⟩ := hpay
    rw [Payload.used, append_assoc, append_assoc] at h
    have hcnt := length_le_flatMap (f := Chunk.bytes)
      (fun c => append_ne_nil_of_left_ne_nil (lineBytes_ne_nil _) _) chunks
    have htot := h.length_le
    rw [length_append] at htot
    have hsum : ([] : List UInt8).length + (chunks.flatMap Chunk.data).length ≤ MAX_BODY := by
      rw [length_nil, zero_add]
      exact hsm
    rw [readBody, hchun, if_pos rfl]
    exact readChunks_ahead hla (Payload.lastLine_lineText htrs) [] hchs hsum h (by omega)

theorem readBody_large (hpay : payload.WellFormed fields) (hlg : MAX_BODY < payload.body.length)
    (h : r.Ahead (payload.used ++ y) z B) : (readBody (heedAll fields {}) r).1 ≠ .ok payload.body := by
  cases payload with
  | plain body =>
    have hlg : MAX_BODY < body.length := hlg
    have hne : body ≠ [] := length_pos_iff.1 (zero_lt_of_lt hlg)
    obtain ⟨hchun, hlen⟩ := heedAll_plain hpay
    rw [readBody, hchun, if_neg Bool.false_ne_true, hlen.resolve_left fun h => hne h.1]
    by_cases hft : body.length < 2 ^ 64
    · grind
    -- a length of more than 64 bits is no length
    rw [if_neg hft]
    intro heq
    exact hne (Except.ok.inj heq).symm
  | chunked chunks last trailers =>
    have hchun := heedAll_of_chunked hpay
    obtain ⟨-, hchs, -⟩ := hpay
    have hlg : MAX_BODY < ([] : List UInt8).length + (chunks.flatMap Chunk.data).length := by
      rw [length_nil, zero_add]
      exact hlg
    rw [Payload.used, append_assoc] at h
    rw [readBody, hchun, if_pos rfl]
    obtain ⟨e, he⟩ : ∃ e, (readChunks (r.total + 1) [] r).1 = .error e := readChunks_large [] hchs (zero_le _) hlg h
    rw [he]
    intro heq
    cases heq

end Body

/-! ### Requests -/

theorem words_requestLine {first path : List Char} (hfst : first ≠ [] ∧ ∀ c ∈ first, Visible c)
    (hpa : path ≠ [] ∧ ∀ c ∈ path, Visible c) :
    words (first ++ ' ' :: (path ++ " HTTP/1.1".toList) ++ CRLF) = [first, path, "HTTP/1.1".toList] := by
  have hline : first ++ ' ' :: (path ++ " HTTP/1.1".toList) ++ CRLF =
      first ++ ' ' :: (path ++ ' ' :: ("HTTP/1.1".toList ++ '\r' :: ['\n'])) := by
    rw [append_assoc, cons_append, append_assoc]
    rfl
  rw [hline, words_cons hfst.1 (fun c hc => (hfst.2 c hc).not_whitespace) (by decide),
    words_cons hpa.1 (fun c hc => (hpa.2 c hc).not_whitespace) (by decide),
    words_cons (by decide) (forall_mem_of_all (by decide)) (by decide)]
  rfl

theorem visible_post : "POST".toList ≠ [] ∧ ∀ c ∈ "POST".toList, Visible c := ⟨by decide, forall_mem_of_all (by decide)⟩

theorem visible_ost : "OST".toList ≠ [] ∧ ∀ c ∈ "OST".toList, Visible c := ⟨by decide, forall_mem_of_all (by decide)⟩

theorem requestLine_lineText {first path : List Char} (hfst : ∀ c ∈ first, Visible c)
    (hpa : ∀ c ∈ path, Visible c) : LineText (first ++ ' ' :: (path ++ " HTTP/1.1".toList)) := by
  refine LineText.append (fun c hc => (hfst c hc).lineText) (LineText.cons (by decide) ?_)
  refine LineText.append (fun c hc => (hpa c hc).lineText) ?_
  exact forall_mem_of_all (by decide)

theorem requestPath_field (h : field.WellFormed) : ∃ e, requestPath (field.1 ++ ':' :: field.2 ++ CRLF) = .error e := by
  have hword : ∀ c ∈ field.1 ++ [':'], isWhitespace c = false := by
    intro c hc
    rcases mem_append.1 hc with hc | hc
    · exact (h.name c hc).1.not_whitespace
    · rw [mem_singleton.1 hc]
      decide
  obtain ⟨tail, others, hwor⟩ := words_line (append_ne_nil_of_right_ne_nil _ (by decide)) hword field.2
  have hmet : field.1 ++ [':'] ++ tail ≠ "POST".toList := by
    intro heq
    have hmem : ':' ∈ "POST".toList := by grind
    revert hmem
    decide
  have hline : field.1 ++ ':' :: field.2 ++ CRLF = field.1 ++ [':'] ++ (field.2 ++ CRLF) := by
    rw [append_assoc, append_assoc]
    rfl
  rw [hline, requestPath, hwor]
  cases others with
  | nil => exact ⟨_, rfl⟩
  | cons path others =>
    dsimp only
    rw [if_neg hmet]
    exact ⟨_, rfl⟩

namespace Message

variable {m : Message}

/-- The part of a message that is read. -/
def used (m : Message) : List UInt8 :=
  lineBytes m.requestLine ++ (m.fields.flatMap fieldBytes ++ (lineBytes [] ++ m.payload.used))

theorem used_append_leftover (m : Message) : m.used ++ m.payload.leftover = m.bytes := by
  rw [used, bytes, ← m.payload.used_append_leftover]
  simp

theorem used_of_trailers (h : m.payload.trailers = []) : m.used = m.bytes := by
  rw [← m.used_append_leftover, Payload.leftover_of_trailers h, append_nil]

theorem used_ne_nil (m : Message) : m.used ≠ [] := append_ne_nil_of_left_ne_nil (lineBytes_ne_nil _) _

theorem requestLine_eq (m : Message) : m.requestLine = "POST".toList ++ ' ' :: (m.path ++ " HTTP/1.1".toList) := by
  rfl

end Message

variable {m : Message}

theorem readRequest_head (hm : m.WellFormed) (h : r.Ahead (m.used ++ y) z B) :
    ∃ r₂, r₂.Ahead (m.payload.used ++ y) z B ∧ readRequest r = match readBody (heedAll m.fields {}) r₂ with
        | (.error e, r) => (.error e, r)
        | (.ok body, r) => (.ok (some { m.request with body := body }), r) := by
  have hpa := hm.path
  rw [Message.used, append_assoc, append_assoc, append_assoc] at h
  have hline : LineText m.requestLine := by
    exact requestLine_lineText visible_post.2 hpa.2
  obtain ⟨r₁, hr₁, hah₁⟩ := readLine_ahead hline h
  have hcnt := length_le_flatMap (f := fieldBytes) (fun field => lineBytes_ne_nil _) m.fields
  have htot := hah₁.length_le
  rw [length_append] at htot
  obtain ⟨r₂, hr₂, hah₂⟩ := readFields_ahead {} hm.fields hah₁ (show _ < r₁.total + 1 by omega)
  refine ⟨r₂, hah₂, ?_⟩
  have hne : m.requestLine ++ CRLF ≠ [] := append_ne_nil_of_right_ne_nil _ (by decide)
  have hreq : requestPath (m.requestLine ++ CRLF) = .ok m.path := by
    rw [m.requestLine_eq, requestPath, words_requestLine visible_post hpa]
    exact if_pos rfl
  rw [readRequest, hr₁]
  dsimp only
  rw [if_neg hne, hreq]
  rw [hr₂]
  dsimp only
  rw [heedAll_contentType, Option.or_none]
  rfl

/-- A message is read as the request that it is, and nothing else is used up. -/
theorem readRequest_ahead (hm : m.WellFormed) (hsm : m.payload.body.length ≤ MAX_BODY)
    (h : r.Ahead (m.used ++ y) z B) : ∃ r', readRequest r = (.ok (some m.request), r') ∧ r'.Ahead y z B := by
  obtain ⟨r₂, hah₂, hrd⟩ := readRequest_head hm h
  obtain ⟨r', hr', hah⟩ := readBody_ahead hm.payload hsm hah₂
  refine ⟨r', ?_, hah⟩
  rw [hrd, hr']
  rfl

theorem readRequest_large (hm : m.WellFormed) (hlg : MAX_BODY < m.payload.body.length)
    (h : r.Ahead (m.used ++ y) z B) : (readRequest r).1 ≠ .ok (some m.request) := by
  obtain ⟨r₂, hah₂, hrd⟩ := readRequest_head hm h
  have hbo := readBody_large hm.payload hlg hah₂
  rw [hrd]
  intro heq
  split at heq
  · cases heq
  next body r' hread' =>
    rw [hread'] at hbo
    have hreq := Option.some.inj (Except.ok.inj heq)
    exact hbo (congrArg Except.ok (congrArg Request.body hreq))

theorem readRequest_refused {line : List Char} (hline : LineText line) {e : HttpError}
    (he : requestPath (line ++ CRLF) = .error e) (h : r.Ahead (lineBytes line ++ y) z B) :
    (readRequest r).1 = .error e := by
  obtain ⟨r₁, hr₁, -⟩ := readLine_ahead hline h
  have hne : line ++ CRLF ≠ [] := append_ne_nil_of_right_ne_nil _ (by decide)
  rw [readRequest, hr₁]
  dsimp only
  rw [if_neg hne, he]

theorem readRequest_leftover (hm : m.WellFormed) (htrs : m.payload.trailers ≠ [])
    (h : r.Ahead (m.payload.leftover ++ y) z B) : ∃ e, (readRequest r).1 = .error e := by
  obtain ⟨path, fields, payload⟩ := m
  cases payload with
  | plain body => exact absurd rfl htrs
  | chunked chunks last trailers =>
    obtain ⟨-, -, -, hfiel⟩ := hm.payload
    cases trailers with
    | nil => exact absurd rfl htrs
    | cons field trailers =>
      obtain ⟨-, hfiel⟩ := forall_mem_cons.1 hfiel
      cases trailers with
      | nil =>
        have hah : r.Ahead (lineBytes [] ++ y) z B := h
        exact ⟨.badRequestLine, readRequest_refused (forall_mem_nil _) rfl hah⟩
      | cons field trailers =>
        have hfld := hfiel field mem_cons_self
        obtain ⟨e, he⟩ := requestPath_field hfld
        have hah : r.Ahead (lineBytes (field.1 ++ ':' :: field.2) ++
            (trailers.flatMap fieldBytes ++ lineBytes [] ++ y)) z B := by
          simpa only [Payload.leftover, flatMap_cons, fieldBytes, append_assoc] using h
        exact ⟨e, readRequest_refused hfld.lineText he hah⟩

theorem readRequest_beheaded (hm : m.WellFormed) (h : r.Ahead (m.bytes.tail ++ y) z B) :
    ∃ e, (readRequest r).1 = .error e := by
  have hpa := hm.path
  have hline := requestLine_lineText visible_ost.2 hpa.2
  have herr : requestPath ("OST".toList ++ ' ' :: (m.path ++ " HTTP/1.1".toList) ++ CRLF) =
      .error .unexpectedMethod := by
    rw [requestPath, words_requestLine visible_ost hpa]
    exact if_neg (by decide)
  have hbs : m.bytes.tail = lineBytes ("OST".toList ++ ' ' :: (m.path ++ " HTTP/1.1".toList)) ++
      (m.fields.flatMap fieldBytes ++ (lineBytes [] ++ m.payload.bytes)) := by
    rfl
  rw [hbs, append_assoc] at h
  exact ⟨_, readRequest_refused hline herr h⟩

theorem readRequest_end : readRequest ⟨[], []⟩ = (.ok none, ⟨[], []⟩) := by
  have hline : readLine ⟨[], []⟩ = (.ok [], ⟨[], []⟩) := rfl
  rw [readRequest, hline]
  exact if_pos rfl

end KaiT2en.Drop
