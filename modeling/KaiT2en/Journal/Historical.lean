import KaiT2en.Lib.Text
import Mathlib.Tactic

/-!
# Records of a sysdiagnose log

`parse_sysdiagnose` of `t2-journal/cli/historical.rs`. A line with a timestamp in front of its first `: ` begins a record,
and a line without `: ` is added to the last one. A line with `: ` behind something else is dropped (`line_dropped`).
Text is a list of characters.
-/

namespace KaiT2en.Journal

open List

structure Record where
  timestampNs : Int
  (source process subsystem category : String)
  message : List Char
  deriving DecidableEq

def record (timestampNs : Int) (process : String) (message : List Char) : Record :=
  ⟨timestampNs, "T2", process, "", "", message⟩

/-- `str::lines`: the carriage return before a line feed is dropped, and an empty rest of the text is no line. -/
def lines (text : List Char) : List (List Char) :=
  let parts := text.splitOn '\n'
  parts.dropLast.map (fun l => if l.getLast? = some '\r' then l.dropLast else l) ++
    parts.getLast?.toList.filter (· ≠ [])

/-- `split_once(": ")`. -/
def splitOnce : List Char → Option (List Char × List Char)
  | ':' :: ' ' :: rest => some ([], rest)
  | c :: rest => (splitOnce rest).map fun p => (c :: p.1, p.2)
  | [] => none

section Parse

/- What `chrono` makes of a timestamp: if it parses, the sum with the adjustment in nanoseconds, or 0 if these do not
fit; the sum is missing where it panics. -/
variable (time : List Char → Option (Option Int))

def parseLine (firstRecord : Nat) (records : List Record) (line : List Char) : Option (List Record) :=
  match splitOnce line with
  | none =>
    some <| if firstRecord < records.length then
      records.dropLast ++ records.getLast?.toList.map fun last =>
        { last with message := last.message ++ '\n' :: line }
    else records
  | some (raw, message) =>
    match time raw with
    | none => some records
    | some sum => sum.map fun ns => records ++ [record ns "sysdiagnose" message]

def parseSysdiagnose (records : List Record) (text : List Char) : Option (List Record) :=
  (lines text).foldlM (parseLine time records.length) records

def startsRecord (line : List Char) : Bool := (splitOnce line).any fun p => (time p.1).isSome

/-- The line without the timestamp and the separator of a record. -/
def stripped (line : List Char) : List Char :=
  if startsRecord time line then (splitOnce line).elim line Prod.snd else line

/-- What stands before the first `: ` of a line is a timestamp, to which the adjustment can be added. -/
def Timed (line : List Char) : Bool := (splitOnce line).all fun p => (time p.1).join.isSome

def messageLines (records : List Record) : List (List Char) := records.flatMap (·.message.splitOn '\n')

theorem notMem_of_mem_lines {text line : List Char} (h : line ∈ lines text) : '\n' ∉ line := by
  simp only [lines, mem_append, mem_map, mem_filter, Option.mem_toList] at h
  rcases h with ⟨l, hl, rfl⟩ | ⟨hl, -⟩
  · have hnot := Lib.Text.notMem_of_mem_splitOn (mem_of_mem_dropLast hl)
    split
    · exact fun hm => hnot (mem_of_mem_dropLast hm)
    · exact hnot
  · exact Lib.Text.notMem_of_mem_splitOn (mem_of_getLast? hl)

theorem mem_of_splitOnce {line : List Char} {p : List Char × List Char} (h : splitOnce line = some p) {c : Char}
    (hc : c ∈ p.2) : c ∈ line := by
  fun_induction splitOnce line generalizing p with
  | case1 rest =>
    cases h
    exact mem_cons_of_mem _ (mem_cons_of_mem _ hc)
  | case2 d rest _ ih =>
    obtain ⟨q, hq, rfl⟩ := Option.map_eq_some_iff.1 h
    exact mem_cons_of_mem _ (ih hq hc)
  | case3 => cases h

variable {time} (old : List Record) {new : List Record} {line : List Char}

/-- A timed line adds one line to the messages. Another one adds none, or panics. -/
theorem parseLine_messages (hnew : new ≠ [] ∨ startsRecord time line) (hnl : '\n' ∉ line) :
    (parseLine time old.length (old ++ new) line = none ∧ ¬Timed time line) ∨
      ∃ new', parseLine time old.length (old ++ new) line = some (old ++ new') ∧ new' ≠ [] ∧
        messageLines new' = messageLines new ++ ([line].filter (Timed time)).map (stripped time) := by
  unfold startsRecord at hnew
  unfold parseLine
  cases hsp : splitOnce line with
  | none =>
    obtain ⟨new, last, rfl⟩ := (eq_nil_or_concat' new).resolve_left (hnew.resolve_right (by simp [hsp]))
    refine .inr ⟨new ++ [{ last with message := last.message ++ '\n' :: line }], ?_, by simp, ?_⟩
    · simp [← append_assoc]
    · simp [messageLines, Timed, stripped, startsRecord, hsp, splitOn_append_cons_self, splitOn_eq_singleton hnl]
  | some p =>
    have hms : '\n' ∉ p.2 := fun hc => hnl (mem_of_splitOnce hsp hc)
    rcases hti : time p.1 with _ | _ | ns
    · exact .inr ⟨new, by simp [hti], by simpa [hsp, hti] using hnew, by simp [Timed, hsp, hti]⟩
    · exact .inl (by simp [Timed, hsp, hti])
    · refine .inr ⟨new ++ [record ns "sysdiagnose" p.2], by simp [hti], by simp, ?_⟩
      simp [messageLines, Timed, stripped, startsRecord, hsp, hti, record, splitOn_eq_singleton hms]

theorem foldlM_messages (new : List Record) {ls : List (List Char)} (hnew : new ≠ [] ∨ ls.head?.any (startsRecord time))
    (hnl : ∀ line ∈ ls, '\n' ∉ line) :
    (ls.foldlM (parseLine time old.length) (old ++ new) = none ∧ ¬∀ line ∈ ls, Timed time line) ∨
      ∃ new', ls.foldlM (parseLine time old.length) (old ++ new) = some (old ++ new') ∧
        messageLines new' = messageLines new ++ (ls.filter (Timed time)).map (stripped time) := by
  induction ls generalizing new with
  | nil => exact .inr ⟨new, rfl, by simp⟩
  | cons line ls ih =>
    obtain ⟨hline, hnl⟩ := forall_mem_cons.1 hnl
    rw [foldlM_cons, forall_mem_cons]
    rcases parseLine_messages old hnew hline with ⟨hpa, hnot⟩ | ⟨new', hpa, hne, hms⟩ <;> rw [hpa]
    · exact .inl ⟨rfl, fun h => hnot h.1⟩
    · refine (ih new' (.inl hne) hnl).imp (.imp_right (mt And.right)) fun ⟨new, hfo, hms'⟩ => ⟨new, hfo, ?_⟩
      rw [hms', hms, append_assoc, ← map_append, ← filter_append]
      rfl

/-- The messages have all lines of a text that begins with a record exactly if every line with `: ` is timed. -/
theorem sysdiagnose_lines_iff {text : List Char}
    (hfirst : (lines text).head?.any (startsRecord time)) :
    (∃ new, parseSysdiagnose time old text = some (old ++ new) ∧
        messageLines new = (lines text).map (stripped time)) ↔
      ∀ line ∈ lines text, Timed time line := by
  unfold parseSysdiagnose
  have hall := foldlM_messages old [] (.inr hfirst) fun _ => notMem_of_mem_lines
  rw [append_nil] at hall
  rcases hall with ⟨hfo, hnot⟩ | ⟨new, hfo, hms⟩
  · simp [hfo, hnot]
  · constructor
    · rintro ⟨new', hfo', hms'⟩
      cases append_cancel_left (Option.some.inj (hfo.symm.trans hfo'))
      have hlen := congrArg length (hms.symm.trans hms')
      rw [messageLines, flatMap_nil, nil_append, length_map, length_map] at hlen
      exact length_filter_eq_length_iff.1 hlen
    · intro h
      rw [filter_eq_self.2 h] at hms
      exact ⟨new, hfo, hms⟩

end Parse

def timeOf (raw : List Char) : Option (Option Int) := if raw = "2026-01-01 00:00:00".toList then some (some 0) else none

def continuedLog : List Char := "2026-01-01 00:00:00: a\r\nb:c\n".toList

theorem continuedLog_lines : (lines continuedLog).head?.any (startsRecord timeOf) ∧
    ∃ new, parseSysdiagnose timeOf [] continuedLog = some ([] ++ new) ∧
      messageLines new = (lines continuedLog).map (stripped timeOf) :=
  ⟨by decide, (sysdiagnose_lines_iff [] (by decide)).2 (by decide)⟩

theorem line_dropped :
    lines "2026-01-01 00:00:00: a\nfoo: bar".toList = ["2026-01-01 00:00:00: a".toList, "foo: bar".toList] ∧
      parseSysdiagnose timeOf [] "2026-01-01 00:00:00: a\nfoo: bar".toList =
        some [record 0 "sysdiagnose" ['a']] := by decide

end KaiT2en.Journal
