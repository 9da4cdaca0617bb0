import Mathlib.Data.List.Basic

/-!
# A buffered reader

A source of bytes gives what has arrived: each read returns a beginning of the next segment. `Reader` is `BufReader`
over such a source, which reads ahead into a buffer of `CAPACITY` bytes.

`r.Ahead y z B` says that the bytes `y` come first, in the buffer and in segments, that the bytes `z` arrive together
with the end of `y`, and that the segments `B` follow. `readUntil_ahead` and `readExact_ahead` say what is read in
these terms, for every segmentation. When `y` is used up, exactly `z` is in the buffer and exactly `B` is left in the
source (`Ahead.done`): a reader that is given up then takes `z` with it.
-/

namespace KaiT2en.Lib.BufReader

open List

def CAPACITY : Nat := 8192

/-- A read of at most `limit` bytes. An empty result is the end of the source. -/
def pull (limit : Nat) : List (List UInt8) → List UInt8 × List (List UInt8)
  | [] => ([], [])
  | segment :: rest => if segment.length ≤ limit then (segment, rest) else (segment.take limit, segment.drop limit :: rest)

structure Reader where
  buf : List UInt8
  source : List (List UInt8)

namespace Reader

/-- `fill_buf`. -/
def fill (r : Reader) : Reader := if r.buf = [] then ⟨(pull CAPACITY r.source).1, (pull CAPACITY r.source).2⟩ else r

/-- `read_until`, with at most `fuel` rounds. -/
def readUntil (delim : UInt8) : Nat → Reader → List UInt8 × Reader
  | 0, r => ([], r)
  | fuel + 1, r =>
    let r := r.fill
    if r.buf = [] then ([], r)
    else if delim ∈ r.buf then (r.buf.take (r.buf.idxOf delim + 1), ⟨r.buf.drop (r.buf.idxOf delim + 1), r.source⟩)
    else
      let p := readUntil delim fuel ⟨[], r.source⟩
      (r.buf ++ p.1, p.2)

/-- `read` into `n` bytes. Large reads go past an empty buffer. -/
def read (n : Nat) (r : Reader) : List UInt8 × Reader :=
  if r.buf = [] ∧ CAPACITY ≤ n then ((pull n r.source).1, ⟨[], (pull n r.source).2⟩)
  else (r.fill.buf.take n, ⟨r.fill.buf.drop n, r.fill.source⟩)

/-- `read_exact` of `n` bytes, with at most `fuel` rounds. There is no result at the end of the source. -/
def readExact : Nat → Nat → Reader → Option (List UInt8) × Reader
  | _, 0, r => (some [], r)
  | 0, _ + 1, r => (none, r)
  | fuel + 1, n + 1, r =>
    let p := r.read (n + 1)
    if p.1 = [] then (none, p.2)
    else
      let q := readExact fuel (n + 1 - p.1.length) p.2
      (q.1.map (p.1 ++ ·), q.2)

/-- The number of bytes that are still to come. -/
def total (r : Reader) : Nat := r.buf.length + r.source.flatten.length

end Reader

/-- The source gives the bytes `y`, the last of them together with `z`, and then the segments `B`. -/
def Pending (source : List (List UInt8)) (y z : List UInt8) (B : List (List UInt8)) : Prop :=
  ∃ A w, source = A ++ (w ++ z) :: B ∧ A.flatten ++ w = y ∧ (∀ segment ∈ A, segment ≠ []) ∧ w ≠ [] ∧
    (z = [] ∨ (w ++ z).length ≤ CAPACITY)

/-- The bytes `y` are before the reader, the last of them together with `z`, and then the segments `B`. -/
def Reader.Ahead (r : Reader) (y z : List UInt8) (B : List (List UInt8)) : Prop :=
  r = ⟨y ++ z, B⟩ ∨ ∃ y', y = r.buf ++ y' ∧ Pending r.source y' z B

variable {source B : List (List UInt8)} {r : Reader} {x y z : List UInt8}

theorem Pending.ne_nil (h : Pending source y z B) : y ≠ [] := by
  obtain ⟨A, w, -, rfl, -, hw, -⟩ := h
  exact append_ne_nil_of_right_ne_nil _ hw

theorem Pending.length_le (h : Pending source y z B) : y.length ≤ source.flatten.length := by
  obtain ⟨A, w, rfl, rfl, -⟩ := h
  rw [flatten_append, flatten_cons]
  simp only [length_append]
  omega

theorem pending_of_segments {A : List (List UInt8)} (hA : ∀ segment ∈ A, segment ≠ []) (hne : A ≠ [])
    (B : List (List UInt8)) : Pending (A ++ B) A.flatten [] B := by
  rcases eq_nil_or_concat A with hnil | ⟨A, w, rfl⟩
  · exact absurd hnil hne
  rw [concat_eq_append] at hA ⊢
  refine ⟨A, w, ?_, ?_, fun segment hseg => hA segment (mem_append_left _ hseg), ?_, .inl rfl⟩
  · rw [append_assoc, append_nil]
    rfl
  · rw [flatten_append, flatten_singleton]
  · exact hA w (mem_append_right _ mem_cons_self)

theorem pull_pending {limit : Nat} (hlim : CAPACITY ≤ limit) (h : Pending source y z B) :
    (pull limit source = (y ++ z, B) ∧ (y ++ z).length ≤ limit) ∨
      ∃ y', y = (pull limit source).1 ++ y' ∧ (pull limit source).1 ≠ [] ∧ (pull limit source).1.length ≤ limit ∧
        Pending (pull limit source).2 y' z B := by
  have hpos : 0 < limit := Nat.lt_of_lt_of_le (by decide) hlim
  obtain ⟨A, w, rfl, rfl, hA, hw, hz⟩ := h
  have htk : ∀ {segment : List UInt8}, segment ≠ [] → segment.take limit ≠ [] := by
    intro segment hseg
    rw [Ne, take_eq_nil_iff, not_or]
    exact ⟨Nat.ne_of_gt hpos, hseg⟩
  have hdr : ∀ {segment : List UInt8}, ¬segment.length ≤ limit → segment.drop limit ≠ [] := by
    intro segment hlg
    rw [Ne, drop_eq_nil_iff]
    exact hlg
  cases A with
  | nil =>
    rw [nil_append, flatten_nil, nil_append, pull]
    split
    · next hle => exact .inl ⟨rfl, hle⟩
    next hgt =>
      -- only a segment without bytes of `z` can be longer than the buffer
      have hnil : z = [] := hz.resolve_right fun hle => hgt (Nat.le_trans hle hlim)
      subst hnil
      rw [append_nil] at hgt ⊢
      refine .inr ⟨w.drop limit, (take_append_drop limit w).symm, htk hw, ?_, [], w.drop limit, ?_⟩
      · exact length_take_le limit w
      · exact ⟨by rw [append_nil]; rfl, rfl, forall_mem_nil _, hdr hgt, .inl rfl⟩
  | cons segment A =>
    obtain ⟨hseg, hA⟩ := forall_mem_cons.1 hA
    rw [cons_append, pull, flatten_cons, append_assoc segment A.flatten w]
    split
    · next hle => exact .inr ⟨A.flatten ++ w, rfl, hseg, hle, A, w, rfl, rfl, hA, hw, hz⟩
    next hgt =>
      refine .inr ⟨segment.drop limit ++ (A.flatten ++ w), ?_, htk hseg, length_take_le limit segment,
        segment.drop limit :: A, w, rfl, ?_, forall_mem_cons.2 ⟨hdr hgt, hA⟩, hw, hz⟩
      · rw [← append_assoc (segment.take limit), take_append_drop]
      · rw [flatten_cons, append_assoc]

namespace Reader

theorem Ahead.length_le (h : r.Ahead y z B) : y.length ≤ r.total := by
  rw [total]
  rcases h with rfl | ⟨y', rfl, hpn⟩
  · rw [length_append]
    omega
  · have hlen := hpn.length_le
    rw [length_append]
    omega

theorem ahead_new (h : Pending source y z B) : (⟨[], source⟩ : Reader).Ahead y z B := .inr ⟨y, rfl, h⟩

theorem Ahead.done (h : r.Ahead [] z B) : r = ⟨z, B⟩ := by
  rcases h with h | ⟨y', hy, hpn⟩
  · exact h
  · exact absurd (append_eq_nil_iff.1 hy.symm).2 hpn.ne_nil

theorem fill_ahead (h : r.Ahead y z B) (hy : y ≠ []) : r.fill.Ahead y z B ∧ r.fill.buf ≠ [] := by
  by_cases hbuf : r.buf = []
  · rw [fill, if_pos hbuf]
    rcases h with rfl | ⟨y', rfl, hpn⟩
    · exact absurd (append_eq_nil_iff.1 hbuf).1 hy
    rw [hbuf, nil_append] at hy ⊢
    rcases pull_pending (Nat.le_refl CAPACITY) hpn with ⟨hall, -⟩ | ⟨y'', hy'', hne, -, hrs⟩
    · rw [hall]
      exact ⟨.inl rfl, append_ne_nil_of_left_ne_nil hy z⟩
    · exact ⟨.inr ⟨y'', hy'', hrs⟩, hne⟩
  · rw [fill, if_neg hbuf]
    exact ⟨h, hbuf⟩

theorem exists_of_mem {delim : UInt8} {buf rest : List UInt8} (hx : delim ∉ x) (hmem : delim ∈ buf)
    (h : x ++ delim :: y = buf ++ rest) : ∃ u, buf = x ++ delim :: u ∧ y = u ++ rest := by
  rcases append_eq_append_iff.1 h with ⟨as, rfl, hta⟩ | ⟨cs, rfl, -⟩
  · cases as with
    | nil =>
      rw [append_nil] at hmem
      exact absurd hmem hx
    | cons c as =>
      obtain ⟨rfl, rfl⟩ := List.cons.inj hta
      exact ⟨as, rfl, rfl⟩
  · exact absurd (mem_append_left cs hmem) hx

theorem exists_of_notMem {delim : UInt8} {buf rest : List UInt8} (hmem : delim ∉ buf)
    (h : x ++ delim :: y = buf ++ rest) : ∃ x', x = buf ++ x' ∧ rest = x' ++ delim :: y := by
  rcases append_eq_append_iff.1 h with ⟨as, rfl, hta⟩ | ⟨cs, rfl, rfl⟩
  · cases as with
    | nil => exact ⟨[], by rw [append_nil, append_nil], hta.symm⟩
    | cons c as =>
      obtain ⟨rfl, -⟩ := List.cons.inj hta
      exact absurd (mem_append_right x mem_cons_self) hmem
  · exact ⟨cs, rfl, rfl⟩

theorem readUntil_ahead {delim : UInt8} {fuel : Nat} : ∀ {r : Reader} {x : List UInt8}, delim ∉ x →
    r.Ahead (x ++ delim :: y) z B → x.length < fuel →
      ∃ r', r.readUntil delim fuel = (x ++ [delim], r') ∧ r'.Ahead y z B := by
  induction fuel with
  | zero => exact fun _ _ hfu => absurd hfu (Nat.not_lt_zero _)
  | succ fuel ih =>
    intro r x hx h hfu
    obtain ⟨hfi, hbuf⟩ := fill_ahead h (append_ne_nil_of_right_ne_nil x (cons_ne_nil delim y))
    rw [readUntil]
    rw [if_neg hbuf]
    have hfnd : ∀ {u : List UInt8}, r.fill.buf = x ++ delim :: u →
        (r.fill.buf.take (r.fill.buf.idxOf delim + 1) = x ++ [delim] ∧
          r.fill.buf.drop (r.fill.buf.idxOf delim + 1) = u) := by
      intro u hu
      have hidx : r.fill.buf.idxOf delim = x.length := by
        rw [hu, idxOf_append_of_notMem hx, idxOf_cons_self, Nat.add_zero]
      have hspl : r.fill.buf = (x ++ [delim]) ++ u := by rw [hu, append_assoc]; rfl
      have hlen : x.length + 1 = (x ++ [delim]).length := by rw [length_append, length_singleton]
      rw [hidx, hlen, hspl, take_left, drop_left]
      exact ⟨rfl, rfl⟩
    rcases hfi with hall | ⟨rest, hrs, hpn⟩
    · -- everything is in the buffer
      have hu : r.fill.buf = x ++ delim :: (y ++ z) := by rw [hall, append_assoc]; rfl
      have hmem : delim ∈ r.fill.buf := hu ▸ mem_append_right x mem_cons_self
      obtain ⟨htk, hdr⟩ := hfnd hu
      rw [if_pos hmem, htk, hdr]
      exact ⟨_, rfl, .inl (by rw [hall])⟩
    by_cases hmem : delim ∈ r.fill.buf
    · obtain ⟨u, hu, rfl⟩ := exists_of_mem hx hmem hrs
      obtain ⟨htk, hdr⟩ := hfnd hu
      rw [if_pos hmem, htk, hdr]
      exact ⟨_, rfl, .inr ⟨rest, rfl, hpn⟩⟩
    obtain ⟨x', hx', rfl⟩ := exists_of_notMem hmem hrs
    have hpos := length_pos_iff.2 hbuf
    rw [hx', length_append] at hfu
    have hnot : delim ∉ x' := fun hmem' => hx (hx' ▸ mem_append_right _ hmem')
    obtain ⟨r', hr', hah⟩ := ih hnot (ahead_new hpn) (by omega)
    refine ⟨r', ?_, hah⟩
    rw [if_neg hmem, hr', hx', append_assoc]

theorem read_ahead {n : Nat} (hn : 0 < n) (h : r.Ahead y z B) (hle : n ≤ y.length) :
    ∃ y', y = (r.read n).1 ++ y' ∧ (r.read n).1 ≠ [] ∧ (r.read n).1.length ≤ n ∧ (r.read n).2.Ahead y' z B := by
  have hy : y ≠ [] := length_pos_iff.1 (Nat.lt_of_lt_of_le hn hle)
  rw [read]
  split
  · next hpast =>
      rcases h with rfl | ⟨y', rfl, hpn⟩
      · exact absurd (append_eq_nil_iff.1 hpast.1).1 hy
      rw [hpast.1, nil_append] at hy hle ⊢
      rcases pull_pending hpast.2 hpn with ⟨hall, hlen⟩ | ⟨y'', hy'', hne, hlen, hrs⟩
      · -- the read is of no more than what is wanted, so that `z` has no bytes
        have hnil : z = [] := by
          rw [length_append] at hlen
          exact eq_nil_of_length_eq_zero (by omega)
        subst hnil
        rw [hall, append_nil] at *
        exact ⟨[], (append_nil y').symm, hy, hlen, .inl rfl⟩
      · exact ⟨y'', hy'', hne, hlen, ahead_new hrs⟩
  obtain ⟨hfi, hbuf⟩ := fill_ahead h hy
  have htk : r.fill.buf.take n ≠ [] := by
    rw [Ne, take_eq_nil_iff, not_or]
    exact ⟨Nat.ne_of_gt hn, hbuf⟩
  rcases hfi with hall | ⟨y', hy', hpn⟩
  · refine ⟨y.drop n, ?_, htk, length_take_le _ _, .inl ?_⟩
    · rw [hall, take_append_of_le_length hle, take_append_drop]
    · rw [hall, drop_append_of_le_length hle]
  · refine ⟨r.fill.buf.drop n ++ y', ?_, htk, length_take_le _ _, .inr ⟨y', rfl, hpn⟩⟩
    rw [← append_assoc, take_append_drop]
    exact hy'

theorem readExact_ahead {fuel : Nat} : ∀ {r : Reader} {x : List UInt8}, r.Ahead (x ++ y) z B → x.length ≤ fuel →
    ∃ r', r.readExact fuel x.length = (some x, r') ∧ r'.Ahead y z B := by
  induction fuel with
  | zero =>
    intro r x h hfu
    have hx : x = [] := eq_nil_of_length_eq_zero (Nat.le_zero.1 hfu)
    subst hx
    exact ⟨r, rfl, h⟩
  | succ fuel ih =>
    intro r x h hfu
    cases x with
    | nil => exact ⟨r, rfl, h⟩
    | cons b x =>
      obtain ⟨y', hy', hne, hle, hah⟩ := read_ahead (Nat.succ_pos x.length) h
        (by rw [cons_append, length_cons, length_append]; omega)
      rw [length_cons] at hfu ⊢
      rw [readExact]
      rw [if_neg hne]
      -- what was read is a part of `b :: x`
      generalize hp : r.read (x.length + 1) = p at hy' hne hle hah ⊢
      obtain ⟨first, r₁⟩ := p
      dsimp only at hy' hne hle hah
      obtain ⟨rest, hrs⟩ : ∃ rest, b :: x = first ++ rest := by
        rcases append_eq_append_iff.1 hy' with ⟨as, hfst, -⟩ | ⟨cs, hcs, -⟩
        · refine ⟨[], ?_⟩
          have hlen := congrArg List.length hfst
          rw [length_append, length_cons] at hlen
          have has : as = [] := eq_nil_of_length_eq_zero (by omega)
          rw [has, append_nil] at hfst
          rw [append_nil, hfst]
        · exact ⟨cs, hcs⟩
      have hy : y' = rest ++ y := by
        rw [hrs, append_assoc] at hy'
        exact (append_cancel_left hy').symm
      have hlen : x.length + 1 - first.length = rest.length := by
        have hlen := congrArg List.length hrs
        rw [length_append, length_cons] at hlen
        omega
      have hpos := length_pos_iff.2 hne
      rw [hy] at hah
      obtain ⟨r', hr', hdn⟩ := ih hah (by omega)
      refine ⟨r', ?_, hdn⟩
      rw [hlen, hr', hrs]
      rfl

end Reader

end KaiT2en.Lib.BufReader
