import KaiT2en.Kernel.Primitives
import KaiT2en.Lib.Bytes

/-!
# Frames in Annex B

The T2 sends the NAL units of a frame with their lengths in front, `t2sc_build_frame` gives them start codes. It goes
through the units twice, to size the output and to copy. The length has as many bytes as the decoder configuration says,
but for three bytes only the first one is read. `build_frame_exact` says that the conversion is exact for the other sizes.
-/

namespace KaiT2en.Sidecar

open KaiT2en.Kernel KaiT2en.Lib.Bytes List

/-- `nal_len_size` by the byte of the configuration that has it. -/
def nalLenSize (b : UInt8) : Nat := (b &&& 3).toNat + 1

/-- The length of the first unit, by `get_unaligned_be32`, by `get_unaligned_be16` or from one byte. -/
def unitLength (nls : Nat) (data : List UInt8) : Nat :=
  ofBe (data.take (if nls = 4 then 4 else if nls = 2 then 2 else 1))

theorem length_drop_lt {data : List UInt8} {nls : Nat} (hpos : 0 < nls) (h : data ≠ []) (n : Nat) :
    (data.drop (nls + n)).length < data.length := by
  have hlen := length_pos_iff.2 h
  rw [length_drop]
  omega

/-- The first loop of `t2sc_build_frame`, with `data` left. What it adds up is at most four times the length of the
packet. -/
def sizeUnits (nls : Nat) (hpos : 0 < nls) (data : List UInt8) : Option Nat :=
  if h : data = [] then some 0
  else if data.length < nls then none
  else if data.length - nls < unitLength nls data then none
  else (sizeUnits nls hpos (data.drop (nls + unitLength nls data))).map (4 + unitLength nls data + ·)
termination_by data.length
decreasing_by exact length_drop_lt hpos h _

def startCode : List UInt8 := [0, 0, 0, 1]

/-- The second loop: what it writes. -/
def copyUnits (nls : Nat) (hpos : 0 < nls) (data : List UInt8) : List UInt8 :=
  if _h : data = [] then []
  else startCode ++ (data.drop nls).take (unitLength nls data) ++
    copyUnits nls hpos (data.drop (nls + unitLength nls data))
termination_by data.length
decreasing_by exact length_drop_lt hpos _h _

/-- `t2sc_build_frame`: the length and the bytes of the frame. -/
def buildFrame (nls : Nat) (params data : List UInt8) (sync kvmalloc : Bool) : Except Int (Nat × List UInt8) :=
  if h : nls = 0 then .error (-EPROTO)
  else
    match sizeUnits nls (Nat.pos_of_ne_zero h) data with
    | none => .error (-EPROTO)
    | some n =>
      if kvmalloc then
        .ok ((if sync then params.length else 0) + n,
          (if sync then params else []) ++ copyUnits nls (Nat.pos_of_ne_zero h) data)
      else .error (-ENOMEM)

/-- `data` is the concatenation of the units, each behind its length in `nls` bytes. -/
inductive Prefixed (nls : Nat) : List UInt8 → List (List UInt8) → Prop
  | nil : Prefixed nls [] []
  | cons {header unit rest : List UInt8} {units : List (List UInt8)} : header.length = nls → ofBe header = unit.length →
      Prefixed nls rest units → Prefixed nls (header ++ (unit ++ rest)) (unit :: units)

/-- The units in Annex B. -/
def annexB (units : List (List UInt8)) : List UInt8 := units.flatMap (startCode ++ ·)

/-- Units are converted, and everything else is refused. -/
def BuildsExactly (nls : Nat) : Prop :=
  ∀ params data sync, (∀ units, Prefixed nls data units → ∀ out, out = (if sync then params else []) ++ annexB units →
      buildFrame nls params data sync true = .ok (out.length, out)) ∧
    ((∀ units, ¬Prefixed nls data units) → ∀ kvmalloc, buildFrame nls params data sync kvmalloc = .error (-EPROTO))

section Loops

variable {nls : Nat} (hpos : 0 < nls) (hrd : ∀ data, unitLength nls data = ofBe (data.take nls)) {data : List UInt8}
  {units : List (List UInt8)}
include hpos hrd

theorem Prefixed.loops (h : Prefixed nls data units) :
    sizeUnits nls hpos data = some (annexB units).length ∧ copyUnits nls hpos data = annexB units := by
  induction h with
  | nil =>
    rw [sizeUnits, copyUnits]
    exact ⟨rfl, rfl⟩
  | @cons header unit rest units hhdr hunit _ ih =>
    have hne : header ++ (unit ++ rest) ≠ [] := by
      rw [← length_pos_iff, length_append]
      omega
    have hlen : unitLength nls (header ++ (unit ++ rest)) = unit.length := by
      rw [hrd, ← hhdr, take_left, hunit]
    have hrs : (header ++ (unit ++ rest)).drop (nls + unit.length) = rest := by
      rw [← hhdr, drop_length_add_append, drop_left]
    have hcopy : ((header ++ (unit ++ rest)).drop nls).take unit.length = unit := by
      rw [← hhdr, drop_left, take_left]
    rw [sizeUnits, copyUnits, dif_neg hne, dif_neg hne, hlen, hrs, hcopy, ih.1, ih.2]
    simp only [length_append, hhdr]
    rw [if_neg (by omega), if_neg (by omega)]
    refine ⟨?_, rfl⟩
    simp only [annexB, flatMap_cons, length_append, Option.map_some]
    rfl

theorem exists_prefixed {n : Nat} (h : sizeUnits nls hpos data = some n) : ∃ units, Prefixed nls data units := by
  induction hlen : data.length using Nat.strong_induction_on generalizing data n with
  | _ length ih =>
    subst hlen
    rw [sizeUnits] at h
    split at h
    next hnil => exact ⟨[], hnil ▸ .nil⟩
    next hne =>
    simp only [Option.ite_none_left_eq_some, Option.map_eq_some_iff] at h
    obtain ⟨hhdr, hunit, m, hrs, -⟩ := h
    obtain ⟨units, hunits⟩ := ih _ (length_drop_lt hpos hne _) hrs rfl
    have hcn := @Prefixed.cons nls (data.take nls) ((data.drop nls).take (unitLength nls data)) _ _ ?_ ?_ hunits
    · rw [← drop_drop, take_append_drop, take_append_drop] at hcn
      exact ⟨_, hcn⟩
    · rw [length_take]
      omega
    · rw [← hrd, length_take, length_drop]
      omega

theorem buildsExactly : BuildsExactly nls := by
  intro params data sync
  have hne : nls ≠ 0 := hpos.ne'
  constructor
  · rintro units h out rfl
    obtain ⟨hsz, hcopy⟩ := h.loops hpos hrd
    rw [buildFrame, dif_neg hne, hsz, hcopy, length_append]
    cases sync <;> rfl
  · intro hno kvmalloc
    rw [buildFrame, dif_neg hne]
    cases hsz : sizeUnits nls hpos data with
    | none => rfl
    | some n =>
      obtain ⟨units, h⟩ := exists_prefixed hpos hrd hsz
      exact absurd h (hno units)

end Loops

theorem prefixed_three : Prefixed 3 [0, 0, 1, 65] [[65]] := @Prefixed.cons 3 [0, 0, 1] [65] [] [] rfl rfl .nil

theorem buildFrame_three : buildFrame 3 [] [0, 0, 1, 65] false true = .error (-EPROTO) := by
  simp [buildFrame, sizeUnits, unitLength, ofBe, ofBeFrom]

/-- For every configuration the conversion is exact, unless the lengths have three bytes. -/
theorem build_frame_exact (b : UInt8) : BuildsExactly (nalLenSize b) ↔ nalLenSize b ≠ 3 := by
  constructor
  · intro hex hthr
    rw [hthr] at hex
    have hok := (hex [] [0, 0, 1, 65] false).1 _ prefixed_three _ rfl
    rw [buildFrame_three] at hok
    cases hok
  · intro hne
    have hle : nalLenSize b ≤ 4 := Nat.succ_le_succ UInt8.and_le_right
    have hpos : 0 < nalLenSize b := Nat.succ_pos _
    refine buildsExactly hpos fun data => ?_
    have hsiz : nalLenSize b = 1 ∨ nalLenSize b = 2 ∨ nalLenSize b = 4 := by omega
    rcases hsiz with h | h | h <;> rw [h] <;> rfl

/-- A unit of one byte is refused. -/
theorem three_byte_length_refused : Prefixed 3 [0, 0, 1, 65] [[65]] ∧
    buildFrame 3 [] [0, 0, 1, 65] false true = .error (-EPROTO) := ⟨prefixed_three, buildFrame_three⟩

end KaiT2en.Sidecar
