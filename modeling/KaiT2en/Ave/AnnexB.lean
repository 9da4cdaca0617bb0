import KaiT2en.Sidecar.Bitstream

/-!
# The other converter to Annex B

`t2bce_ave_convert_to_annex_b` in `encoder.c` goes through the input once. It stops at the first unit that is empty or
not whole, and fails when a unit has no room. `annex_b_converters_agree` compares it with `t2sc_build_frame`.
-/

namespace KaiT2en.Ave

open KaiT2en.Kernel KaiT2en.Lib.Bytes KaiT2en.Sidecar List

/-- Units with their lengths, none of them empty. -/
def WellFormed (data : List UInt8) (units : List (List UInt8)) : Prop := Prefixed 4 data units ∧ ∀ unit ∈ units, unit ≠ []

/-- `front` is the longest well-formed prefix of `data`. -/
structure Longest (data front : List UInt8) (units : List (List UInt8)) : Prop where
  wellFormed : WellFormed front units
  sub : front <+: data
  longest : ∀ front' units', front' <+: data → WellFormed front' units' → front'.length ≤ front.length

variable {dstSize : Nat} {out data header unit rest front : List UInt8} {units : List (List UInt8)}

theorem Longest.cons (h : Longest rest front units) (hlen : header.length = 4) (hunit : ofBe header = unit.length)
    (hne : unit ≠ []) : Longest (header ++ (unit ++ rest)) (header ++ (unit ++ front)) (unit :: units) := by
  refine ⟨⟨.cons hlen hunit h.wellFormed.1, forall_mem_cons.2 ⟨hne, h.wellFormed.2⟩⟩, ?_, ?_⟩
  · exact (prefix_append_right_inj _).2 ((prefix_append_right_inj _).2 h.sub)
  · rintro front' units' ⟨more, hmo⟩ ⟨hwf, hnes⟩
    cases hwf with
    | nil => exact Nat.zero_le _
    | @cons header' unit' rest' units' hlen' hunit' hwf =>
      rw [append_assoc, append_assoc] at hmo
      obtain ⟨rfl, hta⟩ := append_inj hmo (hlen'.trans hlen.symm)
      obtain ⟨rfl, hrs⟩ := append_inj hta (hunit'.symm.trans hunit)
      have hle := h.longest _ _ ⟨more, hrs⟩ ⟨hwf, (forall_mem_cons.1 hnes).2⟩
      simp only [length_append]
      omega

end KaiT2en.Ave
