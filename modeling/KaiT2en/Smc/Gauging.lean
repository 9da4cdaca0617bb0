import Mathlib.Tactic

/-!
# Calibration charges

`gauging.rs` of `t2-smc-control`. `State::update` says whether the charge limit is to be lifted: the gauge's DOD0 has not
changed for 3 days, or the last full charge is older than 21 days, for 12 hours. The times are clock readings, and their
differences overflow when the clock has been set back (`clock_set_back`). Any state can be loaded from the file.
-/

namespace KaiT2en.Smc.Gauging

open Option

def DOD0_MAX_AGE : Nat := 3 * 86400
def FULL_CHARGE_MAX_AGE : Nat := 21 * 86400
def FULL_CHARGE_ATTEMPT : Nat := 12 * 3600

structure State where
  dod0 : String
  (dod0Changed fullCharge attemptStarted : Nat)

/-- The arguments of an update. -/
structure Reading where
  now : Nat
  dod0 : String
  fullyCharged : Bool

/-- A difference of `u64`, missing where it panics or wraps around. -/
def difference (a b : Nat) : Option Nat := if b ≤ a then some (a - b) else none

namespace State

variable (s : State) (r : Reading)

/-- A new DOD0 and a full charge are noted. -/
def note : State :=
  let s := if s.dod0 ≠ r.dod0 then { s with dod0 := r.dod0, dod0Changed := r.now } else s
  if r.fullyCharged || s.fullCharge == 0 then { s with fullCharge := r.now, attemptStarted := 0 } else s

/-- The full charge is old: an attempt begins, goes on or is abandoned. -/
def attempt (now : Nat) : Option State :=
  if s.attemptStarted = 0 then some { s with attemptStarted := now }
  else (difference now s.attemptStarted).map fun age =>
    if FULL_CHARGE_ATTEMPT < age then { s with fullCharge := now, attemptStarted := 0 } else s

def update : Option (State × Bool) :=
  let s := s.note r
  (difference r.now s.dod0Changed).bind fun changed => (difference r.now s.fullCharge).bind fun charged =>
    if FULL_CHARGE_MAX_AGE < charged then
      (s.attempt r.now).map fun s => (s, decide (DOD0_MAX_AGE ≤ changed) || s.attemptStarted != 0)
    else some (s, DOD0_MAX_AGE ≤ changed)

def updates : State → List Reading → Option State
  | s, [] => some s
  | s, r :: rs => (s.update r).bind fun u => u.1.updates rs

/-- The clock is not before a time that is subtracted from it. -/
def InOrder : Prop :=
  (s.dod0 = r.dod0 → s.dod0Changed ≤ r.now) ∧ (r.fullyCharged = false → s.fullCharge ≤ r.now ∧
    (s.fullCharge ≠ 0 → FULL_CHARGE_MAX_AGE < r.now - s.fullCharge → s.attemptStarted ≤ r.now))

/-- By the clock DOD0 is unchanged for 3 days, or the last full charge or abandoned attempt is over 21 days old. -/
def Due : Prop :=
  (s.dod0 = r.dod0 ∧ DOD0_MAX_AGE ≤ r.now - s.dod0Changed) ∨
    (r.fullyCharged = false ∧ s.fullCharge ≠ 0 ∧ FULL_CHARGE_MAX_AGE < r.now - s.fullCharge)

variable {s r} {s' : State} {charge : Bool}

theorem difference_eq_some {a b n : Nat} : difference a b = some n ↔ b ≤ a ∧ a - b = n := by
  simp [difference]

theorem attempt_eq_some {now : Nat} : s.attempt now = some s' ↔ s.attemptStarted ≤ now ∧
    s' = if s.attemptStarted = 0 then { s with attemptStarted := now }
      else if FULL_CHARGE_ATTEMPT < now - s.attemptStarted then { s with fullCharge := now, attemptStarted := 0 }
      else s := by
  unfold attempt
  split <;> grind [difference_eq_some, map_eq_some_iff]

theorem update_eq_some : s.update r = some (s', charge) ↔
    (s.note r).dod0Changed ≤ r.now ∧ (s.note r).fullCharge ≤ r.now ∧
      if FULL_CHARGE_MAX_AGE < r.now - (s.note r).fullCharge then (s.note r).attempt r.now = some s' ∧
        charge = (decide (DOD0_MAX_AGE ≤ r.now - (s.note r).dod0Changed) || s'.attemptStarted != 0)
      else s' = s.note r ∧ charge = decide (DOD0_MAX_AGE ≤ r.now - (s.note r).dod0Changed) := by
  simp only [update, bind_eq_some_iff, difference_eq_some, and_assoc, exists_and_left, exists_eq_left']
  split
  · simp only [map_eq_some_iff, Prod.mk.injEq]
    grind
  · grind

theorem update_isSome : (s.update r).isSome ↔ s.InOrder r := by
  rw [isSome_iff_exists]
  simp only [Prod.exists, update_eq_some, attempt_eq_some]
  by_cases hold : FULL_CHARGE_MAX_AGE < r.now - (s.note r).fullCharge <;>
    simp only [hold, if_true, if_false, exists_and_left, exists_eq, and_true]
  all_goals grind [note, InOrder]

theorem due_of_update (h : s.update r = some (s', true)) : s.Due r := by
  have hup := update_eq_some.1 h
  grind [note, Due, DOD0_MAX_AGE]

/-- An attempt that began at `start`, and a clock that has not gone back since. -/
structure Attempting (s : State) (start now : Nat) : Prop where
  started : s.attemptStarted = start
  positive : start ≠ 0
  old : FULL_CHARGE_MAX_AGE < start - s.fullCharge
  changed : s.dod0Changed ≤ now
  le : start ≤ now

theorem attempting_of_update (h : s.update r = some (s', charge)) (hbef : s.attemptStarted = 0)
    (haft : s'.attemptStarted ≠ 0) : s'.Attempting r.now r.now := by
  have hup := update_eq_some.1 h
  rw [attempt_eq_some] at hup
  constructor <;> grind [note]

theorem Attempting.update {start now : Nat} (h : s.Attempting start now) (hnow : now ≤ r.now) :
    ∃ u, s.update r = some u ∧ (u.1.attemptStarted = 0 ∨
      (r.now ≤ start + FULL_CHARGE_ATTEMPT ∧ u.1.Attempting start r.now)) := by
  obtain ⟨hst, hpos, hold, hch, hle⟩ := h
  obtain ⟨u, hu⟩ := isSome_iff_exists.1 (update_isSome.2 (show s.InOrder r by grind [InOrder]))
  have hup := update_eq_some.1 hu
  rw [attempt_eq_some] at hup
  refine ⟨u, hu, ?_⟩
  by_cases hz : u.1.attemptStarted = 0
  · exact .inl hz
  · refine .inr ⟨by grind [note], ?_⟩
    constructor <;> grind [note]

/-- The first update more than 12 hours after the beginning, or an earlier one, ends the attempt. -/
theorem Attempting.ends {start now : Nat} {rs : List Reading} (h : s.Attempting start now)
    (hclock : (now :: rs.map Reading.now).Pairwise (· ≤ ·)) (hlate : ∃ r ∈ rs, start + FULL_CHARGE_ATTEMPT < r.now) :
    ∃ l ≠ [], l <+: rs ∧ ∃ s', s.updates l = some s' ∧ s'.attemptStarted = 0 ∧
      ∀ r ∈ l.dropLast, r.now ≤ start + FULL_CHARGE_ATTEMPT := by
  induction rs generalizing s now with
  | nil => simp at hlate
  | cons r rs ih =>
    rw [List.map_cons, List.pairwise_cons] at hclock
    obtain ⟨u, hu, hz | ⟨hsoon, hatt⟩⟩ := h.update (hclock.1 _ List.mem_cons_self)
    · exact ⟨[r], by simp, by simp, u.1, by simp [updates, hu], hz, by simp⟩
    · obtain ⟨l, hne, hpre, s', hl, hz, hall⟩ := ih hatt hclock.2 (by grind)
      refine ⟨r :: l, by simp, by simpa using hpre, s', by simp [updates, hu, hl], hz, ?_⟩
      rw [List.dropLast_cons_of_ne_nil hne]
      exact List.forall_mem_cons.2 ⟨hsoon, hall⟩

/-- An update panics or wraps around exactly if the clock is before a time that is subtracted. Otherwise a charge is asked
for only when it is due, and while the clock does not go back an attempt ends with the first update after 12 hours. -/
theorem calibration_charges (s : State) (r : Reading) :
    ((s.update r).isSome ↔ s.InOrder r) ∧ (∀ s', s.update r = some (s', true) → s.Due r) ∧
      ∀ s' charge rs, s.update r = some (s', charge) → s.attemptStarted = 0 → s'.attemptStarted ≠ 0 →
        ((r :: rs).map Reading.now).Pairwise (· ≤ ·) → (∃ q ∈ rs, r.now + FULL_CHARGE_ATTEMPT < q.now) →
          ∃ l ≠ [], l <+: rs ∧ ∃ t, s'.updates l = some t ∧ t.attemptStarted = 0 ∧
            ∀ q ∈ l.dropLast, q.now ≤ r.now + FULL_CHARGE_ATTEMPT :=
  ⟨update_isSome, fun _ => due_of_update, fun _ _ _ h hbef haft hclock hlate =>
    (attempting_of_update h hbef haft).ends hclock hlate⟩

/-- DOD0 changed at 100 by a clock that now says 50. -/
theorem clock_set_back : update ⟨"7", 100, 40, 0⟩ ⟨50, "7", false⟩ = none := rfl

end State

end KaiT2en.Smc.Gauging
