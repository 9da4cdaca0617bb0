import KaiT2en.Lib.Calls
import KaiT2en.Smc.Access

/-!
# The charge limit of the battery

`CHLS` holds the limit of the user, or zero for none and while the limit is suspended for a full charge. The driver has
the limit in `charge_limit` too: a read replaces it by what the SMC holds, unless the limit is suspended. Limit and flag
are changed before the command that can fail. `Prudent` says which calls do no harm by that.
-/

namespace KaiT2en.Smc

open KaiT2en.Kernel KaiT2en.Lib.Stateful KaiT2en.Lib.Calls

def CHARGE_LIMIT : List UInt8 := [67, 72, 76, 83]

/-- The SMC and the fields of the driver for the limit. -/
structure Charge where
  values : Values
  limit : UInt8
  suspended : Bool

abbrev Charging := Command Charge Failure

def Charge.access {α : Type} (x : Access α) : Charging α :=
  Command.zoom (·.values) (fun values c => { c with values }) x

variable (t : KeyTable) (faults : Faults)

def writeChls : Charging Unit := fun c =>
  Charge.access (writeKey t faults CHARGE_LIMIT [if !c.suspended && c.limit < 100 then c.limit else 0, 0]) c

/-- The limit that the first byte of `CHLS` stands for. -/
def chlsLimit (byte : UInt8) : UInt8 := if 0 < byte && byte < 100 then byte else 100

def readChargeLimit : Charging UInt8 := fun c =>
  if c.suspended then (.ok c.limit, c)
  else
    match Charge.access (readKey t faults CHARGE_LIMIT 2) c with
    | (.ok buf, c) => (.ok (chlsLimit (buf.getD 0 0)), { c with limit := chlsLimit (buf.getD 0 0) })
    | (.error e, c) => (.error e, c)

/-- `t2smc_set_charge_limit`. A device that has the key was found with it. -/
def setChargeLimit (val : UInt8) : Charging Unit := fun c =>
  if (t.find CHARGE_LIMIT).isNone then (.error (.errno (-ENODEV)), c)
  else if val < 1 ∨ 100 < val then (.error (.errno (-EINVAL)), c)
  else
    match readChargeLimit t faults c with
    | (.ok cur, c) => if cur = val then (.ok (), c) else writeChls t faults { c with limit := val }
    | (.error _, c) => writeChls t faults { c with limit := val }

/-- `battery_charge_limit_suspended_store`. -/
def storeSuspended (suspended : Bool) : Charging Unit := fun c => writeChls t faults { c with suspended }

/-! ## Calls -/

/-- A call with the commands that fail in it. -/
inductive ChargeCall
  | set (val : UInt8) (faults : Faults)
  | read (faults : Faults)
  | suspend (suspended : Bool) (faults : Faults)

/-- The driver and the limit that was set last. -/
structure Battery extends Charge where
  user : UInt8

/-- The byte of `CHLS` for a limit. -/
def chlsByte (limit : UInt8) : UInt8 := if limit < 100 then limit else 0

def chargeCall : ChargeCall → Battery → Except Failure Unit × Battery
  | .set val faults, s =>
    let r := setChargeLimit t faults val s.toCharge
    (r.1, { toCharge := r.2, user := if r.1.isOk then val else s.user })
  | .read faults, s =>
    let r := readChargeLimit t faults s.toCharge
    (r.1.map fun _ => (), { s with toCharge := r.2 })
  | .suspend suspended faults, s =>
    let r := storeSuspended t faults suspended s.toCharge
    (r.1, { s with toCharge := r.2 })

/-- The driver starts with the limit that it wrote last. Its own copy may be missing: the read at the start can fail.
-/
def chargeComponent : Component Battery ChargeCall (Except Failure Unit) where
  init s := (1 ≤ s.user ∧ s.user ≤ 100) ∧ s.values CHARGE_LIMIT = [chlsByte s.user, 0] ∧ s.suspended = false
  can _ _ := true
  perform := chargeCall t

/-- Reads report the limit of the user, `CHLS` is as the limit and the flag say, and a call that fails changes
neither. -/
def LimitKept (s : Battery) (r : Except Failure Unit × Battery) : Prop :=
  (∀ faults limit, (readChargeLimit t faults r.2.toCharge).1 = .ok limit → limit = r.2.user) ∧ match r.1 with
    | .ok _ => r.2.values CHARGE_LIMIT = [if r.2.suspended then 0 else chlsByte r.2.user, 0]
    | .error _ => r.2.suspended = s.suspended ∧ r.2.user = s.user

/-- While the limit is suspended, a new limit reaches the SMC. A change of the flag does too, and the driver's copy is
the limit of the SMC when it is suspended. -/
def Prudent (s : Battery) : ChargeCall → Prop
  | .set val faults => s.suspended = true → val = s.limit ∨ writable t faults CHARGE_LIMIT 2 = true
  | .read _ => True
  | .suspend suspended faults =>
    if writable t faults CHARGE_LIMIT 2 then
      s.suspended = true ∨ s.limit = chlsLimit ((s.values CHARGE_LIMIT).getD 0 0)
    else suspended = s.suspended

/-! ## The limit is kept -/

/-- `CHLS`, the flag and the copy of the limit agree with the limit of the user. -/
structure ChargeAgrees (s : Battery) : Prop where
  range : 1 ≤ s.user ∧ s.user ≤ 100
  chls : s.values CHARGE_LIMIT = [if s.suspended then 0 else chlsByte s.user, 0]
  copy : s.suspended = true → s.limit = s.user

section Limit

variable {t faults} {s : Battery} {c : Charge}

theorem writeChls_cases (t : KeyTable) (faults : Faults) (c : Charge) :
    (writable t faults CHARGE_LIMIT 2 ∧ writeChls t faults c =
      (.ok (), { c with values := Function.update c.values CHARGE_LIMIT [if c.suspended then 0 else chlsByte c.limit, 0] })) ∨
    (writable t faults CHARGE_LIMIT 2 = false ∧ ∃ e, writeChls t faults c = (.error e, c)) := by
  have hbt : (if !c.suspended && c.limit < 100 then c.limit else 0) = if c.suspended then 0 else chlsByte c.limit := by
    cases c.suspended <;> simp [chlsByte]
  rw [writeChls, Charge.access, Command.zoom, hbt]
  rcases writeKey_cases t faults CHARGE_LIMIT [if c.suspended then 0 else chlsByte c.limit, 0] c.values with
    ⟨hwr, hok⟩ | ⟨hwr, e, herr⟩
  · rw [hok]
    exact .inl ⟨hwr, rfl⟩
  · rw [herr]
    exact .inr ⟨hwr, .errno e, rfl⟩

theorem chlsLimit_chlsByte {limit : UInt8} (hrng : 1 ≤ limit ∧ limit ≤ 100) : chlsLimit (chlsByte limit) = limit := by
  rw [chlsLimit, chlsByte]
  grind

theorem ChargeAgrees.read_cases (h : ChargeAgrees s) (t : KeyTable) (faults : Faults) :
    readChargeLimit t faults s.toCharge = (.ok s.user, { s.toCharge with limit := s.user }) ∨
      s.suspended = false ∧ ∃ e, readChargeLimit t faults s.toCharge = (.error e, s.toCharge) := by
  rw [readChargeLimit]
  cases hs : s.suspended with
  | true =>
    rw [if_pos rfl, ← h.copy hs]
    exact .inl rfl
  | false =>
    have hchls := h.chls
    rw [hs, if_neg Bool.false_ne_true] at hchls
    rw [if_neg Bool.false_ne_true, Charge.access, Command.zoom]
    rcases readKey_ok_or_errno t faults CHARGE_LIMIT 2 s.values with hok | ⟨e, herr⟩
    · rw [hok, hchls]
      exact .inl (by simp [chlsLimit_chlsByte h.range])
    · rw [herr]
      exact .inr ⟨rfl, _, rfl⟩

/-- A result that agrees with the limit of the user, and in which a call that fails has changed neither limit nor flag. -/
def Keeps (s : Battery) (r : Except Failure Unit × Battery) : Prop :=
  ChargeAgrees r.2 ∧ (r.1.isOk = false → r.2.suspended = s.suspended ∧ r.2.user = s.user)

theorem Keeps.kept {r : Except Failure Unit × Battery} (h : Keeps s r) : LimitKept t s r := by
  refine ⟨fun faults limit hrd => ?_, ?_⟩
  · rcases h.1.read_cases t faults with hok | ⟨-, e, he⟩
    · rw [hok] at hrd
      cases hrd
      rfl
    · rw [he] at hrd
      cases hrd
  · cases hr : r.1 with
    | ok => exact h.1.chls
    | error e => exact h.2 (by rw [hr]; rfl)

theorem keeps_written {user : UInt8} (hrng : 1 ≤ user ∧ user ≤ 100) (hlim : c.limit = user) : Keeps s (.ok (), { c with
      values := Function.update c.values CHARGE_LIMIT [if c.suspended then 0 else chlsByte c.limit, 0], user }) := by
  refine ⟨⟨hrng, ?_, fun _ => hlim⟩, nofun⟩
  simp [hlim]

theorem setChargeLimit_keeps {val : UInt8} (h : ChargeAgrees s) (hprud : Prudent t s (.set val faults)) :
    Keeps s (chargeCall t (.set val faults) s) := by
  rw [chargeCall, setChargeLimit]
  split
  · exact ⟨h, fun _ => ⟨rfl, rfl⟩⟩
  split
  · exact ⟨h, fun _ => ⟨rfl, rfl⟩⟩
  next hrng =>
    have hval : 1 ≤ val ∧ val ≤ 100 := by grind
    -- The limit is set before the write, whatever the read did to it.
    have hwr (hne : val = s.limit → s.suspended = false) :
        let r := writeChls t faults { s.toCharge with limit := val }
        Keeps s (r.1, { toCharge := r.2, user := if r.1.isOk then val else s.user }) := by
      rcases writeChls_cases t faults { s.toCharge with limit := val } with ⟨-, hok⟩ | ⟨hfa, e, herr⟩
      · rw [hok]
        exact keeps_written hval rfl
      rw [herr]
      refine ⟨⟨h.range, h.chls, fun hsus => ?_⟩, fun _ => ⟨rfl, rfl⟩⟩
      have := hprud hsus
      grind
    rcases h.read_cases t faults with hrd | ⟨hnot, e, hrd⟩
    · rw [hrd]
      dsimp only
      split
      · next heq => exact ⟨⟨by simpa [← heq] using h.range, by simpa [← heq] using h.chls, fun _ => heq⟩, nofun⟩
      next hne =>
      apply hwr
      have := h.copy
      grind
    · rw [hrd]
      exact hwr fun _ => hnot

theorem storeSuspended_keeps {suspended : Bool} (h : ChargeAgrees s) (hprud : Prudent t s (.suspend suspended faults)) :
    Keeps s (chargeCall t (.suspend suspended faults) s) := by
  rw [chargeCall, storeSuspended]
  rw [Prudent] at hprud
  rcases writeChls_cases t faults { s.toCharge with suspended } with ⟨hwrit, hok⟩ | ⟨hfa, e, herr⟩
  · rw [hok]
    rw [if_pos hwrit] at hprud
    apply keeps_written h.range
    cases hs : s.suspended with
    | true => exact h.copy hs
    | false => simpa [hs, h.chls, chlsLimit_chlsByte h.range] using hprud
  · rw [if_neg (by simp [hfa])] at hprud
    rw [herr, hprud]
    exact ⟨h, fun _ => ⟨rfl, rfl⟩⟩

theorem chargeCall_keeps (call : ChargeCall) (h : ChargeAgrees s) (hprud : Prudent t s call) :
    Keeps s (chargeCall t call s) := by
  cases call with
  | set val faults => exact setChargeLimit_keeps h hprud
  | suspend suspended faults => exact storeSuspended_keeps h hprud
  | read faults =>
    rw [chargeCall]
    rcases h.read_cases t faults with hrd | ⟨-, e, hrd⟩
    · rw [hrd]
      exact ⟨⟨h.range, h.chls, fun _ => rfl⟩, nofun⟩
    · rw [hrd]
      exact ⟨h, fun _ => ⟨rfl, rfl⟩⟩

end Limit

/-- In every run of prudent calls, every call leaves the limit of the user, `CHLS` and the flag as they should be. -/
theorem charge_limit_kept {t : KeyTable} {s : Battery} {call : ChargeCall}
    (h : (chargeComponent t).machine.Reach (Prudent t) s) (hprudent : Prudent t s call) :
    LimitKept t s (chargeCall t call s) := by
  refine Component.after_call (C := chargeComponent t) (I := ChargeAgrees) (P := fun s _ => LimitKept t s) ?_ ?_ h rfl
    hprudent
  · rintro s ⟨hrng, hchls, hsus⟩
    exact ⟨hrng, by rw [hsus]; exact hchls, fun h => absurd (hsus.symm.trans h) Bool.false_ne_true⟩
  · intro s call _ hprudent h
    have hkeeps := chargeCall_keeps call h hprudent
    exact ⟨hkeeps.1, hkeeps.kept⟩

def chargeTable : KeyTable where
  keys := [⟨CHARGE_LIMIT, 2, [117, 105, 49, 54], 0⟩]
  four := by decide
  noNul := by decide
  sorted := by decide

def limitedBattery : Battery where
  values _ := [80, 0]
  limit := 80
  suspended := false
  user := 80

/-- The limit is suspended, and a limit of 90 is set. -/
theorem charge_limit_kept_suspended :
    ∃ s, (chargeComponent chargeTable).machine.Reach (Prudent chargeTable) s ∧ s.suspended = true ∧
      LimitKept chargeTable s (chargeCall chargeTable (.set 90 noFaults) s) := by
  have hre : (chargeComponent chargeTable).machine.Reach (Prudent chargeTable)
      (chargeCall chargeTable (.suspend true noFaults) limitedBattery).2 :=
    Component.reach_call (.init ⟨by decide, rfl, rfl⟩) rfl (.inr rfl)
  exact ⟨_, hre, rfl, charge_limit_kept hre fun _ => .inr rfl⟩

/-- The limit is to be suspended, and the only command fails: the flag is set all the same. -/
theorem charge_limit_suspended_by_failure : ∃ s faults, (chargeComponent chargeTable).machine.Reachable s ∧
      ¬ LimitKept chargeTable s (chargeCall chargeTable (.suspend true faults) s) := by
  refine ⟨limitedBattery, fun op _ => op = .write, .init ⟨by decide, rfl, rfl⟩, ?_⟩
  rintro ⟨-, hflag, -⟩
  cases hflag

end KaiT2en.Smc
