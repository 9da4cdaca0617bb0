import KaiT2en.Lib.Calls
import KaiT2en.Smc.Fans

/-!
# Fans in manual mode

`fan_manual` has a bit for every fan that was set to manual mode, and `fan_target` the target, so that
`t2smc_restore_fans` can set both again after a sleep. A target is two or three commands to the SMC, each of which can
fail.

The bits agree with the modes as long as a command that fails is not the one after which the driver has changed the
other side already (`Careful`): a target of zero clears the bit before the mode is set, and a target puts the fan into
manual mode before the target is set.
-/

namespace KaiT2en.Smc

open KaiT2en.Kernel KaiT2en.Lib.Bytes KaiT2en.Lib.Stateful KaiT2en.Lib.Calls List Function Command FanOption Nat Fans

/-! ## The mode of a fan -/

section Mode

variable {t : KeyTable} {values : Values} {fan i : Nat} {manual : Bool}

def inManual (t : KeyTable) (values : Values) (fan : Nat) : Bool :=
  if hasMode t fan then values (modeKey fan) ≠ [0] else (maskOf (values FANS_MANUAL)).testBit fan

theorem maskOf_lt (buf : List UInt8) : maskOf buf < 2 ^ 16 := by
  have hhi := (buf.getD 0 0).toNat_lt
  have hlow := (buf.getD 1 0).toNat_lt
  rw [maskOf, shiftLeft_eq, mul_comm, ← two_pow_add_eq_or_of_lt hlow]
  omega

theorem maskOf_bytes {val : Nat} (hval : val < 2 ^ 16) :
    maskOf [(val >>> 8 &&& 0xff).toUInt8, (val &&& 0xff).toUInt8] = val := by
  have hhi : (val >>> 8 &&& 0xff).toUInt8.toNat = val / 2 ^ 8 := by
    rw [show 0xff = 2 ^ 8 - 1 from rfl, Nat.and_two_pow_sub_one_eq_mod, Nat.shiftRight_eq_div_pow, Nat.toUInt8,
      UInt8.toNat_ofNat']
    omega
  have hlow : (val &&& 0xff).toUInt8.toNat = val % 2 ^ 8 := by
    rw [show 0xff = 2 ^ 8 - 1 from rfl, Nat.and_two_pow_sub_one_eq_mod, Nat.toUInt8, UInt8.toNat_ofNat']
    omega
  rw [maskOf, getD_cons_zero, getD_cons_succ, getD_cons_zero, hhi, hlow, Nat.shiftLeft_eq,
    Nat.mul_comm, ← Nat.two_pow_add_eq_or_of_lt (Nat.mod_lt _ (Nat.two_pow_pos 8))]
  omega

theorem testBit_maskWith (buf : List UInt8) (hfan : fan < 16) (manual : Bool) (i : Nat) :
    (maskOf (maskWith buf fan manual)).testBit i = if i = fan then manual else (maskOf buf).testBit i := by
  have hbuf := maskOf_lt buf
  have hbit : 1 <<< fan < 2 ^ 16 := by
    rw [one_shiftLeft]
    exact Nat.pow_lt_pow_right (by decide) hfan
  have hval : (if manual then maskOf buf ||| 1 <<< fan else (maskOf buf).ldiff (1 <<< fan)) < 2 ^ 16 := by
    split
    · exact or_lt_two_pow hbuf hbit
    · apply lt_pow_two_of_testBit
      intro j hj
      rw [Nat.testBit_ldiff, Nat.testBit_lt_two_pow (hbuf.trans_le (Nat.pow_le_pow_right (by decide) hj)), Bool.false_and]
  rw [maskWith, maskOf_bytes hval, one_shiftLeft]
  cases manual with
  | true => grind
  | false =>
    by_cases hi : i = fan
    · simp [hi]
    · simp [hi, Ne.symm hi]

theorem numeral_of_lt : ∀ fan < 10, Lib.Numeral.numeral 10 fan = [(48 + fan).toUInt8] := by decide

theorem fanKeyOf_eq (a b : UInt8) (hfan : fan < 10) : fanKeyOf [a, b] fan = [70, (48 + fan).toUInt8, a, b] := by
  rw [fanKeyOf, numeral_of_lt fan hfan]
  rfl

section

variable (hfan : fan < 10)
include hfan

theorem modeKey_ne_mask : modeKey fan ≠ FANS_MANUAL := by
  rw [modeKey, fanKeyOf_eq _ _ hfan]
  intro h
  cases congrArg (fun key => key.getD 2 0) h

theorem targetKey_ne_mask : target.key fan ≠ FANS_MANUAL := by
  rw [key, letters, fanKeyOf_eq _ _ hfan]
  intro h
  cases congrArg (fun key => key.getD 2 0) h

theorem targetKey_ne_modeKey (hi : i < 10) : target.key fan ≠ modeKey i := by
  rw [key, letters, modeKey, fanKeyOf_eq _ _ hfan, fanKeyOf_eq _ _ hi]
  intro h
  cases congrArg (fun key => key.getD 2 0) h

theorem fanKeyOf_inj {a b : UInt8} (hi : i < 10) (h : fanKeyOf [a, b] fan = fanKeyOf [a, b] i) : fan = i := by
  rw [fanKeyOf_eq _ _ hfan, fanKeyOf_eq _ _ hi] at h
  have hdig : (48 + fan).toUInt8 = (48 + i).toUInt8 := congrArg (fun key => key.getD 1 0) h
  have hnat := congrArg UInt8.toNat hdig
  simp only [toUInt8, UInt8.toNat_ofNat'] at hnat
  omega

/-! ### Setting the mode -/

theorem inManual_setMode (hi : i < 10) :
    inManual t (setMode t values fan manual) i = if i = fan then manual else inManual t values i := by
  rw [setMode]
  cases hfmd : hasMode t fan with
  | true =>
    rw [if_pos rfl]
    by_cases heq : i = fan
    · grind [inManual]
    · have hne : modeKey i ≠ modeKey fan := fun h => heq (fanKeyOf_inj hi hfan h)
      rw [if_neg heq, inManual, inManual, update_of_ne hne, update_of_ne (modeKey_ne_mask hfan).symm]
  | false =>
    rw [if_neg Bool.false_ne_true]
    by_cases heq : i = fan
    · grind [inManual, testBit_maskWith]
    · rw [if_neg heq, inManual, inManual, update_self, update_of_ne (modeKey_ne_mask hi),
        testBit_maskWith _ (by omega), if_neg heq]

theorem setMode_target (hi : i < 10) :
    setMode t values fan manual (target.key i) = values (target.key i) := by
  rw [setMode]
  split
  · exact update_of_ne (targetKey_ne_modeKey hi hfan) ..
  · exact update_of_ne (targetKey_ne_mask hi) ..

theorem setMode_mask (hma : (values FANS_MANUAL).length = 2) :
    (setMode t values fan manual FANS_MANUAL).length = 2 := by
  rw [setMode]
  split
  · rw [update_of_ne (modeKey_ne_mask hfan).symm, hma]
  · rfl

/-- The target is stored with no effect on the modes. -/
theorem inManual_update_target {bytes : List UInt8} (hi : i < 10) :
    inManual t (update values (target.key fan) bytes) i = inManual t values i := by
  rw [inManual, inManual, update_of_ne (targetKey_ne_modeKey hfan hi).symm, update_of_ne (targetKey_ne_mask hfan).symm]

end

end Mode

/-! ## Calls -/

/-- The number of fans, from the byte in `FNum`. -/
def fanCount (num : UInt8) : Nat := min num.toNat 10

/-- What is done with the fans. During a call some commands fail, after a sleep separately for every fan. -/
inductive FanCall
  | write (fan : Nat) (v : Int) (faults : Faults)
  | resume (faults : Nat → Faults)

section Calls

variable (t : KeyTable) (num : UInt8)

/-- One round of the loop of `t2smc_restore_fans`. -/
def restoreFan (faults : Faults) (fan : Nat) : Command Fans Failure Unit := fun s =>
  if s.manual fan then
    match (do
      access (writeFanManual t faults fan true)
      access (writeFan t faults fan .target (s.target fan)) : Command Fans Failure Unit) s with
    | (.error (.errno _), s') => setManual fan false s'
    | (result, s') => (result, s')
  else (.ok (), s)

/-- `t2smc_restore_fans`, for the fans that are left. -/
def restoreFans (faults : Nat → Faults) : List Nat → Command Fans Failure Unit
  | [] => pure ()
  | fan :: fans => do
    restoreFan t (faults fan) fan
    restoreFans faults fans

local instance lawful_names : LawfulBEq (List UInt8) := inferInstance

/-- A sleep returns all fans to automatic mode. -/
def sleepValues (values : Values) : Values := fun key =>
  if key = FANS_MANUAL then [0, 0] else if key ∈ (List.range (fanCount num)).map modeKey then [0] else values key

def fanCall : FanCall → Command Fans Failure Unit
  | .write fan v faults => hwmonWrite t faults .target fan v
  | .resume faults => fun s =>
    restoreFans t faults (List.range (fanCount num)) { s with values := sleepValues num s.values }

/-- The fans, from the time that the driver is loaded with all fans in automatic mode. -/
def fanComponent : Component Fans FanCall (Except Failure Unit) where
  init s := (s.values FANS_MANUAL).length = 2 ∧ ∀ fan < fanCount num, inManual t s.values fan = false ∧ s.manual fan = false
  can _ call :=
    match call with
    | .write fan _ _ => fan < fanCount num
    | .resume _ => true
  perform := fanCall t num

def storedTarget (values : Values) (fan : Nat) : Option Nat :=
  (t.find (target.key fan)).bind fun entry => decodeSpeed entry (values (target.key fan))

def targetLimit (fan : Nat) : Nat :=
  match t.find (target.key fan) with
  | some entry => speedLimit entry
  | none => 0

/-- No command fails after the driver has changed one of the two sides, and no target is too large for its key. -/
def Careful (s : Fans) : FanCall → Prop
  | .write fan v faults =>
    (v = 0 → s.manual fan = true → modeWritable t faults fan = true) ∧
    (0 < v → modeWritable t faults fan = true →
      v < targetLimit t fan ∧ (s.manual fan = true ∨ speedWritable t faults (target.key fan) = true))
  | .resume faults => ∀ fan < fanCount num, s.manual fan = true → modeWritable t (faults fan) fan = true →
      speedWritable t (faults fan) (target.key fan) = true

/-- What has to hold after a call, by its result. -/
def AfterFanCall : FanCall → Except Failure Unit × Fans → Prop
  | .write fan v _, (.ok (), s) => inManual t s.values fan = decide (v ≠ 0) ∧ s.manual fan = decide (v ≠ 0) ∧
      (v ≠ 0 → storedTarget t s.values fan = some v.toNat)
  | .write fan _ _, (.error (.errno _), s) => inManual t s.values fan = s.manual fan
  | .resume _, (.ok (), s) => ∀ fan < fanCount num, s.manual fan = true →
      inManual t s.values fan = true ∧ storedTarget t s.values fan = some (s.target fan)
  | _, _ => False

end Calls

/-! ## What a call changes -/

section Change

variable {t : KeyTable} {num : UInt8} {faults : Faults} {values values' : Values} {fan speed : Nat}

/-- At most one fan has changed, to the given mode and target. -/
structure Changed (t : KeyTable) (fan : Nat) (values values' : Values) (mode : Bool) (target : Option Nat) : Prop where
  mask : (values' FANS_MANUAL).length = 2
  mode : ∀ i < 10, inManual t values' i = if i = fan then mode else inManual t values i
  target : ∀ i < 10, storedTarget t values' i = if i = fan then target else storedTarget t values i

theorem changed_setMode (manual : Bool) (hfan : fan < 10) (hma : (values FANS_MANUAL).length = 2) :
    Changed t fan values (setMode t values fan manual) manual (storedTarget t values fan) := by
  refine ⟨setMode_mask hfan hma, fun i hi => inManual_setMode hfan hi, fun i hi => ?_⟩
  rw [storedTarget, setMode_target hfan hi, ← storedTarget]
  split
  · next heq => rw [heq]
  · rfl

/-- A target below the limit is stored, or the call fails and changes nothing. -/
theorem writeFan_target (hfan : fan < 10) (hma : (values FANS_MANUAL).length = 2) (hspd : speed < targetLimit t fan) :
    (speedWritable t faults (target.key fan) ∧
      ∃ values', writeFan t faults fan .target speed values = (.ok (), values') ∧
        Changed t fan values values' (inManual t values fan) (some speed)) ∨
    (speedWritable t faults (target.key fan) = false ∧
      ∃ e, writeFan t faults fan .target speed values = (.error (.errno e), values)) := by
  rw [targetLimit] at hspd
  cases hfd : t.find (target.key fan) with
  | none =>
    rw [hfd] at hspd
    exact absurd hspd (not_lt_zero _)
  | some entry =>
    rw [hfd] at hspd
    obtain ⟨bytes, henc, hdec⟩ := encodeSpeed_of_lt hspd
    rcases writeFan_of_encode hfd henc with ⟨hwrit, h⟩ | ⟨hwrit, h⟩
    · refine .inl ⟨hwrit, _, h, ?_, fun i hi => ?_, fun i hi => ?_⟩
      · rw [update_of_ne (targetKey_ne_mask hfan).symm, hma]
      · grind [inManual_update_target]
      · rw [storedTarget]
        split
        · grind
        · next hne =>
            have hkey : target.key i ≠ target.key fan := fun h => hne (fanKeyOf_inj hi hfan h)
            rw [update_of_ne hkey, ← storedTarget]
    · exact .inr ⟨hwrit, h⟩

/-- The two commands that put a fan into manual mode with a target. -/
def enterManual (t : KeyTable) (faults : Faults) (fan speed : Nat) : Command Fans Failure Unit := do
  access (writeFanManual t faults fan true)
  access (writeFan t faults fan .target speed)

theorem enterManual_cases {s : Fans} (hfan : fan < 10) (hma : (s.values FANS_MANUAL).length = 2)
    (hspd : modeWritable t faults fan → speed < targetLimit t fan) :
    (modeWritable t faults fan = false ∧ ∃ e, enterManual t faults fan speed s = (.error (.errno e), s)) ∨
    (modeWritable t faults fan ∧ speedWritable t faults (target.key fan) = false ∧
      ∃ e, enterManual t faults fan speed s = (.error (.errno e), { s with values := setMode t s.values fan true })) ∨
    (modeWritable t faults fan ∧ speedWritable t faults (target.key fan) ∧
      ∃ values', enterManual t faults fan speed s = (.ok (), { s with values := values' }) ∧
        Changed t fan s.values values' true (some speed)) := by
  rw [enterManual]
  rcases writeFanManual_cases t faults fan true hma with ⟨hmd, h⟩ | ⟨hmd, e, h⟩
  · have hset := changed_setMode (t := t) true hfan hma
    rw [bind_of_ok (access_of_eq h)]
    refine .inr ?_
    rcases writeFan_target hfan hset.mask (hspd hmd) with ⟨hwr, values', h', hchg⟩ | ⟨hwr, e, h'⟩
    · refine .inr ⟨hmd, hwr, values', access_of_eq h', hchg.mask, fun i hi => ?_, fun i hi => ?_⟩
      · rw [hchg.mode i hi, hset.mode i hi, hset.mode fan hfan, if_pos rfl]
        split <;> rfl
      · rw [hchg.target i hi, hset.target i hi]
        split <;> rfl
    · exact .inl ⟨hmd, hwr, e, access_of_eq h'⟩
  · exact .inl ⟨hmd, e, bind_of_error (access_of_eq h)⟩

theorem hwmonWrite_zero (s : Fans) : hwmonWrite t faults .target fan 0 s =
    access (writeFanManual t faults fan false) { s with manual := update s.manual fan false } := by
  rfl

theorem hwmonWrite_of_ok {v : Int} {s s' : Fans} (hv : 0 < v) (h : enterManual t faults fan (toU32 v) s = (.ok (), s')) :
    hwmonWrite t faults .target fan v s =
      (.ok (), ⟨s'.values, update s'.manual fan true, update s'.target fan (toU32 v)⟩) := by
  obtain ⟨_, s₁, hmd, hwr⟩ := Command.bind_eq_ok.1 h
  rw [hwmonWrite, if_neg (by omega), if_neg (by omega), bind_of_ok hmd, bind_of_ok hwr]
  rfl

theorem hwmonWrite_of_error {v : Int} {s s' : Fans} {e : Failure} (hv : 0 < v)
    (h : enterManual t faults fan (toU32 v) s = (.error e, s')) : hwmonWrite t faults .target fan v s = (.error e, s') := by
  rw [enterManual] at h
  rw [hwmonWrite, if_neg (by omega), if_neg (by omega)]
  rcases hmd : access (writeFanManual t faults fan true) s with ⟨e' | _, s₁⟩
  · rw [bind_of_error hmd] at h ⊢
    rw [h]
  · rw [bind_of_ok hmd] at h ⊢
    rw [bind_of_error h]

end Change

/-! ## Agreement -/

/-- The bits agree with the modes, and the SMC has the remembered targets. -/
structure FansAgree (t : KeyTable) (num : UInt8) (s : Fans) : Prop where
  mask : (s.values FANS_MANUAL).length = 2
  mode : ∀ fan < fanCount num, inManual t s.values fan = s.manual fan
  target : ∀ fan < fanCount num, s.manual fan = true →
    storedTarget t s.values fan = some (s.target fan) ∧ s.target fan < targetLimit t fan

section Agreement

variable {t : KeyTable} {num : UInt8} {faults : Faults} {fan : Nat} {v : Int} {s : Fans}

theorem lt_ten (h : fan < fanCount num) : fan < 10 := lt_of_lt_of_le h (min_le_right _ _)

section

variable (h : FansAgree t num s)
include h

theorem FansAgree.of_changed {s' : Fans} {mode : Bool} {target : Option Nat}
    (hchg : Changed t fan s.values s'.values mode target)
    (hman : ∀ i, s'.manual i = if i = fan then mode else s.manual i) (hoth : ∀ i, i ≠ fan → s'.target i = s.target i)
    (htar : mode → target = some (s'.target fan) ∧ s'.target fan < targetLimit t fan) :
    FansAgree t num s' := by
  refine ⟨hchg.mask, fun i hi => ?_, fun i hi hmd => ?_⟩
  · rw [hchg.mode i (lt_ten hi), hman]
    split
    · rfl
    · exact h.mode i hi
  · rw [hman] at hmd
    rw [hchg.target i (lt_ten hi)]
    split at hmd
    · next heq =>
        rw [if_pos heq, heq]
        exact htar hmd
    · next hne =>
        rw [if_neg hne, hoth i hne]
        exact h.target i hi hmd

theorem zero_agrees (hfan : fan < fanCount num) (hcar : s.manual fan → modeWritable t faults fan) :
    FansAgree t num (hwmonWrite t faults .target fan 0 s).2 ∧
      AfterFanCall t num (.write fan 0 faults) (hwmonWrite t faults .target fan 0 s) := by
  have hten := lt_ten hfan
  rw [hwmonWrite_zero]
  rcases writeFanManual_cases t faults fan false h.mask with ⟨-, hwr⟩ | ⟨hmd, e, hwr⟩
  · have hset := changed_setMode (t := t) false hten h.mask
    have hacc := access_of_eq (s := { s with manual := update s.manual fan false }) hwr
    rw [hacc]
    refine ⟨h.of_changed hset (fun i => update_apply ..) (fun _ _ => rfl) fun h => absurd h Bool.false_ne_true,
      ?_, ?_, ?_⟩
    · rw [hset.mode fan hten, if_pos rfl]
      rfl
    · exact update_self ..
    · exact fun h => absurd rfl h
  -- nothing was written, and the bit was clear before
  have hclear : s.manual fan = false := by grind
  have hsa : update s.manual fan false = s.manual := by
    rw [← hclear]
    exact update_eq_self fan s.manual
  rw [hsa, access_of_eq hwr]
  exact ⟨h, h.mode fan hfan⟩

theorem target_agrees (hfan : fan < fanCount num) (hv : 0 < v) (hcar : modeWritable t faults fan →
      v < targetLimit t fan ∧ (s.manual fan ∨ speedWritable t faults (target.key fan))) :
    FansAgree t num (hwmonWrite t faults .target fan v s).2 ∧
      AfterFanCall t num (.write fan v faults) (hwmonWrite t faults .target fan v s) := by
  have hten := lt_ten hfan
  have hlim : targetLimit t fan ≤ 2 ^ 32 := by
    rw [targetLimit]
    split
    · rw [speedLimit]
      split <;> decide
    · decide
  have hspd : modeWritable t faults fan → toU32 v < targetLimit t fan ∧ toU32 v = v.toNat := by
    intro hmd
    have hlt := (hcar hmd).1
    rw [toU32]
    omega
  rcases enterManual_cases hten h.mask fun hmd => (hspd hmd).1 with
    ⟨-, e, herr⟩ | ⟨hmd, hwr, e, herr⟩ | ⟨hmd, -, values', hok, hchg⟩
  · rw [hwmonWrite_of_error hv herr]
    exact ⟨h, h.mode fan hfan⟩
  · -- the mode was set, and the fan was in manual mode before
    have hman : s.manual fan := by grind
    have hset := changed_setMode (t := t) true hten h.mask
    have hagr : FansAgree t num { s with values := setMode t s.values fan true } := by
      refine h.of_changed hset (fun i => ?_) (fun _ _ => rfl) fun _ => h.target fan hfan hman
      split
      · next heq => rw [heq, hman]
      · rfl
    rw [hwmonWrite_of_error hv herr]
    exact ⟨hagr, hagr.mode fan hfan⟩
  · obtain ⟨hlt, hnat⟩ := hspd hmd
    have hnon : decide (v ≠ 0) := decide_eq_true (by omega)
    rw [hwmonWrite_of_ok hv hok]
    refine ⟨h.of_changed hchg (fun i => update_apply ..) (fun i hi => update_of_ne hi ..)
      fun _ => ?_, ?_, ?_, fun _ => ?_⟩
    · dsimp only
      rw [update_self]
      exact ⟨rfl, hlt⟩
    · rw [hchg.mode fan hten, if_pos rfl, hnon]
    · rw [hnon]
      exact update_self ..
    · rw [hchg.target fan hten, if_pos rfl, hnat]

end

/-! ### After a sleep -/

/-- The state of the loop of `t2smc_restore_fans` with the fans `l` left. -/
structure Restoring (t : KeyTable) (num : UInt8) (faults : Nat → Faults) (l : List Nat) (s : Fans) : Prop where
  mask : (s.values FANS_MANUAL).length = 2
  left : ∀ fan ∈ l, fan < fanCount num ∧ inManual t s.values fan = false
  careful : ∀ fan ∈ l, s.manual fan = true → modeWritable t (faults fan) fan = true →
    speedWritable t (faults fan) (target.key fan) = true
  limit : ∀ fan < fanCount num, s.manual fan = true → s.target fan < targetLimit t fan
  done : ∀ fan < fanCount num, fan ∉ l → inManual t s.values fan = s.manual fan ∧
    (s.manual fan = true → storedTarget t s.values fan = some (s.target fan))

variable {faults : Nat → Faults}

theorem restoreFan_step {l : List Nat} (h : Restoring t num faults (fan :: l) s) (hfan : fan ∉ l) :
    ∃ s', restoreFan t (faults fan) fan s = (.ok (), s') ∧ Restoring t num faults l s' := by
  obtain ⟨hcnt, haut⟩ := h.left fan mem_cons_self
  have hten := lt_ten hcnt
  have hdn : ∀ i < fanCount num, i ∉ l → i ≠ fan → inManual t s.values i = s.manual i ∧
      (s.manual i → storedTarget t s.values i = some (s.target i)) := by
    intro i hi hmem hne
    exact h.done i hi (not_mem_cons_of_ne_of_not_mem hne hmem)
  have hne : ∀ i ∈ l, i ≠ fan := fun i hi heq => hfan (heq ▸ hi)
  rw [restoreFan]
  cases hman : s.manual fan with
  | false =>
    refine ⟨s, rfl, h.mask, fun i hi => h.left i (mem_cons_of_mem _ hi),
      fun i hi => h.careful i (mem_cons_of_mem _ hi), h.limit, fun i hi hmem => ?_⟩
    by_cases heq : i = fan
    · grind
    · exact hdn i hi hmem heq
  | true =>
    rw [if_pos rfl, ← enterManual]
    rcases enterManual_cases hten h.mask fun _ => h.limit fan hcnt hman with
      ⟨-, e, herr⟩ | ⟨hmd, hwr, -⟩ | ⟨-, -, values', hok, hchg⟩
    · -- still in automatic mode
      refine ⟨{ s with manual := update s.manual fan false }, by rw [herr]; rfl, h.mask,
        fun i hi => h.left i (mem_cons_of_mem _ hi), fun i hi => ?_, fun i hi => ?_, fun i hi hmem => ?_⟩
      · dsimp only
        rw [update_of_ne (hne i hi)]
        exact h.careful i (mem_cons_of_mem _ hi)
      · dsimp only
        rw [update_apply]
        split
        · exact fun h => absurd h Bool.false_ne_true
        · exact h.limit i hi
      · grind
    · have hspd := h.careful fan mem_cons_self hman hmd
      rw [hwr] at hspd
      cases hspd
    · refine ⟨{ s with values := values' }, by rw [hok], hchg.mask, fun i hi => ?_,
        fun i hi => h.careful i (mem_cons_of_mem _ hi), h.limit, fun i hi hmem => ?_⟩
      · obtain ⟨hi', hmd⟩ := h.left i (mem_cons_of_mem _ hi)
        refine ⟨hi', ?_⟩
        rw [hchg.mode i (lt_ten hi'), if_neg (hne i hi), hmd]
      · rw [hchg.mode i (lt_ten hi), hchg.target i (lt_ten hi)]
        split
        · grind
        · next heq => exact hdn i hi hmem heq

theorem restoreFans_run {l : List Nat} (hl : l.Nodup) (h : Restoring t num faults l s) :
    ∃ s', restoreFans t faults l s = (.ok (), s') ∧ Restoring t num faults [] s' := by
  induction l generalizing s with
  | nil => exact ⟨s, rfl, h⟩
  | cons fan l ih =>
    obtain ⟨hfan, hl⟩ := nodup_cons.1 hl
    obtain ⟨s₁, hsp, h₁⟩ := restoreFan_step h hfan
    obtain ⟨s', hrun, h'⟩ := ih hl h₁
    exact ⟨s', (bind_of_ok hsp).trans hrun, h'⟩

theorem inManual_sleepValues (values : Values) (hfan : fan < fanCount num) :
    inManual t (sleepValues num values) fan = false := by
  have hmem : modeKey fan ∈ (List.range (fanCount num)).map modeKey := mem_map_of_mem (mem_range.2 hfan)
  rw [inManual, sleepValues, sleepValues, if_neg (modeKey_ne_mask (lt_ten hfan)), if_pos hmem, if_pos rfl]
  split
  · rfl
  · exact zero_testBit fan

theorem resume_agrees (h : FansAgree t num s) (hcar : Careful t num s (.resume faults)) :
    FansAgree t num (fanCall t num (.resume faults) s).2 ∧
      AfterFanCall t num (.resume faults) (fanCall t num (.resume faults) s) := by
  have hstr : Restoring t num faults (List.range (fanCount num)) { s with values := sleepValues num s.values } := by
    refine ⟨by dsimp only; rw [sleepValues, if_pos rfl]; rfl, fun fan hfan => ?_, fun fan hfan => ?_, fun fan hfan hman => ?_,
      fun fan hfan hmem => ?_⟩
    · exact ⟨mem_range.1 hfan, inManual_sleepValues _ (mem_range.1 hfan)⟩
    · exact hcar fan (mem_range.1 hfan)
    · exact (h.target fan hfan hman).2
    · exact absurd (mem_range.2 hfan) hmem
  obtain ⟨s', hrun, hend⟩ := restoreFans_run nodup_range hstr
  have hagr : FansAgree t num s' := by
    refine ⟨hend.mask, fun fan hfan => (hend.done fan hfan not_mem_nil).1, fun fan hfan hman => ?_⟩
    exact ⟨(hend.done fan hfan not_mem_nil).2 hman, hend.limit fan hfan hman⟩
  have hca : fanCall t num (.resume faults) s = (.ok (), s') := hrun
  rw [hca]
  refine ⟨hagr, fun fan hfan hman => ?_⟩
  exact ⟨(hagr.mode fan hfan).trans hman, (hagr.target fan hfan hman).1⟩

/-- Every call of a run keeps the agreement and has the result that it should have. -/
theorem fanCall_agrees (call : FanCall) (hcan : (fanComponent t num).can s call) (hcar : Careful t num s call)
    (h : FansAgree t num s) :
    FansAgree t num (fanCall t num call s).2 ∧ AfterFanCall t num call (fanCall t num call s) := by
  cases call with
  | resume faults => exact resume_agrees h hcar
  | write fan v faults =>
    have hfan : fan < fanCount num := decide_eq_true_iff.1 hcan
    rw [fanCall]
    rcases lt_trichotomy v 0 with hneg | rfl | hpos
    · have href : hwmonWrite t faults .target fan v s = (.error (.errno (-EINVAL)), s) := by
        rw [hwmonWrite, if_pos hneg]
        rfl
      rw [href]
      exact ⟨h, h.mode fan hfan⟩
    · exact zero_agrees h hfan (hcar.1 rfl)
    · exact target_agrees h hfan hpos (hcar.2 hpos)

end Agreement

/-- In every run in which no command fails after the driver has changed one side, and no target is too large for its
key, every call leaves bits, modes and targets as they should be. -/
theorem manual_fans_agree {t : KeyTable} {num : UInt8} {s : Fans} {call : FanCall}
    (h : (fanComponent t num).machine.Reach (Careful t num) s) (hcan : (fanComponent t num).can s call = true)
    (hcareful : Careful t num s call) : AfterFanCall t num call (fanCall t num call s) := by
  refine Component.after_call (C := fanComponent t num) (I := FansAgree t num) (P := fun _ => AfterFanCall t num) ?_ ?_ h
    hcan hcareful
  · rintro s ⟨hma, hclear⟩
    refine ⟨hma, fun fan hfan => ?_, fun fan hfan hman => ?_⟩
    · rw [(hclear fan hfan).1, (hclear fan hfan).2]
    · rw [(hclear fan hfan).2] at hman
      cases hman
  · exact fun s call hcan hcareful hs => fanCall_agrees call hcan hcareful hs

theorem automaticFan_init : (fanComponent fanTable 1).init automaticFan := by
  refine ⟨rfl, fun fan hfan => ?_⟩
  obtain rfl : fan = 0 := lt_one_iff.1 hfan
  exact ⟨rfl, rfl⟩

/-- A target of 3000, and then a sleep. -/
theorem manual_fans_agree_sleep :
    ∃ s, (fanComponent fanTable 1).machine.Reach (Careful fanTable 1) s ∧ s.manual 0 = true ∧
      AfterFanCall fanTable 1 (.resume fun _ => noFaults) (fanCall fanTable 1 (.resume fun _ => noFaults) s) := by
  have hcar : Careful fanTable 1 automaticFan (.write 0 3000 noFaults) :=
    ⟨fun h => absurd h (by decide), fun _ _ => ⟨by decide, .inr rfl⟩⟩
  have hre : (fanComponent fanTable 1).machine.Reach (Careful fanTable 1)
      (fanCall fanTable 1 (.write 0 3000 noFaults) automaticFan).2 :=
    Component.reach_call (.init automaticFan_init) rfl hcar
  refine ⟨_, hre, rfl, manual_fans_agree hre rfl fun fan hfan _ _ => ?_⟩
  obtain rfl : fan = 0 := lt_one_iff.1 hfan
  rfl

/-- A target of 3000, and then a target of zero whose only command fails: the fan stays in manual mode, and its bit is
cleared. -/
theorem manual_fan_forgotten :
    ∃ s faults, (fanComponent fanTable 1).machine.Reachable s ∧ (fanComponent fanTable 1).can s (.write 0 0 faults) = true ∧
      ¬ AfterFanCall fanTable 1 (.write 0 0 faults) (fanCall fanTable 1 (.write 0 0 faults) s) := by
  have hre : (fanComponent fanTable 1).machine.Reachable
      (fanCall fanTable 1 (.write 0 3000 noFaults) automaticFan).2 :=
    Component.reach_call (.init automaticFan_init) rfl trivial
  refine ⟨_, fun op _ => op = .write, hre, rfl, ?_⟩
  intro h
  cases h

end KaiT2en.Smc
