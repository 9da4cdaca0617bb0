import KaiT2en.Smc.ChargeLimit
import KaiT2en.Smc.Fans
import KaiT2en.Smc.Rtc
import KaiT2en.Smc.Watchdog

/-!
# Raw key access

`/dev/smc` reads and writes any key of the SMC, but for a list of keys that cannot be written. The list is an enumeration;
the keys that the driver writes itself (`managedKeys`) depend on the number of fans. `openKeys` are those that the list
leaves out.
-/

namespace KaiT2en.Smc

open KaiT2en.Kernel KaiT2en.Lib.Stateful Command List

def RTC_LATCH : List UInt8 := [67, 76, 75, 76]

def CHARGE_LIMIT_LEGACY : List UInt8 := [66, 67, 76, 77]

def NOTIFY : List UInt8 := [78, 84, 79, 75]

def MAX_FANS : Nat := 10

/-- `T2SMC_KEY`. -/
def smcKey (a b c d : Char) : UInt32 := a.val <<< 24 ||| b.val <<< 16 ||| c.val <<< 8 ||| d.val

def keyToStr (key : UInt32) : List UInt8 :=
  [(key >>> 24).toUInt8, (key >>> 16).toUInt8, (key >>> 8).toUInt8, key.toUInt8]

def deniedKeys : List UInt32 :=
  [smcKey 'C' 'H' '0' 'I', smcKey 'C' 'H' '0' 'C', smcKey 'C' 'H' '0' 'K', smcKey 'C' 'H' '0' 'B',
    smcKey 'C' 'H' 'T' 'E', smcKey 'C' 'H' 'L' 'S', smcKey 'B' 'C' 'L' 'M', smcKey 'M' 'B' 'S' 'E',
    smcKey 'C' 'L' 'K' 'L', smcKey 'C' 'L' 'K' 'O', smcKey 'O' 'S' 'W' 'D', smcKey 'N' 'A' 'T' 'J',
    smcKey 'N' 'A' 'T' 'i', smcKey 'N' 'E' 'S' 'N', smcKey 'M' 'O' 'C' 'N', smcKey 'L' 'K' 'S' 'B',
    smcKey 'N' 'T' 'O' 'K', smcKey 'N' 'T' 'A' 'P', smcKey 'F' '0' 'T' 'g', smcKey 'F' '1' 'T' 'g',
    smcKey 'F' '0' 'M' 'd', smcKey 'F' '1' 'M' 'd', smcKey 'F' 'S' '!' ' ']

def keyWriteDenied (key : UInt32) : Bool := deniedKeys.contains key

/-- `struct ioctl_smc_rw_payload`. -/
structure Payload where
  key : UInt32
  size : Nat
  buf : List UInt8
  length_buf : buf.length = 32

/-- The SMC, and the writes that were sent to it. -/
structure RawSmc where
  values : Values
  sent : List (List UInt8 × List UInt8)

def RawSmc.access {α : Type} (x : Access α) : Command RawSmc Failure α :=
  Command.zoom (·.values) (fun values s => { s with values }) x

@[simp] theorem RawSmc.access_sent {α : Type} (x : Access α) (s : RawSmc) : (RawSmc.access x s).2.sent = s.sent := rfl

variable (t : KeyTable) (faults : Faults)

/-- `write_smc`, with the write in the list of those that were sent. -/
def sendSmc (key buffer : List UInt8) : Command RawSmc Failure Unit := fun s =>
  let r := writeSmc faults key buffer s.values
  (r.1, ⟨r.2, s.sent ++ [(key, buffer)]⟩)

/-- `t2smc_write_key`. -/
def sendKey (key buffer : List UInt8) : Command RawSmc Failure Unit := do
  let entry ← RawSmc.access (getEntry t faults key)
  if entry.len.toNat ≠ buffer.length then Command.fail (.errno (-EINVAL)) else sendSmc faults key buffer

/-- `t2smc_smcdev_rw`. The argument cannot be copied if it is `none`; a read returns the bytes. -/
def smcdevRw (write : Bool) : Option Payload → Command RawSmc Failure (List UInt8)
  | none => Command.fail (.errno (-EFAULT))
  | some payload => do
    let entry ← RawSmc.access (getEntry t faults (keyToStr payload.key))
    if payload.size ≠ entry.len.toNat ∨ payload.buf.length < payload.size then Command.fail (.errno (-EINVAL))
    else if write then
      if keyWriteDenied payload.key then Command.fail (.errno (-EPERM))
      else do
        sendKey t faults (keyToStr payload.key) (payload.buf.take payload.size)
        pure payload.buf
    else RawSmc.access (readKey t faults (keyToStr payload.key) payload.size)

/-- A request with the commands that fail in it. -/
structure Ioctl where
  write : Bool
  argp : Option Payload
  faults : Faults

/-- One request after the other. -/
def runIoctls : List Ioctl → RawSmc → RawSmc
  | [], s => s
  | i :: l, s => runIoctls l (smcdevRw t i.faults i.write i.argp s).2

/-- The keys of the fans that the driver writes. -/
def fanKeys (fan : Nat) : List (List UInt8) := [modeKey fan, FanOption.target.key fan, FanOption.min.key fan]

/-- The keys that the driver writes for charging, clock, watchdog, notifications and fan control. -/
def managedKeys (fanCount : Nat) : List (List UInt8) :=
  [CHARGE_LIMIT, CHARGE_LIMIT_LEGACY, RTC_LATCH, RTC_OFFSET, WDT_TIMER, WDT_LEGACY_TIMER, WDT_LEGACY_MODE, NOTIFY,
    FANS_MANUAL] ++ (range fanCount).flatMap fanKeys

/-- The managed keys that are not denied: all keys of the fans after the second, and the minimum of the first two. -/
def openKeys (fanCount : Nat) : List (List UInt8) :=
  (range fanCount).flatMap fun fan => if fan < 2 then [FanOption.min.key fan] else fanKeys fan

/-- The request is a write to the key with as many bytes as the key has, and the lookup of the key does not fail. -/
def Ioctl.Fits (i : Ioctl) (key buffer : List UInt8) : Prop :=
  i.write = true ∧ i.faults .lookup key = false ∧ (∃ entry, t.find key = some entry ∧ entry.len.toNat = buffer.length) ∧
    ∃ payload, i.argp = some payload ∧ keyToStr payload.key = key ∧ payload.size ≤ payload.buf.length ∧
      payload.buf.take payload.size = buffer

section Requests

variable {t faults} {s : RawSmc} {fanCount : Nat} {key buffer : List UInt8}

theorem keyToStr_injective : Function.Injective keyToStr := by
  intro a b h
  simp only [keyToStr, cons.injEq, and_true, ← UInt8.toNat_inj, UInt32.toNat_toUInt8, UInt32.toNat_shiftRight] at h
  rw [← UInt32.toNat_inj]
  have ha := a.toNat_lt
  have hb := b.toNat_lt
  simp [Nat.shiftRight_eq_div_pow] at h
  omega

theorem keyWriteDenied_iff {key : UInt32} : keyWriteDenied key ↔ keyToStr key ∈ deniedKeys.map keyToStr := by
  rw [mem_map_of_injective keyToStr_injective, keyWriteDenied, contains_iff_mem]

theorem mem_openKeys_iff (hfans : fanCount ≤ MAX_FANS) :
    key ∈ openKeys fanCount ↔ key ∈ managedKeys fanCount ∧ key ∉ deniedKeys.map keyToStr := by
  have hfix : ∀ key ∈ [CHARGE_LIMIT, CHARGE_LIMIT_LEGACY, RTC_LATCH, RTC_OFFSET, WDT_TIMER, WDT_LEGACY_TIMER,
      WDT_LEGACY_MODE, NOTIFY, FANS_MANUAL], key ∈ deniedKeys.map keyToStr := by decide
  have hfan : ∀ fan < MAX_FANS, ∀ key ∈ fanKeys fan,
      (key ∈ if fan < 2 then [FanOption.min.key fan] else fanKeys fan) ↔ key ∉ deniedKeys.map keyToStr := by decide
  rw [openKeys, managedKeys, mem_append, mem_flatMap, mem_flatMap]
  constructor
  · rintro ⟨fan, hlt, hkey⟩
    have hmem : key ∈ fanKeys fan := by
      split at hkey
      · rw [mem_singleton.1 hkey, fanKeys]
        simp
      · exact hkey
    exact ⟨.inr ⟨fan, hlt, hmem⟩, (hfan fan (lt_of_lt_of_le (mem_range.1 hlt) hfans) key hmem).1 hkey⟩
  · rintro ⟨hkey | ⟨fan, hlt, hkey⟩, hnot⟩
    · exact absurd (hfix key hkey) hnot
    · exact ⟨fan, hlt, (hfan fan (lt_of_lt_of_le (mem_range.1 hlt) hfans) key hkey).2 hnot⟩

theorem sendKey_sent (s : RawSmc) {entry : KeyRecord} (hlk : faults .lookup key = false)
    (hfd : t.find key = some entry) (hln : entry.len.toNat = buffer.length) :
    (sendKey t faults key buffer s).2.sent = s.sent ++ [(key, buffer)] := by
  have hent : RawSmc.access (getEntry t faults key) s = (.ok entry, s) := by
    rw [RawSmc.access, Command.zoom, getEntry_of_find hlk hfd]
  rw [sendKey, bind_of_ok hent, if_neg (not_not_intro hln)]
  rfl

theorem mem_sent_smcdevRw (i : Ioctl) (s : RawSmc) : (key, buffer) ∈ (smcdevRw t i.faults i.write i.argp s).2.sent ↔
      (key, buffer) ∈ s.sent ∨ i.Fits t key buffer ∧ key ∉ deniedKeys.map keyToStr := by
  rw [Ioctl.Fits]
  cases hargp : i.argp with
  | none => simp [smcdevRw]
  | some payload =>
    rw [smcdevRw]
    rcases getEntry_cases t i.faults (keyToStr payload.key) s.values with ⟨entry, hlk, hfd, hok⟩ | ⟨hno, e, herr⟩
    · have hent : RawSmc.access (getEntry t i.faults (keyToStr payload.key)) s = (.ok entry, s) := by
        rw [RawSmc.access, Command.zoom, hok]
      rw [bind_of_ok hent]
      split
      · next hsz => grind [Command.fail_apply]
      next hsz =>
        split
        · next hwr =>
          split
          · next hdenied =>
            rw [keyWriteDenied_iff] at hdenied
            grind [Command.fail_apply]
          next hdenied =>
          rw [keyWriteDenied_iff] at hdenied
          have hln : entry.len.toNat = (payload.buf.take payload.size).length := by grind
          have hst := sendKey_sent s hlk hfd hln
          rcases hsd : sendKey t i.faults (keyToStr payload.key) (payload.buf.take payload.size) s with ⟨e | _, s'⟩
          · rw [bind_of_error hsd]
            grind
          · rw [bind_of_ok hsd, Command.pure_apply]
            grind
        · next hwr => grind [RawSmc.access_sent]
    · have hent : RawSmc.access (getEntry t i.faults (keyToStr payload.key)) s = (.error (.errno e), s) := by
        rw [RawSmc.access, Command.zoom, herr]
      rw [bind_of_error hent]
      grind

theorem mem_sent_runIoctls (l : List Ioctl) (s : RawSmc) : (key, buffer) ∈ (runIoctls t l s).sent ↔
      (key, buffer) ∈ s.sent ∨ ∃ i ∈ l, i.Fits t key buffer ∧ key ∉ deniedKeys.map keyToStr := by
  induction l generalizing s with
  | nil => simp [runIoctls]
  | cons i l ih => rw [runIoctls, ih, mem_sent_smcdevRw, exists_mem_cons_iff, or_assoc]

end Requests

/-- Every write that is sent has the length of its key, and no managed key is written exactly if no request fits one of
the keys that the list leaves out. -/
theorem raw_writes_spare_managed {fanCount : Nat} (hfans : fanCount ≤ MAX_FANS) (t : KeyTable) (values : Values)
    (l : List Ioctl) :
    (∀ key buffer, (key, buffer) ∈ (runIoctls t l ⟨values, []⟩).sent →
      ∃ entry, t.find key = some entry ∧ entry.len.toNat = buffer.length) ∧
    ((∀ key buffer, (key, buffer) ∈ (runIoctls t l ⟨values, []⟩).sent → key ∉ managedKeys fanCount) ↔
      ∀ i ∈ l, ∀ key ∈ openKeys fanCount, ∀ buffer, ¬ i.Fits t key buffer) := by
  simp only [mem_sent_runIoctls, mem_openKeys_iff hfans, not_mem_nil, false_or]
  constructor
  · rintro key buffer ⟨i, -, ⟨-, -, hent, -⟩, -⟩
    exact hent
  constructor
  · intro hspar i hi key ⟨hman, hnot⟩ buffer hft
    exact hspar key buffer ⟨i, hi, hft, hnot⟩ hman
  · rintro hno key buffer ⟨i, hi, hft, hnot⟩ hman
    exact hno i hi key ⟨hman, hnot⟩ buffer hft

/-- A request for `F0Mn`. -/
def minimumIoctl (write : Bool) : Ioctl := ⟨write, some ⟨smcKey 'F' '0' 'M' 'n', 4, replicate 32 0, rfl⟩, noFaults⟩

/-- The minimum of the only fan is read. -/
theorem raw_writes_spare_managed_read :
    1 ≤ MAX_FANS ∧ ∀ key buffer, (key, buffer) ∈ (runIoctls fanTable [minimumIoctl false] ⟨fun _ => [], []⟩).sent →
      key ∉ managedKeys 1 := by
  refine ⟨by decide, (raw_writes_spare_managed (by decide) _ _ _).2.2 fun i hi key _ buffer hft => ?_⟩
  rw [mem_singleton.1 hi] at hft
  cases hft.1

/-- The minimum of the only fan is written. -/
theorem raw_write_sets_minimum :
    ∃ key buffer, (key, buffer) ∈ (runIoctls fanTable [minimumIoctl true] ⟨fun _ => [], []⟩).sent ∧ key ∈ managedKeys 1 :=
  ⟨FanOption.min.key 0, [0, 0, 0, 0], by decide, by decide⟩

end KaiT2en.Smc
