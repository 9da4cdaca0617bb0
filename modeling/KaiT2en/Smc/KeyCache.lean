import KaiT2en.Kernel.Primitives
import KaiT2en.Lib.Transition
import KaiT2en.Smc.KeyTable
import Mathlib.Algebra.BigOperators.Group.Finset.Basic

/-!
# The key cache of the SMC driver

`t2smc_get_entry_by_key` of `t2smc.c` finds a key by two binary searches over the SMC's sorted key table. The names
are read when they are needed and are kept in a cache that all callers share. An entry is filled under a mutex; its
`valid` flag is tested before the mutex is taken, and once more after that. A step is one access to the cache, one
operation on the mutex or one SMC command of one of the callers.

`t2smc_get_entry_by_index` does not initialise `ret`. If the entry became valid between the two tests, the function
returns what happens to be in that variable (`uninitialised_ret_returned`). In the other runs every lookup is exact
(`lookup_exact`).
-/

namespace KaiT2en.Smc

open KaiT2en.Kernel KaiT2en.Lib.Transition Machine KaiT2en.Lib.BinarySearch Option Function KeyTable Finset

/-! ## Callers -/

def MAX_ERRNO : Int := 4095

/-- `struct t2smc_entry`. -/
structure Entry where
  key : List UInt8
  valid : Bool
  len : UInt8
  type : List UInt8
  flags : UInt8
  deriving DecidableEq

def KeyRecord.entry (k : KeyRecord) : Entry := ⟨k.name, true, k.len, k.type, k.flags⟩

/-- What `t2smc_get_entry_by_index` returns: an entry of the cache or `ERR_PTR(ret)`. -/
inductive Ptr
  | entry (index : Nat)
  | errPtr (ret : Int)

/-- `IS_ERR(ERR_PTR(ret))`. -/
def IsErr (ret : Int) : Prop := -MAX_ERRNO ≤ ret ∧ ret < 0
  deriving Decidable

/-- What a lookup is at: one of the two searches, or the last access to the cache. -/
inductive Stage
  | lower (lo hi : Nat)
  | upper (first lo hi : Nat)
  | last (index : Nat)
  deriving DecidableEq

/-- The entry that is needed. -/
def Stage.index : Stage → Nat
  | .lower lo hi | .upper _ lo hi => middle lo hi
  | .last index => index

/-- The next statement of a lookup. All between `head` and `compare` are in `t2smc_get_entry_by_index`. -/
inductive Pc
  | head
  | check
  | lock
  | recheck
  | readName
  | copyKey (k : KeyRecord)
  | readInfo (k : KeyRecord)
  | setLen (k : KeyRecord)
  | setType (k : KeyRecord)
  | setFlags (k : KeyRecord)
  | setValid
  | unlock (ret : Int)
  | compare
  deriving DecidableEq

/-- The result of a lookup. A `wild` pointer is neither an entry nor an error. -/
inductive Result
  | entry (index : Nat)
  | error (code : Int)
  | wild (ret : Int)
  deriving DecidableEq

/-- A caller. `errors` has the errors of the SMC commands that the lookup has issued. -/
inductive Caller
  | idle
  | running (key : List UInt8) (stage : Stage) (pc : Pc) (errors : List Int)
  | returned (key : List UInt8) (errors : List Int) (result : Result)
  | crashed
  deriving DecidableEq

/-- The cache and the owner of the mutex. -/
structure Shared (ι : Type) where
  cache : Nat → Entry
  owner : Option ι

structure State (ι : Type) where
  shared : Shared ι
  callers : ι → Caller

variable {ι : Type}

variable (t : KeyTable) (m : Shared ι)

def Shared.write (index : Nat) (f : Entry → Entry) : Shared ι :=
  { m with cache := update m.cache index (f (m.cache index)) }

/-- What a step of `t2smc_get_entry_by_index` leads to: the error of a failed SMC command, and the next statement or
the returned pointer. -/
structure Outcome (ι : Type) where
  shared : Shared ι
  failed : List Int
  next : Pc ⊕ Ptr

/-- A step of `t2smc_get_entry_by_index`. `ok` says whether an SMC command succeeds, and `garbage` is what is in `ret`
as long as it is not set. -/
def getEntryByIndex (i : ι) (index : Nat) (m : Shared ι) (ok : Bool) (garbage : Int) :
    Pc → Option (Outcome ι)
  | .head | .compare => none
  | .check => some ⟨m, [], if (m.cache index).valid then .inr (.entry index) else .inl .lock⟩
  | .lock => if m.owner = none then some ⟨{ m with owner := some i }, [], .inl .recheck⟩ else none
  | .recheck => some ⟨m, [], .inl (if (m.cache index).valid then .unlock garbage else .readName)⟩
  | .readName =>
    match t.keys[index]? with
    | some k => if ok then some ⟨m, [], .inl (.copyKey k)⟩ else some ⟨m, [-EIo], .inl (.unlock (-EIo))⟩
    | none => some ⟨m, [-EIo], .inl (.unlock (-EIo))⟩
  | .copyKey k => some ⟨m.write index ({ · with key := k.name }), [], .inl (.readInfo k)⟩
  | .readInfo k => if ok then some ⟨m, [], .inl (.setLen k)⟩ else some ⟨m, [-EIo], .inl (.unlock (-EIo))⟩
  | .setLen k => some ⟨m.write index ({ · with len := k.len }), [], .inl (.setType k)⟩
  | .setType k => some ⟨m.write index ({ · with type := k.type }), [], .inl (.setFlags k)⟩
  | .setFlags k => some ⟨m.write index ({ · with flags := k.flags }), [], .inl .setValid⟩
  | .setValid => some ⟨m.write index ({ · with valid := true }), [], .inl (.unlock 0)⟩
  | .unlock ret => some ⟨{ m with owner := none }, [], .inr (if ret ≠ 0 then .errPtr ret else .entry index)⟩

/-- What the caller of `t2smc_get_entry_by_index` does with the pointer. The searches take a pointer that is not an
error for an entry. -/
def receive (key : List UInt8) (stage : Stage) (errors : List Int) : Ptr → Caller
  | .entry index =>
    match stage with
    | .last _ => .returned key errors (.entry index)
    | _ => .running key stage .compare errors
  | .errPtr ret =>
    if IsErr ret then .returned key errors (.error ret)
    else
      match stage with
      | .last _ => .returned key errors (.wild ret)
      | _ => .crashed

/-- The conditions of the loops of the two bounds, and what `t2smc_get_entry_by_key` does after them. -/
def atHead (key : List UInt8) (errors : List Int) : Stage → Caller
  | .lower lo hi =>
    if lo ≠ hi then .running key (.lower lo hi) .check errors
    else .running key (.upper lo 0 t.keyCount) .head errors
  | .upper first lo hi =>
    if lo ≠ hi then .running key (.upper first lo hi) .check errors
    else if lo = first then .returned key errors (.error (-ENOENT))
    else if (lo : Int) - first ≠ 1 then .returned key errors (.error (-EUCLEAN))
    else .running key (.last first) .check errors
  | .last index => .running key (.last index) .check errors

/-- The comparisons of `t2smc_get_lower_bound` and `t2smc_get_upper_bound`. -/
def atCompare (key : List UInt8) : Stage → Stage
  | .lower lo hi =>
    if strcmp (m.cache (middle lo hi)).key key < 0 then .lower (middle lo hi + 1) hi else .lower lo (middle lo hi)
  | .upper first lo hi =>
    if strcmp key (m.cache (middle lo hi)).key < 0 then .upper first lo (middle lo hi)
    else .upper first (middle lo hi + 1) hi
  | .last index => .last index

def callerStep (i : ι) (m : Shared ι) (ok : Bool) (garbage : Int) : Caller → Option (Shared ι × Caller)
  | .idle | .returned _ _ _ | .crashed => none
  | .running key stage pc errors =>
    match pc with
    | .head => some (m, atHead t key errors stage)
    | .compare => some (m, .running key (atCompare m key stage) .head errors)
    | pc =>
      (getEntryByIndex t i stage.index m ok garbage pc).map fun o =>
        (o.shared, match o.next with
          | .inl pc => .running key stage pc (errors ++ o.failed)
          | .inr ptr => receive key stage (errors ++ o.failed) ptr)

/-- Whether a caller can call: it has not called yet, or its last call has returned. -/
def Caller.free : Caller → Bool
  | .idle | .returned _ _ _ => true
  | .running _ _ _ _ | .crashed => false

inductive Action (ι : Type)
  | call (i : ι) (key : List UInt8)
  | step (i : ι) (ok : Bool) (garbage : Int)

/-- Any number of callers. At the start the cache is filled in part, and no caller is in a lookup. -/
def lookups [DecidableEq ι] (t : KeyTable) : Machine (State ι) (Action ι) where
  init s :=
    s.shared.owner = none ∧ (∀ i, s.callers i = .idle) ∧
      ∀ index k, t.keys[index]? = some k → (s.shared.cache index).valid = true → s.shared.cache index = k.entry
  next s
    | .call i key =>
      if (s.callers i).free then
        some { s with callers := update s.callers i (.running key (.lower 0 t.keyCount) .head []) }
      else none
    | .step i ok garbage =>
      (callerStep t i s.shared ok garbage (s.callers i)).map fun r => ⟨r.1, update s.callers i r.2⟩

/-- A caller is about to test an entry again that has become valid. -/
def Caller.overtaken : Caller → Bool
  | .running _ stage .recheck _ => (m.cache stage.index).valid
  | _ => false

/-- The uninitialised variable has 0 in it where it is returned. -/
def Settled (s : State ι) : Action ι → Prop
  | .call _ _ => True
  | .step i _ garbage => (s.callers i).overtaken s.shared = true → garbage = 0

instance (s : State ι) : (a : Action ι) → Decidable (Settled s a)
  | .call _ _ => .isTrue trivial
  | .step i _ garbage => inferInstanceAs (Decidable ((s.callers i).overtaken s.shared = true → garbage = 0))

/-! ## Filling the cache -/

section Invariant

variable (t : KeyTable)

/-- Valid entries are complete. -/
def CacheOk (m : Shared ι) : Prop :=
  ∀ index k, t.keys[index]? = some k → (m.cache index).valid = true → m.cache index = k.entry

/-- The statements between `mutex_lock` and `mutex_unlock`. -/
def Pc.critical : Pc → Bool
  | .head | .check | .lock | .compare => false
  | .recheck | .readName | .copyKey _ | .readInfo _ | .setLen _ | .setType _ | .setFlags _ | .setValid
  | .unlock _ => true

/-- The statements of `t2smc_get_entry_by_index`. -/
def Pc.inside : Pc → Bool
  | .head | .compare => false
  | .check | .lock | .recheck | .readName | .copyKey _ | .readInfo _ | .setLen _ | .setType _ | .setFlags _
  | .setValid | .unlock _ => true

/-- How far an entry is filled before a statement of `t2smc_get_entry_by_index`. -/
def Pc.Filled (index : Nat) (errors : List Int) (e : Entry) : Pc → Prop
  | .head | .check | .lock | .recheck => True
  | .readName => e.valid = false
  | .copyKey k => e.valid = false ∧ t.keys[index]? = some k
  | .readInfo k | .setLen k => t.keys[index]? = some k ∧ ∃ e' : Entry, e = { e' with key := k.name, valid := false }
  | .setType k => t.keys[index]? = some k ∧ ∃ e' : Entry, e = { e' with key := k.name, valid := false, len := k.len }
  | .setFlags k => t.keys[index]? = some k ∧ ∃ e' : Entry, e = { k.entry with valid := false, flags := e'.flags }
  | .setValid => ∃ k, t.keys[index]? = some k ∧ e = { k.entry with valid := false }
  | .unlock ret => ret = 0 ∧ e.valid = true ∨ IsErr ret ∧ ret ∈ errors
  | .compare => e.valid = true

/-- What is known of a step of `t2smc_get_entry_by_index` after it. -/
def Outcome.Ok (index : Nat) (errors : List Int) (o : Outcome ι) : Prop :=
  match o.next with
  | .inl pc => pc.Filled t index (errors ++ o.failed) (o.shared.cache index) ∧ pc.inside = true
  | .inr (.entry j) => j = index ∧ (o.shared.cache index).valid = true
  | .inr (.errPtr ret) => IsErr ret ∧ ret ∈ errors ++ o.failed

/-- No valid entry has changed. -/
def Later (m m' : Shared ι) : Prop := ∀ index, (m.cache index).valid = true → m'.cache index = m.cache index

variable {t} {m m' : Shared ι} {index : Nat} {i : ι} {f : Entry → Entry}

@[simp] theorem write_owner : (m.write index f).owner = m.owner := rfl

@[simp] theorem write_cache_self : (m.write index f).cache index = f (m.cache index) := update_self _ _ _

theorem write_cache_of_ne {j : Nat} (h : j ≠ index) : (m.write index f).cache j = m.cache j := update_of_ne h _ _

theorem Later.refl (m : Shared ι) : Later m m := fun _ _ => rfl

theorem Later.trans {m'' : Shared ι} (h : Later m m') (h' : Later m' m'') : Later m m'' := by
  intro j hj
  have hsa := h j hj
  rw [h' j (hsa ▸ hj), hsa]

theorem Later.valid (h : Later m m') (hvld : (m.cache index).valid) : (m'.cache index).valid := by
  rw [h index hvld, hvld]

theorem later_write (h : (m.cache index).valid = false) : Later m (m.write index f) := by
  intro j hj
  refine write_cache_of_ne fun heq => ?_
  rw [heq, h] at hj
  cases hj

theorem CacheOk.write (h : CacheOk t m)
    (hf : ∀ k, t.keys[index]? = some k → (f (m.cache index)).valid → f (m.cache index) = k.entry) :
    CacheOk t (m.write index f) := by
  intro j k hk hvld
  by_cases heq : j = index
  · subst heq
    rw [write_cache_self] at hvld ⊢
    exact hf k hk hvld
  · rw [write_cache_of_ne heq] at hvld ⊢
    exact h j k hk hvld

theorem CacheOk.write_invalid (h : CacheOk t m) (hf : (f (m.cache index)).valid = false) :
    CacheOk t (m.write index f) := by
  refine h.write fun k _ hvld => ?_
  rw [hf] at hvld
  cases hvld

theorem isErr_eio : IsErr (-EIo) := by decide

/-- A failed command is noted, and its error is returned. -/
theorem filled_failed (errors : List Int) (e : Entry) : (Pc.unlock (-EIo)).Filled t index (errors ++ [-EIo]) e :=
  .inr ⟨isErr_eio, List.mem_append_right _ (List.mem_singleton_self _)⟩

variable {o : Outcome ι}

theorem write_ok {errors : List Int} {pc : Pc} (h : some ⟨m.write index f, [], .inl pc⟩ = some o)
    (hm : CacheOk t (m.write index f)) (hvld : (m.cache index).valid = false)
    (hpc : pc.Filled t index errors (f (m.cache index))) (hins : pc.inside) :
    CacheOk t o.shared ∧ Later m o.shared ∧ o.Ok t index errors := by
  cases h
  refine ⟨hm, later_write hvld, ?_, hins⟩
  rw [List.append_nil, write_cache_self]
  exact hpc

variable {garbage : Int} {ok : Bool}

theorem getEntryByIndex_ok {pc : Pc} {errors : List Int} (h : getEntryByIndex t i index m ok garbage pc = some o)
    (hm : CacheOk t m) (hpc : pc.Filled t index errors (m.cache index))
    (hset : pc = .recheck → (m.cache index).valid → garbage = 0) :
    CacheOk t o.shared ∧ Later m o.shared ∧ o.Ok t index errors := by
  cases pc with
  | head | compare => cases h
  | check =>
    cases h
    refine ⟨hm, Later.refl m, ?_⟩
    rw [Outcome.Ok]
    cases hvld : (m.cache index).valid with
    | false => exact ⟨trivial, rfl⟩
    | true => exact ⟨rfl, rfl⟩
  | lock =>
    obtain ⟨-, h⟩ := ite_none_right_eq_some.1 h
    cases h
    exact ⟨hm, Later.refl m, trivial, rfl⟩
  | recheck =>
    cases h
    refine ⟨hm, Later.refl m, ?_⟩
    cases hvld : (m.cache index).valid with
    | false => exact ⟨hvld, rfl⟩
    | true => exact ⟨.inl ⟨hset rfl hvld, hvld⟩, rfl⟩
  | readName =>
    rw [getEntryByIndex] at h
    split at h
    · next k hk =>
        cases ok with
        | true =>
          cases h
          exact ⟨hm, Later.refl m, ⟨hpc, hk⟩, rfl⟩
        | false =>
          cases h
          exact ⟨hm, Later.refl m, filled_failed errors _, rfl⟩
    · cases h
      exact ⟨hm, Later.refl m, filled_failed errors _, rfl⟩
  | copyKey k =>
    obtain ⟨hvld, hk⟩ := hpc
    refine write_ok h (hm.write_invalid ?_) hvld ?_ rfl
    · exact hvld
    · exact ⟨hk, m.cache index, by rw [← hvld]⟩
  | readInfo k =>
    cases ok with
    | true =>
      cases h
      exact ⟨hm, Later.refl m, hpc, rfl⟩
    | false =>
      cases h
      exact ⟨hm, Later.refl m, filled_failed errors _, rfl⟩
  | setLen k =>
    obtain ⟨hk, e', he⟩ := hpc
    have hvld : (m.cache index).valid = false := by rw [he]
    refine write_ok h (hm.write_invalid ?_) hvld ?_ rfl
    · exact hvld
    · exact ⟨hk, e', by rw [he]⟩
  | setType k =>
    obtain ⟨hk, e', he⟩ := hpc
    have hvld : (m.cache index).valid = false := by rw [he]
    refine write_ok h (hm.write_invalid ?_) hvld ?_ rfl
    · exact hvld
    · exact ⟨hk, e', by rw [he]; rfl⟩
  | setFlags k =>
    obtain ⟨hk, e', he⟩ := hpc
    have hvld : (m.cache index).valid = false := by rw [he]
    refine write_ok h (hm.write_invalid ?_) hvld ?_ rfl
    · exact hvld
    · exact ⟨k, hk, by rw [he]; rfl⟩
  | setValid =>
    obtain ⟨k, hk, he⟩ := hpc
    have hvld : (m.cache index).valid = false := by rw [he]
    refine write_ok h (hm.write fun k' hk' _ => ?_) hvld (.inl ⟨rfl, rfl⟩) rfl
    rw [he, Option.some.inj (hk'.symm.trans hk)]
    rfl
  | unlock ret =>
    cases h
    refine ⟨hm, Later.refl m, ?_⟩
    rcases hpc with ⟨rfl, hvld⟩ | ⟨herr, hmem⟩
    · exact ⟨rfl, hvld⟩
    have hne : ret ≠ 0 := by
      rintro rfl
      exact absurd herr.2 (Int.lt_irrefl 0)
    rw [if_pos hne]
    exact ⟨herr, List.mem_append_left _ hmem⟩

/-- The mutex is held in the critical section, and nowhere else. -/
theorem getEntryByIndex_owner {pc : Pc}
    (h : getEntryByIndex t i index m ok garbage pc = some o) (hpc : pc.critical ↔ m.owner = some i) :
    (∃ pc', o.next = .inl pc' ∧ pc'.critical) ↔ o.shared.owner = some i := by
  cases pc <;> grind [getEntryByIndex, Pc.critical, write_owner]

theorem getEntryByIndex_frame {pc : Pc} {j : ι} (h : getEntryByIndex t i index m ok garbage pc = some o)
    (hpc : pc.critical ↔ m.owner = some i) (hj : m.owner = some j) (hne : j ≠ i) : o.shared = m := by
  cases pc <;> grind [getEntryByIndex, Pc.critical]

theorem getEntryByIndex_owner_ne {pc : Pc} {j : ι}
    (h : getEntryByIndex t i index m ok garbage pc = some o) (hj : o.shared.owner = some j) (hne : j ≠ i) :
    m.owner = some j := by
  cases pc <;> grind [getEntryByIndex, write_owner]

/-! ## Lookups -/

variable (t) in
/-- Where a search is, and what its caller may do next. -/
def Stage.Ok (key : List UInt8) (pc : Pc) : Stage → Prop
  | .lower lo hi => Splits (t.Before key) t.keyCount lo hi ∧ (pc ≠ .head → lo < hi)
  | .upper first lo hi =>
    Splits (t.Before key) t.keyCount first first ∧ Splits (t.NotAfter key) t.keyCount lo hi ∧ (pc ≠ .head → lo < hi)
  | .last index => (∃ k, t.keys[index]? = some k ∧ k.name = key) ∧ pc.inside = true

variable (t) in
/-- A result is the entry of the key, complete; or there is no such key; or an SMC command of this lookup failed. -/
def Result.Exact (m : Shared ι) (key : List UInt8) (errors : List Int) : Result → Prop
  | .entry index => ∃ k, t.keys[index]? = some k ∧ k.name = key ∧ m.cache index = k.entry
  | .error code => code = -ENOENT ∧ (∀ k ∈ t.keys, k.name ≠ key) ∨ code ∈ errors
  | .wild _ => False

variable (t) in
def Caller.Ok (m : Shared ι) : Caller → Prop
  | .idle => True
  | .running key stage pc errors => stage.Ok t key pc ∧ pc.Filled t stage.index errors (m.cache stage.index)
  | .returned key errors result => result.Exact t m key errors
  | .crashed => False

def Caller.critical : Caller → Bool
  | .running _ _ pc _ => pc.critical
  | .idle | .returned _ _ _ | .crashed => false

variable (t) in
structure Inv (s : State ι) : Prop where
  cache : CacheOk t s.shared
  callers : ∀ i, (s.callers i).Ok t s.shared
  owner : ∀ i, (s.callers i).critical = true ↔ s.shared.owner = some i

variable {key : List UInt8} {errors : List Int} {stage : Stage} {pc : Pc}

theorem Stage.Ok.index_lt (h : stage.Ok t key pc) (hpc : pc ≠ .head) : stage.index < t.keyCount := by
  cases stage with
  | lower lo hi => exact Nat.lt_of_lt_of_le (middle_lt (h.2 hpc)) h.1.bound
  | upper first lo hi => exact Nat.lt_of_lt_of_le (middle_lt (h.2.2 hpc)) h.2.1.bound
  | last index =>
    obtain ⟨⟨k, hk, -⟩, -⟩ := h
    exact (List.getElem?_eq_some_iff.1 hk).1

theorem Stage.Ok.advance {pc' : Pc} (h : stage.Ok t key pc) (hpc : pc ≠ .head) (hpc' : pc'.inside) :
    stage.Ok t key pc' := by
  cases stage with
  | lower lo hi => exact ⟨h.1, fun _ => h.2 hpc⟩
  | upper first lo hi => exact ⟨h.1, h.2.1, fun _ => h.2.2 hpc⟩
  | last index => exact ⟨h.1, hpc'⟩

theorem CacheOk.key_eq (hm : CacheOk t m) (hidx : index < t.keyCount) (hvld : (m.cache index).valid) :
    (m.cache index).key = t.name index := by
  obtain ⟨k, hk⟩ := exists_key hidx
  rw [hm index k hk hvld, name_eq hk]
  rfl

/-- The end of a search gives the next one, the last access or the result. -/
theorem atHead_ok (h : stage.Ok t key .head) : (atHead t key errors stage).Ok t m := by
  cases stage with
  | lower lo hi =>
    rw [atHead]
    split
    · next hne => exact ⟨⟨h.1, fun _ => Nat.lt_of_le_of_ne h.1.le hne⟩, trivial⟩
    next heq =>
      have hspl := h.1
      rw [← Decidable.not_not.1 heq] at hspl
      exact ⟨⟨hspl, Splits.start _ _, fun hpc => absurd rfl hpc⟩, trivial⟩
  | upper first lo hi =>
    obtain ⟨hfst, hspl, -⟩ := h
    rw [atHead]
    split
    · next hne => exact ⟨⟨hfst, hspl, fun _ => Nat.lt_of_le_of_ne hspl.le hne⟩, trivial⟩
    next heq =>
      rw [← Decidable.not_not.1 heq] at hspl
      split
      · next hsa =>
          rw [hsa] at hspl
          exact .inl ⟨rfl, absent_of_bounds hfst hspl⟩
      next hdif =>
        obtain ⟨hone, hpres⟩ := present_of_bounds hfst hspl hdif
        rw [if_neg (by omega)]
        exact ⟨⟨hpres, rfl⟩, trivial⟩
  | last index => cases h.2

theorem atCompare_ok (hm : CacheOk t m) (h : stage.Ok t key .compare)
    (hvld : (m.cache stage.index).valid) : (atCompare m key stage).Ok t key .head := by
  have hkey := hm.key_eq (h.index_lt Pc.noConfusion) hvld
  cases stage with
  | lower lo hi =>
    obtain ⟨hspl, hlt⟩ := h
    have hmid := middle_lt (hlt Pc.noConfusion)
    rw [atCompare, show (m.cache (middle lo hi)).key = _ from hkey]
    split
    · next hbef => exact ⟨hspl.high before_initial hmid hbef, fun hpc => absurd rfl hpc⟩
    · next hbef => exact ⟨hspl.low before_initial (le_middle lo hi) hmid hbef, fun hpc => absurd rfl hpc⟩
  | upper first lo hi =>
    obtain ⟨hfst, hspl, hlt⟩ := h
    have hmid := middle_lt (hlt Pc.noConfusion)
    rw [atCompare, show (m.cache (middle lo hi)).key = _ from hkey]
    split
    · next haft =>
        exact ⟨hfst, hspl.low notAfter_initial (le_middle lo hi) hmid (absurd haft), fun hpc => absurd rfl hpc⟩
    · next haft => exact ⟨hfst, hspl.high notAfter_initial hmid haft, fun hpc => absurd rfl hpc⟩
  | last index => cases h.2

/-- An entry goes to the comparison of its search, or it is the result. -/
theorem receive_entry_ok (hm : CacheOk t m) (h : stage.Ok t key pc) (hpc : pc ≠ .head)
    (hvld : (m.cache stage.index).valid) : (receive key stage errors (.entry stage.index)).Ok t m := by
  cases stage with
  | lower lo hi => exact ⟨⟨h.1, fun _ => h.2 hpc⟩, hvld⟩
  | upper first lo hi => exact ⟨⟨h.1, h.2.1, fun _ => h.2.2 hpc⟩, hvld⟩
  | last index =>
    obtain ⟨⟨k, hk, hna⟩, -⟩ := h
    exact ⟨k, hk, hna, hm index k hk hvld⟩

theorem receive_error_ok {ret : Int} (hret : IsErr ret) (hmem : ret ∈ errors) :
    (receive key stage errors (.errPtr ret)).Ok t m := by
  have hretu : receive key stage errors (.errPtr ret) = .returned key errors (.error ret) := if_pos hret
  rw [hretu]
  exact .inr hmem

variable {c : Caller}

theorem Caller.Ok.later (h : c.Ok t m) (hlat : Later m m') (hc : c.critical = false) : c.Ok t m' := by
  cases c with
  | idle => trivial
  | crashed => exact h
  | returned key errors result =>
    cases result with
    | entry index =>
      obtain ⟨k, hk, hna, hent⟩ := h
      exact ⟨k, hk, hna, (hlat index (by rw [hent]; rfl)).trans hent⟩
    | error _ | wild _ => exact h
  | running key stage pc errors =>
    refine ⟨h.1, ?_⟩
    cases pc with
    | head | check | lock => trivial
    | compare => exact hlat.valid h.2
    | recheck | readName | copyKey _ | readInfo _ | setLen _ | setType _ | setFlags _ | setValid | unlock _ => cases hc

variable {r : Shared ι × Caller}

/-- What a step of a caller is: at the head of a loop, at a comparison, or in `t2smc_get_entry_by_index`. -/
theorem callerStep_cases (h : callerStep t i m ok garbage c = some r) :
    ∃ key stage pc errors, c = .running key stage pc errors ∧ (pc = .head ∧ r = (m, atHead t key errors stage) ∨
        pc = .compare ∧ r = (m, .running key (atCompare m key stage) .head errors) ∨
        ∃ o, getEntryByIndex t i stage.index m ok garbage pc = some o ∧ r.1 = o.shared ∧
          ((∃ pc', o.next = .inl pc' ∧ r.2 = .running key stage pc' (errors ++ o.failed)) ∨
            ∃ ptr, o.next = .inr ptr ∧ r.2 = receive key stage (errors ++ o.failed) ptr)) := by
  cases c with
  | idle | crashed | returned _ _ _ => cases h
  | running key stage pc errors =>
    refine ⟨key, stage, pc, errors, rfl, ?_⟩
    unfold callerStep at h
    dsimp only at h
    split at h
    · cases h
      exact .inl ⟨rfl, rfl⟩
    · cases h
      exact .inr (.inl ⟨rfl, rfl⟩)
    · obtain ⟨o, ho, rfl⟩ := map_eq_some_iff.1 h
      refine .inr (.inr ⟨o, ho, rfl, ?_⟩)
      cases hnx : o.next with
      | inl pc' => exact .inl ⟨pc', rfl, rfl⟩
      | inr ptr => exact .inr ⟨ptr, rfl, rfl⟩

/-- What a step does to its own caller, to the others and to what they share. -/
structure StepOk (t : KeyTable) (m : Shared ι) (i : ι) (r : Shared ι × Caller) : Prop where
  cache : CacheOk t r.1
  later : Later m r.1
  caller : r.2.Ok t r.1
  own : r.2.critical = true ↔ r.1.owner = some i
  others : ∀ j, j ≠ i → (m.owner = some j ↔ r.1.owner = some j) ∧ (m.owner = some j → r.1 = m)

theorem atHead_critical (key : List UInt8) (errors : List Int) (stage : Stage) :
    (atHead t key errors stage).critical = false := by
  cases stage <;> grind [atHead, Caller.critical, Pc.critical]

theorem receive_critical (key : List UInt8) (stage : Stage) (errors : List Int) (ptr : Ptr) :
    (receive key stage errors ptr).critical = false := by
  cases ptr <;> cases stage <;> grind [receive, Caller.critical, Pc.critical]

theorem StepOk.local (hm : CacheOk t m) (hc : c.Ok t m) (hcrit : c.critical = false)
    (howner : m.owner ≠ some i) : StepOk t m i (m, c) where
  cache := hm
  later := Later.refl m
  caller := hc
  own := by
    rw [hcrit]
    exact ⟨fun h => absurd h Bool.false_ne_true, fun h => absurd h howner⟩
  others _ _ := ⟨Iff.rfl, fun _ => rfl⟩

theorem callerStep_ok (h : callerStep t i m ok garbage c = some r) (hm : CacheOk t m) (hc : c.Ok t m)
    (howner : c.critical ↔ m.owner = some i) (hset : c.overtaken m → garbage = 0) :
    StepOk t m i r := by
  obtain ⟨key, stage, pc, errors, rfl, hcas⟩ := callerStep_cases h
  rcases hcas with ⟨rfl, rfl⟩ | ⟨rfl, rfl⟩ | ⟨o, ho, hshar, hnx⟩
  · refine StepOk.local hm (atHead_ok hc.1) (atHead_critical key errors stage) fun hi => ?_
    cases howner.2 hi
  · refine StepOk.local hm ⟨atCompare_ok hm hc.1 hc.2, trivial⟩ rfl fun hi => ?_
    cases howner.2 hi
  · have hins : pc ≠ .head := by
      rintro rfl
      cases ho
    obtain ⟨hcac, hlat, hok⟩ := getEntryByIndex_ok ho hm hc.2 (by rintro rfl; exact hset)
    have hown := getEntryByIndex_owner ho howner
    obtain ⟨m', c'⟩ := r
    cases hshar
    refine ⟨hcac, hlat, ?_, ?_, fun j hj => ⟨⟨fun hmj => ?_, fun hmj => ?_⟩, fun hmj => ?_⟩⟩
    · rcases hnx with ⟨pc', hpc', rfl⟩ | ⟨ptr, hptr, rfl⟩
      · rw [Outcome.Ok, hpc'] at hok
        exact ⟨hc.1.advance hins hok.2, hok.1⟩
      rw [Outcome.Ok, hptr] at hok
      cases ptr with
      | entry index =>
        obtain ⟨rfl, hvld⟩ := hok
        exact receive_entry_ok hcac hc.1 hins hvld
      | errPtr ret => exact receive_error_ok hok.1 hok.2
    · rw [← hown]
      rcases hnx with ⟨pc', hpc', rfl⟩ | ⟨ptr, hptr, rfl⟩
      · exact ⟨fun hcrit => ⟨pc', hpc', hcrit⟩, fun ⟨pc'', hpc'', hcrit⟩ => by
          rw [hpc'] at hpc''
          cases hpc''
          exact hcrit⟩
      · grind [receive_critical]
    · have hsa := getEntryByIndex_frame ho howner hmj hj
      exact (congrArg Shared.owner hsa).trans hmj
    · exact getEntryByIndex_owner_ne ho hmj hj
    · exact getEntryByIndex_frame ho howner hmj hj

/-! ### Work -/

/-- The number of statements up to the end of the round. -/
def Pc.rank : Pc → Nat
  | .head => 12
  | .check => 11
  | .lock => 10
  | .recheck => 9
  | .readName => 8
  | .copyKey _ => 7
  | .readInfo _ => 6
  | .setLen _ => 5
  | .setType _ => 4
  | .setFlags _ => 3
  | .setValid => 2
  | .unlock _ => 1
  | .compare => 0

/-- A bound of the rounds that follow, with `n` keys. -/
def Stage.rounds (n : Nat) : Stage → Nat
  | .lower lo hi => hi - lo + n + 2
  | .upper _ lo hi => hi - lo + 1
  | .last _ => 0

/-- A bound of the steps that a lookup still takes. -/
def Caller.work (n : Nat) : Caller → Nat
  | .running _ stage pc _ => 13 * stage.rounds n + pc.rank + 1
  | .idle | .returned _ _ _ | .crashed => 0

def Caller.busy : Caller → Bool
  | .running _ _ _ _ => true
  | .idle | .returned _ _ _ | .crashed => false

def Action.isCall : Action ι → Bool
  | .call _ _ => true
  | .step _ _ _ => false

theorem getEntryByIndex_rank {pc' : Pc}
    (h : getEntryByIndex t i index m ok garbage pc = some o) (hnx : o.next = .inl pc') : pc'.rank < pc.rank := by
  cases pc <;> grind [getEntryByIndex, Pc.rank]

theorem receive_work (n : Nat) (key : List UInt8) (stage : Stage) (errors : List Int) (ptr : Ptr) :
    (receive key stage errors ptr).work n ≤ 13 * stage.rounds n + 1 := by
  cases ptr <;> cases stage <;> grind [receive, Caller.work, Pc.rank]

theorem atHead_work (h : stage.Ok t key .head) (errors : List Int) :
    (atHead t key errors stage).work t.keyCount < (Caller.running key stage .head errors).work t.keyCount := by
  cases stage with
  | lower lo hi =>
    grind [atHead, Caller.work, Stage.rounds, Pc.rank]
  | upper first lo hi => grind [atHead, Caller.work, Stage.rounds, Pc.rank]
  | last index => cases h.2

theorem atCompare_rounds (n : Nat) (m : Shared ι) (h : stage.Ok t key .compare) :
    (atCompare m key stage).rounds n < stage.rounds n := by
  cases stage with
  | lower lo hi =>
    have hlt := h.2 Pc.noConfusion
    have hmid := middle_lt hlt
    have hle := le_middle lo hi
    grind [atCompare, Stage.rounds]
  | upper first lo hi =>
    have hlt := h.2.2 Pc.noConfusion
    have hmid := middle_lt hlt
    have hle := le_middle lo hi
    grind [atCompare, Stage.rounds]
  | last index => cases h.2

/-- Every step of a lookup brings it nearer to its end. -/
theorem callerStep_work
    (h : callerStep t i m ok garbage c = some r) (hc : c.Ok t m) : r.2.work t.keyCount < c.work t.keyCount := by
  obtain ⟨key, stage, pc, errors, rfl, hcas⟩ := callerStep_cases h
  rcases hcas with ⟨rfl, rfl⟩ | ⟨rfl, rfl⟩ | ⟨o, ho, -, ⟨pc', hpc', hr⟩ | ⟨ptr, hptr, hr⟩⟩
  · exact atHead_work hc.1 errors
  · have hroun := atCompare_rounds t.keyCount m hc.1
    simp only [Caller.work, Pc.rank]
    omega
  · have hrank := getEntryByIndex_rank ho hpc'
    rw [hr, Caller.work, Caller.work]
    omega
  · have hrank : 0 < pc.rank := by cases pc <;> grind [getEntryByIndex, Pc.rank]
    have hwk := receive_work t.keyCount key stage (errors ++ o.failed) ptr
    rw [hr]
    show _ < 13 * stage.rounds t.keyCount + pc.rank + 1
    omega

/-! ## All callers -/

variable [DecidableEq ι] {s s' : State ι} {a : Action ι}

theorem Inv.step {i : ι} (hs : Inv t s) (h : StepOk t s.shared i r) : Inv t ⟨r.1, update s.callers i r.2⟩ where
  cache := h.cache
  callers j := by
    show (update s.callers i r.2 j).Ok t r.1
    by_cases hj : j = i
    · subst hj
      rw [update_self]
      exact h.caller
    rw [update_of_ne hj]
    cases hcrit : (s.callers j).critical with
    | false => exact (hs.callers j).later h.later hcrit
    | true =>
      -- the step is not that of the owner of the mutex
      have hsa := (h.others j hj).2 ((hs.owner j).1 hcrit)
      exact hsa ▸ hs.callers j
  owner j := by
    show (update s.callers i r.2 j).critical ↔ r.1.owner = some j
    by_cases hj : j = i
    · subst hj
      rw [update_self]
      exact h.own
    · rw [update_of_ne hj, hs.owner j]
      exact (h.others j hj).1

theorem inv_init (h : (lookups t).init s) : Inv t s := by
  obtain ⟨howner, hdl, hcac⟩ := h
  refine ⟨hcac, fun i => ?_, fun i => ?_⟩
  · rw [hdl i]
    trivial
  · rw [hdl i, howner]
    exact ⟨fun h => absurd h Bool.false_ne_true, fun h => absurd h.symm (some_ne_none i)⟩

theorem free_not_critical (h : c.free) : c.critical = false := by
  cases c with
  | running key stage pc errors => cases h
  | idle | returned _ _ _ | crashed => rfl

theorem inv_next (hs : Inv t s) (hset : Settled s a) (h : (lookups t).next s a = some s') :
    Inv t s' ∧ Later s.shared s'.shared := by
  cases a with
  | call i key =>
    obtain ⟨hfr, h⟩ := ite_none_right_eq_some.1 h
    cases h
    have howner : s.shared.owner ≠ some i := fun hi => by
      have hcrit := (hs.owner i).2 hi
      rw [free_not_critical hfr] at hcrit
      cases hcrit
    have hcal : (Caller.running key (.lower 0 t.keyCount) .head []).Ok t s.shared :=
      ⟨⟨Splits.start _ _, fun hpc => absurd rfl hpc⟩, trivial⟩
    exact ⟨hs.step (StepOk.local hs.cache hcal rfl howner), Later.refl _⟩
  | step i ok garbage =>
    obtain ⟨r, hr, rfl⟩ := map_eq_some_iff.1 h
    have hsp := callerStep_ok hr hs.cache (hs.callers i) (hs.owner i) hset
    exact ⟨hs.step hsp, hsp.later⟩

theorem inv_of_reach (h : (lookups t).Reach Settled s) : Inv t s := by
  refine h.invariant (I := Inv t) (fun s hs => inv_init hs) fun s a s' _ hset hs hnx => ?_
  exact (inv_next hs hset hnx).1

/-- A caller that is in a lookup can take a step, or it waits for the owner of the mutex, who can. -/
theorem exists_step (hs : Inv t s) {i : ι} (hby : (s.callers i).busy) :
    ∃ j s', (lookups t).next s (.step j true 0) = some s' := by
  suffices h : ∃ j, (callerStep t j s.shared true 0 (s.callers j)).isSome by
    obtain ⟨j, hj⟩ := h
    obtain ⟨r, hr⟩ := isSome_iff_exists.1 hj
    exact ⟨j, _, map_eq_some_iff.2 ⟨r, hr, rfl⟩⟩
  cases howner : s.shared.owner with
  | some j =>
    have hcrit := (hs.owner j).2 howner
    refine ⟨j, ?_⟩
    cases hj : s.callers j with
    | running key stage pc errors => cases pc <;> grind [Caller.critical, Pc.critical, callerStep, getEntryByIndex]
    | idle | returned _ _ _ | crashed => rw [hj] at hcrit; cases hcrit
  | none =>
    refine ⟨i, ?_⟩
    cases hi : s.callers i with
    | running key stage pc errors => cases pc <;> grind [callerStep, getEntryByIndex]
    | idle | returned _ _ _ | crashed => rw [hi] at hby; cases hby

/-- A bound of the steps that all lookups still take. -/
def State.work [Fintype ι] (t : KeyTable) (s : State ι) : Nat := ∑ i, (s.callers i).work t.keyCount

theorem work_update [Fintype ι] (m : Shared ι) (i : ι) (c : Caller) :
    State.work t ⟨m, update s.callers i c⟩ + (s.callers i).work t.keyCount = s.work t + c.work t.keyCount := by
  rw [State.work, State.work, ← add_sum_erase _ _ (mem_univ i),
    ← add_sum_erase _ (fun j => (s.callers j).work t.keyCount) (mem_univ i)]
  have hrs : ∑ j ∈ univ.erase i, (update s.callers i c j).work t.keyCount =
      ∑ j ∈ univ.erase i, (s.callers j).work t.keyCount := by
    refine sum_congr rfl fun j hj => ?_
    rw [update_of_ne (ne_of_mem_erase hj)]
  have hown : (update s.callers i c i).work t.keyCount = c.work t.keyCount := by rw [update_self]
  rw [hrs, show ((⟨m, update s.callers i c⟩ : State ι).callers i).work t.keyCount = _ from hown]
  omega

theorem work_next [Fintype ι] (hs : Inv t s) (h : (lookups t).next s a = some s') :
    s'.work t + 1 ≤ s.work t + if a.isCall then 26 * t.keyCount + 40 else 0 := by
  cases a with
  | call i key =>
    obtain ⟨-, h⟩ := ite_none_right_eq_some.1 h
    cases h
    have hwk := work_update (t := t) (s := s) s.shared i (.running key (.lower 0 t.keyCount) .head [])
    simp only [Caller.work, Stage.rounds, Pc.rank] at hwk
    rw [Action.isCall, if_pos rfl]
    omega
  | step i ok garbage =>
    obtain ⟨r, hr, rfl⟩ := map_eq_some_iff.1 h
    have hwk := work_update (t := t) (s := s) r.1 i r.2
    have hless := callerStep_work hr (hs.callers i)
    omega

variable (t) in
/-- Lookups are exact in the state `s` and from it on. -/
structure Exact [Fintype ι] (s : State ι) : Prop where
  /-- No lookup has followed a pointer that is not an entry. -/
  sound : ∀ i, s.callers i ≠ .crashed
  /-- Every result is the entry of the key, or says that there is none, or is the error of a command of this lookup. -/
  results : ∀ i key errors result, s.callers i = .returned key errors result → result.Exact t s.shared key errors
  /-- An entry that was returned does not change any more. -/
  kept : ∀ i key errors index, s.callers i = .returned key errors (.entry index) →
    ∀ as s', ((lookups t).guarded Settled).run s as = some s' → s'.shared.cache index = s.shared.cache index
  /-- As long as a lookup is not finished, a step is possible. -/
  lively : ∀ i, (s.callers i).busy = true →
    ∃ j s', Settled s (.step j true 0) ∧ (lookups t).next s (.step j true 0) = some s'
  /-- The number of steps is bounded by the number of calls, so that every lookup returns. -/
  bounded : ∀ as s', ((lookups t).guarded Settled).run s as = some s' →
    as.length ≤ s.work t + (26 * t.keyCount + 40) * as.countP Action.isCall

theorem guarded_next (h : ((lookups t).guarded Settled).next s a = some s') :
    Settled s a ∧ (lookups t).next s a = some s' :=
  ite_none_right_eq_some.1 h

/-- Along a run valid entries do not change. -/
theorem later_of_run (hs : Inv t s) {as : List (Action ι)}
    (h : ((lookups t).guarded Settled).run s as = some s') : Later s.shared s'.shared := by
  refine (Machine.run_preserves (I := fun s' => Inv t s' ∧ Later s.shared s'.shared) ?_ ⟨hs, Later.refl _⟩ h).2
  rintro s₁ a s₂ ⟨hs₁, hlat⟩ hnx
  obtain ⟨hset, hnx⟩ := guarded_next hnx
  obtain ⟨hs₂, hlat'⟩ := inv_next hs₁ hset hnx
  exact ⟨hs₂, hlat.trans hlat'⟩

/-- Lookups are exact in every run in which the uninitialised variable is never returned, or has 0 in it. -/
theorem lookup_exact [Fintype ι] (h : (lookups t).Reach Settled s) : Exact t s := by
  have hs := inv_of_reach h
  refine ⟨fun i hi => ?_, fun i key errors result hi => ?_, fun i key errors index hi as s' hrun => ?_,
    fun i hi => ?_, fun as s' hrun => ?_⟩
  · have hok := hs.callers i
    rw [hi] at hok
    exact hok
  · have hok := hs.callers i
    rw [hi] at hok
    exact hok
  · have hok := hs.callers i
    rw [hi] at hok
    obtain ⟨k, -, -, hent⟩ := hok
    exact later_of_run hs hrun index (by rw [hent]; rfl)
  · obtain ⟨j, s', hj⟩ := exists_step hs hi
    exact ⟨j, s', fun _ => rfl, hj⟩
  · refine Machine.length_le_of_run (R := fun s w => Inv t s ∧ w = s.work t) ?_ ⟨hs, rfl⟩ hrun
    rintro s₁ a s₂ w ⟨hs₁, rfl⟩ hnx
    obtain ⟨hset, hnx⟩ := guarded_next hnx
    exact ⟨_, ⟨(inv_next hs₁ hset hnx).1, rfl⟩, work_next hs₁ hnx⟩

end Invariant

/-! ## Two callers -/

namespace Sample

/-- Two temperatures. -/
def keys : List KeyRecord :=
  [⟨[84, 67, 48, 80], 2, [115, 112, 55, 56], 0⟩, ⟨[84, 71, 48, 80], 2, [115, 112, 55, 56], 0⟩]

theorem keys_four : ∀ k ∈ keys, k.name.length = 4 := by decide

theorem keys_noNul : ∀ k ∈ keys, 0 ∉ k.name := by decide

theorem keys_sorted : keys.Pairwise fun k k' => strcmp k.name k'.name < 0 := by decide

def table : KeyTable := ⟨keys, keys_four, keys_noNul, keys_sorted⟩

/-- The name of the second key. -/
def key : List UInt8 := [84, 71, 48, 80]

def start : State Bool where
  shared := ⟨fun _ => ⟨[], false, 0, [], 0⟩, none⟩
  callers _ := .idle

theorem start_init : (lookups table).init start := ⟨rfl, fun _ => rfl, fun _ _ _ h => absurd h Bool.false_ne_true⟩

def steps (i : Bool) (n : Nat) (garbage : Int) : List (Action Bool) := List.replicate n (.step i true garbage)

/-- Both callers find the entry that they need first not valid. One of them fills it, and then the other one gets the
mutex. -/
def overtaken (garbage : Int) : List (Action Bool) :=
  [.call false key, .call true key] ++ steps false 2 0 ++ steps true 2 0 ++ steps false 10 0 ++ steps true 3 garbage

end Sample

/-- Both lookups of a run find their key. -/
theorem lookup_exact_both : ∃ s : State Bool, (lookups Sample.table).Reach Settled s ∧
      (∀ i, s.callers i = .returned Sample.key [] (.entry 1)) ∧ Exact Sample.table s := by
  obtain ⟨s, hre, hboth⟩ := exists_of_guarded_run (M := lookups Sample.table)
    (P := fun s => ∀ i, s.callers i = .returned Sample.key [] (.entry 1))
    Settled (Sample.overtaken 0 ++ Sample.steps false 20 0 ++ Sample.steps true 10 0) Sample.start_init
    (by decide +kernel)
  exact ⟨s, hre, hboth, lookup_exact hre⟩

/-- The key is in the table, no SMC command has failed, and the lookup returns the uninitialised variable as an error.
-/
theorem uninitialised_ret_returned : ∃ s : State Bool, (lookups Sample.table).Reachable s ∧
      s.callers true = .returned Sample.key [] (.error (-22)) ∧
      ¬ (Result.error (-22)).Exact Sample.table s.shared Sample.key [] := by
  obtain ⟨s, hs, hretu⟩ := exists_of_run (M := lookups Sample.table)
    (P := fun s => s.callers true = .returned Sample.key [] (.error (-22)))
    (Sample.overtaken (-22)) Sample.start_init (by decide +kernel)
  refine ⟨s, hs, hretu, ?_⟩
  rintro (⟨hcode, -⟩ | hmem)
  · exact absurd hcode (by decide)
  · cases hmem

end KaiT2en.Smc
