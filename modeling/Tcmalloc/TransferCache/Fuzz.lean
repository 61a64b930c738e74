import Tcmalloc.TransferCache.Model

/-!
# The transfer cache's fuzz driver

`FuzzTransferCache` (`transfer_cache_fuzz.cc`) reads each byte of its input
as one operation on a size class's transfer cache, through the mock
environment `FakeTransferCacheEnvironment`. With `data[i] % 10`: `0` calls
`Grow()` and `CHECK`s its reply against `capacity + kBatchSize <=
max_capacity`, `1` calls `Shrink()` and `CHECK`s it against `capacity >
kBatchSize`, `2` calls `TryPlunder()`, `3` reads `GetStats()`, and anything
else makes the next byte, modulo 32, the size of an `Insert` or, by the
parity of `data[i]`, a `Remove`. Bytes are `char`s, which are signed, and `%`
keeps the dividend's sign: a negative byte takes the last case, and may ask
for a negative batch.

The environment is not among the repository's files and is modelled from the
spec: one transfer cache and the pool's headroom (`TransferCacheEnv`); a
negative batch moves no object, and what `TryPlunder()` evicts is a parameter.

The `CHECK` on `Grow()` asks more than `Grow()` promises, since the pool may
refuse the batch: with an empty pool, one `Grow()` record the cache has room
for ends the driver (the example after `fuzzTransferCache`). The driver runs
to its end on every input when the pool's headroom covers the cache's growth
to `max_capacity` (`fuzzTransferCache_never_crashes`); the headroom and the
capacity then stay in balance along the whole run.
-/

namespace Tcmalloc

/-- A `char` of the input as the `int` it is promoted to: `char` is signed. -/
def charValue (b : UInt8) : Int := if b.toNat < 128 then b.toNat else b.toNat - 256

/-- Modelled from the spec: `FakeTransferCacheEnvironment`, one size class's
transfer cache and the pool's headroom. -/
structure TransferCacheEnv where
  /-- `env.transfer_cache()`. -/
  tc : TransferCache
  /-- The pool's capacity granted to no size class. -/
  headroom : Nat
deriving DecidableEq, Repr

namespace TransferCacheEnv

variable (e : TransferCacheEnv)

/-- One operation through the environment: its reply and the environment
after it. -/
def exec (op : TransferCache.Op) : Bool × TransferCacheEnv :=
  let r := e.tc.exec e.headroom op
  (r.1, ⟨r.2.1, r.2.2⟩)

/-- `env.Grow()`. -/
def grow : Bool × TransferCacheEnv := e.exec .grow

/-- `env.Shrink()`. -/
def shrink : Bool × TransferCacheEnv := e.exec .shrink

/-- `env.TryPlunder()`, evicting as many objects as the policy `evict` picks. -/
def tryPlunder (evict : TransferCache → Nat) : TransferCacheEnv :=
  (e.exec (.plunder (evict e.tc))).2

/-- `env.Insert(batch)`. -/
def insert (batch : Int) : TransferCacheEnv := (e.exec (.insert batch.toNat)).2

/-- `env.Remove(batch)`. -/
def remove (batch : Int) : TransferCacheEnv := (e.exec (.remove batch.toNat)).2

end TransferCacheEnv

/-- `FuzzTransferCache(s)` from the current byte on, for a size class of
`kBatchSize` objects per batch; `none` when a `CHECK` fails. The last case
consumes the next byte too, the loop's `++i`. -/
def fuzzTransferCache (kBatchSize : Nat) (evict : TransferCache → Nat) :
    List UInt8 → TransferCacheEnv → Option TransferCacheEnv
  | [], e => some e
  | b :: rest, e =>
    let op := (charValue b).tmod 10
    if op = 0 then
      let stats := e.tc.getStats
      if e.grow.1 = decide (stats.capacity + kBatchSize ≤ stats.maxCapacity) then
        fuzzTransferCache kBatchSize evict rest e.grow.2
      else none
    else if op = 1 then
      let stats := e.tc.getStats
      if e.shrink.1 = decide (stats.capacity > kBatchSize) then
        fuzzTransferCache kBatchSize evict rest e.shrink.2
      else none
    else if op = 2 then fuzzTransferCache kBatchSize evict rest (e.tryPlunder evict)
    else if op = 3 then fuzzTransferCache kBatchSize evict rest e
    else
      match rest with
      | [] => some e
      | b' :: rest' =>
        let batch := (charValue b').tmod 32
        fuzzTransferCache kBatchSize evict rest'
          (if (charValue b).tmod 2 ≠ 0 then e.insert batch else e.remove batch)

/-- A `Grow()` record with room in the cache but none in the pool fails its
`CHECK`. -/
example : fuzzTransferCache 8 (fun _ => 0) [0] ⟨⟨8, 8, 64, 0, 0, 0, 0, 0⟩, 0⟩ = none := by
  decide

/-! ## The driver's invariant -/

namespace TransferCacheEnv

variable {e : TransferCacheEnv}

@[simp] theorem exec_batchSize (op : TransferCache.Op) :
    (e.exec op).2.tc.batchSize = e.tc.batchSize :=
  TransferCache.exec_batchSize e.headroom op

@[simp] theorem exec_maxCapacity (op : TransferCache.Op) :
    (e.exec op).2.tc.maxCapacity = e.tc.maxCapacity :=
  TransferCache.exec_maxCapacity e.headroom op

theorem exec_balance (op : TransferCache.Op) :
    (e.exec op).2.headroom + (e.exec op).2.tc.capacity = e.headroom + e.tc.capacity :=
  TransferCache.exec_pool e.headroom op

/-- **What the driver keeps**: the cache's batch is the driver's
`kBatchSize`, and the headroom plus the capacity is a `budget` that covers
`max_capacity`. -/
structure Ready (kBatchSize budget : Nat) (e : TransferCacheEnv) : Prop where
  /-- The cache moves the driver's batches. -/
  batchSize_eq : e.tc.batchSize = kBatchSize
  /-- No capacity is created or lost. -/
  balance : e.headroom + e.tc.capacity = budget
  /-- The pool could give the cache all it may grow to. -/
  room : e.tc.maxCapacity ≤ budget

theorem Ready.exec {k budget : Nat} (h : Ready k budget e) (op : TransferCache.Op) :
    Ready k budget (e.exec op).2 :=
  ⟨by simp [h.batchSize_eq], (exec_balance op).trans h.balance, by simpa using h.room⟩

/-- With the pool covering `max_capacity`, `Grow()` succeeds exactly when
the cache has room for one more batch. -/
theorem Ready.grow_fst {k budget : Nat} (h : Ready k budget e) :
    e.grow.1 = decide (e.tc.capacity + k ≤ e.tc.maxCapacity) := by
  have := h.balance
  have := h.room
  simp only [TransferCacheEnv.grow, TransferCacheEnv.exec, TransferCache.exec, TransferCache.grow,
    ← h.batchSize_eq]
  split_ifs with hg
  · simpa using hg.1
  · simp only [Bool.false_eq, decide_eq_false_iff_not]
    omega

theorem shrink_fst : e.shrink.1 = decide (e.tc.capacity > e.tc.batchSize) := by
  simp only [TransferCacheEnv.shrink, TransferCacheEnv.exec, TransferCache.exec,
    TransferCache.shrink]
  split_ifs <;> simp_all

end TransferCacheEnv

open TransferCacheEnv

/-- **Every run keeps the driver's invariant, and never dies.** -/
theorem fuzzTransferCache_ready (k : Nat) (evict : TransferCache → Nat) {budget : Nat}
    (s : List UInt8) (e : TransferCacheEnv) (h : Ready k budget e) :
    ∃ e', fuzzTransferCache k evict s e = some e' ∧ Ready k budget e' := by
  induction s, e using fuzzTransferCache.induct k evict with
  | case1 e => exact ⟨e, rfl, h⟩
  | case2 b rest e op hop stats hcheck ih =>
    obtain ⟨e', hrun, h'⟩ := ih (h.exec .grow)
    refine ⟨e', ?_, h'⟩
    rw [fuzzTransferCache.eq_def]
    simpa [show (charValue b).tmod 10 = 0 from hop, hcheck] using hrun
  | case3 b rest e op hop stats hcheck => exact absurd h.grow_fst hcheck
  | case4 b rest e op hop0 hop stats hcheck ih =>
    obtain ⟨e', hrun, h'⟩ := ih (h.exec .shrink)
    refine ⟨e', ?_, h'⟩
    rw [fuzzTransferCache.eq_def]
    simpa [show (charValue b).tmod 10 = 1 from hop, hcheck] using hrun
  | case5 b rest e op hop0 hop stats hcheck => exact absurd (h.batchSize_eq ▸ shrink_fst) hcheck
  | case6 b rest e op hop0 hop1 hop ih =>
    obtain ⟨e', hrun, h'⟩ := ih (h.exec _)
    refine ⟨e', ?_, h'⟩
    rw [fuzzTransferCache.eq_def]
    simpa [show (charValue b).tmod 10 = 2 from hop] using hrun
  | case7 b rest e op hop0 hop1 hop2 hop ih =>
    obtain ⟨e', hrun, h'⟩ := ih h
    refine ⟨e', ?_, h'⟩
    rw [fuzzTransferCache.eq_def]
    simpa [show (charValue b).tmod 10 = 3 from hop] using hrun
  | case8 b e op hop0 hop1 hop2 hop3 =>
    exact ⟨e, by simp [fuzzTransferCache, hop0, hop1, hop2, hop3], h⟩
  | case9 b e op hop0 hop1 hop2 hop3 b' rest' batch ih =>
    obtain ⟨e', hrun, h'⟩ := ih (by split <;> exact h.exec _)
    exact ⟨e', by simpa [fuzzTransferCache, hop0, hop1, hop2, hop3] using hrun, h'⟩

/-- **The transfer cache's fuzz driver never dies when the pool is ample**:
for every input, with the pool's headroom covering the cache's growth to
`max_capacity`, both `CHECK`s hold at every step and the driver runs to the
end of its input, whatever `TryPlunder()` evicts; the headroom plus the
capacity is the same at the end as at the start. -/
theorem fuzzTransferCache_never_crashes (kBatchSize : Nat) (evict : TransferCache → Nat)
    (s : List UInt8) (e : TransferCacheEnv) (hbatch : e.tc.batchSize = kBatchSize)
    (hroom : e.tc.maxCapacity ≤ e.headroom + e.tc.capacity) :
    ∃ e', fuzzTransferCache kBatchSize evict s e = some e' ∧
      e'.headroom + e'.tc.capacity = e.headroom + e.tc.capacity :=
  (fuzzTransferCache_ready kBatchSize evict s e ⟨hbatch, rfl, hroom⟩).imp
    fun _ h => ⟨h.1, h.2.balance⟩

theorem fuzzTransferCache_runs_with_full_pool :
    let e : TransferCacheEnv := ⟨⟨8, 8, 64, 0, 0, 0, 0, 0⟩, 56⟩
    e.tc.batchSize = 8 ∧ e.tc.maxCapacity ≤ e.headroom + e.tc.capacity ∧
      ∃ e', fuzzTransferCache 8 (fun _ => 0) [0, 0, 1, 5, 7, 2] e = some e' ∧
        e'.headroom + e'.tc.capacity = e.headroom + e.tc.capacity :=
  ⟨rfl, by decide, fuzzTransferCache_never_crashes 8 (fun _ => 0) [0, 0, 1, 5, 7, 2] _ rfl
    (by decide)⟩

end Tcmalloc
