import Tcmalloc.Absl.Duration
import Mathlib.Algebra.Order.Ring.Nat
import Mathlib.Algebra.BigOperators.Group.Finset

/-!
# The transfer cache and the capacity pool

`transfer_cache_internals.h` and the transfer cache manager are not among the
repository's files; only the transfer cache's fuzz driver is. The transfer
cache is therefore modelled from the spec (§3, §4.2, §5, §9), and every
definition here says so. It is a bounded buffer of one size class's objects,
counted here, with a `capacity` that moves by whole batches between
`batch_size` and `max_capacity`. Capacity is granted by a pool shared by all
size classes, whose `headroom` is the capacity granted to none of them.

* `Grow()` takes one batch of capacity from the pool, and fails at
  `max_capacity` or when the pool cannot grant it; `Shrink()` gives one back,
  keeping at least one batch. Following the spec's design note, each is one
  atomic update of the class's capacity and the pool's headroom together.
* `Insert` takes a batch when it fits and otherwise leaves it with the
  caller; `Remove` hands out a batch when the cache holds it.
* `Plunder()` pushes cached objects down to the central free list.

Every operation moves capacity between its size class and the pool without
creating or losing any (`TransferCache.exec_pool`). Over all size classes
(`Manager`), the capacity granted plus the headroom is therefore constant
along every run, whatever the interleaving of the classes' operations
(`Manager.run_pool`), and the classes never hold more capacity than the pool
had to give (`Manager.granted_le_budget`). A class with enough headroom grows
exactly `(max_capacity - capacity) / batch_size` times in a row
(`TransferCache.growReplies_eq`), the spec's scenario B.
-/

namespace Tcmalloc

/-- Modelled from the spec: one size class's **transfer cache**, its objects
counted. -/
structure TransferCache where
  /-- `batch_size`, the size class's `num_objects_to_move`. -/
  batchSize : Nat
  /-- The slots usable now. -/
  capacity : Nat
  /-- The ceiling on `capacity`. -/
  maxCapacity : Nat
  /-- The objects cached. -/
  used : Nat
  /-- `Insert`s taken. -/
  insertHits : Nat
  /-- `Insert`s refused. -/
  insertMisses : Nat
  /-- `Remove`s served. -/
  removeHits : Nat
  /-- `Remove`s refused. -/
  removeMisses : Nat
deriving DecidableEq, Repr

/-- Modelled from the spec: `TransferCacheStats`. -/
structure TransferCacheStats where
  /-- `capacity`. -/
  capacity : Nat
  /-- `max_capacity`. -/
  maxCapacity : Nat
  /-- `insert_hits`. -/
  insertHits : Nat
  /-- `insert_misses`. -/
  insertMisses : Nat
  /-- `remove_hits`. -/
  removeHits : Nat
  /-- `remove_misses`. -/
  removeMisses : Nat
deriving DecidableEq, Repr

namespace TransferCache

variable (tc : TransferCache)

/-- Modelled from the spec: `GetStats()`. -/
def getStats : TransferCacheStats :=
  ⟨tc.capacity, tc.maxCapacity, tc.insertHits, tc.insertMisses, tc.removeHits, tc.removeMisses⟩

/-- Modelled from the spec: `Grow()`, against a pool with `headroom` left:
its reply, the cache, and the headroom after it. -/
def grow (headroom : Nat) : Bool × TransferCache × Nat :=
  if tc.capacity + tc.batchSize ≤ tc.maxCapacity ∧ tc.batchSize ≤ headroom then
    (true, { tc with capacity := tc.capacity + tc.batchSize }, headroom - tc.batchSize)
  else (false, tc, headroom)

/-- Modelled from the spec: `Shrink()`. The objects the smaller capacity
cannot hold go down to the central free list. -/
def shrink (headroom : Nat) : Bool × TransferCache × Nat :=
  if tc.batchSize < tc.capacity then
    (true, { tc with capacity := tc.capacity - tc.batchSize,
                     used := min tc.used (tc.capacity - tc.batchSize) },
      headroom + tc.batchSize)
  else (false, tc, headroom)

/-- Modelled from the spec: `Insert` of a batch of `n` objects, taken when it
fits; a refused batch stays with the caller. -/
def insert (n : Nat) : Bool × TransferCache :=
  if tc.used + n ≤ tc.capacity then
    (true, { tc with used := tc.used + n, insertHits := tc.insertHits + 1 })
  else (false, { tc with insertMisses := tc.insertMisses + 1 })

/-- Modelled from the spec: `Remove` of a batch of `n` objects, served when
the cache holds them. -/
def remove (n : Nat) : Bool × TransferCache :=
  if n ≤ tc.used then
    (true, { tc with used := tc.used - n, removeHits := tc.removeHits + 1 })
  else (false, { tc with removeMisses := tc.removeMisses + 1 })

/-- Modelled from the spec: `Plunder()`, pushing `k` cached objects (all of
them, when it holds fewer) down to the central free list. -/
def plunder (k : Nat) : TransferCache := { tc with used := tc.used - k }

/-- An operation on one size class's transfer cache. -/
inductive Op
  | grow
  | shrink
  | insert (n : Nat)
  | remove (n : Nat)
  | plunder (k : Nat)
deriving DecidableEq, Repr

/-- One operation against a pool with `headroom` left: its reply, the cache,
and the headroom after it. -/
def exec (headroom : Nat) : Op → Bool × TransferCache × Nat
  | .grow => tc.grow headroom
  | .shrink => tc.shrink headroom
  | .insert n => ((tc.insert n).1, (tc.insert n).2, headroom)
  | .remove n => ((tc.remove n).1, (tc.remove n).2, headroom)
  | .plunder k => (true, tc.plunder k, headroom)

/-! ## One size class -/

variable {tc}

@[simp] theorem exec_batchSize (h : Nat) (op : Op) :
    (tc.exec h op).2.1.batchSize = tc.batchSize := by
  cases op <;> simp only [exec, grow, shrink, insert, remove, plunder] <;> split_ifs <;> rfl

@[simp] theorem exec_maxCapacity (h : Nat) (op : Op) :
    (tc.exec h op).2.1.maxCapacity = tc.maxCapacity := by
  cases op <;> simp only [exec, grow, shrink, insert, remove, plunder] <;> split_ifs <;> rfl

/-- **No operation creates or loses capacity**: what the class gains, the
pool's headroom loses, and the other way round. -/
theorem exec_pool (h : Nat) (op : Op) :
    (tc.exec h op).2.2 + (tc.exec h op).2.1.capacity = h + tc.capacity := by
  cases op with
  | grow =>
    simp only [exec, grow]
    split_ifs
    · dsimp only; omega
    · rfl
  | shrink =>
    simp only [exec, shrink]
    split_ifs
    · dsimp only; omega
    · rfl
  | insert n => simp only [exec, insert]; split_ifs <;> rfl
  | remove n => simp only [exec, remove]; split_ifs <;> rfl
  | plunder k => rfl

/-! ## Growing in a row -/

/-- The replies of `k` calls of `Grow()` in a row. -/
def growReplies : Nat → Nat → TransferCache → List Bool
  | 0, _, _ => []
  | k + 1, h, tc => (tc.grow h).1 :: growReplies k (tc.grow h).2.2 (tc.grow h).2.1

/-- **Scenario B**: with the pool's headroom covering `max_capacity`, `Grow()`
called again and again succeeds exactly `(max_capacity - capacity) /
batch_size` times, and fails from then on. -/
theorem growReplies_eq (k h : Nat) (tc : TransferCache) (hb : 0 < tc.batchSize)
    (hroom : tc.maxCapacity ≤ h + tc.capacity) :
    growReplies k h tc =
      List.replicate (min k ((tc.maxCapacity - tc.capacity) / tc.batchSize)) true ++
        List.replicate (k - (tc.maxCapacity - tc.capacity) / tc.batchSize) false := by
  induction k generalizing h tc with
  | zero => simp [growReplies]
  | succ k ih =>
    by_cases hfit : tc.capacity + tc.batchSize ≤ tc.maxCapacity
    · have hgrow : tc.grow h =
          (true, { tc with capacity := tc.capacity + tc.batchSize }, h - tc.batchSize) :=
        if_pos ⟨hfit, by omega⟩
      have hdiv : (tc.maxCapacity - tc.capacity) / tc.batchSize =
          (tc.maxCapacity - (tc.capacity + tc.batchSize)) / tc.batchSize + 1 := by
        rw [← Nat.add_div_right _ hb]; congr 1; omega
      rw [growReplies, hgrow, ih _ { tc with capacity := tc.capacity + tc.batchSize } hb
        (by dsimp only; omega), hdiv, Nat.add_min_add_right, Nat.add_sub_add_right,
        List.replicate_succ, List.cons_append]
    · have hgrow : tc.grow h = (false, tc, h) := if_neg fun hc => hfit hc.1
      have hdiv : (tc.maxCapacity - tc.capacity) / tc.batchSize = 0 :=
        Nat.div_eq_of_lt (by omega)
      rw [growReplies, hgrow, ih _ _ hb hroom, hdiv]
      simp [List.replicate_succ]

theorem growReplies_eq_seven_of_nine :
    let tc : TransferCache := ⟨8, 8, 64, 0, 0, 0, 0, 0⟩
    0 < tc.batchSize ∧ tc.maxCapacity ≤ 56 + tc.capacity ∧
      growReplies 9 56 tc =
        List.replicate (min 9 ((tc.maxCapacity - tc.capacity) / tc.batchSize)) true ++
          List.replicate (9 - (tc.maxCapacity - tc.capacity) / tc.batchSize) false :=
  ⟨by decide, by decide, growReplies_eq 9 56 _ (by decide) (by decide)⟩

end TransferCache

/-! ## All size classes -/

/-- Modelled from the spec: the transfer caches of `n` size classes and the
pool they grow from. -/
structure Manager (n : Nat) where
  /-- Each size class's transfer cache. -/
  caches : Fin n → TransferCache
  /-- The pool's capacity granted to no size class. -/
  headroom : Nat

namespace Manager

variable {n : Nat}

/-- One operation on size class `i`, under that class's lock, its capacity and
the pool's headroom updated together. -/
def exec (m : Manager n) (i : Fin n) (op : TransferCache.Op) : Bool × Manager n :=
  let r := (m.caches i).exec m.headroom op
  (r.1, ⟨Function.update m.caches i r.2.1, r.2.2⟩)

/-- A run: operations on any size classes, one after another. -/
def run : List (Fin n × TransferCache.Op) → Manager n → Manager n
  | [], m => m
  | (i, op) :: ops, m => run ops (m.exec i op).2

/-- The capacity granted to all size classes. -/
def granted (m : Manager n) : Nat := ∑ i, (m.caches i).capacity

theorem granted_update (m : Manager n) (i : Fin n) (tc : TransferCache) :
    (∑ j, (Function.update m.caches i tc j).capacity) + (m.caches i).capacity =
      m.granted + tc.capacity := by
  have e : ∀ j, (Function.update m.caches i tc j).capacity =
      Function.update (fun j => (m.caches j).capacity) i tc.capacity j :=
    fun j => Function.apply_update (fun _ t => TransferCache.capacity t) m.caches i tc j
  simp only [e, granted]
  rw [Finset.sum_update_of_mem (Finset.mem_univ i), ← Finset.add_sum_erase _ _ (Finset.mem_univ i),
    Finset.sdiff_singleton_eq_erase]
  omega

/-- One operation moves capacity between a class and the pool only. -/
theorem exec_pool (m : Manager n) (i : Fin n) (op : TransferCache.Op) :
    (m.exec i op).2.headroom + (m.exec i op).2.granted = m.headroom + m.granted := by
  have hpool := (m.caches i).exec_pool m.headroom op
  have hsum := granted_update m i ((m.caches i).exec m.headroom op).2.1
  simp only [exec, granted] at hsum ⊢
  omega

/-- **The pool's invariant over every run**: whatever operations the size
classes run, in whatever interleaving, the capacity granted plus the headroom
stays what it was. -/
theorem run_pool (ops : List (Fin n × TransferCache.Op)) (m : Manager n) :
    (m.run ops).headroom + (m.run ops).granted = m.headroom + m.granted := by
  induction ops generalizing m with
  | nil => rfl
  | cons io ops ih => rw [run, ih, exec_pool]

/-- **No size class is granted capacity the pool does not have**: along every
run, the capacity granted to all classes stays within the pool's budget, the
capacity granted at the start plus the headroom. -/
theorem granted_le_budget (ops : List (Fin n × TransferCache.Op)) (m : Manager n) :
    (m.run ops).granted ≤ m.headroom + m.granted := by
  have := run_pool ops m
  omega

end Manager

end Tcmalloc
