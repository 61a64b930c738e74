import Tcmalloc.CentralFreeList.Invariant

/-!
# The central free list's fuzz driver

`FuzzCFL` (`central_freelist_fuzz.cc`) reads a byte string as a size class
followed by 5-byte records, each one operation on a single central free list:
`RemoveRange`, `InsertRange` of the objects it holds last, a shuffle of what
it holds, a `CHECK` of the span statistics, or printing them. It then returns
everything it still holds, in batches of at most `kMaxObjectsToMove`. A failed
`CHECK`, or an object that no live span owns, ends the process.

The driver is translated from the source. What it runs against and the
repository does not contain is a parameter, with the one property the proofs
use: the platform's constants and `SizeMap::IsValidSizeClass` (`Platform`:
a valid size class fits an object in a span), and the page allocator behind
the mock environment, the span-selection policy and `std::shuffle`
(`Harness`: the last two only reorder).

The main result, `fuzzCFL_never_crashes`, is the spec's scenario C: on every
input, for every platform and harness, the driver rejects the input exactly at
its two early returns – a size outside `[11, 100000]`, or a size class that is
not valid – and otherwise runs the record loop and the clean-up to their end,
leaving no live span. Its proof is the invariant `Accounted` kept by every
record (`Accounted.step`), hence by the record loop (`Accounted.loop`), and
emptied by the clean-up (`Accounted.cleanUp`).
-/

namespace Tcmalloc

/-- What the driver reads of the platform, none of it among the repository's
files: `kPageSize`, `kMaxObjectsToMove` and `SizeMap::IsValidSizeClass`. -/
structure Platform where
  /-- `kPageSize`, in bytes. -/
  kPageSize : Nat
  /-- `kMaxObjectsToMove`, the largest batch moved at once. -/
  kMaxObjectsToMove : Nat
  /-- A batch holds at least one object. -/
  kMaxObjectsToMove_pos : 0 < kMaxObjectsToMove
  /-- `SizeMap::IsValidSizeClass(object_size, pages, num_objects_to_move)`. -/
  isValidSizeClass : Nat → Nat → Nat → Bool
  /-- A valid size class fits at least one object in a span. -/
  objectsPerSpan_pos : ∀ size pages batch, isValidSizeClass size pages batch →
    0 < pages * kPageSize / size

/-- What the driver runs against besides the central free list: the page
allocator behind `FakeCentralFreeListEnvironment`, which grants or refuses
each request by its number; the order in which `RemoveRange` draws from the
live spans, which the spec leaves open; and `std::shuffle` under
`std::mt19937(seed)`. -/
structure Harness where
  /-- Whether the page allocator grants the request of that number. -/
  pageOk : Nat → Bool
  /-- The span-selection policy. -/
  select : List Span → List Span
  /-- The policy only reorders the live spans. -/
  select_perm : ∀ l, (select l).Perm l
  /-- `std::shuffle` with the generator seeded by its first argument. -/
  shuffle : Nat → List Obj → List Obj
  /-- A shuffle only reorders. -/
  shuffle_perm : ∀ seed l, (shuffle seed l).Perm l

/-- Modelled from the spec: `objects_per_span` of a size class, its span's
bytes cut into objects. -/
def Platform.objectsPerSpan (P : Platform) (objectSize numPages : Nat) : Nat :=
  numPages * P.kPageSize / objectSize

/-! ## Reading the input -/

/-- A `char` of the input converted to `size_t`: `char` is signed, and the
conversion sign-extends. -/
def charToSizeT (b : UInt8) : BitVec 64 := (BitVec.ofNat 8 b.toNat).signExtend 64

/-- A `char` of the input promoted to `int`, which sign-extends too. -/
def charToInt (b : UInt8) : BitVec 32 := (BitVec.ofNat 8 b.toNat).signExtend 32

/-- `data[0] | (data[1] << 8) | (data[2] << 16)`: computed in `int` on the
promoted bytes, then converted to `size_t`, which sign-extends the result. A
byte of `0x80` or more therefore sets every bit from bit 31 up, and the size
is not the 24-bit value the source's comment has in mind. -/
def decodeObjectSize (d0 d1 d2 : UInt8) : Nat :=
  ((charToInt d0 ||| charToInt d1 <<< 8 ||| charToInt d2 <<< 16).signExtend 64).toNat

/-- `memcpy(&value, &data[i + 1], sizeof(value))` on a little-endian machine. -/
def loadU32 (b0 b1 b2 b3 : UInt8) : UInt32 :=
  b0.toUInt32 ||| b1.toUInt32 <<< 8 ||| b2.toUInt32 <<< 16 ||| b3.toUInt32 <<< 24

/-! ## The driver -/

/-- The driver's state between two records: its central free list and the
objects it holds, `objects`. -/
structure Driver where
  /-- `env.central_freelist()`. -/
  cfl : CentralFreeList
  /-- `objects`, in the vector's order. -/
  objects : List Obj
deriving DecidableEq, Repr

namespace Driver

variable (P : Platform) (H : Harness) (ops : Nat)

/-- Operation `0`: `RemoveRange` of `num_objects % kMaxObjectsToMove + 1`
objects, appended to `objects`. -/
def allocate (numObjects : Nat) (d : Driver) : Driver :=
  let r := d.cfl.removeRange H.pageOk H.select ops (numObjects % P.kMaxObjectsToMove + 1)
  ⟨r.2, d.objects ++ r.1⟩

/-- Operation `1`: unless `objects` is empty, `InsertRange` of its last
`min(num_objects % kMaxObjectsToMove + 1, objects.size())` objects, which
`objects` then drops. -/
def deallocate (numObjects : Nat) (d : Driver) : Option Driver :=
  if d.objects.isEmpty then some d else
  let n := min (numObjects % P.kMaxObjectsToMove + 1) d.objects.length
  (d.cfl.insertRange ops (d.objects.drop (d.objects.length - n))).map
    fun c => ⟨c, d.objects.take (d.objects.length - n)⟩

/-- Operation `2`: shuffle `objects`, or only its last
`kMaxToShuffle = 10 * kMaxObjectsToMove` when it holds more. -/
def shuffleObjects (seed : Nat) (d : Driver) : Driver :=
  let kMaxToShuffle := 10 * P.kMaxObjectsToMove
  { d with objects :=
      if d.objects.length ≤ kMaxToShuffle then H.shuffle seed d.objects
      else d.objects.take (d.objects.length - kMaxToShuffle) ++
        H.shuffle seed (d.objects.drop (d.objects.length - kMaxToShuffle)) }

/-- Operation `3`: the `CHECK`s on `GetSpanStats()`, skipped with one object
per span; `false` when one fails. -/
def checkStats (d : Driver) : Bool :=
  let stats := d.cfl.getSpanStats ops
  if ops ≠ 1 then
    d.cfl.length + d.objects.length = stats.objCapacity ∧
      if d.objects.isEmpty then stats.numLiveSpans = 0 else stats.numLiveSpans > 0
  else true

/-- One record: operation `op & 0x7` with argument `value & 0xFF`; `none`
when the process dies. Operation `4` prints the span statistics, which leaves
the central free list as it is; `5` to `7` do nothing. -/
def step (op : UInt8) (value : UInt32) (d : Driver) : Option Driver :=
  let arg := (value &&& 0xFF).toNat
  match (op &&& 0x7).toNat with
  | 0 => some (d.allocate P H ops arg)
  | 1 => d.deallocate P ops arg
  | 2 => some (d.shuffleObjects P H arg)
  | 3 => if d.checkStats ops then some d else none
  | _ => some d

/-- The record loop, `for (int i = 0; i + 5 < size; i += 5)`: a record is
run while six bytes remain from its first. -/
def loop : List UInt8 → Driver → Option Driver
  | op :: v0 :: v1 :: v2 :: v3 :: rest, d =>
    if rest = [] then some d
    else (d.step P H ops op (loadU32 v0 v1 v2 v3)).bind fun d' => loop rest d'
  | _, d => some d

end Driver

/-- The clean-up loop: from the `returned`-th held object on, `InsertRange`
of batches of at most `kMaxObjectsToMove`. -/
def cleanUp (P : Platform) (ops : Nat) (objects : List Obj) (returned : Nat)
    (c : CentralFreeList) : Option CentralFreeList :=
  if returned < objects.length then
    let toReturn := min (objects.length - returned) P.kMaxObjectsToMove
    (c.insertRange ops ((objects.drop returned).take toReturn)).bind
      (cleanUp P ops objects (returned + toReturn))
  else some c
termination_by objects.length - returned
decreasing_by have := P.kMaxObjectsToMove_pos; omega

/-- How a run of the driver ends. -/
inductive FuzzEnd
  /-- The input's size or size class is refused: `FuzzCFL` returns at once. -/
  | rejected
  /-- Every record was run and every held object returned, leaving this
  central free list. -/
  | finished (c : CentralFreeList)
  /-- A `CHECK` failed, or `InsertRange` met an object no live span owns. -/
  | crashed
deriving DecidableEq, Repr

/-- `FuzzCFL(s)`. -/
def fuzzCFL (P : Platform) (H : Harness) (s : List UInt8) : FuzzEnd :=
  if s.length < 11 ∨ s.length > 100000 then .rejected else
  let objectSize := decodeObjectSize (s.getD 0 0) (s.getD 1 0) (s.getD 2 0)
  let numPages := (charToSizeT (s.getD 3 0)).toNat
  let numObjectsToMove := (charToSizeT (s.getD 4 0)).toNat
  if !P.isValidSizeClass objectSize numPages numObjectsToMove then .rejected else
  let ops := P.objectsPerSpan objectSize numPages
  match Driver.loop P H ops (s.drop 6) ⟨CentralFreeList.empty, []⟩ with
  | none => .crashed
  | some d =>
    match cleanUp P ops d.objects 0 d.cfl with
    | none => .crashed
    | some c => .finished c

/-! ## One object per span -/

theorem removeSingles_spans (pageOk : Nat → Bool) (n : Nat) (c : CentralFreeList) :
    (CentralFreeList.removeSingles pageOk n c).2.spans = c.spans := by
  induction n generalizing c with
  | zero => rfl
  | succ n ih =>
    simp only [CentralFreeList.removeSingles]
    split
    · exact ih _
    · rfl

/-! ## The driver's invariant -/

/-- **The driver's invariant**: with one object per span no span is ever
live; otherwise the central free list and the objects held satisfy the
accounting invariant. -/
structure Accounted (ops : Nat) (c : CentralFreeList) (held : List Obj) : Prop where
  /-- With one object per span, no span is live. -/
  single : ops = 1 → c.spans = []
  /-- Otherwise, the accounting invariant. -/
  inv : ops ≠ 1 → CentralFreeList.Inv ops c held

namespace Accounted

variable (P : Platform) (H : Harness) {ops : Nat} {c : CentralFreeList} {held : List Obj}
  {d : Driver}

theorem initial : Accounted ops CentralFreeList.empty [] :=
  ⟨fun _ => rfl, fun _ => CentralFreeList.inv_empty⟩

theorem perm (h : Accounted ops c held) {held' : List Obj} (hp : held.Perm held') :
    Accounted ops c held' :=
  ⟨h.single, fun hone => (h.inv hone).perm hp⟩

/-- No span is live once nothing is held. -/
theorem spans_eq_nil (h : Accounted ops c []) : c.spans = [] := by
  by_cases hone : ops = 1
  · exact h.single hone
  · exact ((h.inv hone).held_eq_nil_iff).1 rfl

/-- `InsertRange` of held objects succeeds and keeps the invariant. -/
theorem insertRange {objs keep : List Obj} (h : Accounted ops c (objs ++ keep)) :
    ∃ c', c.insertRange ops objs = some c' ∧ Accounted ops c' keep := by
  by_cases hone : ops = 1
  · exact ⟨c, by simp [CentralFreeList.insertRange, hone],
      ⟨fun _ => h.single hone, fun h' => absurd hone h'⟩⟩
  · obtain ⟨sps, hins, hinv⟩ := (h.inv hone).insertAll
    refine ⟨⟨sps, c.requests⟩, by simp [CentralFreeList.insertRange, hone, hins],
      ⟨fun h' => absurd h' hone, fun _ => hinv⟩⟩

theorem allocate (hops : 0 < ops) (h : Accounted ops d.cfl d.objects) (k : Nat) :
    Accounted ops (d.allocate P H ops k).cfl (d.allocate P H ops k).objects := by
  refine ⟨fun hone => ?_, fun hone => (h.inv hone).removeRange H.select_perm hops hone _⟩
  simp only [Driver.allocate, CentralFreeList.removeRange, hone, if_true, removeSingles_spans]
  exact h.single hone

/-- The held objects may be cut anywhere, the later part put back first. -/
theorem split (h : Accounted ops c held) (m : Nat) :
    Accounted ops c (held.drop m ++ held.take m) := by
  have hp : (held.take m ++ held.drop m).Perm (held.drop m ++ held.take m) :=
    List.perm_append_comm
  rw [List.take_append_drop] at hp
  exact h.perm hp

theorem deallocate (h : Accounted ops d.cfl d.objects) (k : Nat) :
    ∃ d', d.deallocate P ops k = some d' ∧ Accounted ops d'.cfl d'.objects := by
  unfold Driver.deallocate
  split
  · exact ⟨d, rfl, h⟩
  · obtain ⟨c', hins, hc'⟩ :=
      (h.split (d.objects.length - min (k % P.kMaxObjectsToMove + 1) d.objects.length)).insertRange
    exact ⟨_, by simp only [hins, Option.map_some']; rfl, hc'⟩

theorem shuffleObjects (h : Accounted ops d.cfl d.objects) (seed : Nat) :
    Accounted ops (d.shuffleObjects P H seed).cfl (d.shuffleObjects P H seed).objects := by
  apply h.perm
  simp only [Driver.shuffleObjects]
  split
  · exact (H.shuffle_perm _ _).symm
  · generalize d.objects.length - 10 * P.kMaxObjectsToMove = m
    have := (H.shuffle_perm seed (d.objects.drop m)).symm.append_left (d.objects.take m)
    rwa [List.take_append_drop] at this

/-- **The statistics `CHECK`s hold**: they are the accounting identity and
its consequence that spans are live exactly while objects are held. -/
theorem checkStats (h : Accounted ops d.cfl d.objects) : d.checkStats ops = true := by
  by_cases hone : ops = 1
  · simp [Driver.checkStats, hone]
  · have hnil := (h.inv hone).held_eq_nil_iff
    simp only [Driver.checkStats, CentralFreeList.getSpanStats, (h.inv hone).length_add_held,
      hone, ne_eq, not_false_eq_true, if_true, true_and, decide_eq_true_eq]
    cases hobj : d.objects with
    | nil => simpa [hobj] using hnil
    | cons o os => simpa [hobj, List.length_pos] using hnil

theorem step (hops : 0 < ops) (h : Accounted ops d.cfl d.objects) (op : UInt8) (value : UInt32) :
    ∃ d', d.step P H ops op value = some d' ∧ Accounted ops d'.cfl d'.objects := by
  unfold Driver.step
  split
  · exact ⟨_, rfl, h.allocate P H hops _⟩
  · exact h.deallocate P _
  · exact ⟨_, rfl, h.shuffleObjects P H _⟩
  · exact ⟨d, by simp [h.checkStats], h⟩
  · exact ⟨d, rfl, h⟩

/-- **The record loop keeps the invariant**, and never dies. -/
theorem loop (hops : 0 < ops) (bytes : List UInt8) (d : Driver)
    (h : Accounted ops d.cfl d.objects) :
    ∃ d', Driver.loop P H ops bytes d = some d' ∧ Accounted ops d'.cfl d'.objects := by
  induction bytes, d using Driver.loop.induct P H ops with
  | case1 op v0 v1 v2 v3 d => exact ⟨d, rfl, h⟩
  | case2 op v0 v1 v2 v3 rest d hne ih =>
    obtain ⟨d', hstep, h'⟩ := h.step P H hops op (loadU32 v0 v1 v2 v3)
    obtain ⟨d'', hloop, h''⟩ := ih d' h'
    exact ⟨d'', by simp [Driver.loop, hne, hstep, hloop], h''⟩
  | case3 bytes d hshort =>
    refine ⟨d, ?_, h⟩
    rw [Driver.loop.eq_def]
    split
    · exact (hshort _ _ _ _ _ _ rfl).elim
    · rfl

/-- **The clean-up returns everything held**, never dies, and leaves no live
span. -/
theorem cleanUp (objects : List Obj) (returned : Nat)
    (h : Accounted ops c (objects.drop returned)) :
    ∃ c', Tcmalloc.cleanUp P ops objects returned c = some c' ∧ c'.spans = [] := by
  induction returned, c using Tcmalloc.cleanUp.induct P ops objects with
  | case1 returned c hlt toReturn ih =>
    rw [← List.take_append_drop (min (objects.length - returned) P.kMaxObjectsToMove)
      (objects.drop returned), List.drop_drop] at h
    obtain ⟨c', hins, h'⟩ := h.insertRange
    obtain ⟨c'', hclean, hnil⟩ := ih c' h'
    exact ⟨c'', by rw [Tcmalloc.cleanUp, if_pos hlt]; simp [hins, hclean], hnil⟩
  | case2 returned c hge =>
    refine ⟨c, by rw [Tcmalloc.cleanUp, if_neg hge], ?_⟩
    rw [List.drop_eq_nil_of_le (by omega)] at h
    exact h.spans_eq_nil

end Accounted

/-- **The fuzz driver never dies** (the spec's scenario C): on every input,
whatever the platform, the page allocator, the span-selection policy and the
shuffle, `FuzzCFL` returns at once exactly when the input's size is outside
`[11, 100000]` or the size class its first bytes give is not valid; on every
other input it runs the record loop over the whole input and the clean-up –
every `CHECK` holds and every object put back has a live span – and leaves no
live span. -/
theorem fuzzCFL_never_crashes (P : Platform) (H : Harness) (s : List UInt8) :
    let objectSize := decodeObjectSize (s.getD 0 0) (s.getD 1 0) (s.getD 2 0)
    let numPages := (charToSizeT (s.getD 3 0)).toNat
    let ops := P.objectsPerSpan objectSize numPages
    (fuzzCFL P H s = .rejected ↔ s.length < 11 ∨ s.length > 100000 ∨
        P.isValidSizeClass objectSize numPages (charToSizeT (s.getD 4 0)).toNat = false) ∧
      (fuzzCFL P H s = .rejected ∨
        ∃ d c, Driver.loop P H ops (s.drop 6) ⟨CentralFreeList.empty, []⟩ = some d ∧
          cleanUp P ops d.objects 0 d.cfl = some c ∧ fuzzCFL P H s = .finished c ∧
          c.spans = []) := by
  intro objectSize numPages ops
  by_cases hsize : s.length < 11 ∨ s.length > 100000
  · have hrej : fuzzCFL P H s = .rejected := by rw [fuzzCFL, if_pos hsize]
    exact ⟨iff_of_true hrej (or_assoc.1 (.inl hsize)), .inl hrej⟩
  cases hvalid : P.isValidSizeClass objectSize numPages (charToSizeT (s.getD 4 0)).toNat
  · have hrej : fuzzCFL P H s = .rejected := by
      rw [fuzzCFL, if_neg hsize]
      simp [objectSize, numPages] at hvalid
      simp [hvalid]
    exact ⟨iff_of_true hrej (.inr (.inr rfl)), .inl hrej⟩
  · obtain ⟨d, hloop, hd⟩ := Accounted.loop P H (P.objectsPerSpan_pos _ _ _ hvalid) (s.drop 6)
      ⟨CentralFreeList.empty, []⟩ Accounted.initial
    obtain ⟨c, hclean, hnil⟩ := Accounted.cleanUp P d.objects 0 hd
    have hfin : fuzzCFL P H s = .finished c := by
      rw [fuzzCFL, if_neg hsize]
      simp [objectSize, numPages] at hvalid hloop hclean
      simp [Platform.objectsPerSpan, hvalid, hloop, hclean]
    refine ⟨iff_of_false (by rw [hfin]; simp) ?_, .inr ⟨d, c, hloop, hclean, hfin, hnil⟩⟩
    simpa [not_or] using hsize

end Tcmalloc
