import Tcmalloc.Absl.Duration
import Mathlib.Algebra.Order.Ring.Nat

/-!
# The central free list of one size class

`central_freelist.h` is not among the repository's files; only its fuzz driver
is. The central free list is therefore modelled from the spec (§3, §4.1, §9),
and every definition here says so. What the driver needs of it is the part the
spec describes precisely:

* a **span** is a run of pages cut into `objects_per_span` objects, and keeps a
  free list of the objects it has not handed out. Following the spec's design
  note, spans are named by stable handles and objects by `(span, index)`
  pairs rather than by addresses;
* `RemoveRange(n)` hands out at most `n` objects, drawing first from the live
  spans – in the order a span-selection policy puts them, which the spec leaves
  open and which is therefore a parameter – and, when those run dry, from one
  new span asked of the page allocator, which may refuse;
* `InsertRange(objects)` puts each object back on its span's free list, and
  returns a span to the page allocator as soon as all its objects are free. An
  object whose span is not live is an internal inconsistency, which the spec
  makes fatal: the model answers `none`;
* with one object per span the central free list keeps no span bookkeeping at
  all: each object is a span of its own, asked of and returned to the page
  allocator directly.

The page allocator is a function from the number of a request to whether it
grants it, so that every theorem holds whatever it answers.
-/

namespace Tcmalloc

/-- Modelled from the spec: a live **span**, by its handle, with the indices
of its objects not handed out. -/
structure Span where
  /-- The span's handle: the number of the page-allocator request that made it. -/
  id : Nat
  /-- The span's free list. -/
  free : List Nat
deriving DecidableEq, Repr

/-- Modelled from the spec: an object, as the index of its slot in its span. -/
structure Obj where
  /-- The handle of the span the object was cut from. -/
  span : Nat
  /-- Its slot in that span. -/
  idx : Nat
deriving DecidableEq, Repr

/-- Modelled from the spec: **the central free list** of one size class. -/
structure CentralFreeList where
  /-- The live spans. -/
  spans : List Span
  /-- How many spans have been asked of the page allocator. -/
  requests : Nat
deriving DecidableEq, Repr

/-- `SpanStats`, the part of it the fuzz driver reads. -/
structure SpanStats where
  /-- `obj_capacity`: the objects of all live spans. -/
  objCapacity : Nat
  /-- `num_live_spans()`. -/
  numLiveSpans : Nat
deriving DecidableEq, Repr

namespace CentralFreeList

/-- A central free list with no span. -/
def empty : CentralFreeList := ⟨[], 0⟩

/-- Modelled from the spec: `length()`, the free objects of all live spans. -/
def length (c : CentralFreeList) : Nat := (c.spans.map fun sp => sp.free.length).sum

/-- Modelled from the spec: `GetSpanStats()`. -/
def getSpanStats (objectsPerSpan : Nat) (c : CentralFreeList) : SpanStats :=
  ⟨objectsPerSpan * c.spans.length, c.spans.length⟩

/-- Draw up to `n` objects from the spans' free lists, front to back, each
span giving what it has until `n` are drawn. -/
def popFrom (n : Nat) : List Span → List Obj × List Span
  | [] => ([], [])
  | sp :: sps =>
    let k := min n sp.free.length
    let r := popFrom (n - k) sps
    ((sp.free.take k).map (Obj.mk sp.id) ++ r.1, { sp with free := sp.free.drop k } :: r.2)

/-- A span fresh from the page allocator, every object free. -/
def carve (id objectsPerSpan : Nat) : Span := ⟨id, List.range objectsPerSpan⟩

/-- With one object per span: one span per object, asked of the page
allocator until it refuses or `n` objects are out. -/
def removeSingles (pageOk : Nat → Bool) : Nat → CentralFreeList → List Obj × CentralFreeList
  | 0, c => ([], c)
  | n + 1, c =>
    if pageOk c.requests then
      let r := removeSingles pageOk n { c with requests := c.requests + 1 }
      (⟨c.requests, 0⟩ :: r.1, r.2)
    else ([], { c with requests := c.requests + 1 })

/-- Modelled from the spec: `RemoveRange(n)`. The live spans are drawn from
in the order `select` puts them; if they cannot give `n` objects, one new span
is asked of the page allocator and drawn from. -/
def removeRange (pageOk : Nat → Bool) (select : List Span → List Span)
    (objectsPerSpan n : Nat) (c : CentralFreeList) : List Obj × CentralFreeList :=
  if objectsPerSpan = 1 then removeSingles pageOk n c else
  let r := popFrom n (select c.spans)
  let need := n - r.1.length
  if need = 0 then (r.1, { c with spans := r.2 })
  else if pageOk c.requests then
    let sp := carve c.requests objectsPerSpan
    let k := min need objectsPerSpan
    (r.1 ++ (sp.free.take k).map (Obj.mk sp.id),
      ⟨{ sp with free := sp.free.drop k } :: r.2, c.requests + 1⟩)
  else (r.1, ⟨r.2, c.requests + 1⟩)

/-- Put one object back on its span's free list, and drop the span once all
its objects are free; `none` when no live span owns the object. -/
def insertOne (objectsPerSpan : Nat) (o : Obj) : List Span → Option (List Span)
  | [] => none
  | sp :: sps =>
    if sp.id = o.span then
      some (if sp.free.length + 1 = objectsPerSpan then sps
        else { sp with free := o.idx :: sp.free } :: sps)
    else (insertOne objectsPerSpan o sps).map (sp :: ·)

/-- The objects of a batch put back one after another. -/
def insertAll (objectsPerSpan : Nat) : List Obj → List Span → Option (List Span)
  | [], sps => some sps
  | o :: os, sps => (insertOne objectsPerSpan o sps).bind (insertAll objectsPerSpan os)

/-- Modelled from the spec: `InsertRange(objects)`. With one object per span
each object's span goes straight back to the page allocator. -/
def insertRange (objectsPerSpan : Nat) (objs : List Obj) (c : CentralFreeList) :
    Option CentralFreeList :=
  if objectsPerSpan = 1 then some c
  else (insertAll objectsPerSpan objs c.spans).map ({ c with spans := · })

end CentralFreeList

end Tcmalloc
