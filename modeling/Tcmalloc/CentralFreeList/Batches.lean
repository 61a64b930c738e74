import Tcmalloc.CentralFreeList.Invariant

/-!
# What `RemoveRange` hands out and `InsertRange` takes back

Two properties the spec states of single operations (§4.1, §8), as
consequences of the model and of its accounting invariant.

`RemoveRange(n)` never hands out more than `n` objects
(`removeRange_length_le`), with one object per span as with more.

A batch handed out by `RemoveRange` and put back intact by `InsertRange`
restores the central free list's state (`removeRange_insertRange_round_trip`).
The proof does not follow the objects back one by one: the accounting
invariant fixes the live spans and their free objects from what the caller
holds alone (`Inv.ids_perm`, `Inv.freeOf_eq`), and the caller holds the same
objects before and after the round trip. What the round trip does not restore
is the order of the spans, which the span-selection policy may change, and the
order of each span's free list.
-/

namespace Tcmalloc

namespace CentralFreeList

/-! ## At most `n` objects -/

theorem removeSingles_length_le (pageOk : Nat → Bool) (n : Nat) (c : CentralFreeList) :
    (removeSingles pageOk n c).1.length ≤ n := by
  induction n generalizing c with
  | zero => exact Nat.le_refl _
  | succ n ih =>
    simp only [removeSingles]
    split
    · exact Nat.succ_le_succ (ih _)
    · exact Nat.zero_le _

/-- **`RemoveRange(n)` hands out at most `n` objects**, whatever the page
allocator answers and the span-selection policy draws. -/
theorem removeRange_length_le (pageOk : Nat → Bool) (select : List Span → List Span)
    (objectsPerSpan n : Nat) (c : CentralFreeList) :
    (c.removeRange pageOk select objectsPerSpan n).1.length ≤ n := by
  have hpop := popFrom_length_le n (select c.spans)
  unfold removeRange
  split
  · exact removeSingles_length_le pageOk n c
  · dsimp only
    split
    · exact hpop
    · split
      · simp only [carve, List.length_append, List.length_map, List.length_take,
          List.length_range]
        omega
      · exact hpop

/-! ## The invariant fixes the state -/

variable {ops : Nat} {c c' : CentralFreeList} {held : List Obj}

namespace Inv

/-- The live spans are exactly those the caller holds objects of. -/
theorem mem_ids_iff (h : Inv ops c held) {id : Nat} :
    id ∈ c.spans.map Span.id ↔ 0 < heldOf held id := by
  refine ⟨h.inUse id, fun hpos => ?_⟩
  obtain ⟨o, ho, he⟩ := List.countP_pos_iff.1 hpos
  exact of_decide_eq_true he ▸ h.held_live o ho

/-- Two central free lists accounting for the same held objects have the same
live spans. -/
theorem ids_perm (h : Inv ops c held) (h' : Inv ops c' held) :
    (c.spans.map Span.id).Perm (c'.spans.map Span.id) :=
  (List.perm_ext_iff_of_nodup h.ids_nodup h'.ids_nodup).2 fun _ => by
    rw [h.mem_ids_iff, h'.mem_ids_iff]

/-- Two central free lists accounting for the same held objects have the same
free objects, span by span. -/
theorem freeOf_eq (h : Inv ops c held) (h' : Inv ops c' held) (id : Nat) :
    freeOf c.spans id = freeOf c'.spans id := by
  have hmem : id ∈ c.spans.map Span.id ↔ id ∈ c'.spans.map Span.id := (h.ids_perm h').mem_iff
  by_cases hid : id ∈ c.spans.map Span.id
  · have := h.balance id hid
    have := h'.balance id (hmem.1 hid)
    omega
  · rw [freeOf_of_not_mem hid, freeOf_of_not_mem (hmem.not.1 hid)]

theorem length_eq (h : Inv ops c held) (h' : Inv ops c' held) : c.length = c'.length := by
  have hl : c.spans.length = c'.spans.length := by simpa using (h.ids_perm h').length_eq
  have := h.length_add_held
  have := h'.length_add_held
  rw [hl] at *
  omega

end Inv

/-! ## The round trip -/

/-- **Returning a removed batch restores the central free list** (the spec's
round trip): after `RemoveRange(n)`, `InsertRange` of the objects handed out
succeeds, and leaves the live spans as they were, each with as many free
objects, and the same `length()` and `GetSpanStats()` – whatever the page
allocator answered and in whatever order the span-selection policy drew. -/
theorem removeRange_insertRange_round_trip {pageOk : Nat → Bool}
    {select : List Span → List Span} (hsel : ∀ l, (select l).Perm l) (hops : 0 < ops)
    (hone : ops ≠ 1) (h : Inv ops c held) (n : Nat) :
    ∃ c', (c.removeRange pageOk select ops n).2.insertRange ops
        (c.removeRange pageOk select ops n).1 = some c' ∧
      (c'.spans.map Span.id).Perm (c.spans.map Span.id) ∧
      (∀ id, freeOf c'.spans id = freeOf c.spans id) ∧
      c'.length = c.length ∧ c'.getSpanStats ops = c.getSpanStats ops := by
  have hr : Inv ops (c.removeRange pageOk select ops n).2
      (held ++ (c.removeRange pageOk select ops n).1) := h.removeRange hsel hops hone n
  obtain ⟨sps, hins, hinv⟩ := (hr.perm List.perm_append_comm).insertAll
  have hids := hinv.ids_perm h
  have hlen : sps.length = c.spans.length := by simpa using hids.length_eq
  refine ⟨_, by simp [insertRange, hone, hins], hids, hinv.freeOf_eq h, hinv.length_eq h, ?_⟩
  simp [getSpanStats, hlen]

theorem removeRange_insertRange_round_trip_two_spans :
    let r₁ := empty.removeRange (fun _ => true) List.reverse 3 4
    let r₂ := r₁.2.removeRange (fun _ => true) List.reverse 3 2
    let c := r₂.2
    (∀ l : List Span, l.reverse.Perm l) ∧ 0 < 3 ∧ 3 ≠ 1 ∧ Inv 3 c ([] ++ r₁.1 ++ r₂.1) ∧
      c.spans.length = 2 ∧
      ∃ c', (c.removeRange (fun _ => true) List.reverse 3 2).2.insertRange 3
          (c.removeRange (fun _ => true) List.reverse 3 2).1 = some c' ∧
        (c'.spans.map Span.id).Perm (c.spans.map Span.id) ∧
        (∀ sid, freeOf c'.spans sid = freeOf c.spans sid) ∧
        c'.length = c.length ∧ c'.getSpanStats 3 = c.getSpanStats 3 :=
  have hinv : Inv 3 (((empty.removeRange (fun _ => true) List.reverse 3 4).2.removeRange
      (fun _ => true) List.reverse 3 2).2) ([] ++ (empty.removeRange (fun _ => true)
        List.reverse 3 4).1 ++ ((empty.removeRange (fun _ => true) List.reverse 3 4).2.removeRange
          (fun _ => true) List.reverse 3 2).1) :=
    (inv_empty.removeRange List.reverse_perm (by decide) (by decide) 4).removeRange
      List.reverse_perm (by decide) (by decide) 2
  ⟨List.reverse_perm, by decide, by decide, hinv, by decide,
    removeRange_insertRange_round_trip List.reverse_perm (by decide) (by decide) hinv 2⟩

end CentralFreeList

end Tcmalloc
