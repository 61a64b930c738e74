import Tcmalloc.CentralFreeList.Model
import Mathlib.Data.List.Nodup
import Mathlib.Data.List.Perm.Basic
import Mathlib.Algebra.BigOperators.Group.List

/-!
# The accounting invariant of the central free list

The spec's main invariant (§3, §8) is that the free objects the central free
list caches and the objects its caller holds make up the live spans exactly:
`length() + held == obj_capacity`, and no span is live once the caller holds
nothing. Neither is kept by one operation alone; both follow from a balance
kept span by span, which is `CentralFreeList.Inv`: for every live span, its
free objects and the caller's objects cut from it number `objects_per_span`,
and the caller holds at least one of them.

`removeRange` and `insertAll` keep `Inv` (`Inv.removeRange`,
`Inv.insertAll`), reordering the caller's objects keeps it (`Inv.perm`), and
the two statements the fuzz driver `CHECK`s follow from it
(`Inv.length_add_held`, `Inv.held_eq_nil_iff`). Nothing here needs the
identity of an object within its span: the balance counts objects by span.
-/

namespace Tcmalloc

namespace CentralFreeList

/-- The free objects of the spans with handle `id`. -/
def freeOf (sps : List Span) (id : Nat) : Nat :=
  ((sps.filter (·.id = id)).map fun sp => sp.free.length).sum

/-- How many of the objects `held` were cut from span `id`. -/
def heldOf (held : List Obj) (id : Nat) : Nat := held.countP (·.span = id)

/-! ## Counting by span -/

@[simp] theorem freeOf_nil (id : Nat) : freeOf [] id = 0 := rfl

theorem freeOf_cons (sp : Span) (sps : List Span) (id : Nat) :
    freeOf (sp :: sps) id = (if sp.id = id then sp.free.length else 0) + freeOf sps id := by
  by_cases h : sp.id = id <;> simp [freeOf, List.filter_cons, h]

theorem freeOf_of_not_mem {sps : List Span} {id : Nat} (h : id ∉ sps.map Span.id) :
    freeOf sps id = 0 := by
  induction sps with
  | nil => rfl
  | cons sp sps ih =>
    simp only [List.map_cons, List.mem_cons, not_or] at h
    rw [freeOf_cons, if_neg (Ne.symm h.1), ih h.2]

theorem freeOf_perm {sps sps' : List Span} (h : sps.Perm sps') (id : Nat) :
    freeOf sps id = freeOf sps' id :=
  ((h.filter _).map _).sum_eq

@[simp] theorem heldOf_nil (id : Nat) : heldOf [] id = 0 := rfl

@[simp] theorem heldOf_cons (o : Obj) (held : List Obj) (id : Nat) :
    heldOf (o :: held) id = heldOf held id + if o.span = id then 1 else 0 := by
  simp [heldOf, List.countP_cons]

@[simp] theorem heldOf_append (h₁ h₂ : List Obj) (id : Nat) :
    heldOf (h₁ ++ h₂) id = heldOf h₁ id + heldOf h₂ id :=
  List.countP_append _ _ _

/-- Objects cut from one span count only for that span. -/
@[simp] theorem heldOf_map_mk (sid : Nat) (l : List Nat) (id : Nat) :
    heldOf (l.map (Obj.mk sid)) id = if sid = id then l.length else 0 := by
  by_cases h : sid = id <;> simp [heldOf, List.countP_map, Function.comp_def, h]

theorem heldOf_perm {held held' : List Obj} (h : held.Perm held') (id : Nat) :
    heldOf held id = heldOf held' id :=
  h.countP_eq _

theorem heldOf_eq_zero {held : List Obj} {id : Nat} :
    heldOf held id = 0 ↔ ∀ o ∈ held, o.span ≠ id := by
  simp [heldOf]

theorem sum_map_ite_eq_count (x : Nat) (ids : List Nat) :
    (ids.map fun id => if x = id then 1 else 0).sum = ids.count x := by
  induction ids with
  | nil => rfl
  | cons a ids ih =>
    by_cases h : x = a
    · subst h; simp [List.count_cons, ih, Nat.add_comm]
    · simp [List.count_cons, ih, h, Ne.symm h]

/-- Over spans with distinct handles, the free objects counted span by span. -/
theorem length_eq_sum_freeOf (sps : List Span) (hnd : (sps.map Span.id).Nodup) :
    (sps.map fun sp => sp.free.length).sum = ((sps.map Span.id).map (freeOf sps)).sum := by
  induction sps with
  | nil => rfl
  | cons sp sps ih =>
    simp only [List.map_cons, List.nodup_cons] at hnd ⊢
    have hrest : (sps.map Span.id).map (freeOf (sp :: sps)) = (sps.map Span.id).map (freeOf sps) :=
      List.map_congr_left fun id hid => by
        rw [freeOf_cons, if_neg (by rintro rfl; exact hnd.1 hid), Nat.zero_add]
    rw [List.sum_cons, List.sum_cons, hrest, ← ih hnd.2, freeOf_cons, if_pos rfl,
      freeOf_of_not_mem hnd.1, Nat.add_zero]

/-- Objects cut from spans among `ids`, distinct handles, counted span by span. -/
theorem length_eq_sum_heldOf (held : List Obj) {ids : List Nat} (hnd : ids.Nodup)
    (hlive : ∀ o ∈ held, o.span ∈ ids) : held.length = (ids.map (heldOf held)).sum := by
  induction held with
  | nil => simp [show heldOf [] = fun _ => 0 from rfl]
  | cons o held ih =>
    have hcons : heldOf (o :: held) = fun id => heldOf held id + if o.span = id then 1 else 0 :=
      funext (heldOf_cons o held)
    rw [hcons, List.sum_map_add, sum_map_ite_eq_count,
      List.count_eq_one_of_mem hnd (hlive o (List.mem_cons_self _ _)),
      List.length_cons, ih fun o' ho' => hlive o' (List.mem_cons_of_mem _ ho')]

/-! ## Drawing from the live spans -/

theorem popFrom_ids (n : Nat) (sps : List Span) :
    (popFrom n sps).2.map Span.id = sps.map Span.id := by
  induction sps generalizing n with
  | nil => rfl
  | cons sp sps ih => simp [popFrom, ih]

theorem popFrom_span_mem (n : Nat) (sps : List Span) :
    ∀ o ∈ (popFrom n sps).1, o.span ∈ sps.map Span.id := by
  induction sps generalizing n with
  | nil => simp [popFrom]
  | cons sp sps ih =>
    intro o ho
    simp only [popFrom, List.mem_append, List.mem_map] at ho
    rcases ho with ⟨i, -, rfl⟩ | ho
    · exact List.mem_cons_self _ _
    · exact List.mem_cons_of_mem _ (ih _ o ho)

/-- **What is drawn leaves the free lists**: span by span, the free objects
after drawing and the objects drawn add up to the free objects before. -/
theorem popFrom_balance (n : Nat) (sps : List Span) (id : Nat) :
    freeOf (popFrom n sps).2 id + heldOf (popFrom n sps).1 id = freeOf sps id := by
  induction sps generalizing n with
  | nil => rfl
  | cons sp sps ih =>
    have hk : min n sp.free.length ≤ sp.free.length := Nat.min_le_right _ _
    have := ih (n - min n sp.free.length)
    simp only [popFrom, freeOf_cons, heldOf_append, heldOf_map_mk, List.length_drop,
      List.length_take, Nat.min_eq_left hk] at this ⊢
    split <;> omega

/-- `RemoveRange` never hands out more than asked for. -/
theorem popFrom_length_le (n : Nat) (sps : List Span) : (popFrom n sps).1.length ≤ n := by
  induction sps generalizing n with
  | nil => simp [popFrom]
  | cons sp sps ih =>
    have := ih (n - min n sp.free.length)
    simp only [popFrom, List.length_append, List.length_map, List.length_take]
    omega

/-! ## Putting an object back -/

/-- **What `InsertRange` does to the spans, object by object**: an object
whose span is live is accepted; its span gains a free object, or is dropped
when that would make all its objects free. -/
theorem insertOne_spec (ops : Nat) (o : Obj) (sps : List Span) (hnd : (sps.map Span.id).Nodup)
    (hm : o.span ∈ sps.map Span.id) :
    ∃ sps', insertOne ops o sps = some sps' ∧
      (freeOf sps o.span + 1 = ops →
        sps'.map Span.id = (sps.map Span.id).erase o.span ∧
          ∀ id, id ≠ o.span → freeOf sps' id = freeOf sps id) ∧
      (freeOf sps o.span + 1 ≠ ops →
        sps'.map Span.id = sps.map Span.id ∧
          ∀ id, freeOf sps' id = freeOf sps id + if o.span = id then 1 else 0) := by
  induction sps with
  | nil => simp at hm
  | cons sp sps ih =>
    simp only [List.map_cons, List.nodup_cons, List.mem_cons] at hnd hm
    by_cases he : sp.id = o.span
    · -- the object's span heads the list: it is released or gains the object
      have hz : freeOf sps o.span = 0 := freeOf_of_not_mem (he ▸ hnd.1)
      rw [freeOf_cons, if_pos he, hz, Nat.add_zero]
      refine ⟨if sp.free.length + 1 = ops then sps else { sp with free := o.idx :: sp.free } :: sps,
        by simp [insertOne, he], fun hr => ⟨by simp [hr, he], fun id hid => ?_⟩,
        fun hr => ⟨by simp [hr], fun id => ?_⟩⟩
      · simp [hr, freeOf_cons, he, Ne.symm hid]
      · by_cases hi : o.span = id
        · subst hi; simp [hr, freeOf_cons, he, hz]
        · simp [hr, freeOf_cons, he, hi]
    · -- the object's span is further down: the head span is kept as it is
      obtain ⟨sps', hins, hrel, hkeep⟩ := ih hnd.2 (hm.resolve_left (Ne.symm he))
      rw [freeOf_cons, if_neg he, Nat.zero_add]
      refine ⟨sp :: sps', by simp [insertOne, he, hins], fun hr => ?_, fun hr => ?_⟩
      · obtain ⟨hids, hfree⟩ := hrel hr
        refine ⟨?_, fun id hid => by simp only [freeOf_cons, hfree id hid]⟩
        rw [List.map_cons, hids]
        exact (List.erase_cons_tail (by simpa using he)).symm
      · obtain ⟨hids, hfree⟩ := hkeep hr
        exact ⟨by simp [hids], fun id => by simp only [freeOf_cons, hfree id, Nat.add_assoc]⟩

/-! ## The invariant -/

/-- **The accounting invariant** of a central free list whose caller holds
`held`, for a size class of `objectsPerSpan` objects per span. -/
structure Inv (objectsPerSpan : Nat) (c : CentralFreeList) (held : List Obj) : Prop where
  /-- No two live spans share a handle. -/
  ids_nodup : (c.spans.map Span.id).Nodup
  /-- Every live span came from an earlier page-allocator request. -/
  ids_lt : ∀ id ∈ c.spans.map Span.id, id < c.requests
  /-- Every object the caller holds was cut from a live span. -/
  held_live : ∀ o ∈ held, o.span ∈ c.spans.map Span.id
  /-- A live span's free objects and the caller's objects from it are all its
  objects. -/
  balance : ∀ id ∈ c.spans.map Span.id, freeOf c.spans id + heldOf held id = objectsPerSpan
  /-- The caller holds an object of every live span. -/
  inUse : ∀ id ∈ c.spans.map Span.id, 0 < heldOf held id

variable {ops : Nat} {c : CentralFreeList} {held : List Obj}

theorem inv_empty : Inv ops empty [] :=
  ⟨List.nodup_nil, by simp [empty], by simp, by simp [empty], by simp [empty]⟩

namespace Inv

/-- The caller may hold its objects in any order. -/
theorem perm (h : Inv ops c held) {held' : List Obj} (hp : held.Perm held') :
    Inv ops c held' where
  ids_nodup := h.ids_nodup
  ids_lt := h.ids_lt
  held_live o ho := h.held_live o (hp.mem_iff.2 ho)
  balance id hid := heldOf_perm hp id ▸ h.balance id hid
  inUse id hid := heldOf_perm hp id ▸ h.inUse id hid

/-- No object the caller holds comes from a span not yet asked for. -/
theorem heldOf_requests (h : Inv ops c held) : heldOf held c.requests = 0 :=
  heldOf_eq_zero.2 fun o ho e => Nat.lt_irrefl _ (e ▸ h.ids_lt _ (h.held_live o ho))

/-- Drawing from the live spans, in any order a selection policy puts them,
keeps the invariant once the caller holds what was drawn. -/
theorem draw {select : List Span → List Span} (hsel : ∀ l, (select l).Perm l)
    (h : Inv ops c held) (n : Nat) :
    Inv ops ⟨(CentralFreeList.popFrom n (select c.spans)).2, c.requests⟩
      (held ++ (CentralFreeList.popFrom n (select c.spans)).1) := by
  have hids : ((CentralFreeList.popFrom n (select c.spans)).2.map Span.id).Perm
      (c.spans.map Span.id) := by
    rw [popFrom_ids]; exact (hsel _).map _
  refine ⟨hids.nodup_iff.2 h.ids_nodup, fun id hid => h.ids_lt id (hids.mem_iff.1 hid),
    fun o ho => ?_, fun id hid => ?_, fun id hid => ?_⟩
  · rcases List.mem_append.1 ho with ho | ho
    · exact hids.mem_iff.2 (h.held_live o ho)
    · exact popFrom_ids n (select c.spans) ▸ popFrom_span_mem n _ o ho
  · have := popFrom_balance n (select c.spans) id
    rw [freeOf_perm (hsel _)] at this
    have := h.balance id (hids.mem_iff.1 hid)
    simp only [heldOf_append]
    omega
  · simpa using Nat.lt_of_lt_of_le (h.inUse id (hids.mem_iff.1 hid)) (Nat.le_add_right _ _)

/-- A span fresh from the page allocator, of which the caller takes `k`
objects, `0 < k ≤ objects_per_span`, keeps the invariant. -/
theorem newSpan (h : Inv ops c held) {k : Nat} (hk : 0 < k) (hko : k ≤ ops) :
    Inv ops ⟨{ carve c.requests ops with free := (carve c.requests ops).free.drop k } :: c.spans,
        c.requests + 1⟩
      (held ++ ((carve c.requests ops).free.take k).map (Obj.mk c.requests)) := by
  have hfresh : c.requests ∉ c.spans.map Span.id := fun hm => Nat.lt_irrefl _ (h.ids_lt _ hm)
  have hzero := h.heldOf_requests
  simp only [carve, List.take_range, Nat.min_eq_left hko]
  refine ⟨List.nodup_cons.2 ⟨hfresh, h.ids_nodup⟩, fun id hid => ?_, fun o ho => ?_,
    fun id hid => ?_, fun id hid => ?_⟩
  · rcases List.mem_cons.1 hid with rfl | hid
    · exact Nat.lt_succ_self _
    · exact Nat.lt_succ_of_lt (h.ids_lt id hid)
  · rcases List.mem_append.1 ho with ho | ho
    · exact List.mem_cons_of_mem _ (h.held_live o ho)
    · obtain ⟨i, -, rfl⟩ := List.mem_map.1 ho
      exact List.mem_cons_self _ _
  · simp only [List.map_cons, List.mem_cons] at hid
    rcases hid with rfl | hid
    · simp only [freeOf_cons, freeOf_of_not_mem hfresh, heldOf_append, heldOf_map_mk, hzero,
        if_true, List.length_drop, List.length_range]
      omega
    · have hne : c.requests ≠ id := fun e => hfresh (e ▸ hid)
      simpa [freeOf_cons, hne] using h.balance id hid
  · simp only [List.map_cons, List.mem_cons] at hid
    rcases hid with rfl | hid
    · simpa [hzero] using hk
    · simpa using Nat.lt_of_lt_of_le (h.inUse id hid) (Nat.le_add_right _ _)

/-- A request the page allocator refuses changes only the request count. -/
theorem refused (h : Inv ops c held) : Inv ops ⟨c.spans, c.requests + 1⟩ held :=
  ⟨h.ids_nodup, fun id hid => Nat.lt_succ_of_lt (h.ids_lt id hid), h.held_live, h.balance,
    h.inUse⟩

/-- **`RemoveRange` keeps the invariant**, with what it hands out added to
what the caller holds, whatever the page allocator answers and whatever order
the span-selection policy draws in. -/
theorem removeRange {pageOk : Nat → Bool} {select : List Span → List Span}
    (hsel : ∀ l, (select l).Perm l) (hops : 0 < ops) (hone : ops ≠ 1)
    (h : Inv ops c held) (n : Nat) :
    Inv ops (c.removeRange pageOk select ops n).2
      (held ++ (c.removeRange pageOk select ops n).1) := by
  have hp := h.draw hsel n
  unfold CentralFreeList.removeRange
  simp only [hone, if_false]
  split
  · exact hp
  · split
    · simpa [List.append_assoc] using hp.newSpan (by omega) (Nat.min_le_right _ ops)
    · exact hp.refused

/-- **Putting back an object the caller holds keeps the invariant**: its
span is live, so it is accepted, and the span is returned to the page
allocator exactly when the caller holds nothing more of it. -/
theorem insertOne {o : Obj} {keep : List Obj} (h : Inv ops c (o :: keep)) :
    ∃ sps, CentralFreeList.insertOne ops o c.spans = some sps ∧
      Inv ops ⟨sps, c.requests⟩ keep := by
  have hm := h.held_live o (List.mem_cons_self _ _)
  have hbal := h.balance o.span hm
  rw [heldOf_cons, if_pos rfl] at hbal
  obtain ⟨sps, hins, hrel, hkeep⟩ := insertOne_spec ops o c.spans h.ids_nodup hm
  refine ⟨sps, hins, ?_⟩
  by_cases hr : freeOf c.spans o.span + 1 = ops
  · -- the span's last object comes back: the span is dropped
    obtain ⟨hids, hfree⟩ := hrel hr
    have hnone : heldOf keep o.span = 0 := by omega
    have hmem : ∀ id ∈ sps.map Span.id, id ≠ o.span ∧ id ∈ c.spans.map Span.id := by
      rw [hids]; exact fun id hid => (h.ids_nodup.mem_erase_iff).1 hid
    refine ⟨hids ▸ h.ids_nodup.erase _, fun id hid => h.ids_lt id (hmem id hid).2,
      fun o' ho' => ?_, fun id hid => ?_, fun id hid => ?_⟩
    · have hne : o'.span ≠ o.span := fun e => heldOf_eq_zero.1 hnone o' ho' e
      rw [hids]
      exact (List.mem_erase_of_ne hne).2 (h.held_live o' (List.mem_cons_of_mem _ ho'))
    · obtain ⟨hne, hid⟩ := hmem id hid
      simpa [hfree id hne, heldOf_cons, Ne.symm hne] using h.balance id hid
    · obtain ⟨hne, hid⟩ := hmem id hid
      simpa [heldOf_cons, Ne.symm hne] using h.inUse id hid
  · -- the span stays, with one more free object
    obtain ⟨hids, hfree⟩ := hkeep hr
    refine ⟨hids ▸ h.ids_nodup, fun id hid => h.ids_lt id (hids ▸ hid),
      fun o' ho' => hids ▸ h.held_live o' (List.mem_cons_of_mem _ ho'),
      fun id hid => ?_, fun id hid => ?_⟩
    · have := h.balance id (hids ▸ hid)
      rw [heldOf_cons] at this
      rw [hfree id]
      omega
    · by_cases hi : o.span = id
      · subst hi; omega
      · simpa [hi] using h.inUse id (hids ▸ hid)

/-- **Putting back a batch of objects the caller holds keeps the invariant.** -/
theorem insertAll {objs keep : List Obj} (h : Inv ops c (objs ++ keep)) :
    ∃ sps, CentralFreeList.insertAll ops objs c.spans = some sps ∧
      Inv ops ⟨sps, c.requests⟩ keep := by
  induction objs generalizing c with
  | nil => exact ⟨c.spans, rfl, h⟩
  | cons o objs ih =>
    obtain ⟨sps, hins, hinv⟩ := Inv.insertOne h
    obtain ⟨sps', hins', hinv'⟩ := ih hinv
    exact ⟨sps', by simp [CentralFreeList.insertAll, hins, hins'], hinv'⟩

/-- **The accounting identity** the fuzz driver checks: the free objects of
the live spans and the caller's objects make up the live spans exactly,
`length() + held == obj_capacity`. -/
theorem length_add_held (h : Inv ops c held) :
    c.length + held.length = ops * c.spans.length := by
  rw [length, length_eq_sum_freeOf _ h.ids_nodup,
    length_eq_sum_heldOf held h.ids_nodup h.held_live, ← List.sum_map_add,
    List.map_congr_left h.balance]
  simp [Function.comp_def, Nat.mul_comm]

/-- **No span outlives the caller's objects**: the caller holds nothing
exactly when no span is live. -/
theorem held_eq_nil_iff (h : Inv ops c held) : held = [] ↔ c.spans = [] := by
  constructor
  · rintro rfl
    cases hs : c.spans with
    | nil => rfl
    | cons sp _ => simpa using h.inUse sp.id (by simp [hs])
  · intro hs
    cases held with
    | nil => rfl
    | cons o _ => simpa [hs] using h.held_live o (List.mem_cons_self _ _)

end Inv

end CentralFreeList

end Tcmalloc
