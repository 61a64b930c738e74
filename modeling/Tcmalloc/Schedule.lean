import Mathlib.Algebra.Order.BigOperators.Group.Finset
import Mathlib.Data.Fintype.Fin

/-!
# Threads taking turns

`parameters.cc` is called from any thread, and two of its mechanisms exist
for that: the once-flags behind the lazily initialised knobs, and the
`update_lock` of `TCMalloc_Internal_SetHeapSizeHardLimit`. Their models are
step functions `step : W → Fin n → W` over a shared world of `n` threads,
where `step w t` is thread `t`'s next atomic step; a *schedule*, a list of
thread ids, fixes one interleaving, and `interleave` runs it. A property of
every interleaving is then a property of `interleave step sched w` for every
schedule, and `interleave_invariant` carries an invariant of one step to all
of them.

The models count threads by phase – how many have claimed a once-flag, how
many hold the lock – and add up what the threads have left to do.
`sumThreads_update` says how such a sum changes when one thread moves, which
is all the step lemmas need of it.

Both models' threads are a `Thread`: a phase within the call in flight and the
calls still to start. What they share is stated here once: how a thread moving
within its call keeps program order (`program_order_update`), and the
finishing argument (`exists_interleave_rank_eq_zero`): when some thread's
step always lowers what the threads have left to do, some schedule runs it
down to nothing.
-/

namespace Tcmalloc

variable {W α : Type} {n : Nat}

/-- **One interleaving**: the threads of the schedule take one atomic step
each, in order. -/
def interleave (step : W → Fin n → W) : List (Fin n) → W → W
  | [], w => w
  | t :: ts, w => interleave step ts (step w t)

theorem interleave_append (step : W → Fin n → W) (ts ts' : List (Fin n)) (w : W) :
    interleave step (ts ++ ts') w = interleave step ts' (interleave step ts w) := by
  induction ts generalizing w with
  | nil => rfl
  | cons t ts ih => exact ih _

/-- **What every step keeps holds along every interleaving.** -/
theorem interleave_invariant {step : W → Fin n → W} (P : W → Prop)
    (h : ∀ w t, P w → P (step w t)) (ts : List (Fin n)) {w : W} (hw : P w) :
    P (interleave step ts w) := by
  induction ts generalizing w with
  | nil => exact hw
  | cons t ts ih => exact ih (h w t hw)

/-! ## Counting threads -/

/-- What the threads in states `f` add up to under `g`. -/
def sumThreads (g : α → Nat) (f : Fin n → α) : Nat := ∑ t, g (f t)

/-- How many threads are in a state satisfying `p`. -/
def countThreads (p : α → Bool) (f : Fin n → α) : Nat :=
  sumThreads (fun a => if p a then 1 else 0) f

/-- **One thread moving** changes a sum over the threads by its own change. -/
theorem sumThreads_update (g : α → Nat) (f : Fin n → α) (t : Fin n) (x : α) :
    sumThreads g (Function.update f t x) + g (f t) = sumThreads g f + g x := by
  have hmem := Finset.mem_univ t
  have hupd : (fun t' => g (Function.update f t x t')) = Function.update (g ∘ f) t (g x) :=
    funext fun t' => Function.apply_update (fun _ => g) f t x t'
  simp only [sumThreads, hupd, Finset.sum_update_of_mem hmem,
    Finset.sum_eq_add_sum_diff_singleton hmem (fun t' => g (f t')), Function.comp_def]
  omega

theorem countThreads_update (p : α → Bool) (f : Fin n → α) (t : Fin n) (x : α) :
    countThreads p (Function.update f t x) + (if p (f t) then 1 else 0) =
      countThreads p f + if p x then 1 else 0 :=
  sumThreads_update _ f t x

/-- A thread moving between states alike under `p` leaves the count as it
was. -/
theorem countThreads_update_of_eq {p : α → Bool} {f : Fin n → α} {t : Fin n} {x : α}
    (h : p x = p (f t)) : countThreads p (Function.update f t x) = countThreads p f := by
  have := countThreads_update p f t x
  rw [h] at this
  omega

theorem countThreads_le_of_imp {p q : α → Bool} (h : ∀ a, p a → q a) (f : Fin n → α) :
    countThreads p f ≤ countThreads q f := by
  unfold countThreads sumThreads
  refine Finset.sum_le_sum fun t _ => ?_
  by_cases hp : p (f t)
  · simp [hp, h _ hp]
  · simp [hp]

theorem countThreads_eq_card (p : α → Bool) (f : Fin n → α) :
    countThreads p f = (Finset.univ.filter fun t => p (f t)).card := by
  rw [Finset.card_filter]
  rfl

theorem countThreads_pos_iff {p : α → Bool} {f : Fin n → α} :
    0 < countThreads p f ↔ ∃ t, p (f t) := by
  simp [countThreads_eq_card, Finset.filter_nonempty_iff]

/-- Two threads in a state no more than one thread can be in are the same
thread. -/
theorem eq_of_countThreads_le_one {p : α → Bool} {f : Fin n → α} (h : countThreads p f ≤ 1)
    {t t' : Fin n} (ht : p (f t)) (ht' : p (f t')) : t = t' := by
  rw [countThreads_eq_card] at h
  exact Finset.card_le_one.1 h t (by simpa using ht) t' (by simpa using ht')

theorem sumThreads_eq_zero_iff {g : α → Nat} {f : Fin n → α} :
    sumThreads g f = 0 ↔ ∀ t, g (f t) = 0 := by
  simp [sumThreads]

/-- What the threads in states `f` have to add under `g`, in thread
order. -/
def concatThreads {β : Type} (g : α → List β) (f : Fin n → α) : List β :=
  (List.finRange n).flatMap fun t => g (f t)

theorem flatMap_eq_of_nil {β : Type} (g : Fin n → List β) {t : Fin n}
    (h : ∀ t', t' ≠ t → g t' = []) {l : List (Fin n)} (hl : l.Nodup) (ht : t ∈ l) :
    l.flatMap g = g t := by
  induction l with
  | nil => simp at ht
  | cons a l ih =>
    obtain ⟨ha, hl⟩ := List.nodup_cons.1 hl
    rcases eq_or_ne a t with rfl | hne
    · simp [List.flatMap_eq_nil_iff.2 fun t' ht' => h t' (ne_of_mem_of_not_mem ht' ha)]
    · simp [h a hne, ih hl (List.mem_of_ne_of_mem (Ne.symm hne) ht)]

/-- When no thread but `t` has anything to add, the threads add what `t`
has. -/
theorem concatThreads_eq_of_nil {β : Type} {g : α → List β} {f : Fin n → α} {t : Fin n}
    (h : ∀ t', t' ≠ t → g (f t') = []) : concatThreads g f = g (f t) :=
  flatMap_eq_of_nil (fun t => g (f t)) h (List.nodup_finRange n) (List.mem_finRange t)

/-- A thread moving between states that add the same leaves the whole as it
was. -/
theorem concatThreads_update_of_eq {β : Type} {g : α → List β} {f : Fin n → α} {t : Fin n}
    {x : α} (h : g x = g (f t)) : concatThreads g (Function.update f t x) = concatThreads g f := by
  refine congrArg (List.flatMap _) (funext fun t' => ?_)
  rcases eq_or_ne t' t with rfl | hne
  · simpa using h
  · simp [Function.update_noteq hne]

theorem concatThreads_eq_nil {β : Type} {g : α → List β} {f : Fin n → α} :
    concatThreads g f = [] ↔ ∀ t, g (f t) = [] := by
  simp [concatThreads, List.flatMap_eq_nil_iff]

/-- **A rank some step always lowers can be run down to zero**: if `P` is
kept by every step and, in every world of `P` with a positive `rank`, some
thread's step lowers it, then from every world of `P` some schedule brings the
rank to zero. -/
theorem exists_interleave_rank_eq_zero {step : W → Fin n → W} (P : W → Prop) (rank : W → Nat)
    (hstep : ∀ w t, P w → P (step w t))
    (hprog : ∀ w, P w → 0 < rank w → ∃ t, rank (step w t) < rank w) {w : W} (hw : P w) :
    ∃ sched, rank (interleave step sched w) = 0 := by
  generalize hm : rank w = m
  induction m using Nat.strong_induction_on generalizing w with
  | _ m ih =>
    rcases Nat.eq_zero_or_pos m with rfl | hpos
    · exact ⟨[], hm⟩
    · obtain ⟨t, ht⟩ := hprog w hw (hm ▸ hpos)
      obtain ⟨sched, hs⟩ := ih _ (hm ▸ ht) (hstep w t hw) rfl
      exact ⟨t :: sched, hs⟩

/-- After thread `t` moves to `x`, a thread in some state is `t` in its new
state, or another thread that was in it already. -/
theorem update_cases {β : Type} {g : α → β} {f : Fin n → α} {t t' : Fin n} {x : α} {b : β}
    (h : g (Function.update f t x t') = b) : (t' = t ∧ g x = b) ∨ (t' ≠ t ∧ g (f t') = b) := by
  rcases eq_or_ne t' t with rfl | ht
  · exact .inl ⟨rfl, by simpa using h⟩
  · exact .inr ⟨ht, by simpa [Function.update_noteq ht] using h⟩

/-- **One thread moving** lowers a sum over the threads when it lowers its own
term. -/
theorem sumThreads_update_lt {g : α → Nat} {f : Fin n → α} {t : Fin n} {x : α}
    (h : g x < g (f t)) : sumThreads g (Function.update f t x) < sumThreads g f := by
  have := sumThreads_update g f t x
  omega

theorem exists_pos_of_sumThreads_pos {g : α → Nat} {f : Fin n → α} (h : 0 < sumThreads g f) :
    ∃ t, 0 < g (f t) := by
  by_contra hno
  push_neg at hno
  have := sumThreads_eq_zero_iff.2 fun t => Nat.le_zero.1 (hno t)
  omega

/-! ## Threads running programs of calls -/

/-- **A thread** running a program of calls: where it is in the call in
flight, and the calls it has still to start. -/
structure Thread (P C : Type) where
  phase : P
  program : List C

namespace Thread

variable {P C : Type}

/-- The atomic steps a thread has left, when its phase has `rank` of them
left and each call takes at most `k`. -/
def left (rank : P → Nat) (k : Nat) (th : Thread P C) : Nat := rank th.phase + k * th.program.length

theorem left_eq_zero {rank : P → Nat} {k : Nat} (hk : 0 < k) {th : Thread P C} :
    th.left rank k = 0 ↔ rank th.phase = 0 ∧ th.program = [] := by
  simp [left, Nat.mul_eq_zero, Nat.pos_iff_ne_zero.1 hk]

/-- **A thread moving on within its call keeps program order**: if the calls
each thread has made (`made`), the one in flight (`call` of its phase) and
those still to start make up its program, they still do after thread `t`
moves to a phase with the same call in flight. -/
theorem program_order_update {call : P → Option C} {made : Fin n → List C}
    {f : Fin n → Thread P C} {progs : Fin n → List C}
    (h : ∀ t, made t ++ (call (f t).phase).toList ++ (f t).program = progs t) {t : Fin n}
    {p : P} (hc : call p = call (f t).phase) (t' : Fin n) :
    made t' ++ (call (Function.update f t { f t with phase := p } t').phase).toList ++
      (Function.update f t { f t with phase := p } t').program = progs t' := by
  rcases eq_or_ne t' t with rfl | ht
  · simpa [hc] using h t'
  · simpa [Function.update_noteq ht] using h t'

end Thread

end Tcmalloc
