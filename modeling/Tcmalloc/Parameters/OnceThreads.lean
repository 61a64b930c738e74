import Tcmalloc.Parameters.Config
import Tcmalloc.Schedule

/-!
# The once-guarded knobs under concurrent callers

`Tcmalloc.Parameters.Config` shows that one caller at a time gets from the
once-guarded statics what an explicit configuration built at startup would
give. But the getters of `parameters.cc` are called from every thread that
allocates, and the setters from whichever thread configures the allocator,
with nothing but the knob's own once-flag between them. This module follows
the accessors step by step, as threads interleave them.

An accessor is

    LowLevelCallOnce(&flag, [&] { v.store(d, std::memory_order_relaxed); });
    return v;

and the call then loads from or stores to `v`, again relaxed.
`LowLevelCallOnce` reads the flag's control word: a thread that finds it done
goes on; one that finds it free claims it (`kOnceInit` to `kOnceRunning`),
runs the initialiser's store and then marks the flag done; one that finds it
claimed waits for that. So a call is up to five atomic steps (`Phase`), and
`World.step` takes one of them for one thread. The world also keeps a ghost
record, which the code has not: each load and store with its thread and reply
(`World.history`), in the order they happened, and how often each initialiser
has run.

`World.step` puts the steps of all knobs in one order, which is more than the
code promises. The loads and stores are relaxed, so two threads that each set
one knob and then read the other's may both read the old value (store
buffering), which no interleaving gives: the knobs taken together are not
linearizable. What the code does promise is enough for each knob alone. The
loads and stores of one atomic are coherent – they fall in one order that
keeps each thread's program order, and each load returns the last store before
it – and `LowLevelCallOnce` marks the flag done with a release store and reads
it with an acquire load, so the initialiser's store comes before every other
load and store of its knob. So the accesses of one knob happen as in some
interleaving, and every theorem here looks at one knob at a time: its
once-flag, or its part of the history. For every number of threads, every
program of calls each thread makes and every schedule:

* knob by knob, the history is a legal sequential run of the explicit
  configuration `LazyConfig.startup`, which the statics read as at its end,
  and each thread's calls appear in program order
  (`lazy_knob_history_linearizable`): the loads and stores are the
  linearization points, and no setting is lost to a late initialiser;
* each initialiser runs at most once, and only while no load or store of its
  knob has happened yet (`lazy_knob_initialiser_runs_once`);
* whatever has happened, some continuation of the schedule completes every
  call of every thread (`lazy_knob_calls_complete`): a thread waiting on a
  flag always waits for a thread that can go on.

All three come from one invariant, `World.Inv`, kept by every step.
-/

namespace Tcmalloc

/-- Replacing a knob of a family by one that reads the same leaves the
family reading as it did. -/
theorem OnceAtomic.current_update_of_eq {α κ : Type} [DecidableEq κ] (f : κ → OnceAtomic α)
    (d : κ → α) (k : κ) {a' : OnceAtomic α} (h : a'.current (d k) = (f k).current (d k)) :
    (fun j => (Function.update f k a' j).current (d j)) = fun j => (f j).current (d j) := by
  rw [OnceAtomic.current_update, h, Function.update_eq_self]

namespace LazyKnobs

/-- **What a call does once its accessor has returned**: `accessor().load()`
or `accessor().store(x)`, a plain load or store of the knob's atomic. -/
def access : LazyCall → LazyKnobs → LazyReply × LazyKnobs
  | .getFlag k, s => (.bool (s.flags k).v, s)
  | .setFlag k v, s => (.unit, { s with flags := Function.update s.flags k ((s.flags k).store v) })
  | .getInterval k, s => (.duration (Absl.nanoseconds (s.intervals k).v), s)
  | .setInterval k v, s =>
    (.unit, { s with
      intervals := Function.update s.intervals k
        ((s.intervals k).store (Absl.toInt64Nanoseconds v)) })
  | .hugeCacheReleaseTime, s => (.duration (Absl.seconds s.hugeCacheReleaseTime.v), s)
  | .sparseTrackersCoarseLongestFreeRange, s =>
    (.bool s.sparseTrackersCoarseLongestFreeRange.v, s)

/-- Knob `k`'s once-guarded pair under `f`, which is given the default `k`'s
initialiser stores. -/
def modify (env : Env) (f : {α : Type} → α → OnceAtomic α → OnceAtomic α) :
    LazyKnob → LazyKnobs → LazyKnobs
  | .flag k, s => { s with flags := Function.update s.flags k (f (k.init env) (s.flags k)) }
  | .interval k, s =>
    { s with intervals := Function.update s.intervals k (f (k.init env) (s.intervals k)) }
  | .hugeCacheReleaseTime, s =>
    { s with hugeCacheReleaseTime := f (hugeCacheReleaseTimeInit env) s.hugeCacheReleaseTime }
  | .sparseTrackersCoarseLongestFreeRange, s =>
    { s with
      sparseTrackersCoarseLongestFreeRange :=
        f (sparseTrackersCoarseLongestFreeRangeInit env) s.sparseTrackersCoarseLongestFreeRange }

/-- The initialiser's `v.store(d)`, run by the thread that claimed the
flag. -/
def initStore (env : Env) : LazyKnob → LazyKnobs → LazyKnobs :=
  modify env fun d a => a.store d

/-- `LowLevelCallOnce` marking the flag done once the initialiser has
returned. -/
def markDone (env : Env) : LazyKnob → LazyKnobs → LazyKnobs :=
  modify env fun _ a => { a with done := true }

/-- Knob `k`'s atomic holds the default its initialiser stores. -/
def atDefault (env : Env) (s : LazyKnobs) : LazyKnob → Prop
  | .flag k => (s.flags k).v = k.init env
  | .interval k => (s.intervals k).v = k.init env
  | .hugeCacheReleaseTime => s.hugeCacheReleaseTime.v = hugeCacheReleaseTimeInit env
  | .sparseTrackersCoarseLongestFreeRange =>
    s.sparseTrackersCoarseLongestFreeRange.v = sparseTrackersCoarseLongestFreeRangeInit env

variable {env : Env} {s : LazyKnobs} {k k' : LazyKnob}

/-- **Once the flag is done, a call is its load or store**: the accessor's
`LowLevelCallOnce` changes nothing. -/
theorem exec_of_done {c : LazyCall} (h : s.done c.knob = true) : s.exec env c = s.access c := by
  cases c <;> simp_all [exec, access, done, LazyCall.knob, getFlag, setFlag, getInterval,
    setInterval, Parameters.hugeCacheReleaseTime, Parameters.sparseTrackersCoarseLongestFreeRange,
    OnceAtomic.read, OnceAtomic.write, OnceAtomic.callOnce_of_done]

@[simp] theorem done_access (c : LazyCall) (k : LazyKnob) : (s.access c).2.done k = s.done k := by
  cases c <;> cases k <;> simp [access, done, Function.update_apply] <;> (try split) <;> simp_all

@[simp] theorem done_initStore : (s.initStore env k).done k' = s.done k' := by
  cases k <;> cases k' <;> simp [initStore, modify, done, Function.update_apply] <;>
    (try split) <;> simp_all

@[simp] theorem done_markDone : (s.markDone env k).done k' = (decide (k' = k) || s.done k') := by
  cases k <;> cases k' <;> simp [markDone, modify, done, Function.update_apply] <;>
    (try split) <;> simp_all

theorem atDefault_initStore_self : (s.initStore env k).atDefault env k := by
  cases k <;> simp [initStore, modify, atDefault, OnceAtomic.store]

theorem atDefault_initStore (h : k ≠ k') :
    (s.initStore env k).atDefault env k' ↔ s.atDefault env k' := by
  cases k <;> cases k' <;> simp_all [initStore, modify, atDefault, Function.update_apply] <;>
    (try split) <;> simp_all

@[simp] theorem atDefault_markDone :
    (s.markDone env k).atDefault env k' ↔ s.atDefault env k' := by
  cases k <;> cases k' <;> simp [markDone, modify, atDefault, Function.update_apply] <;>
    (try split) <;> simp_all

theorem atDefault_access {c : LazyCall} (h : c.knob ≠ k) :
    (s.access c).2.atDefault env k ↔ s.atDefault env k := by
  cases c <;> cases k <;> simp_all [access, atDefault, LazyCall.knob, Function.update_apply] <;>
    (try split) <;> simp_all

/-- The initialiser's store is invisible: before the flag is done, the knob
reads as its default whatever its atomic holds. -/
theorem view_initStore (h : s.done k = false) : (s.initStore env k).view env = s.view env := by
  cases k <;> simp only [done] at h <;> simp only [view, initStore, modify] <;> congr 1 <;>
    first
    | exact OnceAtomic.current_update_of_eq _ _ _ (by simp [OnceAtomic.current, h])
    | simp [OnceAtomic.current, h]

/-- Marking the flag done is invisible once the initialiser has stored. -/
theorem view_markDone (h : s.atDefault env k) : (s.markDone env k).view env = s.view env := by
  cases k <;> simp only [atDefault] at h <;> simp only [view, markDone, modify] <;> congr 1 <;>
    first
    | exact OnceAtomic.current_update_of_eq _ _ _ (by simp [OnceAtomic.current, h])
    | simp [OnceAtomic.current, h]

/-- Once the flag is done, the load or store is a call on the configuration
the statics read as. -/
theorem access_view {c : LazyCall} (h : s.done c.knob = true) :
    ((s.access c).1, (s.access c).2.view env) = (s.view env).exec c := by
  rw [← exec_view, exec_of_done h]
  rfl

end LazyKnobs

namespace LazyConfig

/-- A run on the configuration, one call longer. -/
theorem run_append (cs : List LazyCall) (x : LazyCall) (c : LazyConfig) :
    c.run (cs ++ [x]) = ((c.run cs).1 ++ [((c.run cs).2.exec x).1], ((c.run cs).2.exec x).2) := by
  induction cs generalizing c with
  | nil => rfl
  | cons y cs ih => simp [run, ih]

/-- Configurations `c` and `c'` hold the same value for knob `k`. -/
def SameAt : LazyKnob → LazyConfig → LazyConfig → Prop
  | .flag k, c, c' => c.flags k = c'.flags k
  | .interval k, c, c' => c.intervals k = c'.intervals k
  | .hugeCacheReleaseTime, c, c' => c.hugeCacheReleaseTime = c'.hugeCacheReleaseTime
  | .sparseTrackersCoarseLongestFreeRange, c, c' =>
    c.sparseTrackersCoarseLongestFreeRange = c'.sparseTrackersCoarseLongestFreeRange

variable {k : LazyKnob} {c c' c'' : LazyConfig} {call : LazyCall}

theorem SameAt.refl (k : LazyKnob) (c : LazyConfig) : SameAt k c c := by
  cases k <;> rfl

theorem SameAt.symm (h : SameAt k c c') : SameAt k c' c := by
  cases k <;> exact Eq.symm h

theorem SameAt.trans (h : SameAt k c c') (h' : SameAt k c' c'') : SameAt k c c'' := by
  cases k <;> exact Eq.trans h h'

/-- **A call leaves the other knobs alone.** -/
theorem exec_sameAt_of_ne (h : call.knob ≠ k) (c : LazyConfig) : SameAt k (c.exec call).2 c := by
  cases call <;> cases k <;> simp_all [exec, SameAt, LazyCall.knob, Function.update_apply] <;>
    rintro rfl <;> simp at h

/-- **A call reads and writes its own knob only**: from configurations that
agree on it, it answers alike and leaves them agreeing on it. -/
theorem exec_congr (hk : call.knob = k) (h : SameAt k c c') :
    (c.exec call).1 = (c'.exec call).1 ∧ SameAt k (c.exec call).2 (c'.exec call).2 := by
  subst hk
  cases call <;> simp_all [exec, SameAt, LazyCall.knob]

end LazyConfig

namespace OnceThreads

/-- **Where a thread is in a call** to a once-guarded knob. -/
inductive Phase
  /-- Between calls. -/
  | idle
  /-- In the accessor, about to read the once-flag. -/
  | callOnce (c : LazyCall)
  /-- Has claimed the flag: about to run the initialiser's store. -/
  | initialise (c : LazyCall)
  /-- Has run the initialiser: about to mark the flag done. -/
  | complete (c : LazyCall)
  /-- The accessor has returned: about to load or store. -/
  | access (c : LazyCall)
deriving DecidableEq, Repr

namespace Phase

/-- The call in flight, if any. -/
def call : Phase → Option LazyCall
  | idle => none
  | callOnce c | initialise c | complete c | access c => some c

/-- The thread has claimed knob `k`'s flag and not yet marked it done. -/
def claims (k : LazyKnob) : Phase → Bool
  | initialise c | complete c => c.knob = k
  | _ => false

/-- The thread has run `k`'s initialiser and not yet marked the flag done. -/
def stored (k : LazyKnob) : Phase → Bool
  | complete c => c.knob = k
  | _ => false

/-- The atomic steps left before the call in flight returns. -/
def left : Phase → Nat
  | idle => 0
  | callOnce _ => 4
  | initialise _ => 3
  | complete _ => 2
  | access _ => 1

variable {c : LazyCall} {k : LazyKnob}

@[simp] theorem call_idle : idle.call = none := rfl
@[simp] theorem call_callOnce : (callOnce c).call = some c := rfl
@[simp] theorem call_initialise : (initialise c).call = some c := rfl
@[simp] theorem call_complete : (complete c).call = some c := rfl
@[simp] theorem call_access : (access c).call = some c := rfl
@[simp] theorem claims_idle : idle.claims k = false := rfl
@[simp] theorem claims_callOnce : (callOnce c).claims k = false := rfl
@[simp] theorem claims_initialise : (initialise c).claims k = decide (c.knob = k) := rfl
@[simp] theorem claims_complete : (complete c).claims k = decide (c.knob = k) := rfl
@[simp] theorem claims_access : (access c).claims k = false := rfl
@[simp] theorem stored_idle : idle.stored k = false := rfl
@[simp] theorem stored_callOnce : (callOnce c).stored k = false := rfl
@[simp] theorem stored_initialise : (initialise c).stored k = false := rfl
@[simp] theorem stored_complete : (complete c).stored k = decide (c.knob = k) := rfl
@[simp] theorem stored_access : (access c).stored k = false := rfl

theorem left_eq_zero {p : Phase} : p.left = 0 ↔ p = idle := by
  cases p <;> simp [left]

end Phase

/-- **The once-guarded statics and the threads calling them**, with a ghost
record of what has happened. -/
structure World (n : Nat) where
  /-- The statics. -/
  knobs : LazyKnobs
  /-- The flags whose control word is `kOnceRunning`. -/
  running : LazyKnob → Bool
  threads : Fin n → Thread Phase LazyCall
  /-- Ghost: each load and store so far, oldest first, with its thread and
  reply. -/
  history : List (Fin n × LazyCall × LazyReply)
  /-- Ghost: how often each initialiser has run. -/
  initRuns : LazyKnob → Nat

namespace World

variable {n : Nat}

/-- The program's start: each thread about to run its calls. -/
def initial (progs : Fin n → List LazyCall) : World n where
  knobs := .initial
  running _ := false
  threads t := ⟨.idle, progs t⟩
  history := []
  initRuns _ := 0

/-- Thread `t` moved to phase `p`. -/
def setPhase (w : World n) (t : Fin n) (p : Phase) : World n :=
  { w with threads := Function.update w.threads t { w.threads t with phase := p } }

/-- **Thread `t`'s next atomic step.** Each step is taken whole, and all
threads' steps fall in one order; the module's doc says why that order is
only relied on one knob at a time. -/
def step (env : Env) (w : World n) (t : Fin n) : World n :=
  match (w.threads t).phase with
  | .idle =>
    match (w.threads t).program with
    | [] => w
    | c :: cs => { w with threads := Function.update w.threads t ⟨.callOnce c, cs⟩ }
  | .callOnce c =>
    if w.knobs.done c.knob then w.setPhase t (.access c)
    else if w.running c.knob then w
    else { w.setPhase t (.initialise c) with running := Function.update w.running c.knob true }
  | .initialise c =>
    { w.setPhase t (.complete c) with
      knobs := w.knobs.initStore env c.knob
      initRuns := Function.update w.initRuns c.knob (w.initRuns c.knob + 1) }
  | .complete c =>
    { w.setPhase t (.access c) with
      knobs := w.knobs.markDone env c.knob
      running := Function.update w.running c.knob false }
  | .access c =>
    let r := w.knobs.access c
    { w.setPhase t .idle with knobs := r.2, history := w.history ++ [(t, c, r.1)] }

/-- The world after a schedule. -/
def run (env : Env) (sched : List (Fin n)) (w : World n) : World n :=
  interleave (step env) sched w

theorem run_append (env : Env) (ts ts' : List (Fin n)) (w : World n) :
    w.run env (ts ++ ts') = (w.run env ts).run env ts' :=
  interleave_append _ ts ts' w

/-- The loads and stores of knob `k` in the history, oldest first. -/
def historyOn (w : World n) (k : LazyKnob) : List (Fin n × LazyCall × LazyReply) :=
  w.history.filter fun e => e.2.1.knob = k

/-- The calls of knob `k`, in the order of their loads and stores. -/
def callsOn (w : World n) (k : LazyKnob) : List LazyCall := (w.historyOn k).map fun e => e.2.1

/-- What they returned. -/
def repliesOn (w : World n) (k : LazyKnob) : List LazyReply := (w.historyOn k).map fun e => e.2.2

/-- Thread `t`'s calls in the history. -/
def callsOf (w : World n) (t : Fin n) : List LazyCall :=
  (w.history.filter fun e => e.1 = t).map fun e => e.2.1

/-- The threads that have claimed knob `k`'s flag. -/
def claimants (w : World n) (k : LazyKnob) : Nat :=
  countThreads (fun th : Thread Phase LazyCall => th.phase.claims k) w.threads

/-- The threads that have run `k`'s initialiser and not marked it done. -/
def storers (w : World n) (k : LazyKnob) : Nat :=
  countThreads (fun th : Thread Phase LazyCall => th.phase.stored k) w.threads

/-- The atomic steps the threads have left: five at most per call. -/
def left (w : World n) : Nat := sumThreads (Thread.left Phase.left 5) w.threads

/-- **The invariant of every interleaving.** -/
structure Inv (env : Env) (progs : Fin n → List LazyCall) (w : World n) : Prop where
  /-- A claimed flag has one claimant, a free one none. -/
  claimants_eq : ∀ k, w.claimants k = if w.running k then 1 else 0
  /-- A claimed flag is not done. -/
  running_not_done : ∀ k, w.running k = true → w.knobs.done k = false
  /-- Between the initialiser's store and the flag's completion, nothing
  overwrites the default. -/
  complete_atDefault : ∀ t c, (w.threads t).phase = .complete c → w.knobs.atDefault env c.knob
  /-- A thread past the accessor finds the flag done. -/
  access_done : ∀ t c, (w.threads t).phase = .access c → w.knobs.done c.knob = true
  /-- An initialiser has run once if its flag is done or its claimant has
  stored, and not at all otherwise. -/
  initRuns_eq : ∀ k, w.initRuns k = if w.knobs.done k then 1 else w.storers k
  /-- Every load and store so far found its flag done. -/
  history_done : ∀ e ∈ w.history, w.knobs.done e.2.1.knob = true
  /-- Knob by knob, the history is a run of the startup configuration, which
  the statics read as at its end. -/
  linearized : ∀ k, ((LazyConfig.startup env).run (w.callsOn k)).1 = w.repliesOn k ∧
    LazyConfig.SameAt k ((LazyConfig.startup env).run (w.callsOn k)).2 (w.knobs.view env)
  /-- Each thread's calls, done, in flight and to come, are its program. -/
  program_order : ∀ t,
    w.callsOf t ++ (w.threads t).phase.call.toList ++ (w.threads t).program = progs t

/-! ### One step, case by case -/

variable {env : Env} {progs : Fin n → List LazyCall} {w : World n} {t : Fin n} {c : LazyCall}

theorem step_idle_nil (hp : (w.threads t).phase = .idle) (hq : (w.threads t).program = []) :
    w.step env t = w := by
  simp [step, hp, hq]

theorem step_idle_cons {cs : List LazyCall} (hp : (w.threads t).phase = .idle)
    (hq : (w.threads t).program = c :: cs) :
    w.step env t = { w with threads := Function.update w.threads t ⟨.callOnce c, cs⟩ } := by
  simp [step, hp, hq]

theorem step_callOnce_done (hp : (w.threads t).phase = .callOnce c)
    (hd : w.knobs.done c.knob = true) : w.step env t = w.setPhase t (.access c) := by
  simp [step, hp, hd]

/-- A thread that finds the flag claimed waits. -/
theorem step_callOnce_wait (hp : (w.threads t).phase = .callOnce c)
    (hd : w.knobs.done c.knob = false) (hr : w.running c.knob = true) : w.step env t = w := by
  simp [step, hp, hd, hr]

theorem step_callOnce_claim (hp : (w.threads t).phase = .callOnce c)
    (hd : w.knobs.done c.knob = false) (hr : w.running c.knob = false) :
    w.step env t = { w.setPhase t (.initialise c) with
      running := Function.update w.running c.knob true } := by
  simp [step, hp, hd, hr]

theorem step_initialise (hp : (w.threads t).phase = .initialise c) :
    w.step env t = { w.setPhase t (.complete c) with
      knobs := w.knobs.initStore env c.knob
      initRuns := Function.update w.initRuns c.knob (w.initRuns c.knob + 1) } := by
  simp [step, hp]

theorem step_complete (hp : (w.threads t).phase = .complete c) :
    w.step env t = { w.setPhase t (.access c) with
      knobs := w.knobs.markDone env c.knob
      running := Function.update w.running c.knob false } := by
  simp [step, hp]

theorem step_access (hp : (w.threads t).phase = .access c) :
    w.step env t = { w.setPhase t .idle with
      knobs := (w.knobs.access c).2
      history := w.history ++ [(t, c, (w.knobs.access c).1)] } := by
  simp [step, hp]

theorem setPhase_threads (p : Phase) :
    (w.setPhase t p).threads = Function.update w.threads t { w.threads t with phase := p } :=
  rfl

@[simp] theorem setPhase_knobs (p : Phase) : (w.setPhase t p).knobs = w.knobs := rfl
@[simp] theorem setPhase_running (p : Phase) : (w.setPhase t p).running = w.running := rfl
@[simp] theorem setPhase_history (p : Phase) : (w.setPhase t p).history = w.history := rfl
@[simp] theorem setPhase_initRuns (p : Phase) : (w.setPhase t p).initRuns = w.initRuns := rfl

/-- Counting threads after `t` moves to phase `p`. -/
theorem countThreads_setPhase (w : World n) (t : Fin n) (q : Phase → Bool) (p : Phase) :
    countThreads (fun th : Thread Phase LazyCall => q th.phase) (w.setPhase t p).threads +
        (if q (w.threads t).phase then 1 else 0) =
      countThreads (fun th : Thread Phase LazyCall => q th.phase) w.threads +
        if q p then 1 else 0 :=
  countThreads_update (fun th : Thread Phase LazyCall => q th.phase) w.threads t _

theorem countThreads_setPhase_of_eq (q : Phase → Bool) {p : Phase}
    (h : q p = q (w.threads t).phase) :
    countThreads (fun th : Thread Phase LazyCall => q th.phase) (w.setPhase t p).threads =
      countThreads (fun th : Thread Phase LazyCall => q th.phase) w.threads :=
  countThreads_update_of_eq h

/-! ### What the invariant gives -/

namespace Inv

variable (hI : Inv env progs w)
include hI

/-- A thread that has claimed a flag finds it claimed. -/
theorem running_of_claims {k : LazyKnob} (h : (w.threads t).phase.claims k) :
    w.running k = true := by
  have hpos : 0 < w.claimants k := countThreads_pos_iff.2 ⟨t, h⟩
  rw [hI.claimants_eq k] at hpos
  by_contra hr
  simp [hr] at hpos

/-- **No two threads claim one flag.** -/
theorem eq_of_claims {k : LazyKnob} {t' : Fin n} (h : (w.threads t).phase.claims k)
    (h' : (w.threads t').phase.claims k) : t = t' := by
  refine eq_of_countThreads_le_one (p := fun th : Thread Phase LazyCall => th.phase.claims k) ?_
    h h'
  have := hI.claimants_eq k
  simp only [claimants] at this
  rw [this]
  split <;> omega

theorem storers_le_one (k : LazyKnob) : w.storers k ≤ 1 := by
  have hle := countThreads_le_of_imp (p := fun th : Thread Phase LazyCall => th.phase.stored k)
    (q := fun th : Thread Phase LazyCall => th.phase.claims k) (fun th h => by
      cases hp : th.phase <;> simp_all) w.threads
  have := hI.claimants_eq k
  simp only [claimants] at this
  simp only [storers]
  split at this <;> omega

/-! ### Each step keeps the invariant -/

theorem start {cs : List LazyCall} (hp : (w.threads t).phase = .idle)
    (hq : (w.threads t).program = c :: cs) :
    Inv env progs { w with threads := Function.update w.threads t ⟨.callOnce c, cs⟩ } where
  claimants_eq k := (countThreads_update_of_eq (by simp [hp])).trans (hI.claimants_eq k)
  running_not_done := hI.running_not_done
  complete_atDefault t' c' h := by
    rcases update_cases h with ⟨-, h⟩ | ⟨-, h⟩
    · cases h
    · exact hI.complete_atDefault t' c' h
  access_done t' c' h := by
    rcases update_cases h with ⟨-, h⟩ | ⟨-, h⟩
    · cases h
    · exact hI.access_done t' c' h
  initRuns_eq k := by
    rw [hI.initRuns_eq k]
    simp only [storers]
    rw [countThreads_update_of_eq (by simp [hp])]
  history_done := hI.history_done
  linearized := hI.linearized
  program_order t' := by
    rcases eq_or_ne t' t with rfl | ht
    · have h := hI.program_order t'
      rw [hp, hq] at h
      simpa using h
    · simpa [Function.update_noteq ht] using hI.program_order t'

theorem proceed (hp : (w.threads t).phase = .callOnce c) (hd : w.knobs.done c.knob = true) :
    Inv env progs (w.setPhase t (.access c)) where
  claimants_eq k :=
    (countThreads_setPhase_of_eq (Phase.claims k) (by simp [hp])).trans
      (hI.claimants_eq k)
  running_not_done := hI.running_not_done
  complete_atDefault t' c' h := by
    rcases update_cases h with ⟨-, h⟩ | ⟨-, h⟩
    · cases h
    · exact hI.complete_atDefault t' c' h
  access_done t' c' h := by
    rcases update_cases h with ⟨-, h⟩ | ⟨-, h⟩
    · cases h
      exact hd
    · exact hI.access_done t' c' h
  initRuns_eq k := by
    have hs : (w.setPhase t (.access c)).storers k = w.storers k :=
      countThreads_setPhase_of_eq (Phase.stored k) (by simp [hp])
    exact (hI.initRuns_eq k).trans (by rw [← hs]; rfl)
  history_done := hI.history_done
  linearized := hI.linearized
  program_order := Thread.program_order_update hI.program_order (by simp [hp])

/-- Claiming a free flag. -/
theorem claim (hp : (w.threads t).phase = .callOnce c) (hd : w.knobs.done c.knob = false)
    (hr : w.running c.knob = false) :
    Inv env progs { w.setPhase t (.initialise c) with
      running := Function.update w.running c.knob true } where
  claimants_eq k := by
    have h := countThreads_setPhase w t (Phase.claims k) (.initialise c)
    have h0 := hI.claimants_eq k
    simp only [claimants] at h0 ⊢
    rw [hp, Phase.claims_callOnce, Phase.claims_initialise] at h
    by_cases e : k = c.knob
    · subst e
      simp_all
    · simp_all [Ne.symm e, Function.update_noteq e]
  running_not_done k h := by
    by_cases e : k = c.knob
    · subst e
      exact hd
    · exact hI.running_not_done k (by simpa [Function.update_noteq e] using h)
  complete_atDefault t' c' h := by
    rcases update_cases h with ⟨-, h⟩ | ⟨-, h⟩
    · cases h
    · exact hI.complete_atDefault t' c' h
  access_done t' c' h := by
    rcases update_cases h with ⟨-, h⟩ | ⟨-, h⟩
    · cases h
    · exact hI.access_done t' c' h
  initRuns_eq k := by
    have hs : (w.setPhase t (.initialise c)).storers k = w.storers k :=
      countThreads_setPhase_of_eq (Phase.stored k) (by simp [hp])
    exact (hI.initRuns_eq k).trans (by rw [← hs]; rfl)
  history_done := hI.history_done
  linearized := hI.linearized
  program_order := Thread.program_order_update hI.program_order (by simp [hp])

/-- The claimant runs the initialiser. -/
theorem initialise (hp : (w.threads t).phase = .initialise c) :
    Inv env progs { w.setPhase t (.complete c) with
      knobs := w.knobs.initStore env c.knob
      initRuns := Function.update w.initRuns c.knob (w.initRuns c.knob + 1) } := by
  have hclaim : (w.threads t).phase.claims c.knob := by simp [hp]
  have hnd := hI.running_not_done _ (hI.running_of_claims hclaim)
  exact
    { claimants_eq := fun k =>
        (countThreads_setPhase_of_eq (Phase.claims k) (by simp [hp])).trans (hI.claimants_eq k)
      running_not_done := fun k h => LazyKnobs.done_initStore.trans (hI.running_not_done k h)
      complete_atDefault := fun t' c' h => by
        rcases update_cases h with ⟨-, h⟩ | ⟨ht, h⟩
        · cases h
          exact LazyKnobs.atDefault_initStore_self
        · have hne : c.knob ≠ c'.knob := fun e =>
            ht (hI.eq_of_claims (by simp [h, e]) hclaim)
          exact (LazyKnobs.atDefault_initStore hne).2 (hI.complete_atDefault t' c' h)
      access_done := fun t' c' h => by
        rcases update_cases h with ⟨-, h⟩ | ⟨-, h⟩
        · cases h
        · exact LazyKnobs.done_initStore.trans (hI.access_done t' c' h)
      initRuns_eq := fun k => by
        have h := countThreads_setPhase w t (Phase.stored k) (.complete c)
        have h0 := hI.initRuns_eq k
        simp only [storers] at h0 ⊢
        rw [hp, Phase.stored_initialise, Phase.stored_complete] at h
        by_cases e : k = c.knob
        · subst e
          simp_all
        · simp_all [Ne.symm e, Function.update_noteq e]
      history_done := fun e he => LazyKnobs.done_initStore.trans (hI.history_done e he)
      linearized := fun k => by
        show _ ∧ LazyConfig.SameAt k _ ((w.knobs.initStore env c.knob).view env)
        rw [LazyKnobs.view_initStore hnd]
        exact hI.linearized k
      program_order := Thread.program_order_update hI.program_order (by simp [hp]) }

/-- The claimant marks the flag done. -/
theorem complete (hp : (w.threads t).phase = .complete c) :
    Inv env progs { w.setPhase t (.access c) with
      knobs := w.knobs.markDone env c.knob
      running := Function.update w.running c.knob false } := by
  have hclaim : (w.threads t).phase.claims c.knob := by simp [hp]
  have hrun := hI.running_of_claims hclaim
  have hnd := hI.running_not_done _ hrun
  have hstored : w.storers c.knob = 1 :=
    le_antisymm (hI.storers_le_one _) (countThreads_pos_iff.2 ⟨t, by simp [hp]⟩)
  exact
    { claimants_eq := fun k => by
        have h := countThreads_setPhase w t (Phase.claims k) (.access c)
        have h0 := hI.claimants_eq k
        simp only [claimants] at h0 ⊢
        rw [hp, Phase.claims_complete, Phase.claims_access] at h
        by_cases e : k = c.knob
        · subst e
          simp_all
        · simp_all [Ne.symm e, Function.update_noteq e]
      running_not_done := fun k h => by
        by_cases e : k = c.knob
        · subst e
          simp at h
        · simpa [e] using hI.running_not_done k (by simpa [Function.update_noteq e] using h)
      complete_atDefault := fun t' c' h => by
        rcases update_cases h with ⟨-, h⟩ | ⟨-, h⟩
        · cases h
        · exact LazyKnobs.atDefault_markDone.2 (hI.complete_atDefault t' c' h)
      access_done := fun t' c' h => by
        rcases update_cases h with ⟨-, h⟩ | ⟨-, h⟩
        · cases h
          simp
        · simp [hI.access_done t' c' h]
      initRuns_eq := fun k => by
        have h := countThreads_setPhase w t (Phase.stored k) (.access c)
        have h0 := hI.initRuns_eq k
        simp only [storers] at h0 hstored ⊢
        rw [hp, Phase.stored_complete, Phase.stored_access] at h
        by_cases e : k = c.knob
        · subst e
          simp_all
        · simp_all [Ne.symm e]
      history_done := fun e he => by simp [hI.history_done e he]
      linearized := fun k => by
        show _ ∧ LazyConfig.SameAt k _ ((w.knobs.markDone env c.knob).view env)
        rw [LazyKnobs.view_markDone (hI.complete_atDefault t c hp)]
        exact hI.linearized k
      program_order := Thread.program_order_update hI.program_order (by simp [hp]) }

/-- The load or store, the call's linearization point: the history of its
knob grows by the call, and no other knob's history or value changes. -/
theorem access (hp : (w.threads t).phase = .access c) :
    Inv env progs { w.setPhase t .idle with
      knobs := (w.knobs.access c).2
      history := w.history ++ [(t, c, (w.knobs.access c).1)] } := by
  have hd := hI.access_done t c hp
  exact
    { claimants_eq := fun k =>
        (countThreads_setPhase_of_eq (Phase.claims k) (by simp [hp])).trans (hI.claimants_eq k)
      running_not_done := fun k h => (LazyKnobs.done_access c k).trans (hI.running_not_done k h)
      complete_atDefault := fun t' c' h => by
        rcases update_cases h with ⟨-, h⟩ | ⟨-, h⟩
        · cases h
        · have hnd := hI.running_not_done _
            (hI.running_of_claims (t := t') (k := c'.knob) (by simp [h]))
          have hne : c.knob ≠ c'.knob := fun e => by simp [e, hnd] at hd
          exact (LazyKnobs.atDefault_access hne).2 (hI.complete_atDefault t' c' h)
      access_done := fun t' c' h => by
        rcases update_cases h with ⟨-, h⟩ | ⟨-, h⟩
        · cases h
        · exact (LazyKnobs.done_access c _).trans (hI.access_done t' c' h)
      initRuns_eq := fun k => by
        have hs : (w.setPhase t .idle).storers k = w.storers k :=
          countThreads_setPhase_of_eq (Phase.stored k) (by simp [hp])
        exact (hI.initRuns_eq k).trans (by rw [← hs, ← LazyKnobs.done_access c k]; rfl)
      history_done := fun e he => by
        rcases List.mem_append.1 he with he | he
        · exact (LazyKnobs.done_access c _).trans (hI.history_done e he)
        · simp only [List.mem_singleton] at he
          subst he
          exact (LazyKnobs.done_access c _).trans hd
      linearized := fun k => by
        have hx : ((w.knobs.access c).1, (w.knobs.access c).2.view env) =
            (w.knobs.view env).exec c := LazyKnobs.access_view hd
        simp only [Prod.ext_iff] at hx
        obtain ⟨hr, hs⟩ := hI.linearized k
        simp only [callsOn, repliesOn, historyOn, List.filter_append, List.filter_cons,
          List.filter_nil] at hr hs ⊢
        rw [hx.2]
        by_cases hk : c.knob = k
        · obtain ⟨h1, h2⟩ := LazyConfig.exec_congr hk hs
          simp only [hk, decide_True, if_true, List.map_append, List.map_cons, List.map_nil,
            LazyConfig.run_append]
          exact ⟨by rw [hr, h1, ← hx.1], h2⟩
        · simp only [hk, decide_False, Bool.false_eq_true, if_false, List.append_nil]
          exact ⟨hr, hs.trans (LazyConfig.exec_sameAt_of_ne hk _).symm⟩
      program_order := fun t' => by
        rcases eq_or_ne t' t with rfl | ht
        · simpa [setPhase, hp, callsOf] using hI.program_order t'
        · simpa [setPhase, Function.update_noteq ht, callsOf, Ne.symm ht] using
            hI.program_order t' }

/-- **Every step keeps the invariant.** -/
theorem step (t : Fin n) : Inv env progs (w.step env t) := by
  cases hp : (w.threads t).phase with
  | idle =>
    cases hq : (w.threads t).program with
    | nil => rwa [step_idle_nil hp hq]
    | cons c cs => rw [step_idle_cons hp hq]; exact hI.start hp hq
  | callOnce c =>
    cases hd : w.knobs.done c.knob
    · cases hr : w.running c.knob
      · rw [step_callOnce_claim hp hd hr]; exact hI.claim hp hd hr
      · rwa [step_callOnce_wait hp hd hr]
    · rw [step_callOnce_done hp hd]; exact hI.proceed hp hd
  | initialise c => rw [step_initialise hp]; exact hI.initialise hp
  | complete c => rw [step_complete hp]; exact hI.complete hp
  | access c => rw [step_access hp]; exact hI.access hp

end Inv

theorem inv_initial : Inv env progs (initial progs) where
  claimants_eq k := by simp [claimants, initial, countThreads, sumThreads]
  running_not_done k h := by simp [initial] at h
  complete_atDefault t c h := by simp [initial] at h
  access_done t c h := by simp [initial] at h
  initRuns_eq k := by
    cases k <;> simp [initial, storers, countThreads, sumThreads, LazyKnobs.initial, LazyKnobs.done]
  history_done e h := by simp [initial] at h
  linearized k := ⟨rfl, LazyConfig.SameAt.refl k _⟩
  program_order t := by simp [initial, callsOf]

/-- **The invariant holds along every interleaving.** -/
theorem inv_run (env : Env) (progs : Fin n → List LazyCall) (sched : List (Fin n)) :
    Inv env progs ((initial progs).run env sched) :=
  interleave_invariant _ (fun _ t hI => hI.step t) sched inv_initial

/-! ### No thread waits for ever -/

/-- Thread `t` finds its flag claimed by another and waits. -/
def waits (w : World n) (t : Fin n) : Prop :=
  ∃ c, (w.threads t).phase = .callOnce c ∧ w.knobs.done c.knob = false ∧
    w.running c.knob = true

/-- A thread that does not wait and has work left gets one step closer to
finishing. -/
theorem step_left_lt (hw : ¬ w.waits t) (hl : 0 < (w.threads t).left Phase.left 5) :
    (w.step env t).left < w.left := by
  obtain ⟨th, hth, hlt⟩ : ∃ th, (w.step env t).threads = Function.update w.threads t th ∧
      th.left Phase.left 5 < (w.threads t).left Phase.left 5 := by
    cases hp : (w.threads t).phase with
    | idle =>
      cases hq : (w.threads t).program with
      | nil => simp [Thread.left, hp, hq, Phase.left] at hl
      | cons c cs =>
        refine ⟨_, by rw [step_idle_cons hp hq], ?_⟩
        simp [Thread.left, hp, hq, Phase.left]
        omega
    | callOnce c =>
      cases hd : w.knobs.done c.knob
      · cases hr : w.running c.knob
        · exact ⟨_, by rw [step_callOnce_claim hp hd hr]; rfl,
            by simp [Thread.left, hp, Phase.left]⟩
        · exact absurd ⟨c, hp, hd, hr⟩ hw
      · exact ⟨_, by rw [step_callOnce_done hp hd]; rfl, by simp [Thread.left, hp, Phase.left]⟩
    | initialise c =>
      exact ⟨_, by rw [step_initialise hp]; rfl, by simp [Thread.left, hp, Phase.left]⟩
    | complete c =>
      exact ⟨_, by rw [step_complete hp]; rfl, by simp [Thread.left, hp, Phase.left]⟩
    | access c =>
      exact ⟨_, by rw [step_access hp]; rfl, by simp [Thread.left, hp, Phase.left]⟩
  simp only [left, hth]
  exact sumThreads_update_lt hlt

/-- **Some thread can always go on**: a waiting thread waits for the
claimant of its flag, which does not wait. -/
theorem Inv.exists_progress (hI : Inv env progs w) (h : 0 < w.left) :
    ∃ t, (w.step env t).left < w.left := by
  obtain ⟨t, ht⟩ := exists_pos_of_sumThreads_pos h
  by_cases hw : w.waits t
  · obtain ⟨c, -, -, hr⟩ := hw
    have hpos : 0 < w.claimants c.knob := by rw [hI.claimants_eq, hr]; decide
    obtain ⟨t', ht'⟩ := countThreads_pos_iff.1 hpos
    refine ⟨t', step_left_lt ?_ ?_⟩
    · rintro ⟨c', hp', -, -⟩
      simp [hp'] at ht'
    · cases hp' : (w.threads t').phase <;> simp_all [Thread.left, Phase.left]
  · exact ⟨t, step_left_lt hw ht⟩

end World

end OnceThreads

open OnceThreads

/-- **The once-guarded knobs are linearizable, knob by knob.** Under any
interleaving of any number of threads, each running its own sequence of
getters and setters, and for every knob: the loads and stores of that knob so
far, in the order they happened, get exactly the replies the explicit startup
configuration gives to those calls run one after another – a run of that knob
from its default – and the knob reads as that run leaves it; and each
thread's calls appear in the history as a prefix of its own program. -/
theorem lazy_knob_history_linearizable (env : Env) {n : Nat} (progs : Fin n → List LazyCall)
    (sched : List (Fin n)) (k : LazyKnob) :
    let w := (World.initial progs).run env sched
    ((LazyConfig.startup env).run (w.callsOn k)).1 = w.repliesOn k ∧
      LazyConfig.SameAt k ((LazyConfig.startup env).run (w.callsOn k)).2 (w.knobs.view env) ∧
      ∀ t, w.callsOf t <+: progs t := by
  intro w
  have hI : World.Inv env progs w := World.inv_run env progs sched
  refine ⟨(hI.linearized k).1, (hI.linearized k).2, fun t => ?_⟩
  rw [← hI.program_order t]
  exact (List.prefix_append _ _).trans (List.prefix_append _ _)

/-- **Each initialiser runs at most once, and before any load or store of
its knob.** Under any interleaving, no knob's initialiser has run more than
once, and once the history holds a load or store of a knob, its initialiser
has run. As this holds after every prefix of every schedule, the initialiser
ran before the first load or store, and never after. -/
theorem lazy_knob_initialiser_runs_once (env : Env) {n : Nat} (progs : Fin n → List LazyCall)
    (sched : List (Fin n)) (k : LazyKnob) :
    ((World.initial progs).run env sched).initRuns k ≤ 1 ∧
      ∀ e ∈ ((World.initial progs).run env sched).history, e.2.1.knob = k →
        ((World.initial progs).run env sched).initRuns k = 1 := by
  have hI := World.inv_run env progs sched
  refine ⟨?_, fun e he hk => ?_⟩
  · rw [hI.initRuns_eq k]
    split
    · exact le_refl 1
    · exact hI.storers_le_one k
  · rw [hI.initRuns_eq k, if_pos (hk ▸ hI.history_done e he)]

/-- **Every call completes.** Whatever has happened so far, some
continuation of the schedule takes every thread through its whole program:
no thread waits on a once-flag for ever, and each thread's calls then all
appear in the history, in program order. -/
theorem lazy_knob_calls_complete (env : Env) {n : Nat} (progs : Fin n → List LazyCall)
    (sched : List (Fin n)) :
    ∃ sched', ∀ t, ((World.initial progs).run env (sched ++ sched')).callsOf t = progs t := by
  obtain ⟨sched', hfin⟩ := exists_interleave_rank_eq_zero (World.Inv env progs) World.left
    (fun _ t hI => hI.step t) (fun _ hI h => hI.exists_progress h) (World.inv_run env progs sched)
  refine ⟨sched', fun t => ?_⟩
  have hI := World.inv_run env progs (sched ++ sched')
  rw [World.run_append] at hI ⊢
  have hfin : (((World.initial progs).run env sched).run env sched').left = 0 := hfin
  obtain ⟨hp, hq⟩ := (Thread.left_eq_zero (by decide)).1 (sumThreads_eq_zero_iff.1 hfin t)
  simpa [Phase.left_eq_zero.1 hp, hq] using hI.program_order t

end Tcmalloc
