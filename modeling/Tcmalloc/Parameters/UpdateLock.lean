import Tcmalloc.Parameters.Settings
import Tcmalloc.Schedule

/-!
# The hard limit under `update_lock`

`TCMalloc_Internal_SetHeapSizeHardLimit(value)` reads the page allocator's
hard limit, sets it, and logs if it changed:

    value = value > 0 ? value : std::numeric_limits<size_t>::max();
    tc_globals.InitIfNecessary();
    AllocationGuardSpinLockHolder l(&update_lock);
    const size_t old_limit = tc_globals.page_allocator().limit(PageAllocator::kHard);
    tc_globals.page_allocator().set_limit(value, PageAllocator::kHard);
    if (value != old_limit) TC_LOG("[tcmalloc] set page heap hard limit to %v bytes", value);

The read, the write and the log line are separate steps. Two threads setting
the limit at once could read the same old limit, and then both log, or log in
an order the limit did not take; the spin lock `update_lock`, which nothing
else in `parameters.cc` takes, runs the three one thread at a time.
`Parameters::heap_size_hard_limit()` reads the limit with no lock at all.

`World.step` takes one atomic step of one thread: the getter's read, or one
line of the setter (`Phase`). The world keeps a ghost history of each call's
linearization point with its thread and reply – the getter's read, the
setter's `set_limit` – which the code has not. For every number of threads,
every program of calls and every schedule (`hard_limit_calls_linearizable`):
at most one thread is between taking and releasing the lock; the replies are
those of the sequential `Settings.exec` on the history's calls; the limit is
always the sequential one, and the log is the sequential one but for the one
line the lock holder may still have to write, so that whenever the lock is
free the settings are exactly the sequential run's – whose log records every
change of the limit once and in order (`Settings.exec_log_reportedLimit`). And
whatever has happened, some continuation of the schedule completes every call
(`hard_limit_calls_complete`).
-/

namespace Tcmalloc

/-- **A call that reaches the page allocator's hard limit.** -/
inductive LimitCall
  /-- `Parameters::heap_size_hard_limit()`. -/
  | heapSizeHardLimit
  /-- `TCMalloc_Internal_SetHeapSizeHardLimit(value)`, which
  `Parameters::set_heap_size_hard_limit` forwards to. -/
  | setHeapSizeHardLimit (value : UInt64)
deriving DecidableEq, Repr

/-- The same call among the settings calls. -/
def LimitCall.toSettingsCall : LimitCall → SettingsCall
  | .heapSizeHardLimit => .heapSizeHardLimit
  | .setHeapSizeHardLimit value => .setHeapSizeHardLimit value

namespace Settings

/-- The replies of a run, one per call. -/
def replies (env : Env) : List SettingsCall → Settings → List SettingsReply
  | [], _ => []
  | c :: cs, s => (s.exec env c).1 :: replies env cs (s.exec env c).2

variable {env : Env}

theorem run_append (cs : List SettingsCall) (c : SettingsCall) (s : Settings) :
    s.run env (cs ++ [c]) = ((s.run env cs).exec env c).2 := by
  induction cs generalizing s with
  | nil => rfl
  | cons c' cs ih => exact ih _

theorem replies_append (cs : List SettingsCall) (c : SettingsCall) (s : Settings) :
    replies env (cs ++ [c]) s = replies env cs s ++ [((s.run env cs).exec env c).1] := by
  induction cs generalizing s with
  | nil => rfl
  | cons c' cs ih => simp [replies, run, ih]

end Settings

namespace UpdateLock

/-- The limit the setter sets for `value`: its first line, `value > 0 ? value
: SIZE_MAX`. -/
def limitOf (value : UInt64) : UInt64 := if value > 0 then value else sizeMax

/-- **Where a thread is in a call.** The getter is one step; the setter's
phases carry its argument `value`, and `old_limit` once it is read. -/
inductive Phase
  /-- Between calls. -/
  | idle
  /-- Spinning on `update_lock`. -/
  | lock (value : UInt64)
  /-- Holds the lock: about to read `limit(kHard)`. -/
  | readLimit (value : UInt64)
  /-- About to `set_limit(value, kHard)`. -/
  | setLimit (value oldLimit : UInt64)
  /-- About to `TC_LOG` if `value != old_limit`. -/
  | log (value oldLimit : UInt64)
  /-- Leaving the scope: the lock holder releases `update_lock`. -/
  | unlock
deriving DecidableEq, Repr

namespace Phase

/-- The thread holds `update_lock`. -/
def holds : Phase → Bool
  | readLimit _ | setLimit _ _ | log _ _ | unlock => true
  | _ => false

/-- The setter call not yet at its linearization point, if any. -/
def call : Phase → Option LimitCall
  | lock value | readLimit value | setLimit value _ => some (.setHeapSizeHardLimit value)
  | _ => none

/-- The line the thread has still to log. -/
def pendingLog : Phase → List LogLine
  | log value oldLimit =>
    if limitOf value ≠ oldLimit then [.setHardLimit (limitOf value)] else []
  | _ => []

/-- The atomic steps left before the call in flight returns. -/
def left : Phase → Nat
  | idle => 0
  | lock _ => 5
  | readLimit _ => 4
  | setLimit _ _ => 3
  | log _ _ => 2
  | unlock => 1

variable {value oldLimit : UInt64}

@[simp] theorem holds_idle : idle.holds = false := rfl
@[simp] theorem holds_lock : (lock value).holds = false := rfl
@[simp] theorem holds_readLimit : (readLimit value).holds = true := rfl
@[simp] theorem holds_setLimit : (setLimit value oldLimit).holds = true := rfl
@[simp] theorem holds_log : (log value oldLimit).holds = true := rfl
@[simp] theorem holds_unlock : unlock.holds = true := rfl
@[simp] theorem call_idle : idle.call = none := rfl
@[simp] theorem call_lock : (lock value).call = some (.setHeapSizeHardLimit value) := rfl
@[simp] theorem call_readLimit : (readLimit value).call = some (.setHeapSizeHardLimit value) := rfl
@[simp] theorem call_setLimit :
    (setLimit value oldLimit).call = some (.setHeapSizeHardLimit value) := rfl
@[simp] theorem call_log : (log value oldLimit).call = none := rfl
@[simp] theorem call_unlock : unlock.call = none := rfl
@[simp] theorem pendingLog_idle : idle.pendingLog = [] := rfl
@[simp] theorem pendingLog_lock : (lock value).pendingLog = [] := rfl
@[simp] theorem pendingLog_readLimit : (readLimit value).pendingLog = [] := rfl
@[simp] theorem pendingLog_setLimit : (setLimit value oldLimit).pendingLog = [] := rfl
@[simp] theorem pendingLog_unlock : unlock.pendingLog = [] := rfl

/-- Only the lock holder has a line to log. -/
theorem holds_of_pendingLog {p : Phase} (h : p.pendingLog ≠ []) : p.holds := by
  cases p <;> simp_all [pendingLog, holds]

theorem left_eq_zero {p : Phase} : p.left = 0 ↔ p = idle := by
  cases p <;> simp [left]

end Phase

/-- **The hard limit, the log, `update_lock` and the threads**, with a ghost
record of what has happened. -/
structure World (n : Nat) where
  /-- The statics and collaborators; the hard limit and the log are what the
  threads reach. -/
  settings : Settings
  /-- `update_lock` is taken. -/
  locked : Bool
  threads : Fin n → Thread Phase LimitCall
  /-- Ghost: each call's linearization point so far, oldest first, with its
  thread and reply. -/
  history : List (Fin n × LimitCall × SettingsReply)

namespace World

variable {n : Nat}

/-- The program's start: the lock free, each thread about to run its
calls. -/
def initial (s : Settings) (progs : Fin n → List LimitCall) : World n where
  settings := s
  locked := false
  threads t := ⟨.idle, progs t⟩
  history := []

/-- Thread `t` moved to phase `p`. -/
def setPhase (w : World n) (t : Fin n) (p : Phase) : World n :=
  { w with threads := Function.update w.threads t { w.threads t with phase := p } }

/-- **Thread `t`'s next atomic step.** Each step is taken whole, and all
threads' steps fall in one order: the limit is read and set under the page
allocator's own lock, and the log only under `update_lock`. -/
def step (w : World n) (t : Fin n) : World n :=
  match (w.threads t).phase with
  | .idle =>
    match (w.threads t).program with
    | [] => w
    | .heapSizeHardLimit :: cs =>
      { w with
        threads := Function.update w.threads t ⟨.idle, cs⟩
        history := w.history ++
          [(t, .heapSizeHardLimit, .bytes (Parameters.heapSizeHardLimit w.settings))] }
    | .setHeapSizeHardLimit value :: cs =>
      { w with threads := Function.update w.threads t ⟨.lock value, cs⟩ }
  | .lock value =>
    if w.locked then w else { w.setPhase t (.readLimit value) with locked := true }
  | .readLimit value => w.setPhase t (.setLimit value w.settings.heapSizeHardLimit)
  | .setLimit value oldLimit =>
    { w.setPhase t (.log value oldLimit) with
      settings := { w.settings with heapSizeHardLimit := limitOf value }
      history := w.history ++ [(t, .setHeapSizeHardLimit value, .unit)] }
  | .log value oldLimit =>
    { w.setPhase t .unlock with
      settings :=
        if limitOf value ≠ oldLimit then
          { w.settings with log := w.settings.log ++ [.setHardLimit (limitOf value)] }
        else w.settings }
  | .unlock => { w.setPhase t .idle with locked := false }

/-- The world after a schedule. -/
def run (sched : List (Fin n)) (w : World n) : World n := interleave step sched w

/-- The history's calls, in the order of their linearization points. -/
def calls (w : World n) : List SettingsCall := w.history.map fun e => e.2.1.toSettingsCall

/-- What they returned. -/
def replies (w : World n) : List SettingsReply := w.history.map fun e => e.2.2

/-- Thread `t`'s calls in the history. -/
def callsOf (w : World n) (t : Fin n) : List LimitCall :=
  (w.history.filter fun e => e.1 = t).map fun e => e.2.1

/-- The threads holding `update_lock`. -/
def holders (w : World n) : Nat :=
  countThreads (fun th : Thread Phase LimitCall => th.phase.holds) w.threads

/-- The lines the threads have still to log. -/
def pendingLog (w : World n) : List LogLine :=
  concatThreads (fun th : Thread Phase LimitCall => th.phase.pendingLog) w.threads

/-- The atomic steps the threads have left: six at most per call. -/
def left (w : World n) : Nat := sumThreads (Thread.left Phase.left 6) w.threads

/-- **The invariant of every interleaving.** -/
structure Inv (env : Env) (s : Settings) (progs : Fin n → List LimitCall) (w : World n) :
    Prop where
  /-- A taken lock has one holder, a free one none. -/
  holders_eq : w.holders = if w.locked then 1 else 0
  /-- The limit the holder read is the limit until it sets it. -/
  setLimit_old : ∀ t value oldLimit, (w.threads t).phase = .setLimit value oldLimit →
    oldLimit = w.settings.heapSizeHardLimit
  /-- The replies are those of the sequential run of the history's calls. -/
  replies_eq : Settings.replies env w.calls s = w.replies
  /-- The settings are those of the sequential run, but for the lines still
  to be logged. -/
  settings_eq : s.run env w.calls = { w.settings with log := w.settings.log ++ w.pendingLog }
  /-- Each thread's calls, linearized, in flight and to come, are its
  program. -/
  program_order : ∀ t, w.callsOf t ++ (w.threads t).phase.call.toList ++ (w.threads t).program =
    progs t

/-! ### One step, case by case -/

variable {env : Env} {s : Settings} {progs : Fin n → List LimitCall} {w : World n} {t : Fin n}
  {value oldLimit : UInt64} {cs : List LimitCall}

theorem step_idle_nil (hp : (w.threads t).phase = .idle) (hq : (w.threads t).program = []) :
    w.step t = w := by
  simp [step, hp, hq]

theorem step_get (hp : (w.threads t).phase = .idle)
    (hq : (w.threads t).program = .heapSizeHardLimit :: cs) :
    w.step t = { w with
      threads := Function.update w.threads t ⟨.idle, cs⟩
      history := w.history ++
        [(t, .heapSizeHardLimit, .bytes (Parameters.heapSizeHardLimit w.settings))] } := by
  simp [step, hp, hq]

theorem step_start (hp : (w.threads t).phase = .idle)
    (hq : (w.threads t).program = .setHeapSizeHardLimit value :: cs) :
    w.step t = { w with threads := Function.update w.threads t ⟨.lock value, cs⟩ } := by
  simp [step, hp, hq]

/-- A thread that finds the lock taken spins. -/
theorem step_lock_wait (hp : (w.threads t).phase = .lock value) (hl : w.locked = true) :
    w.step t = w := by
  simp [step, hp, hl]

theorem step_acquire (hp : (w.threads t).phase = .lock value) (hl : w.locked = false) :
    w.step t = { w.setPhase t (.readLimit value) with locked := true } := by
  simp [step, hp, hl]

theorem step_readLimit (hp : (w.threads t).phase = .readLimit value) :
    w.step t = w.setPhase t (.setLimit value w.settings.heapSizeHardLimit) := by
  simp [step, hp]

theorem step_setLimit (hp : (w.threads t).phase = .setLimit value oldLimit) :
    w.step t = { w.setPhase t (.log value oldLimit) with
      settings := { w.settings with heapSizeHardLimit := limitOf value }
      history := w.history ++ [(t, .setHeapSizeHardLimit value, .unit)] } := by
  simp [step, hp]

theorem step_log (hp : (w.threads t).phase = .log value oldLimit) :
    w.step t = { w.setPhase t .unlock with
      settings :=
        if limitOf value ≠ oldLimit then
          { w.settings with log := w.settings.log ++ [.setHardLimit (limitOf value)] }
        else w.settings } := by
  simp [step, hp]

theorem step_unlock (hp : (w.threads t).phase = .unlock) :
    w.step t = { w.setPhase t .idle with locked := false } := by
  simp [step, hp]

theorem setPhase_threads (p : Phase) :
    (w.setPhase t p).threads = Function.update w.threads t { w.threads t with phase := p } :=
  rfl

@[simp] theorem setPhase_settings (p : Phase) : (w.setPhase t p).settings = w.settings := rfl
@[simp] theorem setPhase_locked (p : Phase) : (w.setPhase t p).locked = w.locked := rfl
@[simp] theorem setPhase_history (p : Phase) : (w.setPhase t p).history = w.history := rfl

theorem holders_setPhase (w : World n) (t : Fin n) (p : Phase) :
    (w.setPhase t p).holders + (if (w.threads t).phase.holds then 1 else 0) =
      w.holders + if p.holds then 1 else 0 :=
  countThreads_update (fun th : Thread Phase LimitCall => th.phase.holds) w.threads t _

theorem holders_setPhase_of_eq {p : Phase} (h : p.holds = (w.threads t).phase.holds) :
    (w.setPhase t p).holders = w.holders :=
  countThreads_update_of_eq h

theorem pendingLog_setPhase_of_eq {p : Phase} (h : p.pendingLog = (w.threads t).phase.pendingLog) :
    (w.setPhase t p).pendingLog = w.pendingLog :=
  concatThreads_update_of_eq h

/-! ### What the invariant gives -/

namespace Inv

variable (hI : Inv env s progs w)
include hI

/-- **One holder at most.** -/
theorem eq_of_holds {t' : Fin n} (h : (w.threads t).phase.holds) (h' : (w.threads t').phase.holds) :
    t = t' := by
  have hle : w.holders ≤ 1 := by
    rw [hI.holders_eq]
    split <;> omega
  exact eq_of_countThreads_le_one hle h h'

theorem locked_of_holds (h : (w.threads t).phase.holds) : w.locked = true := by
  have hpos : 0 < w.holders := countThreads_pos_iff.2 ⟨t, h⟩
  rw [hI.holders_eq] at hpos
  by_contra hl
  simp [hl] at hpos

/-- A taken lock has a holder. -/
theorem exists_holder (hl : w.locked = true) : ∃ t, (w.threads t).phase.holds := by
  have hpos : 0 < w.holders := by rw [hI.holders_eq, hl]; decide
  exact countThreads_pos_iff.1 hpos

/-- The lines still to be logged are the holder's. -/
theorem pendingLog_eq (h : (w.threads t).phase.holds) :
    w.pendingLog = (w.threads t).phase.pendingLog :=
  concatThreads_eq_of_nil fun t' ht' => by
    by_contra hne
    exact ht' (hI.eq_of_holds (Phase.holds_of_pendingLog hne) h)

/-- A holder about to set the limit has nothing to log. -/
theorem settings_eq_of_setLimit (hp : (w.threads t).phase = .setLimit value oldLimit) :
    s.run env w.calls = w.settings := by
  rw [hI.settings_eq, hI.pendingLog_eq (t := t) (by simp [hp]), hp]
  simp

/-! ### Each step keeps the invariant -/

/-- The getter reads the limit: its linearization point. -/
theorem get (hp : (w.threads t).phase = .idle)
    (hq : (w.threads t).program = .heapSizeHardLimit :: cs) :
    Inv env s progs { w with
      threads := Function.update w.threads t ⟨.idle, cs⟩
      history := w.history ++
        [(t, .heapSizeHardLimit, .bytes (Parameters.heapSizeHardLimit w.settings))] } := by
  have hpend : concatThreads (fun th : Thread Phase LimitCall => th.phase.pendingLog)
      (Function.update w.threads t ⟨.idle, cs⟩) = w.pendingLog :=
    concatThreads_update_of_eq (by simp [hp])
  have hl := hI.settings_eq
  have hr := hI.replies_eq
  simp only [calls, replies] at hl hr
  refine ⟨(countThreads_update_of_eq (by simp [hp])).trans hI.holders_eq, fun t' v o h => ?_,
    ?_, ?_, fun t' => ?_⟩
  · rcases update_cases h with ⟨-, h⟩ | ⟨-, h⟩
    · cases h
    · exact hI.setLimit_old t' v o h
  · simp only [calls, replies, List.map_append, List.map_cons, List.map_nil]
    rw [Settings.replies_append, hr, hl]
    rfl
  · simp only [calls, pendingLog, List.map_append, List.map_cons, List.map_nil, hpend]
    rw [Settings.run_append, hl]
    rfl
  · rcases eq_or_ne t' t with rfl | ht
    · simpa [callsOf, hp, hq] using hI.program_order t'
    · simpa [callsOf, Function.update_noteq ht, Ne.symm ht] using hI.program_order t'

/-- The setter starts: it has computed its `value` and goes for the lock. -/
theorem start (hp : (w.threads t).phase = .idle)
    (hq : (w.threads t).program = .setHeapSizeHardLimit value :: cs) :
    Inv env s progs { w with threads := Function.update w.threads t ⟨.lock value, cs⟩ } := by
  have hpend : concatThreads (fun th : Thread Phase LimitCall => th.phase.pendingLog)
      (Function.update w.threads t ⟨.lock value, cs⟩) = w.pendingLog :=
    concatThreads_update_of_eq (by simp [hp])
  refine ⟨(countThreads_update_of_eq (by simp [hp])).trans hI.holders_eq, fun t' v o h => ?_,
    hI.replies_eq, ?_, fun t' => ?_⟩
  · rcases update_cases h with ⟨-, h⟩ | ⟨-, h⟩
    · cases h
    · exact hI.setLimit_old t' v o h
  · simp only [pendingLog, hpend]
    exact hI.settings_eq
  · rcases eq_or_ne t' t with rfl | ht
    · simpa [hp, hq] using hI.program_order t'
    · simpa [Function.update_noteq ht] using hI.program_order t'

/-- The setter takes the free lock. -/
theorem acquire (hp : (w.threads t).phase = .lock value) (hl : w.locked = false) :
    Inv env s progs { w.setPhase t (.readLimit value) with locked := true } := by
  refine ⟨?_, fun t' v o h => ?_, hI.replies_eq, ?_,
    Thread.program_order_update hI.program_order (by simp [hp])⟩
  · have h := holders_setPhase w t (.readLimit value)
    have h0 := hI.holders_eq
    rw [hp] at h
    rw [hl] at h0
    show (w.setPhase t (.readLimit value)).holders = if true then 1 else 0
    simp only [Phase.holds_lock, Phase.holds_readLimit, if_true] at h h0 ⊢
    omega
  · rcases update_cases h with ⟨-, h⟩ | ⟨-, h⟩
    · cases h
    · exact hI.setLimit_old t' v o h
  · show _ = { w.settings with
      log := w.settings.log ++ (w.setPhase t (.readLimit value)).pendingLog }
    rw [pendingLog_setPhase_of_eq (by simp [hp])]
    exact hI.settings_eq

/-- The holder reads `old_limit`. -/
theorem readLimit (hp : (w.threads t).phase = .readLimit value) :
    Inv env s progs (w.setPhase t (.setLimit value w.settings.heapSizeHardLimit)) := by
  refine ⟨(holders_setPhase_of_eq (by simp [hp])).trans hI.holders_eq, fun t' v o h => ?_,
    hI.replies_eq, ?_, Thread.program_order_update hI.program_order (by simp [hp])⟩
  · rcases update_cases h with ⟨-, h⟩ | ⟨ht, h⟩
    · cases h
      rfl
    · exact absurd (hI.eq_of_holds (by simp [h]) (by simp [hp])) ht
  · rw [pendingLog_setPhase_of_eq (by simp [hp])]
    exact hI.settings_eq

/-- The holder sets the limit: the setter's linearization point. -/
theorem setLimit (hp : (w.threads t).phase = .setLimit value oldLimit) :
    Inv env s progs { w.setPhase t (.log value oldLimit) with
      settings := { w.settings with heapSizeHardLimit := limitOf value }
      history := w.history ++ [(t, .setHeapSizeHardLimit value, .unit)] } := by
  have hseq := hI.settings_eq_of_setLimit hp
  have hold := hI.setLimit_old t value oldLimit hp
  have hr := hI.replies_eq
  simp only [calls, replies] at hseq hr
  have hpend : (w.setPhase t (.log value oldLimit)).pendingLog =
      (Phase.log value oldLimit).pendingLog :=
    (concatThreads_eq_of_nil (t := t) fun t' ht' => by
      rw [setPhase_threads, Function.update_noteq ht']
      by_contra hne
      exact ht' (hI.eq_of_holds (Phase.holds_of_pendingLog hne) (by simp [hp]))).trans
      (by simp [setPhase_threads])
  refine ⟨(holders_setPhase_of_eq (by simp [hp])).trans hI.holders_eq, fun t' v o h => ?_,
    ?_, ?_, fun t' => ?_⟩
  · rcases update_cases h with ⟨-, h⟩ | ⟨ht, h⟩
    · cases h
    · exact absurd (hI.eq_of_holds (by simp [h]) (by simp [hp])) ht
  · simp only [calls, replies, List.map_append, List.map_cons, List.map_nil]
    rw [Settings.replies_append, hr]
    rfl
  · show _ = { w.settings with
      heapSizeHardLimit := limitOf value,
      log := w.settings.log ++ (w.setPhase t (.log value oldLimit)).pendingLog }
    simp only [calls, List.map_append, List.map_cons, List.map_nil]
    rw [Settings.run_append, hseq, hpend, hold]
    simp [Settings.exec, LimitCall.toSettingsCall, tcmallocInternalSetHeapSizeHardLimit_eq,
      Phase.pendingLog, limitOf]
  · rcases eq_or_ne t' t with rfl | ht
    · simpa [setPhase, callsOf, hp] using hI.program_order t'
    · simpa [setPhase, callsOf, Function.update_noteq ht, Ne.symm ht] using hI.program_order t'

/-- The holder logs the change, if there was one. -/
theorem log (hp : (w.threads t).phase = .log value oldLimit) :
    Inv env s progs { w.setPhase t .unlock with
      settings :=
        if limitOf value ≠ oldLimit then
          { w.settings with log := w.settings.log ++ [.setHardLimit (limitOf value)] }
        else w.settings } := by
  have hpend : (w.setPhase t .unlock).pendingLog = [] :=
    concatThreads_eq_nil.2 fun t' => by
      rcases eq_or_ne t' t with rfl | ht
      · simp [setPhase_threads]
      · rw [setPhase_threads, Function.update_noteq ht]
        by_contra hne
        exact ht (hI.eq_of_holds (Phase.holds_of_pendingLog hne) (by simp [hp]))
  have hseq := hI.settings_eq
  rw [hI.pendingLog_eq (t := t) (by simp [hp]), hp] at hseq
  refine ⟨(holders_setPhase_of_eq (by simp [hp])).trans hI.holders_eq, fun t' v o h => ?_,
    hI.replies_eq, ?_, Thread.program_order_update hI.program_order (by simp [hp])⟩
  · rcases update_cases h with ⟨-, h⟩ | ⟨ht, h⟩
    · cases h
    · exact absurd (hI.eq_of_holds (by simp [h]) (by simp [hp])) ht
  · show s.run env w.calls = { (if limitOf value ≠ oldLimit then
          { w.settings with log := w.settings.log ++ [.setHardLimit (limitOf value)] }
        else w.settings) with
      log := (if limitOf value ≠ oldLimit then
          { w.settings with log := w.settings.log ++ [.setHardLimit (limitOf value)] }
        else w.settings).log ++ (w.setPhase t .unlock).pendingLog }
    rw [hpend, hseq]
    by_cases hc : limitOf value = oldLimit <;> simp [Phase.pendingLog, hc]

/-- The holder releases the lock. -/
theorem unlock (hp : (w.threads t).phase = .unlock) :
    Inv env s progs { w.setPhase t .idle with locked := false } := by
  refine ⟨?_, fun t' v o h => ?_, hI.replies_eq, ?_,
    Thread.program_order_update hI.program_order (by simp [hp])⟩
  · have h := holders_setPhase w t .idle
    have h0 := hI.holders_eq
    rw [hp] at h
    rw [hI.locked_of_holds (t := t) (by simp [hp])] at h0
    show (w.setPhase t .idle).holders = if false then 1 else 0
    simp only [Phase.holds_unlock, Phase.holds_idle, if_true] at h h0 ⊢
    omega
  · rcases update_cases h with ⟨-, h⟩ | ⟨ht, h⟩
    · cases h
    · exact absurd (hI.eq_of_holds (by simp [h]) (by simp [hp])) ht
  · show _ = { w.settings with log := w.settings.log ++ (w.setPhase t .idle).pendingLog }
    rw [pendingLog_setPhase_of_eq (by simp [hp])]
    exact hI.settings_eq

/-- **Every step keeps the invariant.** -/
theorem step (t : Fin n) : Inv env s progs (w.step t) := by
  cases hp : (w.threads t).phase with
  | idle =>
    cases hq : (w.threads t).program with
    | nil => rwa [step_idle_nil hp hq]
    | cons c cs =>
      cases c with
      | heapSizeHardLimit => rw [step_get hp hq]; exact hI.get hp hq
      | setHeapSizeHardLimit value => rw [step_start hp hq]; exact hI.start hp hq
  | lock value =>
    cases hl : w.locked
    · rw [step_acquire hp hl]; exact hI.acquire hp hl
    · rwa [step_lock_wait hp hl]
  | readLimit value => rw [step_readLimit hp]; exact hI.readLimit hp
  | setLimit value oldLimit => rw [step_setLimit hp]; exact hI.setLimit hp
  | log value oldLimit => rw [step_log hp]; exact hI.log hp
  | unlock => rw [step_unlock hp]; exact hI.unlock hp

end Inv

theorem inv_initial : Inv env s progs (initial s progs) where
  holders_eq := by simp [holders, initial, countThreads, sumThreads]
  setLimit_old t v o h := by simp [initial] at h
  replies_eq := rfl
  settings_eq := by
    have h : (initial s progs : World n).pendingLog = [] := concatThreads_eq_nil.2 fun _ => rfl
    rw [h]
    simp [initial, calls, Settings.run]
  program_order t := by simp [initial, callsOf]

/-- **The invariant holds along every interleaving.** -/
theorem inv_run (env : Env) (s : Settings) (progs : Fin n → List LimitCall)
    (sched : List (Fin n)) : Inv env s progs ((initial s progs).run sched) :=
  interleave_invariant _ (fun _ t hI => hI.step t) sched inv_initial

theorem run_append (ts ts' : List (Fin n)) (w : World n) :
    w.run (ts ++ ts') = (w.run ts).run ts' :=
  interleave_append _ ts ts' w

/-- With the lock free, nothing is left to log. -/
theorem Inv.settings_eq_of_free (hI : Inv env s progs w) (hl : w.locked = false) :
    s.run env w.calls = w.settings := by
  have hpend : w.pendingLog = [] := concatThreads_eq_nil.2 fun t => by
    by_contra hne
    have := hI.locked_of_holds (t := t) (Phase.holds_of_pendingLog hne)
    simp [hl] at this
  rw [hI.settings_eq, hpend]
  simp

/-! ### No thread spins for ever -/

/-- Thread `t` spins on a taken lock. -/
def waits (w : World n) (t : Fin n) : Prop :=
  (∃ value, (w.threads t).phase = .lock value) ∧ w.locked = true

/-- A thread that does not spin and has work left gets one step closer to
finishing. -/
theorem step_left_lt (hw : ¬ w.waits t) (hl : 0 < (w.threads t).left Phase.left 6) :
    (w.step t).left < w.left := by
  obtain ⟨th, hth, hlt⟩ : ∃ th, (w.step t).threads = Function.update w.threads t th ∧
      th.left Phase.left 6 < (w.threads t).left Phase.left 6 := by
    cases hp : (w.threads t).phase with
    | idle =>
      cases hq : (w.threads t).program with
      | nil => simp [Thread.left, hp, hq, Phase.left] at hl
      | cons c cs =>
        cases c with
        | heapSizeHardLimit =>
          exact ⟨_, by rw [step_get hp hq], by simp [Thread.left, hp, hq, Phase.left]⟩
        | setHeapSizeHardLimit value =>
          exact ⟨_, by rw [step_start hp hq], by simp [Thread.left, hp, hq, Phase.left]; omega⟩
    | lock value =>
      cases hl : w.locked
      · exact ⟨_, by rw [step_acquire hp hl]; rfl, by simp [Thread.left, hp, Phase.left]⟩
      · exact absurd ⟨⟨value, hp⟩, hl⟩ hw
    | readLimit value =>
      exact ⟨_, by rw [step_readLimit hp]; rfl, by simp [Thread.left, hp, Phase.left]⟩
    | setLimit value oldLimit =>
      exact ⟨_, by rw [step_setLimit hp]; rfl, by simp [Thread.left, hp, Phase.left]⟩
    | log value oldLimit =>
      exact ⟨_, by rw [step_log hp]; rfl, by simp [Thread.left, hp, Phase.left]⟩
    | unlock =>
      exact ⟨_, by rw [step_unlock hp]; rfl, by simp [Thread.left, hp, Phase.left]⟩
  simp only [left, hth]
  exact sumThreads_update_lt hlt

/-- **Some thread can always go on**: a spinning thread waits for the lock
holder, which does not spin. -/
theorem Inv.exists_progress (hI : Inv env s progs w) (h : 0 < w.left) :
    ∃ t, (w.step t).left < w.left := by
  obtain ⟨t, ht⟩ := exists_pos_of_sumThreads_pos h
  by_cases hw : w.waits t
  · obtain ⟨t', ht'⟩ := hI.exists_holder hw.2
    refine ⟨t', step_left_lt ?_ ?_⟩
    · rintro ⟨⟨v, hp'⟩, -⟩
      simp [hp'] at ht'
    · cases hp' : (w.threads t').phase <;> simp_all [Thread.left, Phase.left]
  · exact ⟨t, step_left_lt hw ht⟩

end World

end UpdateLock

open UpdateLock

/-- **The hard limit's calls are linearizable under `update_lock`.** Under
any interleaving of any number of threads, each running its own sequence of
hard-limit getters and setters from settings `s`: at most one thread is
between taking and releasing `update_lock`; the calls, in the order of their
linearization points, get the replies the sequential settings give them; the
hard limit is always the sequential one; whenever the lock is free, the
settings – the log included – are exactly the sequential run's; and each
thread's calls appear in that order as a prefix of its program. -/
theorem hard_limit_calls_linearizable (env : Env) (s : Settings) {n : Nat}
    (progs : Fin n → List LimitCall) (sched : List (Fin n)) :
    let w := (World.initial s progs).run sched
    (∀ t t', (w.threads t).phase.holds → (w.threads t').phase.holds → t = t') ∧
      Settings.replies env w.calls s = w.replies ∧
      (s.run env w.calls).heapSizeHardLimit = w.settings.heapSizeHardLimit ∧
      (w.locked = false → s.run env w.calls = w.settings) ∧
      ∀ t, w.callsOf t <+: progs t := by
  intro w
  have hI : World.Inv env s progs w := World.inv_run env s progs sched
  refine ⟨fun t t' h h' => hI.eq_of_holds h h', hI.replies_eq, ?_, hI.settings_eq_of_free,
    fun t => ?_⟩
  · rw [hI.settings_eq]
  · rw [← hI.program_order t]
    exact (List.prefix_append _ _).trans (List.prefix_append _ _)

/-- **Every call completes.** Whatever has happened so far, some
continuation of the schedule takes every thread through its whole program:
no thread spins on `update_lock` for ever. Each thread's calls then all
appear in the history, in program order, and the settings are exactly the
sequential run's on all of them, the log included. -/
theorem hard_limit_calls_complete (env : Env) (s : Settings) {n : Nat}
    (progs : Fin n → List LimitCall) (sched : List (Fin n)) :
    ∃ sched', (∀ t, ((World.initial s progs).run (sched ++ sched')).callsOf t = progs t) ∧
      s.run env ((World.initial s progs).run (sched ++ sched')).calls =
        ((World.initial s progs).run (sched ++ sched')).settings := by
  obtain ⟨sched', hfin⟩ := exists_interleave_rank_eq_zero (World.Inv env s progs) World.left
    (fun _ t hI => hI.step t) (fun _ hI h => hI.exists_progress h)
    (World.inv_run env s progs sched)
  refine ⟨sched', ?_⟩
  have hI := World.inv_run env s progs (sched ++ sched')
  rw [World.run_append] at hI ⊢
  have hfin : (((World.initial s progs).run sched).run sched').left = 0 := hfin
  have hdone t := (Thread.left_eq_zero (by decide)).1 (sumThreads_eq_zero_iff.1 hfin t)
  have hfree : ((World.initial s progs).run sched |>.run sched').locked = false := by
    by_contra hl
    obtain ⟨t, ht⟩ := hI.exists_holder (by simpa using hl)
    simp [Phase.left_eq_zero.1 (hdone t).1] at ht
  refine ⟨fun t => ?_, hI.settings_eq_of_free hfree⟩
  simpa [Phase.left_eq_zero.1 (hdone t).1, (hdone t).2] using hI.program_order t

end Tcmalloc
