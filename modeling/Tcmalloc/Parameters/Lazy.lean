import Tcmalloc.Absl.Duration
import Tcmalloc.Parameters.OnceAtomic

/-!
# The knobs `parameters.cc` initialises on first use

Nine knobs of `parameters.cc` take their default from something only known at
run time – `decide_subrelease()`, an experiment, a build macro the default
depends on – and so live behind a once-flag (`Tcmalloc.OnceAtomic`):

* `hpaa_subrelease_ptr()` and `background_process_actions_enabled_ptr()`, two
  Boolean knobs with a getter and a setter each;
* `background_process_sleep_interval_ns()`, `skip_subrelease_short_interval_ns()`,
  `skip_subrelease_long_interval_ns()`, `cache_demand_release_short_interval_ns()`
  and `cache_demand_release_long_interval_ns()`, five intervals set and read
  as `absl::Duration` and kept as `int64_t` nanoseconds;
* `Parameters::huge_cache_release_time()` and
  `Parameters::sparse_trackers_coarse_longest_free_range()`, read-only.

`LazyKnobs` is their state, `LazyCall` the calls that reach them and
`LazyKnobs.exec` one call. Each getter and setter of the source is the
generic one of its family applied to its own accessor, under the source's
name. `Env` holds what the process fixes before any of this runs.
-/

namespace Tcmalloc

/-- The experiments `parameters.cc` asks `IsExperimentActive` about. -/
inductive Experiment
  /-- `TEST_ONLY_TCMALLOC_HUGE_CACHE_RELEASE_30S`. -/
  | testOnlyTcmallocHugeCacheRelease30s
  /-- `TEST_ONLY_TCMALLOC_COARSE_LFR_TRACKERS`. -/
  | testOnlyTcmallocCoarseLfrTrackers
  /-- `TCMALLOC_COARSE_LFR_TRACKERS`. -/
  | tcmallocCoarseLfrTrackers
deriving DecidableEq, Repr

/-- **What a process fixes before it touches a knob**: the build's macros,
and what the deciders a once-initialiser calls answer. A decider runs inside
its knob's initialiser, at most once, so its answer is a constant of the
run. -/
structure Env where
  /-- `TCMALLOC_INTERNAL_SMALL_BUT_SLOW` is defined. -/
  smallButSlow : Bool
  /-- `TCMALLOC_DEPRECATED_PERTHREAD` is defined. -/
  deprecatedPerthread : Bool
  /-- What `huge_page_allocator_internal::decide_subrelease()` answers. -/
  decideSubrelease : Bool
  /-- What `IsExperimentActive` answers. -/
  isExperimentActive : Experiment → Bool
  /-- What `default_want_disable_dynamic_slabs()` returns, or `none` when
  the weak symbol is not linked. -/
  defaultWantDisableDynamicSlabs : Option Int

/-- The Boolean knobs behind a once-flag, by their accessor. -/
inductive FlagKnob
  | hpaaSubreleasePtr
  | backgroundProcessActionsEnabledPtr
deriving DecidableEq, Repr

/-- What each Boolean accessor's initialiser stores. -/
def FlagKnob.init (env : Env) : FlagKnob → Bool
  | .hpaaSubreleasePtr => env.decideSubrelease
  | .backgroundProcessActionsEnabledPtr => true

/-- The interval knobs behind a once-flag, by their accessor. -/
inductive IntervalKnob
  | backgroundProcessSleepIntervalNs
  | skipSubreleaseShortIntervalNs
  | skipSubreleaseLongIntervalNs
  | cacheDemandReleaseShortIntervalNs
  | cacheDemandReleaseLongIntervalNs
deriving DecidableEq, Repr

/-- The interval each accessor's initialiser converts and stores; all but the
sleep interval are zero in a `TCMALLOC_INTERNAL_SMALL_BUT_SLOW` build. -/
def IntervalKnob.interval (env : Env) : IntervalKnob → Absl.Duration
  | .backgroundProcessSleepIntervalNs => Absl.seconds 1
  | .skipSubreleaseShortIntervalNs =>
    if env.smallButSlow then Absl.zeroDuration else Absl.seconds 60
  | .skipSubreleaseLongIntervalNs =>
    if env.smallButSlow then Absl.zeroDuration else Absl.seconds 300
  | .cacheDemandReleaseShortIntervalNs =>
    if env.smallButSlow then Absl.zeroDuration else Absl.seconds 10
  | .cacheDemandReleaseLongIntervalNs =>
    if env.smallButSlow then Absl.zeroDuration else Absl.seconds 30

/-- What each interval accessor's initialiser stores:
`absl::ToInt64Nanoseconds(interval)`. -/
def IntervalKnob.init (env : Env) (k : IntervalKnob) : Int64 :=
  Absl.toInt64Nanoseconds (k.interval env)

/-- Every default interval is whole seconds, so it reads back unchanged. -/
@[simp] theorem IntervalKnob.nanoseconds_init (env : Env) (k : IntervalKnob) :
    Absl.nanoseconds (k.init env) = k.interval env := by
  cases k <;> simp only [IntervalKnob.init, IntervalKnob.interval] <;> (try split) <;> decide

/-- What `huge_cache_release_time()`'s initialiser stores, in seconds. -/
def hugeCacheReleaseTimeInit (env : Env) : Int :=
  if env.isExperimentActive .testOnlyTcmallocHugeCacheRelease30s then 30 else 1

/-- What `sparse_trackers_coarse_longest_free_range()`'s initialiser stores. -/
def sparseTrackersCoarseLongestFreeRangeInit (env : Env) : Bool :=
  env.isExperimentActive .testOnlyTcmallocCoarseLfrTrackers ||
    env.isExperimentActive .tcmallocCoarseLfrTrackers

/-- **The once-guarded statics of `parameters.cc`.** -/
structure LazyKnobs where
  /-- The flag and atomic of each Boolean accessor. -/
  flags : FlagKnob → OnceAtomic Bool
  /-- The flag and `int64_t` atomic of each interval accessor. -/
  intervals : IntervalKnob → OnceAtomic Int64
  /-- The flag and `int32_t` atomic of `huge_cache_release_time()`. -/
  hugeCacheReleaseTime : OnceAtomic Int
  /-- The flag and atomic of `sparse_trackers_coarse_longest_free_range()`. -/
  sparseTrackersCoarseLongestFreeRange : OnceAtomic Bool

namespace LazyKnobs

/-- The statics as the program starts: no flag run, every atomic at its
`ABSL_CONST_INIT` value. -/
def initial : LazyKnobs where
  flags _ := .constInit false
  intervals _ := .constInit ⟨0, by decide, by decide⟩
  hugeCacheReleaseTime := .constInit 1
  sparseTrackersCoarseLongestFreeRange := .constInit false

/-- A getter of a Boolean knob: `accessor().load()`. -/
def getFlag (env : Env) (k : FlagKnob) (s : LazyKnobs) : Bool × LazyKnobs :=
  let r := (s.flags k).read (k.init env) id
  (r.1, { s with flags := Function.update s.flags k r.2 })

/-- A setter of a Boolean knob: `accessor().store(v)`. -/
def setFlag (env : Env) (k : FlagKnob) (v : Bool) (s : LazyKnobs) : LazyKnobs :=
  { s with flags := Function.update s.flags k ((s.flags k).write (k.init env) id v) }

/-- A getter of an interval knob: `absl::Nanoseconds(accessor().load())`. -/
def getInterval (env : Env) (k : IntervalKnob) (s : LazyKnobs) :
    Absl.Duration × LazyKnobs :=
  let r := (s.intervals k).read (k.init env) Absl.nanoseconds
  (r.1, { s with intervals := Function.update s.intervals k r.2 })

/-- A setter of an interval knob:
`accessor().store(absl::ToInt64Nanoseconds(v))`. -/
def setInterval (env : Env) (k : IntervalKnob) (v : Absl.Duration) (s : LazyKnobs) :
    LazyKnobs :=
  { s with
    intervals := Function.update s.intervals k
      ((s.intervals k).write (k.init env) Absl.toInt64Nanoseconds v) }

/-! ### What each operation does to a knob -/

variable {env : Env} {s : LazyKnobs}

@[simp] theorem getFlag_fst (k : FlagKnob) :
    (s.getFlag env k).1 = (s.flags k).current (k.init env) := by
  simp [getFlag]

@[simp] theorem getFlag_snd (k : FlagKnob) :
    (s.getFlag env k).2 =
      { s with flags := Function.update s.flags k ((s.flags k).callOnce (k.init env)) } :=
  rfl

@[simp] theorem setFlag_eq (k : FlagKnob) (v : Bool) :
    s.setFlag env k v =
      { s with flags := Function.update s.flags k ((s.flags k).write (k.init env) id v) } :=
  rfl

@[simp] theorem getInterval_fst (k : IntervalKnob) :
    (s.getInterval env k).1 = Absl.nanoseconds ((s.intervals k).current (k.init env)) := by
  simp [getInterval]

@[simp] theorem getInterval_snd (k : IntervalKnob) :
    (s.getInterval env k).2 = { s with
      intervals := Function.update s.intervals k ((s.intervals k).callOnce (k.init env)) } :=
  rfl

@[simp] theorem setInterval_eq (k : IntervalKnob) (v : Absl.Duration) :
    s.setInterval env k v = { s with
      intervals := Function.update s.intervals k
        ((s.intervals k).write (k.init env) Absl.toInt64Nanoseconds v) } :=
  rfl

end LazyKnobs

/-! ## The getters and setters of the source -/

namespace Parameters

/-- `Parameters::hpaa_subrelease()`. -/
def hpaaSubrelease (env : Env) := LazyKnobs.getFlag env .hpaaSubreleasePtr

/-- `Parameters::background_process_actions_enabled()`. -/
def backgroundProcessActionsEnabled (env : Env) :=
  LazyKnobs.getFlag env .backgroundProcessActionsEnabledPtr

/-- `Parameters::background_process_sleep_interval()`. -/
def backgroundProcessSleepInterval (env : Env) :=
  LazyKnobs.getInterval env .backgroundProcessSleepIntervalNs

/-- `Parameters::filler_skip_subrelease_short_interval()`. -/
def fillerSkipSubreleaseShortInterval (env : Env) :=
  LazyKnobs.getInterval env .skipSubreleaseShortIntervalNs

/-- `Parameters::filler_skip_subrelease_long_interval()`. -/
def fillerSkipSubreleaseLongInterval (env : Env) :=
  LazyKnobs.getInterval env .skipSubreleaseLongIntervalNs

/-- `Parameters::cache_demand_release_short_interval()`. -/
def cacheDemandReleaseShortInterval (env : Env) :=
  LazyKnobs.getInterval env .cacheDemandReleaseShortIntervalNs

/-- `Parameters::cache_demand_release_long_interval()`. -/
def cacheDemandReleaseLongInterval (env : Env) :=
  LazyKnobs.getInterval env .cacheDemandReleaseLongIntervalNs

/-- `Parameters::huge_cache_release_time()`: `absl::Seconds(v.load())`
after the once-initialiser. -/
def hugeCacheReleaseTime (env : Env) (s : LazyKnobs) : Absl.Duration × LazyKnobs :=
  let r := s.hugeCacheReleaseTime.read (hugeCacheReleaseTimeInit env) Absl.seconds
  (r.1, { s with hugeCacheReleaseTime := r.2 })

/-- `Parameters::sparse_trackers_coarse_longest_free_range()`. -/
def sparseTrackersCoarseLongestFreeRange (env : Env) (s : LazyKnobs) :
    Bool × LazyKnobs :=
  let r := s.sparseTrackersCoarseLongestFreeRange.read
    (sparseTrackersCoarseLongestFreeRangeInit env) id
  (r.1, { s with sparseTrackersCoarseLongestFreeRange := r.2 })

end Parameters

/-- `TCMalloc_Internal_SetHPAASubrelease(v)`. -/
def tcmallocInternalSetHPAASubrelease (env : Env) (v : Bool) :=
  LazyKnobs.setFlag env .hpaaSubreleasePtr v

/-- `TCMalloc_Internal_SetBackgroundProcessActionsEnabled(v)`. -/
def tcmallocInternalSetBackgroundProcessActionsEnabled (env : Env) (v : Bool) :=
  LazyKnobs.setFlag env .backgroundProcessActionsEnabledPtr v

/-- `TCMalloc_Internal_SetBackgroundProcessSleepInterval(v)`. -/
def tcmallocInternalSetBackgroundProcessSleepInterval (env : Env) (v : Absl.Duration) :=
  LazyKnobs.setInterval env .backgroundProcessSleepIntervalNs v

/-- `TCMalloc_Internal_SetHugePageFillerSkipSubreleaseShortInterval(v)`. -/
def tcmallocInternalSetHugePageFillerSkipSubreleaseShortInterval (env : Env)
    (v : Absl.Duration) :=
  LazyKnobs.setInterval env .skipSubreleaseShortIntervalNs v

/-- `TCMalloc_Internal_SetHugePageFillerSkipSubreleaseLongInterval(v)`. -/
def tcmallocInternalSetHugePageFillerSkipSubreleaseLongInterval (env : Env)
    (v : Absl.Duration) :=
  LazyKnobs.setInterval env .skipSubreleaseLongIntervalNs v

/-- `TCMalloc_Internal_SetHugeCacheDemandReleaseShortInterval(v)`. -/
def tcmallocInternalSetHugeCacheDemandReleaseShortInterval (env : Env)
    (v : Absl.Duration) :=
  LazyKnobs.setInterval env .cacheDemandReleaseShortIntervalNs v

/-- `TCMalloc_Internal_SetHugeCacheDemandReleaseLongInterval(v)`. -/
def tcmallocInternalSetHugeCacheDemandReleaseLongInterval (env : Env)
    (v : Absl.Duration) :=
  LazyKnobs.setInterval env .cacheDemandReleaseLongIntervalNs v

/-! ## Calls and runs -/

/-- **A call that reaches a once-guarded knob**, by family: every getter and
setter above is one of these at its own accessor. -/
inductive LazyCall
  /-- The getter of a Boolean knob. -/
  | getFlag (k : FlagKnob)
  /-- The setter of a Boolean knob. -/
  | setFlag (k : FlagKnob) (v : Bool)
  /-- The getter of an interval knob. -/
  | getInterval (k : IntervalKnob)
  /-- The setter of an interval knob. -/
  | setInterval (k : IntervalKnob) (v : Absl.Duration)
  /-- `Parameters::huge_cache_release_time()`. -/
  | hugeCacheReleaseTime
  /-- `Parameters::sparse_trackers_coarse_longest_free_range()`. -/
  | sparseTrackersCoarseLongestFreeRange
deriving DecidableEq, Repr

/-- What a call returns. -/
inductive LazyReply
  /-- A setter's `void`. -/
  | unit
  /-- A Boolean knob's value. -/
  | bool (b : Bool)
  /-- An interval. -/
  | duration (d : Absl.Duration)
deriving DecidableEq, Repr

/-- The knobs, one family behind another: what a call touches. -/
inductive LazyKnob
  | flag (k : FlagKnob)
  | interval (k : IntervalKnob)
  | hugeCacheReleaseTime
  | sparseTrackersCoarseLongestFreeRange
deriving DecidableEq, Repr

/-- The knob whose accessor a call runs. -/
def LazyCall.knob : LazyCall → LazyKnob
  | .getFlag k | .setFlag k _ => .flag k
  | .getInterval k | .setInterval k _ => .interval k
  | .hugeCacheReleaseTime => .hugeCacheReleaseTime
  | .sparseTrackersCoarseLongestFreeRange => .sparseTrackersCoarseLongestFreeRange

namespace LazyKnobs

/-- One call. -/
def exec (env : Env) : LazyCall → LazyKnobs → LazyReply × LazyKnobs
  | .getFlag k, s => let r := s.getFlag env k; (.bool r.1, r.2)
  | .setFlag k v, s => (.unit, s.setFlag env k v)
  | .getInterval k, s => let r := s.getInterval env k; (.duration r.1, r.2)
  | .setInterval k v, s => (.unit, s.setInterval env k v)
  | .hugeCacheReleaseTime, s =>
    let r := Parameters.hugeCacheReleaseTime env s; (.duration r.1, r.2)
  | .sparseTrackersCoarseLongestFreeRange, s =>
    let r := Parameters.sparseTrackersCoarseLongestFreeRange env s; (.bool r.1, r.2)

/-- **A run**: the calls in order, with what each returned and the state at
the end. -/
def run (env : Env) : List LazyCall → LazyKnobs → List LazyReply × LazyKnobs
  | [], s => ([], s)
  | c :: cs, s =>
    let r := s.exec env c
    let t := run env cs r.2
    (r.1 :: t.1, t.2)

/-- Whether a knob's once-flag has run. -/
def done (s : LazyKnobs) : LazyKnob → Bool
  | .flag k => (s.flags k).done
  | .interval k => (s.intervals k).done
  | .hugeCacheReleaseTime => s.hugeCacheReleaseTime.done
  | .sparseTrackersCoarseLongestFreeRange => s.sparseTrackersCoarseLongestFreeRange.done

/-- How often a run runs `k`'s initialiser: the calls that reach `k`'s
accessor while its flag has not run. -/
def initRuns (env : Env) (k : LazyKnob) : List LazyCall → LazyKnobs → Nat
  | [], _ => 0
  | c :: cs, s =>
    (if c.knob = k ∧ s.done k = false then 1 else 0) + initRuns env k cs (s.exec env c).2

variable {env : Env}

/-- **Every call runs its knob's once-flag.** -/
theorem done_exec_knob (c : LazyCall) (s : LazyKnobs) : (s.exec env c).2.done c.knob = true := by
  cases c <;> simp [exec, done, LazyCall.knob, Parameters.hugeCacheReleaseTime,
    Parameters.sparseTrackersCoarseLongestFreeRange]

/-- **A once-flag stays run.** -/
theorem done_exec_of_done {k : LazyKnob} {s : LazyKnobs} (c : LazyCall) (h : s.done k = true) :
    (s.exec env c).2.done k = true := by
  cases c <;> cases k <;> simp_all [exec, done, Function.update_apply,
    Parameters.hugeCacheReleaseTime, Parameters.sparseTrackersCoarseLongestFreeRange] <;>
    split <;> simp_all

/-- **An initialiser runs at most once in any run**, and not at all once its
flag has run. -/
theorem initRuns_le (k : LazyKnob) (cs : List LazyCall) (s : LazyKnobs) :
    initRuns env k cs s ≤ if s.done k then 0 else 1 := by
  induction cs generalizing s with
  | nil => simp [initRuns]
  | cons c cs ih =>
    have hk := ih (s.exec env c).2
    cases hd : s.done k
    · by_cases hc : c.knob = k
      · subst hc
        simp [initRuns, hd, done_exec_knob c s] at hk ⊢
        omega
      · simp only [initRuns, hc, false_and, if_false, Nat.zero_add]
        split at hk <;> simp <;> omega
    · simpa [initRuns, hd, done_exec_of_done c hd] using hk

end LazyKnobs

end Tcmalloc
