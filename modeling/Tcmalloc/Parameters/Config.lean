import Tcmalloc.Parameters.Lazy

/-!
# The once-guarded knobs are an explicit configuration

What the once-flags of `parameters.cc` are for is that no setting is lost to a
default: a setter called before the first getter must not be overwritten when
the getter later runs the initialiser. The cleanest way to say that the code
achieves it is to compare it with a design that has no lazy initialisation at
all – a `LazyConfig` record whose every knob is set to its default once, at
startup, and whose getters and setters are a plain load and store.

`LazyKnobs.view` reads the statics as such a record, each knob at its
`OnceAtomic.current`, and `LazyKnobs.exec_view` says one call on the statics
is one call on the record. So from the start of the program, every run of the
statics answers exactly as the explicit configuration built at startup would
(`lazy_knobs_refine_startup_config`). On that record a getter plainly returns
the last setting or the default, which is
`lazy_knob_reads_last_setting` once it is carried back.

A setting reads back as it was stored: a Boolean as itself, an interval as
`absl::Nanoseconds(absl::ToInt64Nanoseconds(v))`, which is not always `v`
(`sleep_interval_set_infinite_reads_finite`).
-/

namespace Tcmalloc

/-- **An explicit configuration** of the once-guarded knobs: one plain value
per knob, in the representation the statics keep. -/
@[ext] structure LazyConfig where
  /-- Each Boolean knob. -/
  flags : FlagKnob → Bool
  /-- Each interval knob, in `int64_t` nanoseconds. -/
  intervals : IntervalKnob → Int64
  /-- `huge_cache_release_time`, in seconds. -/
  hugeCacheReleaseTime : Int
  /-- `sparse_trackers_coarse_longest_free_range`. -/
  sparseTrackersCoarseLongestFreeRange : Bool

namespace LazyConfig

/-- The configuration built at startup: every knob at its default. -/
def startup (env : Env) : LazyConfig where
  flags k := k.init env
  intervals k := k.init env
  hugeCacheReleaseTime := hugeCacheReleaseTimeInit env
  sparseTrackersCoarseLongestFreeRange := sparseTrackersCoarseLongestFreeRangeInit env

/-- One call, as a plain load or store. -/
def exec : LazyCall → LazyConfig → LazyReply × LazyConfig
  | .getFlag k, c => (.bool (c.flags k), c)
  | .setFlag k v, c => (.unit, { c with flags := Function.update c.flags k v })
  | .getInterval k, c => (.duration (Absl.nanoseconds (c.intervals k)), c)
  | .setInterval k v, c =>
    (.unit, { c with intervals := Function.update c.intervals k (Absl.toInt64Nanoseconds v) })
  | .hugeCacheReleaseTime, c => (.duration (Absl.seconds c.hugeCacheReleaseTime), c)
  | .sparseTrackersCoarseLongestFreeRange, c =>
    (.bool c.sparseTrackersCoarseLongestFreeRange, c)

/-- A run on the configuration. -/
def run : List LazyCall → LazyConfig → List LazyReply × LazyConfig
  | [], c => ([], c)
  | call :: cs, c =>
    let r := c.exec call
    let t := run cs r.2
    (r.1 :: t.1, t.2)

end LazyConfig

/-! ## The last setting of a knob -/

/-- The value a call sets Boolean knob `k` to, if it is `k`'s setter. -/
def LazyCall.flagSetArg (k : FlagKnob) : LazyCall → Option Bool
  | .setFlag k' v => if k' = k then some v else none
  | _ => none

/-- The interval a call sets knob `k` to, if it is `k`'s setter. -/
def LazyCall.intervalSetArg (k : IntervalKnob) : LazyCall → Option Absl.Duration
  | .setInterval k' v => if k' = k then some v else none
  | _ => none

/-- The argument of the last call of Boolean knob `k`'s setter, if any. -/
def lastFlagSet (k : FlagKnob) : List LazyCall → Option Bool
  | [] => none
  | c :: cs => (lastFlagSet k cs).or (c.flagSetArg k)

/-- The argument of the last call of interval knob `k`'s setter, if any. -/
def lastIntervalSet (k : IntervalKnob) : List LazyCall → Option Absl.Duration
  | [] => none
  | c :: cs => (lastIntervalSet k cs).or (c.intervalSetArg k)

theorem getD_or_getD {α : Type} (o o' : Option α) (x : α) :
    o.getD (o'.getD x) = (o.or o').getD x := by
  cases o <;> rfl

namespace LazyConfig

theorem exec_flags (call : LazyCall) (c : LazyConfig) (k : FlagKnob) :
    (c.exec call).2.flags k = (call.flagSetArg k).getD (c.flags k) := by
  cases call <;> simp [exec, LazyCall.flagSetArg, Function.update_apply, eq_comm]
  split <;> rfl

theorem exec_intervals (call : LazyCall) (c : LazyConfig) (k : IntervalKnob) :
    (c.exec call).2.intervals k =
      ((call.intervalSetArg k).map Absl.toInt64Nanoseconds).getD (c.intervals k) := by
  cases call <;> simp [exec, LazyCall.intervalSetArg, Function.update_apply, eq_comm]
  split <;> rfl

/-- **On the configuration a Boolean knob is its last setting**, or what it
was before the run. -/
theorem run_flags (cs : List LazyCall) (c : LazyConfig) (k : FlagKnob) :
    (c.run cs).2.flags k = (lastFlagSet k cs).getD (c.flags k) := by
  induction cs generalizing c with
  | nil => rfl
  | cons call cs ih => simp only [run, ih, exec_flags, lastFlagSet, getD_or_getD]

/-- **On the configuration an interval knob is its last setting**, converted
to `int64_t` nanoseconds, or what it was before the run. -/
theorem run_intervals (cs : List LazyCall) (c : LazyConfig) (k : IntervalKnob) :
    (c.run cs).2.intervals k =
      ((lastIntervalSet k cs).map Absl.toInt64Nanoseconds).getD (c.intervals k) := by
  induction cs generalizing c with
  | nil => rfl
  | cons call cs ih =>
    simp only [run, ih, exec_intervals, lastIntervalSet, getD_or_getD, Option.map_or']

end LazyConfig

/-! ## The statics simulate the configuration -/

namespace LazyKnobs

/-- **The statics read as a configuration**: each knob at the value a load
through its accessor would see. -/
def view (env : Env) (s : LazyKnobs) : LazyConfig where
  flags k := (s.flags k).current (k.init env)
  intervals k := (s.intervals k).current (k.init env)
  hugeCacheReleaseTime := s.hugeCacheReleaseTime.current (hugeCacheReleaseTimeInit env)
  sparseTrackersCoarseLongestFreeRange :=
    s.sparseTrackersCoarseLongestFreeRange.current (sparseTrackersCoarseLongestFreeRangeInit env)

variable {env : Env}

/-- Before any call, the statics read as the startup configuration. -/
theorem view_initial : initial.view env = LazyConfig.startup env := rfl

theorem view_getFlag (k : FlagKnob) (s : LazyKnobs) :
    (s.getFlag env k).2.view env = s.view env := by
  ext <;> simp [view, OnceAtomic.current_update]

theorem view_setFlag (k : FlagKnob) (v : Bool) (s : LazyKnobs) :
    (s.setFlag env k v).view env =
      { s.view env with flags := Function.update (s.view env).flags k v } := by
  ext <;> simp [view, OnceAtomic.current_update]

theorem view_getInterval (k : IntervalKnob) (s : LazyKnobs) :
    (s.getInterval env k).2.view env = s.view env := by
  ext <;> simp [view, OnceAtomic.current_update]

theorem view_setInterval (k : IntervalKnob) (v : Absl.Duration) (s : LazyKnobs) :
    (s.setInterval env k v).view env = { s.view env with
      intervals := Function.update (s.view env).intervals k (Absl.toInt64Nanoseconds v) } := by
  ext <;> simp [view, OnceAtomic.current_update]

/-- **One call on the statics is one call on the configuration they read
as**: the same reply, and the statics after it read as the configuration
after it. -/
theorem exec_view (c : LazyCall) (s : LazyKnobs) :
    Prod.map id (view env) (s.exec env c) = (s.view env).exec c := by
  cases c with
  | getFlag k =>
    simp only [exec, LazyConfig.exec, Prod.map, id, view_getFlag, getFlag_fst]; rfl
  | setFlag k v => simp only [exec, LazyConfig.exec, Prod.map, id, view_setFlag]
  | getInterval k =>
    simp only [exec, LazyConfig.exec, Prod.map, id, view_getInterval, getInterval_fst]; rfl
  | setInterval k v => simp only [exec, LazyConfig.exec, Prod.map, id, view_setInterval]
  | hugeCacheReleaseTime =>
    simp [exec, LazyConfig.exec, Parameters.hugeCacheReleaseTime, view]
  | sparseTrackersCoarseLongestFreeRange =>
    simp [exec, LazyConfig.exec, Parameters.sparseTrackersCoarseLongestFreeRange, view]

/-- A run on the statics is a run on the configuration they read as. -/
theorem run_view (cs : List LazyCall) (s : LazyKnobs) :
    Prod.map id (view env) (s.run env cs) = (s.view env).run cs := by
  induction cs generalizing s with
  | nil => rfl
  | cons c cs ih =>
    have hc := @exec_view env c s
    simp only [Prod.map, Prod.ext_iff, id] at hc
    simp only [run, LazyConfig.run, ← hc.1, ← hc.2, ← ih]
    rfl

end LazyKnobs

/-- **The lazily initialised statics answer as an explicit configuration
built at startup.** From the start of the program, any sequence of calls
gets the same replies from the once-guarded statics as from `LazyConfig`
with every default set up front, and ends in a state that reads as that
configuration's. -/
theorem lazy_knobs_refine_startup_config (env : Env) (cs : List LazyCall) :
    (LazyKnobs.initial.run env cs).1 = ((LazyConfig.startup env).run cs).1 ∧
      (LazyKnobs.initial.run env cs).2.view env = ((LazyConfig.startup env).run cs).2 := by
  rw [← LazyKnobs.view_initial, ← LazyKnobs.run_view]
  exact ⟨rfl, rfl⟩

/-- **A getter returns the last setting, or the default.** For every
sequence of calls from the start of the program, in any order and with any
arguments: a Boolean knob's getter returns the argument of the last call of
its setter, or its default if there was none; an interval knob's getter
returns the last setting as it reads back from `int64_t` nanoseconds, or its
default; and each knob's initialiser runs at most once. -/
theorem lazy_knob_reads_last_setting (env : Env) (cs : List LazyCall) :
    (∀ k : FlagKnob, ((LazyKnobs.initial.run env cs).2.getFlag env k).1 =
        (lastFlagSet k cs).getD (k.init env)) ∧
    (∀ k : IntervalKnob, ((LazyKnobs.initial.run env cs).2.getInterval env k).1 =
        ((lastIntervalSet k cs).map fun v => Absl.nanoseconds (Absl.toInt64Nanoseconds v)).getD
          (k.interval env)) ∧
    ∀ k : LazyKnob, LazyKnobs.initRuns env k cs LazyKnobs.initial ≤ 1 := by
  have hview : (LazyKnobs.initial.run env cs).2.view env = ((LazyConfig.startup env).run cs).2 := by
    rw [← LazyKnobs.view_initial, ← LazyKnobs.run_view]
    rfl
  refine ⟨fun k => ?_, fun k => ?_, fun k => ?_⟩
  · have h := congrArg (LazyConfig.flags · k) hview
    simp only [LazyKnobs.view, LazyConfig.run_flags] at h
    rw [LazyKnobs.getFlag_fst, h]
    rfl
  · have h := congrArg (LazyConfig.intervals · k) hview
    simp only [LazyKnobs.view, LazyConfig.run_intervals] at h
    rw [LazyKnobs.getInterval_fst, h]
    cases lastIntervalSet k cs <;> simp [LazyConfig.startup]
  · have h := @LazyKnobs.initRuns_le env k cs LazyKnobs.initial
    cases k <;> exact h

/-- An infinite sleep interval does not read back as infinite: the setter
stores `INT64_MAX` nanoseconds, and the getter returns that finite
duration. -/
theorem sleep_interval_set_infinite_reads_finite :
    let env : Env := ⟨false, false, false, fun _ => false, none⟩
    (Parameters.backgroundProcessSleepInterval env
        (tcmallocInternalSetBackgroundProcessSleepInterval env Absl.infiniteDuration
          LazyKnobs.initial)).1 = Absl.nanoseconds Int64.max ∧
      Absl.nanoseconds Int64.max ≠ Absl.infiniteDuration :=
  ⟨rfl, by decide⟩

end Tcmalloc
