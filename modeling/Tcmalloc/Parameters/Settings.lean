import Tcmalloc.Parameters.Lazy

/-!
# The setters of `parameters.cc` that are not plain stores

Most knobs of `parameters.cc` are constant-initialised atomics whose setter is
a store. Three setters do more, and they are what this module is about:

* `TCMalloc_Internal_SetPerCpuCachesEnabled` refuses to turn per-CPU caches
  off unless the program is linked with `:tcmalloc_deprecated_perthread`, and
  says so in the log;
* `TCMalloc_Internal_SetPerCpuCachesDynamicSlabEnabled` turns dynamic slabs
  off only when `want_disable_dynamic_slabs()` agrees;
* `TCMalloc_Internal_SetHeapSizeHardLimit` reads a limit of `0` as no limit,
  sets the page allocator's hard limit, and logs when the limit changes.

`Settings` holds the statics these reach, with the page allocator's hard
limit, the thread caches' overall size and the log standing in for the
collaborators they call. The theorems are about whole runs: the gates hold
along every run (`per_cpu_caches_stay_enabled`,
`dynamic_slab_stays_enabled`), the hard limit is never zero once set
(`heap_limit_never_zero_once_set`), and the log records each change of it
(`heap_limit_log_records_changes`).
-/

namespace Tcmalloc

/-- A line `TC_LOG` writes. -/
inductive LogLine
  /-- `"[tcmalloc] set page heap hard limit to %v bytes"`. -/
  | setHardLimit (bytes : UInt64)
  /-- The refusal of `TCMalloc_Internal_SetPerCpuCachesEnabled(false)`. -/
  | perThreadNeedsDeprecatedPerthread
deriving DecidableEq, Repr

/-- The text of a log line. -/
def LogLine.text : LogLine → String
  | .setHardLimit bytes => s!"[tcmalloc] set page heap hard limit to {bytes} bytes"
  | .perThreadNeedsDeprecatedPerthread =>
    "Using per-thread caches requires linking against :tcmalloc_deprecated_perthread."

/-- **The statics the other setters of `parameters.cc` write**, and the state
of the collaborators they reach. -/
structure Settings where
  /-- The atomic of `usermode_hugepage_collapse_enabled()`. -/
  usermodeHugepageCollapseEnabled : Bool
  /-- `Parameters::per_cpu_caches_enabled_`. -/
  perCpuCachesEnabled : Bool
  /-- `Parameters::per_cpu_caches_dynamic_slab_`. -/
  perCpuCachesDynamicSlab : Bool
  /-- The page allocator's `limit(PageAllocator::kHard)`. -/
  heapSizeHardLimit : UInt64
  /-- `Parameters::max_total_thread_cache_bytes_`. -/
  maxTotalThreadCacheBytes : Int64
  /-- What `ThreadCache::set_overall_thread_cache_size` was last given. -/
  overallThreadCacheSize : Int64
  /-- What `TC_LOG` has written, oldest first. -/
  log : List LogLine
deriving DecidableEq, Repr

/-- The limit a log line reports, if it is a hard-limit line. -/
def LogLine.reportedLimit : LogLine → Option UInt64
  | .setHardLimit bytes => some bytes
  | .perThreadNeedsDeprecatedPerthread => none

/-- `std::numeric_limits<size_t>::max()`. -/
def sizeMax : UInt64 := 18446744073709551615

/-- `want_disable_dynamic_slabs()`: false when the weak
`default_want_disable_dynamic_slabs` is not linked, and otherwise whether it
returns a positive value. -/
def wantDisableDynamicSlabs (env : Env) : Bool :=
  match env.defaultWantDisableDynamicSlabs with
  | none => false
  | some n => decide (0 < n)

namespace Parameters

/-- `Parameters::usermode_hugepage_collapse()`. -/
def usermodeHugepageCollapse (s : Settings) : Bool := s.usermodeHugepageCollapseEnabled

/-- `Parameters::heap_size_hard_limit()`, and `TCMalloc_Internal_GetHeapSizeHardLimit()`
after `InitIfNecessary`. -/
def heapSizeHardLimit (s : Settings) : UInt64 := s.heapSizeHardLimit

end Parameters

/-- `TCMalloc_Internal_SetUsermodeHugepageCollapse(v)`. -/
def tcmallocInternalSetUsermodeHugepageCollapse (v : Bool) (s : Settings) : Settings :=
  { s with usermodeHugepageCollapseEnabled := v }

/-- `TCMalloc_Internal_SetPerCpuCachesEnabledNoBuildRequirement(v)`. -/
def tcmallocInternalSetPerCpuCachesEnabledNoBuildRequirement (v : Bool) (s : Settings) :
    Settings :=
  { s with perCpuCachesEnabled := v }

/-- `TCMalloc_Internal_SetPerCpuCachesEnabled(v)`: without
`TCMALLOC_DEPRECATED_PERTHREAD`, a request to turn per-CPU caches off is
logged and dropped. -/
def tcmallocInternalSetPerCpuCachesEnabled (env : Env) (v : Bool) (s : Settings) :
    Settings :=
  if !env.deprecatedPerthread && !v then
    { s with log := s.log ++ [.perThreadNeedsDeprecatedPerthread] }
  else
    tcmallocInternalSetPerCpuCachesEnabledNoBuildRequirement v s

/-- `TCMalloc_Internal_SetPerCpuCachesDynamicSlabEnabled(v)`: dynamic slabs
are turned off only when `want_disable_dynamic_slabs()` also asks for it. -/
def tcmallocInternalSetPerCpuCachesDynamicSlabEnabled (env : Env) (v : Bool)
    (s : Settings) : Settings :=
  if !v && !wantDisableDynamicSlabs env then s
  else { s with perCpuCachesDynamicSlab := v }

/-- `TCMalloc_Internal_SetHeapSizeHardLimit(value)`: `0` is no limit; the
page allocator's hard limit is set, and a change is logged. -/
def tcmallocInternalSetHeapSizeHardLimit (value : UInt64) (s : Settings) : Settings :=
  let value := if value > 0 then value else sizeMax
  let oldLimit := s.heapSizeHardLimit
  let s := { s with heapSizeHardLimit := value }
  if value ≠ oldLimit then { s with log := s.log ++ [.setHardLimit value] } else s

/-- The hard-limit setter in one equation: the limit becomes `value`, or
`SIZE_MAX` for `0`, and the log gains a line exactly when that changes it. -/
theorem tcmallocInternalSetHeapSizeHardLimit_eq (value : UInt64) (s : Settings) :
    tcmallocInternalSetHeapSizeHardLimit value s =
      { s with
        heapSizeHardLimit := if value > 0 then value else sizeMax
        log := s.log ++
          if (if value > 0 then value else sizeMax) ≠ s.heapSizeHardLimit then
            [.setHardLimit (if value > 0 then value else sizeMax)]
          else [] } := by
  unfold tcmallocInternalSetHeapSizeHardLimit
  split <;> split <;> simp_all

/-- `TCMalloc_Internal_SetMaxTotalThreadCacheBytes(v)`: the parameter and the
thread caches' overall size. -/
def tcmallocInternalSetMaxTotalThreadCacheBytes (v : Int64) (s : Settings) : Settings :=
  { s with maxTotalThreadCacheBytes := v, overallThreadCacheSize := v }

/-- **A call that reaches `Settings`.** -/
inductive SettingsCall
  | usermodeHugepageCollapse
  | setUsermodeHugepageCollapse (v : Bool)
  | setPerCpuCachesEnabled (v : Bool)
  | setPerCpuCachesEnabledNoBuildRequirement (v : Bool)
  | setPerCpuCachesDynamicSlabEnabled (v : Bool)
  | heapSizeHardLimit
  | setHeapSizeHardLimit (value : UInt64)
  | setMaxTotalThreadCacheBytes (v : Int64)
deriving DecidableEq, Repr

/-- What a call returns. -/
inductive SettingsReply
  | unit
  | bool (b : Bool)
  | bytes (n : UInt64)
deriving DecidableEq, Repr

namespace Settings

/-- The statics as the program starts, with the collaborators in the state
`heapSizeHardLimit`, `overallThreadCacheSize` and the default
`maxTotalThreadCacheBytes` give. -/
def initial (env : Env) (heapSizeHardLimit : UInt64) (defaultOverallThreadCacheSize : Int64)
    (overallThreadCacheSize : Int64) : Settings where
  usermodeHugepageCollapseEnabled := true
  perCpuCachesEnabled := !env.deprecatedPerthread
  perCpuCachesDynamicSlab := true
  heapSizeHardLimit := heapSizeHardLimit
  maxTotalThreadCacheBytes := defaultOverallThreadCacheSize
  overallThreadCacheSize := overallThreadCacheSize
  log := []

/-- One call. -/
def exec (env : Env) : SettingsCall → Settings → SettingsReply × Settings
  | .usermodeHugepageCollapse, s => (.bool (Parameters.usermodeHugepageCollapse s), s)
  | .setUsermodeHugepageCollapse v, s => (.unit, tcmallocInternalSetUsermodeHugepageCollapse v s)
  | .setPerCpuCachesEnabled v, s => (.unit, tcmallocInternalSetPerCpuCachesEnabled env v s)
  | .setPerCpuCachesEnabledNoBuildRequirement v, s =>
    (.unit, tcmallocInternalSetPerCpuCachesEnabledNoBuildRequirement v s)
  | .setPerCpuCachesDynamicSlabEnabled v, s =>
    (.unit, tcmallocInternalSetPerCpuCachesDynamicSlabEnabled env v s)
  | .heapSizeHardLimit, s => (.bytes (Parameters.heapSizeHardLimit s), s)
  | .setHeapSizeHardLimit value, s => (.unit, tcmallocInternalSetHeapSizeHardLimit value s)
  | .setMaxTotalThreadCacheBytes v, s => (.unit, tcmallocInternalSetMaxTotalThreadCacheBytes v s)

/-- The state after a run. -/
def run (env : Env) : List SettingsCall → Settings → Settings
  | [], s => s
  | c :: cs, s => run env cs (s.exec env c).2

variable {env : Env} {s : Settings}

/-! ## The per-CPU caches gate -/

/-- Without `TCMALLOC_DEPRECATED_PERTHREAD`, no call but the
`NoBuildRequirement` setter turns per-CPU caches off. -/
theorem exec_perCpuCachesEnabled (h : env.deprecatedPerthread = false) (c : SettingsCall)
    (hc : ∀ v, c ≠ .setPerCpuCachesEnabledNoBuildRequirement v)
    (hs : s.perCpuCachesEnabled = true) : (s.exec env c).2.perCpuCachesEnabled = true := by
  cases c with
  | setPerCpuCachesEnabled v =>
    cases v <;> simp [exec, tcmallocInternalSetPerCpuCachesEnabled, h, hs,
      tcmallocInternalSetPerCpuCachesEnabledNoBuildRequirement]
  | setPerCpuCachesEnabledNoBuildRequirement v => exact absurd rfl (hc v)
  | setPerCpuCachesDynamicSlabEnabled v =>
    simp only [exec, tcmallocInternalSetPerCpuCachesDynamicSlabEnabled]
    split <;> simpa
  | _ => simpa [exec, tcmallocInternalSetHeapSizeHardLimit_eq,
      tcmallocInternalSetUsermodeHugepageCollapse, tcmallocInternalSetMaxTotalThreadCacheBytes]

/-- Without `TCMALLOC_DEPRECATED_PERTHREAD`, the refusal line is written once
by each request to turn per-CPU caches off, and by nothing else. -/
theorem exec_log_count_refusal (h : env.deprecatedPerthread = false) (c : SettingsCall) :
    (s.exec env c).2.log.count .perThreadNeedsDeprecatedPerthread =
      s.log.count .perThreadNeedsDeprecatedPerthread +
        if c = .setPerCpuCachesEnabled false then 1 else 0 := by
  cases c with
  | setPerCpuCachesEnabled v =>
    cases v <;> simp [exec, tcmallocInternalSetPerCpuCachesEnabled, h,
      tcmallocInternalSetPerCpuCachesEnabledNoBuildRequirement]
  | setPerCpuCachesDynamicSlabEnabled v =>
    simp only [exec, tcmallocInternalSetPerCpuCachesDynamicSlabEnabled]
    split <;> simp
  | setHeapSizeHardLimit value =>
    simp only [exec, tcmallocInternalSetHeapSizeHardLimit_eq]
    split <;> split <;> simp
  | _ => simp [exec, tcmallocInternalSetPerCpuCachesEnabledNoBuildRequirement,
      tcmallocInternalSetUsermodeHugepageCollapse, tcmallocInternalSetMaxTotalThreadCacheBytes]

/-- **Without `TCMALLOC_DEPRECATED_PERTHREAD`, per-CPU caches stay on.**
Along any run that leaves out the `NoBuildRequirement` setter, per-CPU caches
on at the start are on at the end, and the log holds one refusal line more
for each request to turn them off. -/
theorem per_cpu_caches_stay_enabled (env : Env) (h : env.deprecatedPerthread = false)
    (cs : List SettingsCall)
    (hcs : ∀ v, SettingsCall.setPerCpuCachesEnabledNoBuildRequirement v ∉ cs)
    (s : Settings) (hs : s.perCpuCachesEnabled = true) :
    (s.run env cs).perCpuCachesEnabled = true ∧
      (s.run env cs).log.count .perThreadNeedsDeprecatedPerthread =
        s.log.count .perThreadNeedsDeprecatedPerthread +
          cs.count (.setPerCpuCachesEnabled false) := by
  induction cs generalizing s with
  | nil => simp [run, hs]
  | cons c cs ih =>
    have hc : ∀ v, c ≠ .setPerCpuCachesEnabledNoBuildRequirement v :=
      fun v e => hcs v (e ▸ List.mem_cons_self _ _)
    obtain ⟨h₁, h₂⟩ := ih (fun v hv => hcs v (List.mem_cons_of_mem _ hv)) _
      (exec_perCpuCachesEnabled h c hc hs)
    refine ⟨h₁, ?_⟩
    rw [run, h₂, exec_log_count_refusal h, List.count_cons]
    by_cases e : c = .setPerCpuCachesEnabled false
    · simp [e]; omega
    · simp [e, Ne.symm e]

/-- From startup, a refused request and a later one to turn per-CPU caches on
leave them on, with one refusal logged. -/
theorem per_cpu_caches_refused_from_startup :
    let env : Env := ⟨false, false, false, fun _ => false, none⟩
    let cs := [.setPerCpuCachesEnabled false, .setHeapSizeHardLimit 0, .setPerCpuCachesEnabled true]
    let s := initial env 0 ⟨0, by decide, by decide⟩ ⟨0, by decide, by decide⟩
    env.deprecatedPerthread = false ∧
      (∀ v, SettingsCall.setPerCpuCachesEnabledNoBuildRequirement v ∉ cs) ∧
      s.perCpuCachesEnabled = true ∧
      (s.run env cs).perCpuCachesEnabled = true ∧
      (s.run env cs).log.count .perThreadNeedsDeprecatedPerthread =
        s.log.count .perThreadNeedsDeprecatedPerthread +
          cs.count (.setPerCpuCachesEnabled false) :=
  ⟨rfl, by decide, rfl, per_cpu_caches_stay_enabled _ rfl _ (by decide) _ rfl⟩

/-! ## The dynamic slab gate -/

/-- A refused request to turn dynamic slabs off changes nothing. -/
theorem setPerCpuCachesDynamicSlabEnabled_refused (h : wantDisableDynamicSlabs env = false) :
    tcmallocInternalSetPerCpuCachesDynamicSlabEnabled env false s = s := by
  simp [tcmallocInternalSetPerCpuCachesDynamicSlabEnabled, h]

theorem exec_perCpuCachesDynamicSlab (h : wantDisableDynamicSlabs env = false)
    (c : SettingsCall) (hs : s.perCpuCachesDynamicSlab = true) :
    (s.exec env c).2.perCpuCachesDynamicSlab = true := by
  cases c with
  | setPerCpuCachesDynamicSlabEnabled v =>
    cases v
    · simpa only [exec, setPerCpuCachesDynamicSlabEnabled_refused h]
    · simp [exec, tcmallocInternalSetPerCpuCachesDynamicSlabEnabled]
  | setPerCpuCachesEnabled v =>
    simp only [exec, tcmallocInternalSetPerCpuCachesEnabled]
    split <;> simpa [tcmallocInternalSetPerCpuCachesEnabledNoBuildRequirement]
  | _ => simpa [exec, tcmallocInternalSetHeapSizeHardLimit_eq,
      tcmallocInternalSetPerCpuCachesEnabledNoBuildRequirement,
      tcmallocInternalSetUsermodeHugepageCollapse, tcmallocInternalSetMaxTotalThreadCacheBytes]

/-- **Dynamic slabs stay on unless `want_disable_dynamic_slabs()` agrees**:
when it does not, dynamic slabs on at the start of any run are on at its
end. -/
theorem dynamic_slab_stays_enabled (env : Env) (h : wantDisableDynamicSlabs env = false)
    (cs : List SettingsCall) (s : Settings) (hs : s.perCpuCachesDynamicSlab = true) :
    (s.run env cs).perCpuCachesDynamicSlab = true := by
  induction cs generalizing s with
  | nil => exact hs
  | cons c cs ih => exact ih _ (exec_perCpuCachesDynamicSlab h c hs)

/-- With the weak symbol not linked, a request to turn dynamic slabs off is
refused. -/
theorem dynamic_slab_refused_unlinked :
    let env : Env := ⟨false, false, false, fun _ => false, none⟩
    let cs := [.setPerCpuCachesDynamicSlabEnabled false]
    let s := initial env 0 ⟨0, by decide, by decide⟩ ⟨0, by decide, by decide⟩
    wantDisableDynamicSlabs env = false ∧ s.perCpuCachesDynamicSlab = true ∧
      (s.run env cs).perCpuCachesDynamicSlab = true :=
  ⟨rfl, rfl, dynamic_slab_stays_enabled ⟨false, false, false, fun _ => false, none⟩ rfl _ _ rfl⟩

/-! ## The hard limit -/

/-- What a call leaves the hard limit at: only the setter moves it. -/
theorem exec_heapSizeHardLimit (c : SettingsCall) :
    (s.exec env c).2.heapSizeHardLimit =
      match c with
      | .setHeapSizeHardLimit value => if value > 0 then value else sizeMax
      | _ => s.heapSizeHardLimit := by
  cases c with
  | setPerCpuCachesEnabled v =>
    simp only [exec, tcmallocInternalSetPerCpuCachesEnabled]
    split <;> rfl
  | setPerCpuCachesDynamicSlabEnabled v =>
    simp only [exec, tcmallocInternalSetPerCpuCachesDynamicSlabEnabled]
    split <;> rfl
  | setHeapSizeHardLimit value => simp [exec, tcmallocInternalSetHeapSizeHardLimit_eq]
  | _ => rfl

/-- The setter never leaves a limit of zero bytes: `0` asks for no limit. -/
theorem setHeapSizeHardLimit_ne_zero (value : UInt64) :
    (if value > 0 then value else sizeMax) ≠ 0 := by
  split
  · exact fun h => by simp [h] at *
  · decide

/-- What a call adds to the log's hard-limit lines: the new limit, exactly
when the call changed it. -/
theorem exec_log_reportedLimit (c : SettingsCall) :
    (s.exec env c).2.log.filterMap LogLine.reportedLimit =
      s.log.filterMap LogLine.reportedLimit ++
        if (s.exec env c).2.heapSizeHardLimit ≠ s.heapSizeHardLimit then
          [(s.exec env c).2.heapSizeHardLimit]
        else [] := by
  rw [exec_heapSizeHardLimit]
  cases c with
  | setPerCpuCachesEnabled v =>
    simp only [exec, tcmallocInternalSetPerCpuCachesEnabled]
    split <;> simp [LogLine.reportedLimit, tcmallocInternalSetPerCpuCachesEnabledNoBuildRequirement]
  | setPerCpuCachesDynamicSlabEnabled v =>
    simp only [exec, tcmallocInternalSetPerCpuCachesDynamicSlabEnabled]
    split <;> simp
  | setHeapSizeHardLimit value =>
    simp only [exec, tcmallocInternalSetHeapSizeHardLimit_eq]
    split <;> split <;> simp [LogLine.reportedLimit]
  | _ => simp [exec, tcmallocInternalSetPerCpuCachesEnabledNoBuildRequirement,
      tcmallocInternalSetUsermodeHugepageCollapse, tcmallocInternalSetMaxTotalThreadCacheBytes]

/-- The successive values the hard limit changes to along a run. -/
def limitChanges (env : Env) : List SettingsCall → Settings → List UInt64
  | [], _ => []
  | c :: cs, s =>
    let s' := (s.exec env c).2
    (if s'.heapSizeHardLimit ≠ s.heapSizeHardLimit then [s'.heapSizeHardLimit] else []) ++
      limitChanges env cs s'

/-- **The log records every change of the hard limit.** Along any run, the
hard-limit lines `TC_LOG` adds are the successive new limits, one per change,
in order. -/
theorem heap_limit_log_records_changes (env : Env) (cs : List SettingsCall) (s : Settings) :
    (s.run env cs).log.filterMap LogLine.reportedLimit =
      s.log.filterMap LogLine.reportedLimit ++ limitChanges env cs s := by
  induction cs generalizing s with
  | nil => simp [run, limitChanges]
  | cons c cs ih => rw [run, ih, exec_log_reportedLimit, limitChanges, List.append_assoc]

/-- **The hard limit is never zero once set.** After a run that starts with a
non-zero limit or calls the setter, the page allocator's hard limit is not
zero. -/
theorem heap_limit_never_zero_once_set (env : Env) (cs : List SettingsCall) (s : Settings)
    (h : s.heapSizeHardLimit ≠ 0 ∨ ∃ value, SettingsCall.setHeapSizeHardLimit value ∈ cs) :
    (s.run env cs).heapSizeHardLimit ≠ 0 := by
  induction cs generalizing s with
  | nil => simpa using h
  | cons c cs ih =>
    apply ih
    rcases h with h | ⟨value, hv⟩
    · refine .inl ?_
      rw [exec_heapSizeHardLimit]
      cases c <;> first | exact h | exact setHeapSizeHardLimit_ne_zero _
    · rcases List.mem_cons.1 hv with rfl | hv
      · exact .inl (by rw [exec_heapSizeHardLimit]; exact setHeapSizeHardLimit_ne_zero value)
      · exact .inr ⟨value, hv⟩

/-- From a zero limit, asking for no limit leaves `SIZE_MAX`, never zero. -/
theorem heap_limit_zero_request_from_zero :
    let env : Env := ⟨false, false, false, fun _ => false, none⟩
    let cs := [.setHeapSizeHardLimit 0, .heapSizeHardLimit]
    let s := initial env 0 ⟨0, by decide, by decide⟩ ⟨0, by decide, by decide⟩
    (s.heapSizeHardLimit ≠ 0 ∨ ∃ value, SettingsCall.setHeapSizeHardLimit value ∈ cs) ∧
      (s.run env cs).heapSizeHardLimit ≠ 0 :=
  ⟨.inr ⟨0, by simp⟩, heap_limit_never_zero_once_set _ _ _ (.inr ⟨0, by simp⟩)⟩

end Settings

end Tcmalloc
