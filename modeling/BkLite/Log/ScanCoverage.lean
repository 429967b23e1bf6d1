import BkLite.Framework.Coverage
import BkLite.Framework.Runs

/-!
# The windows of a log policy's scans

`scan_log_policy_task` (`tasks/policy.py`) scans up to a safe time, a minute before the present:
over one period back from it, or, where more than a period has been missed, over the missed periods
one by one. `last_run_time` is written after each scan. A run may fail at a scan, or between a scan
that has succeeded and that update.

Times are rational numbers of seconds since the epoch.
-/

namespace Log.ScanCoverage

open Runs Coverage

/-! ### The task -/

structure Period where
  type : Option String
  value : Option ℤ
deriving DecidableEq

def periodToSeconds : Option Period → Except String ℤ
  | none => .error "policy period is empty"
  | some ⟨some type, some value⟩ =>
    if type = "" then .error "invalid period format, missing type or value"
    else if type = "min" then .ok (value * 60)
    else if type = "hour" then .ok (value * 3600)
    else if type = "day" then .ok (value * 86400)
    else .error ("invalid period type: " ++ type)
  | some _ => .error "invalid period format, missing type or value"

def maxBackfillCount : ℤ := 10

def maxBackfillSeconds : ℚ := 24 * 3600

def ingestDelaySeconds : ℚ := 60

def windowOverlapSeconds : ℤ := 0

/-- `int(t.timestamp())`. -/
def timestamp (t : ℚ) : ℤ := ⌊t⌋

structure Policy where
  enable : Bool := true
  period : Option Period

/-- `[window_start, window_end]`. -/
structure Window where
  start : ℤ
  stop : ℤ
deriving DecidableEq

structure State where
  /-- `last_run_time`. -/
  lastRunTime : Option ℚ
  /-- The time of the last run. -/
  clock : ℚ
  /-- The windows of the successful scans, the last one first. -/
  windows : List Window := []
deriving DecidableEq

/-- A run of the task: `recorded` scans, and how the next one fails. -/
structure Execution where
  now : ℚ
  recorded : ℕ
  scanned : Bool := false

def Execution.safeTime (a : Execution) : ℚ := a.now - ingestDelaySeconds

/-- `LogPolicyScan(policy, scan_time, window_start, window_end)`. -/
structure Scan where
  scanTime : ℚ
  windowStart : Option ℤ := none
  windowEnd : Option ℤ := none

/-- `_get_scan_window`. -/
def Scan.window (period : Option Period) (scan : Scan) : Except String Window :=
  match scan.windowStart, scan.windowEnd with
  | some start, some stop => .ok ⟨start, stop⟩
  | _, _ => do
    let periodSeconds ← periodToSeconds period
    return ⟨timestamp scan.scanTime - periodSeconds, timestamp scan.scanTime⟩

namespace State

def tick (s : State) (now : ℚ) : State := { s with clock := now }

def scan (s : State) (window : Window) : State := { s with windows := window :: s.windows }

/-- `update(last_run_time=t)`. -/
def record (s : State) (t : ℚ) : State := { s with lastRunTime := some t }

end State

def perform (period : Option Period) (scan : Scan) (recorded : ℕ) (scanned : Bool) (s : State) :
    State :=
  match scan.window period with
  | .error _ => s
  | .ok window =>
    if 0 < recorded then (s.scan window).record scan.scanTime
    else if scanned then s.scan window
    else s

def overlapped (start : ℤ) : ℤ :=
  if windowOverlapSeconds > 0 then max (start - windowOverlapSeconds) 0 else start

/-- The scan of the period after `last`. -/
def backfillScan (periodSeconds : ℤ) (last : ℚ) : Scan where
  scanTime := last + periodSeconds
  windowStart := some (overlapped (timestamp last))
  windowEnd := some (timestamp (last + periodSeconds))

/-- The scans of `count` periods after `last`. -/
def backfill (policy : Policy) (periodSeconds : ℤ) (scanned : Bool) : ℕ → ℕ → ℚ → State → State
  | 0, _, _, s => s
  | _ + 1, 0, last, s => perform policy.period (backfillScan periodSeconds last) 0 scanned s
  | count + 1, recorded + 1, last, s =>
    backfill policy periodSeconds scanned count recorded (last + periodSeconds)
      (perform policy.period (backfillScan periodSeconds last) (recorded + 1) scanned s)

def gapSeconds (safeTime last : ℚ) : ℚ := min (max (safeTime - last) 0) maxBackfillSeconds

/-- `backfill_count`, before its cap. -/
def backfillCount (periodSeconds : ℤ) (safeTime last : ℚ) : ℤ :=
  ⌊gapSeconds safeTime last / periodSeconds⌋

def safeScan (periodSeconds : ℤ) (safeTime : ℚ) : Scan where
  scanTime := safeTime
  windowStart := some (overlapped (timestamp safeTime - periodSeconds))
  windowEnd := some (timestamp safeTime)

def scanLogPolicyTask (policy : Policy) (s : State) (a : Execution) : State :=
  let s := s.tick a.now
  if policy.enable then
    match s.lastRunTime with
    | none => perform policy.period { scanTime := a.safeTime } a.recorded a.scanned s
    | some last =>
      match periodToSeconds policy.period with
      | .error _ => s
      | .ok periodSeconds =>
        let count := backfillCount periodSeconds a.safeTime last
        if count ≤ 1 then
          perform policy.period (safeScan periodSeconds a.safeTime) a.recorded a.scanned s
        else
          backfill policy periodSeconds a.scanned (min count maxBackfillCount).toNat a.recorded
            last s
  else s

/-! ### The law -/

/-- Every instant from `a` to `b` lies in one of the windows. -/
abbrev Scanned (windows : List Window) (a b : ℚ) : Prop :=
  Spans (fun v : Window => (v.start : ℚ)) (fun v => (v.stop : ℚ)) windows a b

/-- Every instant up to `last_run_time` lies in the window of a successful scan. -/
def Covered (s : State) : Prop :=
  ∀ first w, s.windows.getLast? = some first → s.lastRunTime = some w →
    Scanned s.windows first.start w

/-- `last_run_time` does not go back, is never after the safe time, and is covered. -/
structure Kept (s t : State) : Prop where
  monotone : ∀ w, s.lastRunTime = some w → ∃ w', t.lastRunTime = some w' ∧ w ≤ w'
  delayed : ∀ w, t.lastRunTime = some w → w ≤ t.clock - ingestDelaySeconds
  covered : Covered t

def OnSecond (t : ℚ) : Prop := (timestamp t : ℚ) = t

def Execution.Succeeds (a : Execution) : Prop := 0 < a.recorded ∨ a.scanned

/-- The scan up to the safe time comes on a whole second, at most one period late. -/
def Timely (policy : Policy) (periodSeconds : ℤ) (s : State) (a : Execution) : Prop :=
  policy.enable = true →
    match s.lastRunTime with
    | none => a.Succeeds →
      OnSecond a.safeTime ∧ ∀ v ∈ s.windows.head?, a.safeTime - periodSeconds ≤ v.stop
    | some w =>
      if backfillCount periodSeconds a.safeTime w ≤ 1 then
        (a.Succeeds → OnSecond a.safeTime) ∧
          (0 < a.recorded → s.windows ≠ [] → a.safeTime - periodSeconds ≤ w)
      else 0 < a.recorded → OnSecond w

variable {policy : Policy} {periodSeconds : ℤ} {s : State} {a : Execution} {v : Window} {t : ℚ}

/-! ### The windows of the task's scans -/

@[simp] theorem window_backfillScan (period : Option Period) (periodSeconds : ℤ) (last : ℚ) :
    (backfillScan periodSeconds last).window period =
      .ok ⟨timestamp last, timestamp (last + periodSeconds)⟩ := rfl

@[simp] theorem window_safeScan (period : Option Period) (periodSeconds : ℤ) (safeTime : ℚ) :
    (safeScan periodSeconds safeTime).window period =
      .ok ⟨timestamp safeTime - periodSeconds, timestamp safeTime⟩ := rfl

theorem window_default {period : Option Period} (h : periodToSeconds period = .ok periodSeconds)
    (t : ℚ) : Scan.window period { scanTime := t } =
      .ok ⟨timestamp t - periodSeconds, timestamp t⟩ := by
  rw [Scan.window, h]
  rfl

theorem timestamp_le (t : ℚ) : (timestamp t : ℚ) ≤ t := Int.floor_le t

theorem timestamp_add (t : ℚ) (n : ℤ) : timestamp (t + n) = timestamp t + n :=
  Int.floor_add_intCast t n

theorem OnSecond.of_le {n : ℤ} (h : t ≤ n) (h' : (n : ℚ) ≤ t) : OnSecond t := by
  rw [OnSecond, le_antisymm h h', timestamp, Int.floor_intCast]

theorem onSecond_add (n : ℤ) : OnSecond (t + n) ↔ OnSecond t := by
  rw [OnSecond, OnSecond, timestamp_add, Int.cast_add, add_left_inj]

/-! ### Coverage, scan by scan -/

/-- Up to where the scans reach: `last_run_time`, or the end of the last one. -/
def State.horizon (s : State) : Option ℚ :=
  match s.lastRunTime with
  | some w => some w
  | none => s.windows.head?.map fun v => (v.stop : ℚ)

/-- The scans cover what they reach, and are not after the safe time. -/
structure Inv (s : State) : Prop where
  delayed : ∀ w, s.lastRunTime = some w → w ≤ s.clock - ingestDelaySeconds
  spans : ∀ first h, s.windows.getLast? = some first → s.horizon = some h →
    Scanned s.windows first.start h

theorem horizon_eq_some {w : ℚ} (h : s.lastRunTime = some w) : s.horizon = some w := by
  rw [State.horizon, h]

theorem horizon_of_none (h : s.lastRunTime = none) :
    s.horizon = s.windows.head?.map fun v => (v.stop : ℚ) := by
  rw [State.horizon, h]

theorem Inv.covered (h : Inv s) : Covered s :=
  fun first w h_first h_w => h.spans first w h_first (horizon_eq_some h_w)

theorem Inv.tick (h : Inv s) {now : ℚ} (h_now : s.clock ≤ now) : Inv (s.tick now) where
  delayed w h_w := (h.delayed w h_w).trans (sub_le_sub_right h_now _)
  spans := h.spans

theorem getLast?_scan {first : Window} (h : (s.scan v).windows.getLast? = some first) :
    s.windows = [] ∧ first = v ∨ s.windows.getLast? = some first := by
  change (v :: s.windows).getLast? = some first at h
  cases h_windows : s.windows with
  | nil =>
    rw [h_windows] at h
    exact .inl ⟨rfl, (Option.some.inj h).symm⟩
  | cons u us =>
    rw [h_windows] at h
    exact .inr h

/-- **A scan that is recorded.** It reaches back to the scans before it, and its window ends at
`last_run_time`. -/
theorem Inv.record (h : Inv s) (h_stop : (v.stop : ℚ) = t)
    (h_clock : t ≤ s.clock - ingestDelaySeconds)
    (h_back : s.windows ≠ [] → ∀ h, s.horizon = some h → (v.start : ℚ) ≤ h) :
    Inv ((s.scan v).record t) := by
  refine ⟨fun w h_w => ?_, fun first w h_first h_w => ?_⟩
  · obtain rfl : t = w := Option.some.inj h_w
    exact h_clock
  · obtain rfl : t = w := Option.some.inj h_w
    change Scanned (v :: s.windows) first.start t
    rw [← h_stop]
    obtain ⟨h_none, rfl⟩ | h_old := getLast?_scan h_first
    · rw [h_none]
      exact spans_singleton
    · have h_some : s.windows ≠ [] := List.ne_nil_of_mem (List.mem_of_getLast? h_old)
      -- the scans reach somewhere, as there is one
      obtain ⟨reach, h_reach⟩ : ∃ reach, s.horizon = some reach := by
        unfold State.horizon
        cases s.lastRunTime with
        | some w => exact ⟨w, rfl⟩
        | none => exact ⟨_, by rw [List.head?_eq_some_head h_some]; rfl⟩
      exact (h.spans first reach h_old h_reach).cons (h_back h_some reach h_reach)

theorem Inv.scan (h : Inv s) (h_stop : ∀ w, s.lastRunTime = some w → w ≤ v.stop)
    (h_back : s.lastRunTime = none → ∀ u ∈ s.windows.head?, v.start ≤ u.stop) :
    Inv (s.scan v) := by
  refine ⟨h.delayed, fun first reach h_first h_reach => ?_⟩
  change Scanned (v :: s.windows) first.start reach
  cases h_last : s.lastRunTime with
  | some w =>
    obtain rfl : w = reach := by
      rw [horizon_eq_some (s := s.scan v) h_last] at h_reach
      exact Option.some.inj h_reach
    obtain ⟨h_none, rfl⟩ | h_old := getLast?_scan h_first
    · rw [h_none]
      exact spans_singleton.mono (h_stop w h_last)
    · exact (h.spans first w h_old (horizon_eq_some h_last)).weaken
  | none =>
    obtain rfl : (v.stop : ℚ) = reach := by
      rw [horizon_of_none (s := s.scan v) h_last] at h_reach
      exact Option.some.inj h_reach
    obtain ⟨h_none, rfl⟩ | h_old := getLast?_scan h_first
    · rw [h_none]
      exact spans_singleton
    · have h_some : s.windows ≠ [] := List.ne_nil_of_mem (List.mem_of_getLast? h_old)
      have h_head : s.windows.head? = some (s.windows.head h_some) := List.head?_eq_some_head h_some
      have h_reach : s.horizon = some ((s.windows.head h_some).stop : ℚ) := by
        rw [horizon_of_none h_last, h_head]
        rfl
      exact (h.spans first _ h_old h_reach).cons
        (Int.cast_le.mpr (h_back h_last (s.windows.head h_some) h_head))

/-! ### One run -/

/-- What a run that goes well does. -/
structure Advanced (s t : State) : Prop where
  inv : Inv t
  monotone : ∀ w, s.lastRunTime = some w → ∃ w', t.lastRunTime = some w' ∧ w ≤ w'

theorem Inv.refl (h : Inv s) : Advanced s s := ⟨h, fun w h_w => ⟨w, h_w, le_rfl⟩⟩

theorem Advanced.trans {s' s'' : State} (h : Advanced s s') (h' : Advanced s' s'') :
    Advanced s s'' := by
  refine ⟨h'.inv, fun w h_w => ?_⟩
  obtain ⟨w', h_w', h_le⟩ := h.monotone w h_w
  obtain ⟨w'', h_w'', h_le'⟩ := h'.monotone w' h_w'
  exact ⟨w'', h_w'', h_le.trans h_le'⟩

theorem perform_cases {period : Option Period} {scan : Scan} (h : scan.window period = .ok v)
    (recorded : ℕ) (scanned : Bool) (s : State) :
    0 < recorded ∧ perform period scan recorded scanned s = (s.scan v).record scan.scanTime ∨
      recorded = 0 ∧ scanned = true ∧ perform period scan recorded scanned s = s.scan v ∨
      recorded = 0 ∧ scanned = false ∧ perform period scan recorded scanned s = s := by
  rw [perform, h]
  obtain rfl | h_recorded := Nat.eq_zero_or_pos recorded
  · cases scanned
    · exact .inr (.inr ⟨rfl, rfl, rfl⟩)
    · exact .inr (.inl ⟨rfl, rfl, rfl⟩)
  · exact .inl ⟨h_recorded, if_pos h_recorded⟩

theorem Advanced.record {s' : State} (h : Inv (s'.record t))
    (h_after : ∀ w, s.lastRunTime = some w → w ≤ t) : Advanced s (s'.record t) :=
  ⟨h, fun w h_w => ⟨t, rfl, h_after w h_w⟩⟩

theorem advanced_perform (h : Inv s) {scan : Scan}
    (h_window : scan.window policy.period =
      .ok ⟨timestamp scan.scanTime - periodSeconds, timestamp scan.scanTime⟩)
    (h_time : scan.scanTime = s.clock - ingestDelaySeconds)
    (h_second : a.Succeeds → OnSecond scan.scanTime)
    (h_back : a.Succeeds → s.windows ≠ [] → (s.lastRunTime = none ∨ 0 < a.recorded) →
      ∀ reach, s.horizon = some reach → scan.scanTime - periodSeconds ≤ reach) :
    Advanced s (perform policy.period scan a.recorded a.scanned s) := by
  have h_after : ∀ w, s.lastRunTime = some w → w ≤ scan.scanTime := by
    intro w h_w
    rw [h_time]
    exact h.delayed w h_w
  have h_start : a.Succeeds →
      ((timestamp scan.scanTime - periodSeconds : ℤ) : ℚ) = scan.scanTime - periodSeconds := by
    intro h_succeeds
    rw [Int.cast_sub, show (timestamp scan.scanTime : ℚ) = scan.scanTime from h_second h_succeeds]
  obtain ⟨h_recorded, h_eq⟩ | ⟨-, h_scanned, h_eq⟩ | ⟨-, -, h_eq⟩ :=
    perform_cases h_window a.recorded a.scanned s <;> rw [h_eq]
  · have h_succeeds : a.Succeeds := .inl h_recorded
    refine .record (h.record (h_second h_succeeds) h_time.le fun h_some reach h_reach => ?_) h_after
    rw [h_start h_succeeds]
    exact h_back h_succeeds h_some (.inr h_recorded) reach h_reach
  · have h_succeeds : a.Succeeds := .inr h_scanned
    refine ⟨h.scan (fun w h_w => ?_) fun h_none u h_u => ?_, fun w h_w => ⟨w, h_w, le_rfl⟩⟩
    · rw [show (timestamp scan.scanTime : ℚ) = scan.scanTime from h_second h_succeeds]
      exact h_after w h_w
    · rw [← Int.cast_le (R := ℚ), h_start h_succeeds]
      refine h_back h_succeeds ?_ (.inl h_none) _ ?_
      · rintro h_nil
        rw [h_nil] at h_u
        cases h_u
      · rw [horizon_of_none h_none, h_u]
        rfl
  · exact h.refl

/-- **Making up.** The scans of the missed periods follow one another without a gap, and end before
the safe time. -/
theorem advanced_backfill (h_pos : 0 < periodSeconds) (scanned : Bool) (count recorded : ℕ)
    {last : ℚ} (h : Inv s) (h_last : s.lastRunTime = some last)
    (h_second : 0 < recorded → OnSecond last)
    (h_clock : last + count * periodSeconds ≤ s.clock - ingestDelaySeconds) :
    Advanced s (backfill policy periodSeconds scanned count recorded last s) := by
  have h_period : (0 : ℚ) < periodSeconds := Int.cast_pos.mpr h_pos
  induction count generalizing recorded last s with
  | zero => exact h.refl
  | succ count ih =>
    have h_same : ∀ w, s.lastRunTime = some w → last = w := fun w h_w =>
      Option.some.inj (h_last.symm.trans h_w)
    cases recorded with
    | zero =>
      -- the scan may succeed, and its window starts where the last one has ended
      obtain ⟨h_recorded, -⟩ | ⟨-, -, h_eq⟩ | ⟨-, -, h_eq⟩ :=
        perform_cases (window_backfillScan policy.period periodSeconds last) 0 scanned s
      · exact absurd h_recorded (lt_irrefl 0)
      · rw [backfill, h_eq]
        refine ⟨h.scan (fun w h_w => ?_) fun h_none => ?_, fun w h_w => ⟨w, h_w, le_rfl⟩⟩
        · obtain rfl := h_same w h_w
          have h_floor : last < timestamp last + 1 := Int.lt_floor_add_one last
          have h_one : (1 : ℚ) ≤ periodSeconds := by exact_mod_cast h_pos
          rw [timestamp_add, Int.cast_add]
          linarith
        · rw [h_last] at h_none
          cases h_none
      · rw [backfill, h_eq]
        exact h.refl
    | succ recorded =>
      have h_here : OnSecond last := h_second (Nat.succ_pos recorded)
      have h_split : last + ((count + 1 : ℕ) : ℚ) * periodSeconds =
          last + periodSeconds + count * periodSeconds := by
        push_cast
        ring
      rw [h_split] at h_clock
      have h_rest : (0 : ℚ) ≤ count * periodSeconds :=
        mul_nonneg (Nat.cast_nonneg count) h_period.le
      have h_record : Advanced s ((s.scan ⟨timestamp last, timestamp (last + periodSeconds)⟩).record
          (last + periodSeconds)) := by
        refine .record (h.record ((onSecond_add periodSeconds).mpr h_here) (by linarith) ?_) ?_
        · intro _ reach h_reach
          rw [horizon_eq_some h_last] at h_reach
          obtain rfl := Option.some.inj h_reach
          exact timestamp_le last
        · intro w h_w
          obtain rfl := h_same w h_w
          linarith
      exact h_record.trans (ih recorded h_record.inv rfl
        (fun _ => (onSecond_add periodSeconds).mpr h_here) h_clock)

theorem le_of_backfillCount (h_pos : 0 < periodSeconds) {safeTime last : ℚ}
    (h_last : last ≤ safeTime) :
    last + ((min (backfillCount periodSeconds safeTime last) maxBackfillCount).toNat : ℚ) *
      periodSeconds ≤ safeTime := by
  have h_gap : max (safeTime - last) 0 = safeTime - last := max_eq_left (sub_nonneg.mpr h_last)
  have h_nonneg : 0 ≤ gapSeconds safeTime last :=
    le_min (le_max_right _ _) (by norm_num [maxBackfillSeconds])
  have h_fit := toNat_periods_mul_le (Int.cast_pos.mpr h_pos) h_nonneg
    (show 0 ≤ maxBackfillCount by decide)
  have h_capped : gapSeconds safeTime last ≤ safeTime - last := h_gap ▸ min_le_left _ _
  rw [backfillCount]
  linarith

theorem scanLogPolicyTask_disabled (h : ¬policy.enable = true) (s : State) (a : Execution) :
    scanLogPolicyTask policy s a = s.tick a.now := by
  rw [scanLogPolicyTask, if_neg h]

theorem scanLogPolicyTask_first (h : policy.enable = true) (h_last : s.lastRunTime = none) :
    scanLogPolicyTask policy s a =
      perform policy.period { scanTime := a.safeTime } a.recorded a.scanned (s.tick a.now) := by
  rw [scanLogPolicyTask, if_pos h, show (s.tick a.now).lastRunTime = none from h_last]

theorem scanLogPolicyTask_safe (h : policy.enable = true) {last : ℚ}
    (h_last : s.lastRunTime = some last)
    (h_period : periodToSeconds policy.period = .ok periodSeconds)
    (h_count : backfillCount periodSeconds a.safeTime last ≤ 1) :
    scanLogPolicyTask policy s a = perform policy.period (safeScan periodSeconds a.safeTime)
      a.recorded a.scanned (s.tick a.now) := by
  rw [scanLogPolicyTask, if_pos h, show (s.tick a.now).lastRunTime = some last from h_last]
  dsimp only
  rw [h_period]
  exact if_pos h_count

theorem scanLogPolicyTask_backfill (h : policy.enable = true) {last : ℚ}
    (h_last : s.lastRunTime = some last)
    (h_period : periodToSeconds policy.period = .ok periodSeconds)
    (h_count : ¬backfillCount periodSeconds a.safeTime last ≤ 1) :
    scanLogPolicyTask policy s a = backfill policy periodSeconds a.scanned
      (min (backfillCount periodSeconds a.safeTime last) maxBackfillCount).toNat a.recorded last
        (s.tick a.now) := by
  rw [scanLogPolicyTask, if_pos h, show (s.tick a.now).lastRunTime = some last from h_last]
  dsimp only
  rw [h_period]
  exact if_neg h_count

/-- **One run.** At a later time, a timely run keeps the coverage and moves `last_run_time`
forward. -/
theorem advanced_task (h_period : periodToSeconds policy.period = .ok periodSeconds)
    (h_pos : 0 < periodSeconds) (h : Inv s) (h_now : s.clock ≤ a.now)
    (h_timely : Timely policy periodSeconds s a) : Advanced s (scanLogPolicyTask policy s a) := by
  have h_tick : Inv (s.tick a.now) := h.tick h_now
  suffices h_rest : Advanced (s.tick a.now) (scanLogPolicyTask policy s a) from
    ⟨h_rest.inv, h_rest.monotone⟩
  by_cases h_enable : policy.enable = true
  · have h_timely := h_timely h_enable
    match h_last : s.lastRunTime with
    | none =>
      rw [h_last] at h_timely
      rw [scanLogPolicyTask_first h_enable h_last]
      refine advanced_perform h_tick (window_default h_period a.safeTime) rfl
        (fun h_succeeds => (h_timely h_succeeds).1) fun h_succeeds _ _ reach h_reach => ?_
      rw [horizon_of_none (show (s.tick a.now).lastRunTime = none from h_last)] at h_reach
      obtain ⟨u, h_u, rfl⟩ := Option.map_eq_some_iff.mp h_reach
      exact (h_timely h_succeeds).2 u h_u
    | some last =>
      rw [h_last] at h_timely
      dsimp only at h_timely
      by_cases h_count : backfillCount periodSeconds a.safeTime last ≤ 1
      · rw [if_pos h_count] at h_timely
        rw [scanLogPolicyTask_safe h_enable h_last h_period h_count]
        refine advanced_perform h_tick (window_safeScan policy.period periodSeconds a.safeTime) rfl
          h_timely.1 fun _ h_windows h_or reach h_reach => ?_
        rw [horizon_eq_some (s := s.tick a.now) h_last] at h_reach
        obtain rfl := Option.some.inj h_reach
        rw [show (s.tick a.now).lastRunTime = some last from h_last] at h_or
        exact h_timely.2 (h_or.resolve_left nofun) h_windows
      · rw [if_neg h_count] at h_timely
        rw [scanLogPolicyTask_backfill h_enable h_last h_period h_count]
        exact advanced_backfill h_pos a.scanned _ a.recorded h_tick h_last h_timely
          (le_of_backfillCount h_pos (h_tick.delayed last h_last))
  · rw [scanLogPolicyTask_disabled h_enable]
    exact h_tick.refl

/-! ### Every scan recorded -/

def Settled (s : State) : Prop :=
  ∀ v ∈ s.windows, v.start ≤ v.stop ∧ ∃ w, s.lastRunTime = some w ∧ v.stop ≤ w

theorem onSecond_of_covered (h : Settled s) (h_covered : Covered s) (h_some : s.windows ≠ [])
    {w : ℚ} (h_w : s.lastRunTime = some w) : OnSecond w := by
  have h_stop : ∀ v ∈ s.windows, v.start ≤ v.stop ∧ (v.stop : ℚ) ≤ w := by
    intro v h_v
    obtain ⟨h_window, w', h_w', h_le⟩ := h v h_v
    obtain rfl := Option.some.inj (h_w.symm.trans h_w')
    exact ⟨h_window, h_le⟩
  have h_first := List.getLast?_eq_some_getLast h_some
  obtain ⟨h_window, h_le⟩ := h_stop _ (List.getLast_mem h_some)
  have h_start : ((s.windows.getLast h_some).start : ℚ) ≤ w :=
    (Int.cast_le.mpr h_window).trans h_le
  -- the last instant lies in a window, that does not end after it
  obtain ⟨v, h_v, -, h_end⟩ := h_covered _ w h_first h_w w h_start le_rfl
  exact .of_le h_end (h_stop v h_v).2

theorem Settled.record (h : Settled s) (h_window : v.start ≤ v.stop) (h_stop : (v.stop : ℚ) ≤ t)
    (h_after : ∀ w, s.lastRunTime = some w → w ≤ t) : Settled ((s.scan v).record t) := by
  intro u h_u
  obtain rfl | h_old := List.mem_cons.mp h_u
  · exact ⟨h_window, t, rfl, h_stop⟩
  · obtain ⟨h_start, w, h_w, h_le⟩ := h u h_old
    exact ⟨h_start, t, rfl, h_le.trans (h_after w h_w)⟩

theorem start_le_of_covered (h : Settled s) (h_covered : Covered s) (h_window : v.start ≤ v.stop)
    (h_new : Covered ((s.scan v).record t)) (h_stop : (v.stop : ℚ) = t) (h_some : s.windows ≠ [])
    {w : ℚ} (h_w : s.lastRunTime = some w) : (v.start : ℚ) ≤ w := by
  have h_first := List.getLast?_eq_some_getLast h_some
  have h_le : ∀ u ∈ s.windows, (u.stop : ℚ) ≤ w := by
    intro u h_u
    obtain ⟨-, w', h_w', h_le⟩ := h u h_u
    obtain rfl := Option.some.inj (h_w.symm.trans h_w')
    exact h_le
  have h_start : ((s.windows.getLast h_some).start : ℚ) ≤ w :=
    (Int.cast_le.mpr (h _ (List.getLast_mem h_some)).1).trans (h_le _ (List.getLast_mem h_some))
  refine (spans_cons_iff (h_covered _ w h_first h_w) (Int.cast_le.mpr h_window) h_start h_le).mp ?_
  rw [h_stop]
  refine h_new _ t ?_ rfl
  change (v :: s.windows).getLast? = _
  rw [List.getLast?_cons, h_first]
  rfl

theorem timestamp_sub_le (h_pos : 0 < periodSeconds) (t : ℚ) :
    timestamp t - periodSeconds ≤ timestamp t :=
  sub_le_self _ h_pos.le

theorem settled_perform (h : Settled s) {period : Option Period} {scan : Scan}
    (h_window : scan.window period = .ok v) (h_start : v.start ≤ v.stop)
    (h_stop : (v.stop : ℚ) ≤ scan.scanTime)
    (h_after : ∀ w, s.lastRunTime = some w → w ≤ scan.scanTime) (recorded : ℕ) :
    Settled (perform period scan recorded false s) := by
  obtain ⟨-, h_eq⟩ | ⟨-, h_scanned, -⟩ | ⟨-, -, h_eq⟩ := perform_cases h_window recorded false s
  · rw [h_eq]
    exact h.record h_start h_stop h_after
  · cases h_scanned
  · rw [h_eq]
    exact h

variable (policy) in
theorem settled_backfill (h_pos : 0 < periodSeconds) (count recorded : ℕ) {last : ℚ}
    (h : Settled s) (h_last : s.lastRunTime = some last) :
    Settled (backfill policy periodSeconds false count recorded last s) ∧
      (∃ n : ℤ, (backfill policy periodSeconds false count recorded last s).lastRunTime =
        some (last + n)) ∧
      (s.windows ≠ [] ∨ 0 < count ∧ 0 < recorded →
        (backfill policy periodSeconds false count recorded last s).windows ≠ []) := by
  have h_period : (0 : ℚ) < periodSeconds := Int.cast_pos.mpr h_pos
  induction count generalizing recorded last s with
  | zero =>
    refine ⟨h, ⟨0, ?_⟩, fun h_or => h_or.resolve_right fun h_both => absurd h_both.1 (lt_irrefl 0)⟩
    rw [Int.cast_zero, add_zero]
    exact h_last
  | succ count ih =>
    cases recorded with
    | zero =>
      refine ⟨h, ⟨0, ?_⟩, fun h_or => h_or.resolve_right fun h_both =>
        absurd h_both.2 (lt_irrefl 0)⟩
      rw [Int.cast_zero, add_zero]
      exact h_last
    | succ recorded =>
      have h_after : ∀ w, s.lastRunTime = some w → w ≤ last + periodSeconds := by
        intro w h_w
        obtain rfl := Option.some.inj (h_last.symm.trans h_w)
        linarith
      have h_window : timestamp last ≤ timestamp (last + periodSeconds) := by
        rw [timestamp_add]
        omega
      have h_record : Settled ((s.scan ⟨timestamp last, timestamp (last + periodSeconds)⟩).record
          (last + periodSeconds)) :=
        h.record h_window (timestamp_le (last + periodSeconds)) h_after
      obtain ⟨h_settled, ⟨n, h_n⟩, h_windows⟩ := ih recorded h_record rfl
      refine ⟨h_settled, ⟨periodSeconds + n, ?_⟩, fun _ => h_windows (.inl (List.cons_ne_nil _ _))⟩
      rw [Int.cast_add, ← add_assoc]
      exact h_n

/-- **Recorded scans, and the condition.** Where every scan that succeeds is recorded, a run that
keeps the coverage is timely. -/
theorem timely_of_covered (h_period : periodToSeconds policy.period = .ok periodSeconds)
    (h_pos : 0 < periodSeconds) (h : Inv s) (h_settled : Settled s) (h_now : s.clock ≤ a.now)
    (h_scanned : a.scanned = false) :
    Settled (scanLogPolicyTask policy s a) ∧
      (Covered (scanLogPolicyTask policy s a) → Timely policy periodSeconds s a) := by
  have h_tick : Inv (s.tick a.now) := h.tick h_now
  have h_settled : Settled (s.tick a.now) := h_settled
  have h_recorded : a.Succeeds → 0 < a.recorded := by
    rintro (h_recorded | h_true)
    · exact h_recorded
    · rw [h_scanned] at h_true
      cases h_true
  by_cases h_enable : policy.enable = true
  · match h_last : s.lastRunTime with
    | none =>
      rw [scanLogPolicyTask_first h_enable h_last, h_scanned]
      have h_window := window_default h_period a.safeTime
      have h_next := settled_perform h_settled h_window (timestamp_sub_le h_pos a.safeTime)
        (timestamp_le a.safeTime) h_tick.delayed a.recorded
      have h_nil : s.windows = [] := by
        -- a scan that has succeeded would be recorded
        rw [List.eq_nil_iff_forall_not_mem]
        intro v h_v
        obtain ⟨-, w, h_w, -⟩ := h_settled v h_v
        cases h_last.symm.trans h_w
      refine ⟨h_next, fun h_covered _ => ?_⟩
      rw [h_last, h_nil]
      refine fun h_succeeds => ⟨?_, nofun⟩
      obtain ⟨-, h_eq⟩ | ⟨h_zero, -⟩ | ⟨h_zero, -⟩ :=
        perform_cases h_window a.recorded false (s.tick a.now)
      · rw [h_eq] at h_covered h_next
        exact onSecond_of_covered h_next h_covered (List.cons_ne_nil _ _) rfl
      all_goals exact absurd h_zero (h_recorded h_succeeds).ne'
    | some last =>
      have h_some : (s.tick a.now).lastRunTime = some last := h_last
      by_cases h_count : backfillCount periodSeconds a.safeTime last ≤ 1
      · rw [scanLogPolicyTask_safe h_enable h_last h_period h_count, h_scanned]
        have h_window := window_safeScan policy.period periodSeconds a.safeTime
        have h_start := timestamp_sub_le h_pos a.safeTime
        have h_next := settled_perform h_settled h_window h_start
          (timestamp_le a.safeTime) h_tick.delayed a.recorded
        refine ⟨h_next, fun h_covered _ => ?_⟩
        rw [h_last]
        dsimp only
        rw [if_pos h_count]
        obtain ⟨-, h_eq⟩ | ⟨h_zero, -⟩ | ⟨h_zero, -⟩ :=
          perform_cases h_window a.recorded false (s.tick a.now)
        · rw [h_eq] at h_covered h_next
          have h_second : OnSecond a.safeTime :=
            onSecond_of_covered h_next h_covered (List.cons_ne_nil _ _) rfl
          refine ⟨fun _ => h_second, fun _ h_windows => ?_⟩
          have h_back := start_le_of_covered h_settled h_tick.covered h_start h_covered h_second
            h_windows h_some
          rwa [Int.cast_sub, show (timestamp a.safeTime : ℚ) = a.safeTime from h_second] at h_back
        all_goals exact ⟨fun h_succeeds => absurd h_zero (h_recorded h_succeeds).ne',
          fun h_pos => absurd h_zero h_pos.ne'⟩
      · rw [scanLogPolicyTask_backfill h_enable h_last h_period h_count, h_scanned]
        obtain ⟨h_next, ⟨n, h_n⟩, h_windows⟩ := settled_backfill policy h_pos
          (min (backfillCount periodSeconds a.safeTime last) maxBackfillCount).toNat a.recorded
          h_settled h_some
        refine ⟨h_next, fun h_covered _ => ?_⟩
        rw [h_last]
        dsimp only
        rw [if_neg h_count]
        intro h_positive
        have h_some :
            0 < (min (backfillCount periodSeconds a.safeTime last) maxBackfillCount).toNat := by
          have h_cap : maxBackfillCount = 10 := rfl
          omega
        exact (onSecond_add n).mp
          (onSecond_of_covered h_next h_covered (h_windows (.inr ⟨h_some, h_positive⟩)) h_n)
  · rw [scanLogPolicyTask_disabled h_enable]
    exact ⟨h_settled, fun _ h_true => absurd h_true h_enable⟩

/-! ### Runs -/

def start (lastRunTime : Option ℚ) (clock : ℚ) : State := { lastRunTime, clock }

theorem Inv.start {lastRunTime : Option ℚ} {clock : ℚ}
    (h : ∀ w, lastRunTime = some w → w ≤ clock - ingestDelaySeconds) :
    Inv (start lastRunTime clock) :=
  ⟨h, fun _ _ h_first => nomatch h_first⟩

/-- **Coverage of the logs.** In timely runs every instant up to `last_run_time` is scanned, and
only in these. -/
theorem coverage (policy : Policy) (periodSeconds : ℤ)
    (h_period : periodToSeconds policy.period = .ok periodSeconds) (h_pos : 0 < periodSeconds)
    (lastRunTime : Option ℚ) (clock : ℚ)
    (h_start : ∀ w, lastRunTime = some w → w ≤ clock - ingestDelaySeconds) (as : List Execution)
    (h_later : Along (scanLogPolicyTask policy) (fun s a _ => s.clock ≤ a.now)
      (start lastRunTime clock) as) :
    (Along (scanLogPolicyTask policy) (fun s a _ => Timely policy periodSeconds s a)
        (start lastRunTime clock) as →
      Along (scanLogPolicyTask policy) (fun s _ t => Kept s t) (start lastRunTime clock) as) ∧
    (Along (scanLogPolicyTask policy) (fun _ a _ => a.scanned = false)
        (start lastRunTime clock) as →
      (Along (scanLogPolicyTask policy) (fun s _ t => Kept s t) (start lastRunTime clock) as ↔
        Along (scanLogPolicyTask policy) (fun s a _ => Timely policy periodSeconds s a)
          (start lastRunTime clock) as)) := by
  have h_kept : ∀ {s : State} {a : Execution}, Inv s → s.clock ≤ a.now →
      Timely policy periodSeconds s a →
        Inv (scanLogPolicyTask policy s a) ∧ Kept s (scanLogPolicyTask policy s a) := by
    intro s a h h_now h_timely
    have h_advanced := advanced_task h_period h_pos h h_now h_timely
    exact ⟨h_advanced.inv, h_advanced.monotone, h_advanced.inv.delayed, h_advanced.inv.covered⟩
  constructor
  · intro h_timely
    exact (h_later.and h_timely).trans (fun s a h h_step => h_kept h h_step.1 h_step.2)
      (Inv.start h_start)
  · intro h_scanned
    refine along_iff (h_later.and h_scanned) (I := fun s => Inv s ∧ Settled s) ?_
      ⟨Inv.start h_start, nofun⟩
    rintro s a ⟨h, h_settled⟩ ⟨h_now, h_recorded⟩
    obtain ⟨h_next, h_timely⟩ := timely_of_covered h_period h_pos h h_settled h_now h_recorded
    have h_iff : Kept s (scanLogPolicyTask policy s a) ↔ Timely policy periodSeconds s a :=
      ⟨fun h_kept => h_timely h_kept.covered, fun h_timely => (h_kept h h_now h_timely).2⟩
    exact ⟨h_iff, fun h_step => ⟨(h_kept h h_now (h_iff.mp h_step)).1, h_next⟩⟩

section Examples

private def everyFiveMinutes : Policy where
  period := some ⟨some "min", some 5⟩

private theorem scan_first : scanLogPolicyTask everyFiveMinutes (start none 60) ⟨60, 1, false⟩ =
    { lastRunTime := some 0, clock := 60, windows := [⟨-300, 0⟩] } := by
  decide +kernel

private theorem onSecond_safeTime (n : ℕ) (recorded : ℕ) :
    OnSecond (Execution.safeTime ⟨n + 60, recorded, false⟩) := by
  rw [Execution.safeTime, ingestDelaySeconds, add_sub_cancel_right, OnSecond, timestamp,
    Int.floor_natCast, Int.cast_natCast]

/-- Two runs five minutes apart. -/
theorem timely_punctual :
    Along (scanLogPolicyTask everyFiveMinutes) (fun s _ t => Kept s t) (start none 60)
      [⟨60, 1, false⟩, ⟨360, 1, false⟩] := by
  refine (coverage everyFiveMinutes 300 rfl (by decide) none 60 nofun
    [⟨60, 1, false⟩, ⟨360, 1, false⟩] ⟨le_rfl, ?_, trivial⟩).1 ⟨?_, ?_, trivial⟩
  · show (60 : ℚ) ≤ 360
    norm_num
  · intro _ _
    have h_second := onSecond_safeTime 0 1
    norm_num at h_second
    exact ⟨h_second, nofun⟩
  · rw [scan_first]
    intro _
    have h_count : backfillCount 300 (Execution.safeTime ⟨360, 1, false⟩) 0 ≤ 1 := by
      decide +kernel
    dsimp only
    rw [if_pos h_count]
    have h_second := onSecond_safeTime 300 1
    norm_num at h_second
    refine ⟨fun _ => h_second, fun _ _ => ?_⟩
    norm_num [Execution.safeTime, ingestDelaySeconds]

/-- **Logs that no scan sees.** The second run comes eight minutes after the first and scans the
last five of them. -/
theorem not_coverage :
    ¬∀ (policy : Policy) (periodSeconds : ℤ), policy.enable = true →
      periodToSeconds policy.period = .ok periodSeconds → 0 < periodSeconds →
        ∀ (clock : ℚ) (as : List Execution),
          Along (scanLogPolicyTask policy) (fun s a _ => s.clock ≤ a.now) (start none clock) as →
          Along (scanLogPolicyTask policy) (fun s a _ => ∀ w, s.lastRunTime = some w →
            a.safeTime - w < maxBackfillSeconds) (start none clock) as →
          Along (scanLogPolicyTask policy) (fun s _ t => Kept s t) (start none clock) as := by
  intro h
  have h_later : Along (scanLogPolicyTask everyFiveMinutes) (fun s a _ => s.clock ≤ a.now)
      (start none 60) [⟨60, 1, false⟩, ⟨540, 1, false⟩] := by
    refine ⟨le_rfl, ?_, trivial⟩
    show (60 : ℚ) ≤ 540
    norm_num
  have h_gaps : Along (scanLogPolicyTask everyFiveMinutes) (fun s a _ => ∀ w,
      s.lastRunTime = some w → a.safeTime - w < maxBackfillSeconds) (start none 60)
        [⟨60, 1, false⟩, ⟨540, 1, false⟩] := by
    refine ⟨nofun, fun w h_w => ?_, trivial⟩
    rw [scan_first] at h_w
    obtain rfl := Option.some.inj h_w
    norm_num [Execution.safeTime, ingestDelaySeconds, maxBackfillSeconds]
  obtain ⟨-, h_kept, -⟩ := h everyFiveMinutes 300 rfl rfl (by decide) 60 _ h_later h_gaps
  have h_state : scanLogPolicyTask everyFiveMinutes
      (scanLogPolicyTask everyFiveMinutes (start none 60) ⟨60, 1, false⟩) ⟨540, 1, false⟩ =
        { lastRunTime := some 480, clock := 540, windows := [⟨180, 480⟩, ⟨-300, 0⟩] } := by
    decide +kernel
  rw [h_state] at h_kept
  obtain ⟨v, h_v, h_start, h_stop⟩ :=
    h_kept.covered ⟨-300, 0⟩ 480 rfl rfl 60 (by norm_num) (by norm_num)
  rcases List.mem_cons.mp h_v with rfl | h_first
  · norm_num at h_start
  · rw [List.mem_singleton.mp h_first] at h_stop
    norm_num at h_stop

end Examples

end Log.ScanCoverage
