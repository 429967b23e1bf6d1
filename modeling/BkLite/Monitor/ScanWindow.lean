import BkLite.Framework.Coverage
import BkLite.Framework.Runs

/-!
# The windows of a policy's scans

`tasks/monitor_policy.py`: `scan_policy_task` scans at the present, or makes up for the periods
since the last successful scan one by one, with two caps. A scan at `t` looks back by the period
of the policy, and `last_run_time` is written only after it has succeeded.

Times are rational numbers of seconds.
-/

namespace Monitor
namespace ScanWindow

/-! ### The task -/

structure Period where
  type : String
  value : ℤ
deriving DecidableEq

def periodToSeconds : Option Period → Except String ℤ
  | none => .error "policy period is empty"
  | some period =>
    if period.type = "min" then .ok (period.value * 60)
    else if period.type = "hour" then .ok (period.value * 3600)
    else if period.type = "day" then .ok (period.value * 86400)
    else .error ("invalid period type: " ++ period.type)

def maxBackfillCount : ℤ := 30

def maxBackfillSeconds : ℚ := 24 * 3600

structure Policy where
  enable : Bool := true
  period : Option Period

structure State where
  /-- `last_run_time`. -/
  lastRunTime : Option ℚ
  /-- The time of the last execution of the task. -/
  clock : ℚ
  /-- The times of the successful scans, the last one first. -/
  scans : List ℚ := []
deriving DecidableEq

/-- An execution of the task. The scans that follow the first `completed` ones raise. -/
structure Execution where
  now : ℚ
  completed : ℕ

namespace State

def tick (s : State) (now : ℚ) : State := { s with clock := now }

/-- `_run_scan_and_record_success`, where the scan succeeds. -/
def record (s : State) (scanTime : ℚ) : State :=
  { s with lastRunTime := some scanTime, scans := scanTime :: s.scans }

end State

/-- The scans for `count` periods after `last`. -/
def backfill (periodSeconds : ℤ) : ℕ → ℕ → ℚ → State → State
  | 0, _, _, s => s
  | _ + 1, 0, _, s => s
  | count + 1, completed + 1, last, s =>
    backfill periodSeconds count completed (last + periodSeconds) (s.record (last + periodSeconds))

def cappedGap (now last : ℚ) : ℚ := min (now - last) maxBackfillSeconds

def scanPolicyTask (policy : Policy) (s : State) (a : Execution) : State :=
  let s := s.tick a.now
  if policy.enable then
    match s.lastRunTime with
    | none => if 0 < a.completed then s.record a.now else s
    | some last =>
      match periodToSeconds policy.period with
      | .error _ => s
      | .ok periodSeconds =>
        let backfillCount := ⌊cappedGap a.now last / periodSeconds⌋
        if backfillCount ≤ 1 then
          if 0 < a.completed then s.record a.now else s
        else backfill periodSeconds (min backfillCount maxBackfillCount).toNat a.completed last s
  else s

/-! ### The law -/

/-- `last_run_time` does not go back and is not in the future. -/
def Monotone (s t : State) : Prop :=
  (∀ w, s.lastRunTime = some w → ∃ w', t.lastRunTime = some w' ∧ w ≤ w') ∧
  ∀ w, t.lastRunTime = some w → w ≤ t.clock

/-- From the start of the window of the first scan to `last_run_time`, every instant lies in the
window of a successful scan. -/
def Covered (periodSeconds : ℤ) (s : State) : Prop :=
  ∀ first w, s.scans.getLast? = some first → s.lastRunTime = some w →
    Coverage.Covers (periodSeconds : ℚ) s.scans (first - periodSeconds) w

/-- A scan at the present comes in its period, or late enough to make up for two. -/
def Timely (policy : Policy) (periodSeconds : ℤ) (s : State) (a : Execution) : Prop :=
  policy.enable = true → s.scans ≠ [] → 0 < a.completed → ∀ w, s.lastRunTime = some w →
    a.now - w ≤ periodSeconds ∨ 2 * periodSeconds ≤ cappedGap a.now w

/-! ### Invariant -/

/-- The last scan is the one that wrote `last_run_time`. -/
structure Inv (s : State) : Prop where
  clock : ∀ w, s.lastRunTime = some w → w ≤ s.clock
  scans : ∀ t ∈ s.scans, ∃ w, s.lastRunTime = some w ∧ t ≤ w

section Steps

variable {policy : Policy} {s : State} {periodSeconds : ℤ}

theorem Inv.tick (h : Inv s) {now : ℚ} (h_now : s.clock ≤ now) : Inv (s.tick now) where
  clock w h_w := (h.clock w h_w).trans h_now
  scans := h.scans

theorem Inv.record (h : Inv s) {t : ℚ} (h_clock : t ≤ s.clock)
    (h_last : ∀ w, s.lastRunTime = some w → w ≤ t) : Inv (s.record t) where
  clock w h_w := by
    cases h_w
    exact h_clock
  scans t' h_t' := by
    refine ⟨t, rfl, ?_⟩
    rcases List.mem_cons.mp h_t' with rfl | h_old
    · exact le_rfl
    · obtain ⟨w, h_w, h_le⟩ := h.scans t' h_old
      exact h_le.trans (h_last w h_w)

theorem getLast?_record {t first : ℚ} (h : (s.record t).scans.getLast? = some first) :
    s.scans = [] ∧ first = t ∨ s.scans.getLast? = some first := by
  unfold State.record at h
  cases h_scans : s.scans with
  | nil =>
    rw [h_scans] at h
    exact Or.inl ⟨rfl, (Option.some.inj h).symm⟩
  | cons t' ts =>
    rw [h_scans] at h
    exact Or.inr h

/-- **One scan.** A scan keeps the coverage exactly if it is the first, or its window reaches
back to `last_run_time`. -/
theorem covered_record_iff (h_inv : Inv s) (h : Covered periodSeconds s)
    (h_pos : 0 < periodSeconds) (t : ℚ) :
    Covered periodSeconds (s.record t) ↔
      (s.scans ≠ [] → ∀ w, s.lastRunTime = some w → t - periodSeconds ≤ w) := by
  have h_nonneg : (0 : ℚ) ≤ periodSeconds := by exact_mod_cast h_pos.le
  constructor
  · intro h_covered h_some w h_w
    obtain ⟨first, h_first⟩ : ∃ first, s.scans.getLast? = some first :=
      ⟨_, List.getLast?_eq_some_getLast h_some⟩
    have h_old := h first w h_first h_w
    have h_scans : ∀ t' ∈ s.scans, t' ≤ w := by
      intro t' h_t'
      obtain ⟨w', h_w', h_le⟩ := h_inv.scans t' h_t'
      rw [h_w] at h_w'
      cases h_w'
      exact h_le
    have h_start : first - periodSeconds ≤ w :=
      (sub_le_self first h_nonneg).trans (h_scans first (List.mem_of_getLast? h_first))
    have h_new : (s.record t).scans.getLast? = some first := by
      show (t :: s.scans).getLast? = some first
      rw [List.getLast?_cons, h_first]
      rfl
    exact (Coverage.covers_cons_iff h_old h_nonneg h_start h_scans).mp
      (h_covered first t h_new rfl)
  · intro h_back first w h_first h_w
    cases h_w
    rcases getLast?_record h_first with ⟨h_none, rfl⟩ | h_old
    · show Coverage.Covers _ (first :: s.scans) _ _
      rw [h_none]
      exact Coverage.covers_singleton
    · have h_mem := List.mem_of_getLast? h_old
      obtain ⟨w, h_w, -⟩ := h_inv.scans first h_mem
      exact (h first w h_old h_w).cons (h_back (List.ne_nil_of_mem h_mem) w h_w)

/-- What a step does to `last_run_time` where it goes well. -/
structure Advanced (periodSeconds : ℤ) (s t : State) : Prop where
  inv : Inv t
  monotone : ∀ w, s.lastRunTime = some w → ∃ w', t.lastRunTime = some w' ∧ w ≤ w'
  covered : Covered periodSeconds s → Covered periodSeconds t

/-- **Making up.** The scans for the missed periods follow one another without a gap, and end
before the present. -/
theorem advanced_backfill (h_pos : 0 < periodSeconds) (count completed : ℕ) {last : ℚ}
    (h_inv : Inv s) (h_last : s.lastRunTime = some last)
    (h_clock : last + count * periodSeconds ≤ s.clock) :
    Advanced periodSeconds s (backfill periodSeconds count completed last s) := by
  have h_nonneg : (0 : ℚ) ≤ periodSeconds := by exact_mod_cast h_pos.le
  induction count generalizing completed last s with
  | zero => exact ⟨h_inv, fun w h_w => ⟨w, h_w, le_rfl⟩, id⟩
  | succ count ih =>
    cases completed with
    | zero => exact ⟨h_inv, fun w h_w => ⟨w, h_w, le_rfl⟩, id⟩
    | succ completed =>
      have h_split : last + ((count + 1 : ℕ) : ℚ) * periodSeconds =
          last + periodSeconds + count * periodSeconds := by
        push_cast
        ring
      rw [h_split] at h_clock
      have h_rest : (0 : ℚ) ≤ count * periodSeconds := mul_nonneg (Nat.cast_nonneg count) h_nonneg
      have h_here : last + periodSeconds ≤ s.clock := by linarith
      have h_after : ∀ w, s.lastRunTime = some w → w ≤ last + periodSeconds := by
        intro w h_w
        rw [h_last] at h_w
        cases h_w
        linarith
      -- the window starts at the end of the last one
      have h_covered : Covered periodSeconds s →
          Covered periodSeconds (s.record (last + periodSeconds)) := by
        intro h
        refine (covered_record_iff h_inv h h_pos _).mpr fun _ w h_w => ?_
        rw [h_last] at h_w
        cases h_w
        rw [add_sub_cancel_right]
      have h_next := ih completed (h_inv.record h_here h_after) rfl h_clock
      refine ⟨h_next.inv, fun w h_w => ?_, fun h => h_next.covered (h_covered h)⟩
      obtain ⟨w', h_w', h_le⟩ := h_next.monotone (last + periodSeconds) rfl
      exact ⟨w', h_w', (h_after w h_w).trans h_le⟩

theorem le_of_backfillCount (h_pos : 0 < periodSeconds) {now last : ℚ}
    (h : 1 < ⌊cappedGap now last / periodSeconds⌋) :
    last + ((min ⌊cappedGap now last / periodSeconds⌋ maxBackfillCount).toNat : ℚ) *
      periodSeconds ≤ now := by
  have h_period : (0 : ℚ) < periodSeconds := by exact_mod_cast h_pos
  have h_two : 2 * (periodSeconds : ℚ) ≤ cappedGap now last := by
    exact_mod_cast (le_div_iff₀ h_period).mp (Int.le_floor.mp (Int.add_one_le_of_lt h))
  have h_fit := @Coverage.toNat_periods_mul_le periodSeconds (cappedGap now last) h_period
    (by linarith) maxBackfillCount (by decide)
  have h_capped : cappedGap now last ≤ now - last := min_le_left _ _
  linarith

theorem backfillCount_le_one_iff (h_pos : 0 < periodSeconds) {now last : ℚ} :
    ⌊cappedGap now last / periodSeconds⌋ ≤ 1 ↔ ¬2 * (periodSeconds : ℚ) ≤ cappedGap now last := by
  have h_period : (0 : ℚ) < periodSeconds := by exact_mod_cast h_pos
  rw [not_le, ← div_lt_iff₀ h_period, ← Int.lt_add_one_iff, Int.floor_lt]
  norm_num

theorem advanced_now (h_inv : Inv s) (h_clock : ∀ w, s.lastRunTime = some w → w ≤ s.clock) :
    Inv (s.record s.clock) ∧ Monotone s (s.record s.clock) := by
  refine ⟨h_inv.record le_rfl h_clock, fun w h_w => ⟨s.clock, rfl, h_clock w h_w⟩, fun w h_w => ?_⟩
  cases h_w
  exact le_rfl

theorem Inv.monotone_refl (h : Inv s) : Monotone s s :=
  ⟨fun w h_w => ⟨w, h_w, le_rfl⟩, h.clock⟩

theorem scanPolicyTask_spec (h_period : periodToSeconds policy.period = .ok periodSeconds)
    (h_pos : 0 < periodSeconds) (h_inv : Inv s) (h : Covered periodSeconds s) (a : Execution)
    (h_now : s.clock ≤ a.now) :
    Inv (scanPolicyTask policy s a) ∧ Monotone s (scanPolicyTask policy s a) ∧
      (Covered periodSeconds (scanPolicyTask policy s a) ↔ Timely policy periodSeconds s a) := by
  have h_ticked : Inv (s.tick a.now) := h_inv.tick h_now
  have h_same : Monotone s (s.tick a.now) := h_ticked.monotone_refl
  have h_record : Inv ((s.tick a.now).record a.now) ∧
      Monotone s ((s.tick a.now).record a.now) :=
    advanced_now h_ticked h_ticked.clock
  unfold scanPolicyTask Timely
  dsimp only
  by_cases h_enable : policy.enable = true
  · rw [if_pos h_enable]
    rcases Option.eq_none_or_eq_some s.lastRunTime with h_last | ⟨last, h_last⟩
    · have h_none : s.scans = [] := by
        -- no scan has succeeded yet
        rw [List.eq_nil_iff_forall_not_mem]
        intro t h_t
        obtain ⟨w, h_w, -⟩ := h_inv.scans t h_t
        rw [h_last] at h_w
        cases h_w
      rw [show (s.tick a.now).lastRunTime = none from h_last]
      dsimp only
      split_ifs
      · refine ⟨h_record.1, h_record.2, iff_of_true ?_ fun _ h_some => absurd h_none h_some⟩
        exact (covered_record_iff h_ticked h h_pos a.now).mpr fun h_some => absurd h_none h_some
      · exact ⟨h_ticked, h_same, iff_of_true h fun _ h_some => absurd h_none h_some⟩
    · rw [show (s.tick a.now).lastRunTime = some last from h_last, h_period]
      dsimp only
      by_cases h_count : ⌊cappedGap a.now last / periodSeconds⌋ ≤ 1
      · rw [if_pos h_count]
        have h_few := (backfillCount_le_one_iff h_pos).mp h_count
        by_cases h_completed : 0 < a.completed
        · rw [if_pos h_completed]
          refine ⟨h_record.1, h_record.2, ?_⟩
          rw [covered_record_iff h_ticked h h_pos a.now]
          constructor
          · intro h_back _ h_some _ w h_w
            exact Or.inl (sub_le_comm.mp (h_back h_some w h_w))
          · intro h_timely h_some w h_w
            have h_gap := h_timely h_enable h_some h_completed w h_w
            cases h_last.symm.trans h_w
            exact sub_le_comm.mp (h_gap.resolve_right h_few)
        · rw [if_neg h_completed]
          exact ⟨h_ticked, h_same, iff_of_true h fun _ _ h_some => absurd h_some h_completed⟩
      · rw [if_neg h_count]
        have h_many : 2 * (periodSeconds : ℚ) ≤ cappedGap a.now last := by
          by_contra h_few
          exact h_count ((backfillCount_le_one_iff h_pos).mpr h_few)
        have h_advanced := advanced_backfill h_pos
          (min ⌊cappedGap a.now last / periodSeconds⌋ maxBackfillCount).toNat a.completed h_ticked
          h_last (le_of_backfillCount h_pos (not_le.mp h_count))
        refine ⟨h_advanced.inv, ⟨h_advanced.monotone, h_advanced.inv.clock⟩,
          iff_of_true (h_advanced.covered h) ?_⟩
        intro _ _ _ w h_w
        cases h_last.symm.trans h_w
        exact Or.inr h_many
  · rw [if_neg h_enable]
    exact ⟨h_ticked, h_same, iff_of_true h fun h_true => absurd h_true h_enable⟩

end Steps

/-! ### Runs -/

def start (lastRunTime : Option ℚ) (clock : ℚ) : State := { lastRunTime, clock }

/-- **Coverage.** Every instant is seen exactly if every execution is timely. -/
theorem coverage_iff (policy : Policy) (periodSeconds : ℤ)
    (h_period : periodToSeconds policy.period = .ok periodSeconds) (h_pos : 0 < periodSeconds)
    (lastRunTime : Option ℚ) (clock : ℚ) (h_start : ∀ w, lastRunTime = some w → w ≤ clock)
    (as : List Execution)
    (h_later : Runs.Along (scanPolicyTask policy) (fun s a _ => s.clock ≤ a.now)
      (start lastRunTime clock) as) :
    Runs.Along (scanPolicyTask policy) (fun s _ t => Monotone s t ∧ Covered periodSeconds t)
        (start lastRunTime clock) as ↔
      Runs.Along (scanPolicyTask policy) (fun s a _ => Timely policy periodSeconds s a)
        (start lastRunTime clock) as := by
  apply Runs.along_iff h_later (I := fun s => Inv s ∧ Covered periodSeconds s)
  · rintro s a ⟨h_inv, h⟩ h_now
    obtain ⟨h_next, h_monotone, h_iff⟩ := scanPolicyTask_spec h_period h_pos h_inv h a h_now
    refine ⟨?_, fun h_both => ⟨h_next, h_both.2⟩⟩
    rw [and_iff_right h_monotone, h_iff]
  · refine ⟨⟨h_start, fun t h_t => absurd h_t List.not_mem_nil⟩, fun first w h_first => ?_⟩
    cases h_first

def everyFiveMinutes : Policy where
  period := some ⟨"min", 5⟩

/-- Two executions one period apart. -/
theorem coverage_punctual :
    Runs.Along (scanPolicyTask everyFiveMinutes) (fun s _ t => Monotone s t ∧ Covered 300 t)
      (start none 0) [⟨0, 1⟩, ⟨300, 1⟩] := by
  refine (coverage_iff everyFiveMinutes 300 rfl (by decide) none 0 (fun w h_w => nomatch h_w)
    [⟨0, 1⟩, ⟨300, 1⟩] ⟨le_rfl, ?_, trivial⟩).mpr ⟨fun _ h_some => absurd rfl h_some, ?_, trivial⟩
  · show (0 : ℚ) ≤ 300
    norm_num
  · intro _ _ _ w h_w
    have h_zero : w = 0 := (Option.some.inj h_w).symm
    subst h_zero
    left
    norm_num

/-- **Lost samples.** The second execution comes eight minutes after the first and scans the last
five of them. -/
theorem coverage_late :
    ¬Runs.Along (scanPolicyTask everyFiveMinutes) (fun s _ t => Monotone s t ∧ Covered 300 t)
      (start none 0) [⟨0, 1⟩, ⟨480, 1⟩] := by
  rintro ⟨-, ⟨-, h_covered⟩, -⟩
  have h_state : scanPolicyTask everyFiveMinutes
      (scanPolicyTask everyFiveMinutes (start none 0) ⟨0, 1⟩) ⟨480, 1⟩ =
        { lastRunTime := some 480, clock := 480, scans := [480, 0] } := by
    decide +kernel
  rw [h_state] at h_covered
  obtain ⟨t, h_t, h_start, h_end⟩ := h_covered 0 480 rfl rfl 60 (by norm_num) (by norm_num)
  rcases List.mem_cons.mp h_t with rfl | h_first
  · norm_num at h_start
  · rw [List.mem_singleton.mp h_first] at h_end
    norm_num at h_end

end ScanWindow
end Monitor
