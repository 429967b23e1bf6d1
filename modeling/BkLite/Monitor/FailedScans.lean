import BkLite.Framework.Runs
import BkLite.Monitor.Recording
import Mathlib.Data.Finset.Card

/-!
# Scans that fail

The watermark of a policy is advanced when a scan has succeeded, so the window of a scan that
fails is scanned again. The counts of alerts and their recoveries are written before the later
steps of the scan and outside their transaction: an attempt that counts and then fails has counted
a window that will be counted once more. Where the attempts that fail have counted nothing, the
count of an alert is the number of its windows, and it is recovered when that number reaches the
condition (`exact_of_sound`).
-/

namespace Monitor
namespace FailedScans

open PolicyScan Identity

variable {Num : Type}

/-! ### Attempts -/

/-- The database, the watermark, and the windows that each alert was counted in. -/
structure State (Num : Type) where
  db : Db Num
  lastRunTime : Option ℤ := none
  windows : ℕ → Finset ℤ := fun _ => ∅

/-- `_pre_check` ends the scan. -/
def Skipped (s : Scan Num) : Prop := s.policy.source = true ∧ buildInstancesMap s = []

instance (s : Scan Num) : Decidable (Skipped s) := inferInstanceAs (Decidable (_ ∧ _))

section Model

variable (env : Env Num) (st : State Num) (s : Scan Num)

def produced (db : Db Num) : List (Event Num) × List Info :=
  if Skipped s ∨ "threshold" ∉ s.policy.enableAlerts then ([], [])
  else (detectThresholdAlerts env s (buildCache env s db)).getD ([], [])

def alertKeys (db : Db Num) : List String := (produced env s db).1.map (·.metricInstanceId)

def infoKeys (db : Db Num) : List String := (produced env s db).2.map (·.metricInstanceId)

def countWindows (id : ℕ) : Finset ℤ :=
  match st.db.alerts.lookup id with
  | none => ∅
  | some a =>
    if getAlertMetricInstanceId env a ∈ alertKeys env s st.db then ∅
    else if getAlertMetricInstanceId env a ∈ infoKeys env s st.db then
      insert s.lastRunTime (st.windows id)
    else st.windows id

/-- `_run_scan_and_record_success`. -/
def attempt : State Num :=
  if (run env s).completes st.db = true then
    { db := (run env s).after st.db
      lastRunTime := some s.lastRunTime
      windows := countWindows env st s }
  else { st with db := (run env s).after st.db }

/-! ### The law -/

/-- A new alert of the policy that is counted. -/
structure Tracked (policy : Policy Num) (a : Alert Num) : Prop where
  policyId : a.policyId = policy.id
  alertType : a.alertType = .alert
  status : a.status = .new

def Overdue (policy : Policy Num) (windows : Finset ℤ) : Prop :=
  0 < policy.recoveryCondition ∧ policy.recoveryCondition ≤ (windows.card : ℤ)

theorem not_overdue_empty (policy : Policy Num) : ¬Overdue policy ∅ := by
  intro h
  have h_le := h.2
  rw [Finset.card_empty, Int.ofNat_zero] at h_le
  exact Int.not_le.mpr h.1 h_le

def Counted (policy : Policy Num) (st : State Num) : Prop :=
  ∀ id a, st.db.alerts.lookup id = some a → Tracked policy a →
    a.infoEventCount = (st.windows id).card

/-- The counts are those of the windows, and decide who is recovered. -/
structure Exact (policy : Policy Num) (st : State Num) (s : Scan Num) (st' : State Num) :
    Prop where
  counted : (run env s).completes st.db = true → Counted policy st'
  recovered : (run env s).completes st.db = true →
    ∀ id a, st.db.alerts.lookup id = some a → Tracked policy a →
      ∃ a', st'.db.alerts.lookup id = some a' ∧
        (a'.status = .recovered ↔ Overdue policy (st'.windows id))
  failed : (run env s).completes st.db = false →
    ∀ id a, st.db.alerts.lookup id = some a → Tracked policy a →
      ∃ a', st'.db.alerts.lookup id = some a' ∧ a'.status = .new

/-- The law has held so far: the counts are right, no alert is overdue, and no window is later
than the watermark. -/
structure Start (policy : Policy Num) (st : State Num) : Prop where
  below : Table.Below st.db.alerts st.db.nextAlertId
  counted : Counted policy st
  pending : ∀ id a, st.db.alerts.lookup id = some a → Tracked policy a →
    ¬Overdue policy (st.windows id)
  scanned : ∀ id, ∀ w ∈ st.windows id, ∃ last, st.lastRunTime = some last ∧ w ≤ last

/-! ### The condition -/

def Later : Prop := ∀ last, st.lastRunTime = some last → last < s.lastRunTime

def Affects (db : Db Num) (a : Alert Num) : Prop :=
  if getAlertMetricInstanceId env a ∈ alertKeys env s db then a.infoEventCount ≠ 0
  else getAlertMetricInstanceId env a ∈ infoKeys env s db

def Seen (db : Db Num) : Prop :=
  ∀ id a, db.alerts.lookup id = some a → Tracked s.policy a → Affects env s db a →
    ∃ a', activeAlert env (buildCache env s db) (getAlertMetricInstanceId env a) .alert =
      some (id, a')

/-- The attempt comes to count what it has detected. -/
structure Counts (db : Db Num) (detected : List (Event Num) × List Info) : Prop where
  scans : ¬Skipped s
  setKey : s.fails .setKey = false
  enabled : "threshold" ∈ s.policy.enableAlerts
  detects : detectThresholdAlerts env s (buildCache env s db) = some detected
  increments : s.fails .incrementInfoCount = false

/-- The attempt counts nothing: none of its info events is that of an active alert, and an alert
that it clears is at zero. -/
structure Harmless (db : Db Num) : Prop where
  noInfo : ∀ detected, Counts env s db detected → ∀ i ∈ detected.2,
    activeAlert env (buildCache env s db) i.metricInstanceId .alert = none
  noClear : ∀ detected, Counts env s db detected → s.fails .clearInfoCount = false →
    ∀ e ∈ detected.1, ∀ id a,
      activeAlert env (buildCache env s db) e.metricInstanceId .alert = some (id, a) →
        a.infoEventCount = 0

/-- An attempt that succeeds scans a later window and sees the alerts of its events; one that
fails counts nothing. -/
structure Sound : Prop where
  later : (run env s).completes st.db = true → Later st s
  seen : (run env s).completes st.db = true → Seen env s st.db
  harmless : (run env s).completes st.db = false → Harmless env s st.db

end Model

/-! ### Attempts that fail -/

section Failed

variable {env : Env Num} {s : Scan Num} {db db' : Db Num}

/-- The alerts that are counted are as they were, and there are no new ones. -/
structure Quiet (db db' : Db Num) : Prop where
  kept : ∀ id a, db.alerts.lookup id = some a → a.alertType = .alert →
    db'.alerts.lookup id = some a
  old : ∀ id a', db'.alerts.lookup id = some a' →
    ∃ a, db.alerts.lookup id = some a ∧ a'.alertType = a.alertType
  nextAlertId : db'.nextAlertId = db.nextAlertId

theorem Quiet.refl (db : Db Num) : Quiet db db where
  kept := fun _ _ h_row _ => h_row
  old := fun _ a h_row => ⟨a, h_row, rfl⟩
  nextAlertId := rfl

theorem Quiet.updateAlerts (h : Quiet db db') {ids : List ℕ} {f : Alert Num → Alert Num}
    (h_type : ∀ a, (f a).alertType = a.alertType)
    (h_same : ∀ id ∈ ids, ∀ a, db.alerts.lookup id = some a → a.alertType = .alert → f a = a) :
    Quiet db (updateAlerts ids f db') where
  kept := by
    intro id a h_row h_alert
    rw [lookup_updateAlerts, h.kept id a h_row h_alert, Option.map_some]
    split_ifs with h_id
    · rw [h_same id h_id a h_row h_alert]
    · rfl
  old := by
    intro id a' h_row
    rw [lookup_updateAlerts] at h_row
    obtain ⟨a₁, h_a₁, rfl⟩ := Option.map_eq_some_iff.mp h_row
    obtain ⟨a, h_a, h_kind⟩ := h.old id a₁ h_a₁
    refine ⟨a, h_a, ?_⟩
    split_ifs
    · rw [h_type, h_kind]
    · exact h_kind
  nextAlertId := h.nextAlertId

theorem tracked_of_mem {id : ℕ} {a : Alert Num} (h : (id, a) ∈ getActiveAlerts env s db)
    (h_type : a.alertType = .alert) : Tracked s.policy a := by
  have h_active := (mem_getActiveAlerts.mp h).2
  unfold isActive at h_active
  simp only [Bool.and_eq_true, decide_eq_true_iff] at h_active
  exact ⟨h_active.1.1, h_type, h_active.1.2⟩

theorem keeps_countEvents {detected : List (Event Num) × List Info}
    (h_counts : s.fails .incrementInfoCount = false → Counts env s db detected)
    (h : Harmless env s db) :
    Exec.Keeps (Quiet db) (countEvents env s (buildCache env s db) detected.1 detected.2) := by
  unfold countEvents
  refine .raiseIf_bind fun h_increments => ?_
  have h_here := h_counts h_increments
  refine .bind (.write fun db' h_quiet => ?_) fun _ => .raiseIf_bind fun h_clears => ?_
  · refine h_quiet.updateAlerts (fun _ => rfl) fun id h_id => ?_
    obtain ⟨key, h_key, a', h_a'⟩ := mem_countedAlertIds.mp h_id
    obtain ⟨i, h_i, rfl⟩ := List.mem_map.mp h_key
    rw [h.noInfo detected h_here i h_i] at h_a'
    cases h_a'
  · refine .write fun db' h_quiet => h_quiet.updateAlerts (fun _ => rfl) ?_
    intro id h_id a h_row _
    obtain ⟨key, h_key, a', h_a'⟩ := mem_countedAlertIds.mp h_id
    obtain ⟨e, h_e, rfl⟩ := List.mem_map.mp h_key
    have h_zero := h.noClear detected h_here h_clears e h_e id a' h_a'
    have h_row' := (mem_getActiveAlerts.mp (mem_of_activeAlert h_a').1).1
    rw [h_row] at h_row'
    cases h_row'
    unfold Alert.clear
    rw [← h_zero]

theorem keeps_recoverThresholdAlerts
    (h_pending : ∀ id a, db.alerts.lookup id = some a → Tracked s.policy a →
      0 < s.policy.recoveryCondition → (a.infoEventCount : ℤ) < s.policy.recoveryCondition) :
    Exec.Keeps (Quiet db) (recoverThresholdAlerts s (buildCache env s db)) := by
  unfold recoverThresholdAlerts
  split_ifs with h_condition
  · exact .pure ()
  · refine .raiseIf_bind fun _ => .bind (.write fun db' h_quiet => ?_) fun _ => .raiseIf _
    refine h_quiet.updateAlerts (fun a => ?_) fun id h_id a h_row h_alert => ?_
    · split_ifs <;> rfl
    · obtain ⟨a', h_active, h_type⟩ := mem_thresholdAlertIds.mp h_id
      have h_row' := (mem_getActiveAlerts.mp h_active).1
      rw [h_row] at h_row'
      cases h_row'
      have h_lt := h_pending id a h_row (tracked_of_mem h_active h_type) (Int.not_le.mp h_condition)
      rw [if_neg (Int.not_le.mpr h_lt)]

theorem keeps_collectNoData :
    Exec.Keeps (Quiet db) (collectNoData env s (buildCache env s db)) := by
  unfold collectNoData
  split_ifs
  · unfold processNoDataAlerts
    refine .bind (.ofOption _) fun _ => .bind ?_ fun _ => .pure _
    unfold recoverNoDataAlerts
    split_ifs
    · exact .pure ()
    · refine .bind (.ofOption _) fun keys => .raiseIf_bind fun _ =>
        .bind (.write fun db' h_quiet => ?_) fun _ => .raiseIf _
      refine h_quiet.updateAlerts (fun _ => rfl) fun id h_id a h_row h_alert => ?_
      obtain ⟨a', h_active, h_type, -⟩ := mem_heardAlertIds.mp h_id
      have h_row' := (mem_getActiveAlerts.mp h_active).1
      rw [h_row] at h_row'
      cases h_row'
      rw [h_alert] at h_type
      cases h_type
  · exact .pure _

theorem quiet_of_harmless
    (h_pending : ∀ id a, db.alerts.lookup id = some a → Tracked s.policy a →
      0 < s.policy.recoveryCondition → (a.infoEventCount : ℤ) < s.policy.recoveryCondition)
    (h : Harmless env s db) (h_raises : (run env s).completes db = false) :
    Quiet db ((run env s).after db) := by
  have h_run : Exec.KeepsOnError (Quiet db) (runWith env s (buildCache env s db)) := by
    unfold runWith
    split_ifs with h_skipped
    · exact Exec.Keeps.onError (.pure ())
    · refine .raiseIf_bind fun h_key => .bind ?_ fun detected => .bind keeps_collectNoData
        fun noDataEvents => .bind ?_ fun _ => ?_
      · unfold collectThreshold
        split_ifs with h_enabled
        · unfold processThresholdAlerts
          refine .ofOption_bind fun d h_d => .bind (keeps_countEvents ?_ h) fun _ =>
            .bind (keeps_recoverThresholdAlerts h_pending) fun _ => .pure _
          exact fun h_increments => ⟨h_skipped, h_key, h_enabled, h_d, h_increments⟩
        · exact .pure _
      · unfold syncBaselines
        split_ifs
        · exact .pure ()
        · refine .raiseIf_bind fun _ => .write fun db' h_quiet => ?_
          exact ⟨h_quiet.kept, h_quiet.old, h_quiet.nextAlertId⟩
      · unfold createEventsAndAlerts
        split_ifs
        · exact Exec.Keeps.onError (.pure ())
        · -- the transaction is the last statement: it returns
          exact .raiseIf_bind fun _ => .write _
  rw [completes_run] at h_raises
  rw [after_run]
  exact h_run db (.refl db) h_raises

end Failed

/-! ### Attempts that succeed -/

section Succeeded

variable {env : Env Num} {policy : Policy Num} {st : State Num} {s : Scan Num} {db₁ : Db Num}
  {detected : List (Event Num) × List Info} {noDataEvents : List (Event Num)} {id : ℕ}
  {a : Alert Num}

theorem produced_of_skipped (h : Skipped s) (db : Db Num) : produced env s db = ([], []) :=
  if_pos (Or.inl h)

theorem produced_of_finds {db : Db Num} (h_scans : ¬Skipped s)
    (h : ThresholdFinds env s (buildCache env s db) detected) : produced env s db = detected := by
  unfold ThresholdFinds at h
  unfold produced
  split_ifs at h with h_enabled
  · rw [if_neg (not_or.mpr ⟨h_scans, not_not_intro h_enabled⟩), h]
    rfl
  · rw [if_pos (Or.inr h_enabled), h]

theorem countWindows_of_row (h_row : st.db.alerts.lookup id = some a) :
    countWindows env st s id =
      if getAlertMetricInstanceId env a ∈ alertKeys env s st.db then ∅
      else if getAlertMetricInstanceId env a ∈ infoKeys env s st.db then
        insert s.lastRunTime (st.windows id)
      else st.windows id := by
  unfold countWindows
  rw [h_row]

theorem countWindows_of_nil (h_row : st.db.alerts.lookup id = some a)
    (h : produced env s st.db = ([], [])) : countWindows env st s id = st.windows id := by
  rw [countWindows_of_row h_row]
  unfold alertKeys infoKeys
  rw [h]
  rfl

theorem activeAlert_of_counted {db : Db Num} (h_row : db.alerts.lookup id = some a)
    {keys : List String} (h : id ∈ countedAlertIds env (buildCache env s db) keys) :
    getAlertMetricInstanceId env a ∈ keys ∧
      activeAlert env (buildCache env s db) (getAlertMetricInstanceId env a) .alert =
        some (id, a) := by
  obtain ⟨key, h_key, a', h_a'⟩ := mem_countedAlertIds.mp h
  obtain ⟨h_active, h_same, -⟩ := mem_of_activeAlert h_a'
  have h_row' := (mem_getActiveAlerts.mp h_active).1
  rw [h_row] at h_row'
  cases h_row'
  rw [h_same]
  exact ⟨h_key, h_a'⟩

theorem countedAlert_eq_card (h_start : Start s.policy st) (h_later : Later st s)
    (h_seen : Seen env s st.db) (h_row : st.db.alerts.lookup id = some a)
    (h_tracked : Tracked s.policy a) :
    (countedAlert env (buildCache env s st.db) (produced env s st.db) id a).infoEventCount =
      (countWindows env st s id).card := by
  have h_counted := h_start.counted id a h_row h_tracked
  have h_affects := h_seen id a h_row h_tracked
  unfold Affects at h_affects
  rw [countWindows_of_row h_row]
  by_cases h_alert : getAlertMetricInstanceId env a ∈ alertKeys env s st.db
  · rw [if_pos h_alert] at h_affects ⊢
    show _ = 0
    by_cases h_id : id ∈ countedAlertIds env (buildCache env s st.db) (alertKeys env s st.db)
    · unfold countedAlert
      unfold alertKeys at h_id
      rw [if_pos h_id]
      rfl
    · -- an alert that is not cleared is at zero, and no info event of its series counts
      have h_zero : a.infoEventCount = 0 := by
        by_contra h_ne
        obtain ⟨a', h_a'⟩ := h_affects h_ne
        exact h_id (mem_countedAlertIds.mpr ⟨_, h_alert, a', h_a'⟩)
      have h_id' : id ∉ countedAlertIds env (buildCache env s st.db) (infoKeys env s st.db) := by
        intro h_mem
        exact h_id (mem_countedAlertIds.mpr
          ⟨_, h_alert, a, (activeAlert_of_counted h_row h_mem).2⟩)
      unfold countedAlert incrementedAlert
      unfold alertKeys at h_id
      unfold infoKeys at h_id'
      rw [if_neg h_id, if_neg h_id']
      exact h_zero
  · rw [if_neg h_alert] at h_affects ⊢
    have h_id : id ∉ countedAlertIds env (buildCache env s st.db) (alertKeys env s st.db) :=
      fun h_mem => h_alert (activeAlert_of_counted h_row h_mem).1
    unfold countedAlert incrementedAlert
    unfold alertKeys at h_id
    rw [if_neg h_id]
    by_cases h_info : getAlertMetricInstanceId env a ∈ infoKeys env s st.db
    · obtain ⟨a', h_a'⟩ := h_affects h_info
      have h_id' : id ∈ countedAlertIds env (buildCache env s st.db) (infoKeys env s st.db) :=
        mem_countedAlertIds.mpr ⟨_, h_info, a', h_a'⟩
      unfold infoKeys at h_id'
      -- the window is later than those that are counted
      have h_fresh : s.lastRunTime ∉ st.windows id := by
        intro h_mem
        obtain ⟨last, h_last, h_le⟩ := h_start.scanned id s.lastRunTime h_mem
        exact Int.not_le.mpr (h_later last h_last) h_le
      rw [if_pos h_info, if_pos h_id', Finset.card_insert_of_notMem h_fresh, ← h_counted]
      rfl
    · have h_id' : id ∉ countedAlertIds env (buildCache env s st.db) (infoKeys env s st.db) :=
        fun h_mem => h_info (activeAlert_of_counted h_row h_mem).1
      unfold infoKeys at h_id'
      rw [if_neg h_info, if_neg h_id']
      exact h_counted

theorem mem_thresholdAlertIds_of_overdue (h_start : Start s.policy st)
    (h_seen : Seen env s st.db) (h_row : st.db.alerts.lookup id = some a)
    (h_tracked : Tracked s.policy a) (h_overdue : Overdue s.policy (countWindows env st s id)) :
    id ∈ thresholdAlertIds (buildCache env s st.db) := by
  have h_affects := h_seen id a h_row h_tracked
  unfold Affects at h_affects
  rw [countWindows_of_row h_row] at h_overdue
  split_ifs at h_affects h_overdue with h_alert h_info
  · exact absurd h_overdue (not_overdue_empty s.policy)
  · obtain ⟨a', h_a'⟩ := h_affects h_info
    obtain ⟨h_mem, -, h_type⟩ := mem_of_activeAlert h_a'
    exact mem_thresholdAlertIds.mpr ⟨a', h_mem, h_type⟩
  · exact absurd h_overdue (h_start.pending id a h_row h_tracked)

theorem thresholdStage_spec (h_start : Start s.policy st) (h_later : Later st s)
    (h_seen : Seen env s st.db) (h_scans : ¬Skipped s)
    (h_finds : ThresholdFinds env s (buildCache env s st.db) detected)
    (h_row : st.db.alerts.lookup id = some a) (h_tracked : Tracked s.policy a) :
    (thresholdStage env s (buildCache env s st.db) detected id a).infoEventCount =
        (countWindows env st s id).card ∧
      (thresholdStage env s (buildCache env s st.db) detected id a).status =
        if 0 < s.policy.recoveryCondition ∧
          s.policy.recoveryCondition ≤ ((countWindows env st s id).card : ℤ) then .recovered
        else .new := by
  have h_count := countedAlert_eq_card h_start h_later h_seen h_row h_tracked
  have h_status : (countedAlert env (buildCache env s st.db) detected id a).status = .new := by
    rw [← h_tracked.status]
    unfold countedAlert incrementedAlert
    split_ifs <;> rfl
  have h_pending := h_start.pending id a h_row h_tracked
  rw [produced_of_finds h_scans h_finds] at h_count
  unfold thresholdStage
  by_cases h_enabled : "threshold" ∈ s.policy.enableAlerts
  · rw [if_pos h_enabled]
    unfold thresholdAlert
    rw [h_count]
    by_cases h_overdue : Overdue s.policy (countWindows env st s id)
    · have h_active := mem_thresholdAlertIds_of_overdue h_start h_seen h_row h_tracked h_overdue
      unfold Overdue at h_overdue
      rw [if_pos ⟨h_overdue.1, h_active, h_overdue.2⟩, if_pos h_overdue]
      exact ⟨h_count, rfl⟩
    · unfold Overdue at h_overdue
      rw [if_neg (fun h => h_overdue ⟨h.1, h.2.2⟩), if_neg h_overdue]
      exact ⟨h_count, h_status⟩
  · have h_none : produced env s st.db = ([], []) := if_pos (Or.inr h_enabled)
    unfold Overdue at h_pending
    rw [if_neg h_enabled, countWindows_of_nil h_row h_none, if_neg h_pending]
    exact ⟨h_start.counted id a h_row h_tracked, h_tracked.status⟩

theorem collectedAlert_of_tracked {db : Db Num} (h_row : db.alerts.lookup id = some a)
    (h_tracked : Tracked s.policy a) :
    collectedAlert env s (buildCache env s db) detected id a =
      thresholdStage env s (buildCache env s db) detected id a := by
  have h_not : id ∉ recoveredNoDataIds env s (buildCache env s db) := by
    unfold recoveredNoDataIds
    split_ifs
    · intro h_mem
      obtain ⟨a', h_active, h_type, -⟩ := mem_heardAlertIds.mp h_mem
      have h_row' := (mem_getActiveAlerts.mp h_active).1
      rw [h_row] at h_row'
      cases h_row'
      rw [h_tracked.alertType] at h_type
      cases h_type
    · exact List.not_mem_nil
  unfold collectedAlert
  rw [if_neg h_not]

def succeeded (env : Env Num) (st : State Num) (s : Scan Num) : State Num where
  db := (run env s).after st.db
  lastRunTime := some s.lastRunTime
  windows := countWindows env st s

theorem scanned_succeeded (h_start : Start s.policy st) (h_later : Later st s) (id : ℕ) :
    ∀ w ∈ countWindows env st s id, ∃ last, (succeeded env st s).lastRunTime = some last ∧
      w ≤ last := by
  intro w h_w
  refine ⟨s.lastRunTime, rfl, ?_⟩
  have h_old : ∀ w ∈ st.windows id, w ≤ s.lastRunTime := by
    intro w h_w
    obtain ⟨last, h_last, h_le⟩ := h_start.scanned id w h_w
    exact Int.le_trans h_le (Int.le_of_lt (h_later last h_last))
  unfold countWindows at h_w
  split at h_w
  · exact absurd h_w (Finset.notMem_empty w)
  · split_ifs at h_w
    · exact absurd h_w (Finset.notMem_empty w)
    · rcases Finset.mem_insert.mp h_w with rfl | h_w
      · exact Int.le_refl _
      · exact h_old w h_w
    · exact h_old w h_w

theorem after_of_tracked (h_start : Start s.policy st) (h_later : Later st s)
    (h_seen : Seen env s st.db) (h_run : run env s st.db = .ok () ((run env s).after st.db))
    (h_row : st.db.alerts.lookup id = some a) (h_tracked : Tracked s.policy a) :
    ∃ a', ((run env s).after st.db).alerts.lookup id = some a' ∧
      a'.infoEventCount = (countWindows env st s id).card ∧
      a'.status = if 0 < s.policy.recoveryCondition ∧
        s.policy.recoveryCondition ≤ ((countWindows env st s id).card : ℤ) then .recovered
        else .new := by
  rcases run_spec h_run with ⟨h_source, h_empty, h_db'⟩ |
    ⟨h_scans, detected, noDataEvents, db₁, h, h_db'⟩
  · rw [h_db']
    rw [countWindows_of_nil h_row (produced_of_skipped ⟨h_source, h_empty⟩ st.db)]
    refine ⟨a, h_row, h_start.counted id a h_row h_tracked, ?_⟩
    have h_pending := h_start.pending id a h_row h_tracked
    unfold Overdue at h_pending
    rw [if_neg h_pending]
    exact h_tracked.status
  · obtain ⟨h_count, h_status⟩ := thresholdStage_spec h_start h_later h_seen h_scans h.threshold
      h_row h_tracked
    have h_row₁ : db₁.alerts.lookup id =
        some (thresholdStage env s (buildCache env s st.db) detected id a) := by
      rw [h.lookup, h_row, Option.map_some, collectedAlert_of_tracked h_row h_tracked]
    rw [h_db']
    refine ⟨_, lookup_old (h.below h_start.below) h_row₁, ?_, ?_⟩
    · rw [Alert.upgradeAll_infoEventCount, h_count]
    · rw [Alert.upgradeAll_status, h_status]

theorem tracked_before (h_start : Start s.policy st)
    (h_run : run env s st.db = .ok () ((run env s).after st.db))
    (h_row : ((run env s).after st.db).alerts.lookup id = some a)
    (h_tracked : Tracked s.policy a) :
    (∃ a₀, st.db.alerts.lookup id = some a₀ ∧ Tracked s.policy a₀) ∨
      (st.db.alerts.lookup id = none ∧ a.infoEventCount = 0) := by
  rcases run_spec h_run with ⟨-, -, h_db'⟩ | ⟨-, detected, noDataEvents, db₁, h, h_db'⟩
  · rw [h_db'] at h_row
    exact Or.inl ⟨a, h_row, h_tracked⟩
  · rw [h_db'] at h_row
    have h_cache : (buildCache env s st.db).Below db₁.nextAlertId := by
      rw [h.nextAlertId]
      exact below_buildCache h_start.below
    rcases lookup_recordEvents_eq_some (h.below h_start.below) h_cache h_row with
      ⟨a₁, h_a₁, rfl⟩ | ⟨i, e, rfl, -, rfl⟩
    · rw [h.lookup] at h_a₁
      obtain ⟨a₀, h_a₀, rfl⟩ := Option.map_eq_some_iff.mp h_a₁
      refine Or.inl ⟨a₀, h_a₀, ?_, ?_, ?_⟩
      · rw [← h_tracked.policyId, Alert.upgradeAll_policyId]
        exact (collectedAlert_field (fun _ => rfl) (fun _ => rfl) (fun _ _ => rfl) id a₀).symm
      · rw [← h_tracked.alertType, Alert.upgradeAll_alertType]
        exact (collectedAlert_field (fun _ => rfl) (fun _ => rfl) (fun _ _ => rfl) id a₀).symm
      · have h_status := h_tracked.status
        rw [Alert.upgradeAll_status] at h_status
        exact collectedAlert_status h_status
    · refine Or.inr ⟨h_start.below _ ?_, rfl⟩
      rw [h.nextAlertId]
      exact Nat.le_add_right _ i

theorem below_after (h_start : Start s.policy st)
    (h_run : run env s st.db = .ok () ((run env s).after st.db)) :
    Table.Below ((run env s).after st.db).alerts ((run env s).after st.db).nextAlertId := by
  rcases run_spec h_run with ⟨-, -, h_db'⟩ | ⟨-, detected, noDataEvents, db₁, h, h_db'⟩
  · rw [h_db']
    exact h_start.below
  · rw [h_db']
    exact below_recordEvents (h.below h_start.below)

end Succeeded

/-! ### Runs of attempts -/

section Runs

variable {env : Env Num} {st : State Num} {s : Scan Num}

theorem attempt_of_success (h_start : Start s.policy st) (h_later : Later st s)
    (h_seen : Seen env s st.db) (h_completes : (run env s).completes st.db = true) :
    Start s.policy (attempt env st s) ∧ Exact env s.policy st s (attempt env st s) := by
  have h_attempt : attempt env st s = succeeded env st s := if_pos h_completes
  obtain ⟨u, h_run⟩ := Exec.completes_iff.mp h_completes
  have h_counted : Counted s.policy (succeeded env st s) := by
    intro id a h_row h_tracked
    show a.infoEventCount = (countWindows env st s id).card
    rcases tracked_before h_start h_run h_row h_tracked with
      ⟨a₀, h_a₀, h_tracked₀⟩ | ⟨h_none, h_zero⟩
    · obtain ⟨a', h_row', h_count, -⟩ :=
        after_of_tracked h_start h_later h_seen h_run h_a₀ h_tracked₀
      have h_same : some a = some a' := h_row.symm.trans h_row'
      cases h_same
      exact h_count
    · unfold countWindows
      rw [h_none, h_zero]
      rfl
  rw [h_attempt]
  refine ⟨⟨below_after h_start h_run, h_counted, ?_, scanned_succeeded h_start h_later⟩,
    fun _ => h_counted, ?_, fun h_failed => ?_⟩
  · intro id a h_row h_tracked
    show ¬Overdue s.policy (countWindows env st s id)
    rcases tracked_before h_start h_run h_row h_tracked with
      ⟨a₀, h_a₀, h_tracked₀⟩ | ⟨h_none, -⟩
    · obtain ⟨a', h_row', -, h_status⟩ :=
        after_of_tracked h_start h_later h_seen h_run h_a₀ h_tracked₀
      have h_same : some a = some a' := h_row.symm.trans h_row'
      cases h_same
      rw [h_tracked.status] at h_status
      intro h_overdue
      unfold Overdue at h_overdue
      rw [if_pos h_overdue] at h_status
      cases h_status
    · unfold countWindows
      rw [h_none]
      exact not_overdue_empty s.policy
  · intro _ id a h_row h_tracked
    obtain ⟨a', h_row', -, h_status⟩ :=
      after_of_tracked h_start h_later h_seen h_run h_row h_tracked
    refine ⟨a', h_row', ?_⟩
    show a'.status = .recovered ↔ Overdue s.policy (countWindows env st s id)
    rw [h_status]
    unfold Overdue
    split_ifs with h_overdue
    · exact ⟨fun _ => h_overdue, fun _ => rfl⟩
    · exact ⟨False.elim, fun h => absurd h h_overdue⟩
  · rw [h_completes] at h_failed
    cases h_failed

theorem attempt_of_failure (h_start : Start s.policy st) (h_harmless : Harmless env s st.db)
    (h_raises : (run env s).completes st.db = false) :
    Start s.policy (attempt env st s) ∧ Exact env s.policy st s (attempt env st s) := by
  have h_attempt : attempt env st s = { st with db := (run env s).after st.db } :=
    if_neg (fun h => Bool.noConfusion (h_raises.symm.trans h))
  have h_pending : ∀ id a, st.db.alerts.lookup id = some a → Tracked s.policy a →
      0 < s.policy.recoveryCondition →
        (a.infoEventCount : ℤ) < s.policy.recoveryCondition := by
    intro id a h_row h_tracked h_condition
    rw [h_start.counted id a h_row h_tracked]
    exact Int.not_le.mp fun h_le => h_start.pending id a h_row h_tracked ⟨h_condition, h_le⟩
  have h_quiet := quiet_of_harmless h_pending h_harmless h_raises
  -- the alerts that are counted afterwards are those that were before
  have h_back : ∀ id a, ((run env s).after st.db).alerts.lookup id = some a →
      Tracked s.policy a → st.db.alerts.lookup id = some a := by
    intro id a h_row h_tracked
    obtain ⟨a₀, h_a₀, h_type⟩ := h_quiet.old id a h_row
    have h_kept := h_quiet.kept id a₀ h_a₀ (h_type.symm.trans h_tracked.alertType)
    rw [h_row] at h_kept
    cases h_kept
    exact h_a₀
  rw [h_attempt]
  refine ⟨⟨?_, ?_, ?_, h_start.scanned⟩, fun h => ?_, fun h => ?_, ?_⟩
  · intro id h_id
    have h_id' : st.db.nextAlertId ≤ id := by
      rw [← h_quiet.nextAlertId]
      exact h_id
    refine Option.eq_none_iff_forall_ne_some.mpr fun a h_row => ?_
    obtain ⟨a₀, h_a₀, -⟩ := h_quiet.old id a h_row
    rw [h_start.below id h_id'] at h_a₀
    cases h_a₀
  · exact fun id a h_row h_tracked => h_start.counted id a (h_back id a h_row h_tracked) h_tracked
  · exact fun id a h_row h_tracked => h_start.pending id a (h_back id a h_row h_tracked) h_tracked
  · rw [h_raises] at h
    cases h
  · rw [h_raises] at h
    cases h
  · exact fun _ id a h_row h_tracked =>
      ⟨a, h_quiet.kept id a h_row h_tracked.alertType, h_tracked.status⟩

/-- **Failed scans.** Counts are those of the windows scanned with success, where failed attempts
count nothing. -/
theorem exact_of_sound (env : Env Num) (policy : Policy Num) {st : State Num}
    (h_start : Start policy st) {attempts : List (Scan Num)}
    (h_policy : ∀ s ∈ attempts, s.policy = policy)
    (h_sound : Runs.Along (attempt env) (fun st s _ => Sound env st s) st attempts) :
    Runs.Along (attempt env) (fun st s st' => Exact env policy st s st') st attempts := by
  induction attempts generalizing st with
  | nil => trivial
  | cons s attempts ih =>
    rw [List.forall_mem_cons] at h_policy
    obtain ⟨rfl, h_rest⟩ := h_policy
    obtain ⟨h_here, h_later⟩ := h_sound
    have h_step : Start s.policy (attempt env st s) ∧
        Exact env s.policy st s (attempt env st s) := by
      cases h_completes : (run env s).completes st.db with
      | true =>
        exact attempt_of_success h_start (h_here.later h_completes) (h_here.seen h_completes)
          h_completes
      | false => exact attempt_of_failure h_start (h_here.harmless h_completes) h_completes
    exact ⟨h_step.2, ih h_step.1 h_rest h_later⟩

def watchHost : Policy ℤ where
  id := 1
  source := true
  groupBy := ["instance_id"]
  enableAlerts := ["threshold", "no_data"]
  threshold := [⟨">", 0, "warning"⟩]
  recoveryCondition := 2
  noDataPeriod := true

/-- A scan in which the value of the host is not high; the query for missing data has the given
answer. -/
def calmScan (noDataResult : Option (List Series)) : Scan ℤ where
  policy := watchHost
  instances := [("('host1',)", "host1")]
  named := named_host
  lastRunTime := 600
  thresholdResult := some [hostSeries "0"]
  noDataResult := noDataResult

def alertState : State ℤ where
  db :=
    { alerts := Table.insertRows ∅ 1 [hostAlert .alert "warning"]
      nextAlertId := 2 }
  lastRunTime := some 300

theorem lookup_alertState {id : ℕ} {a : Alert ℤ} (h : alertState.db.alerts.lookup id = some a) :
    id = 1 ∧ a = hostAlert .alert "warning" := by
  rcases Table.lookup_insertRows_eq_some (fun _ _ => rfl) h with ⟨-, h_old⟩ | ⟨i, rfl, h_new⟩
  · cases h_old
  · obtain ⟨h_lt, h_a⟩ := List.getElem?_eq_some_iff.mp h_new
    obtain rfl : i = 0 := Nat.lt_one_iff.mp h_lt
    exact ⟨rfl, h_a.symm⟩

theorem start_alertState : Start watchHost alertState where
  below := Table.below_insertRows (fun _ _ => rfl) [hostAlert .alert "warning"]
  counted := by
    intro id a h_row _
    obtain ⟨rfl, rfl⟩ := lookup_alertState h_row
    rfl
  pending := fun _ _ _ _ => not_overdue_empty watchHost
  scanned := fun _ w h_w => absurd h_w (Finset.notMem_empty w)

/-- One window without a high value: the alert has the count one and stays. -/
theorem exact_calm : Runs.Along (attempt smallEnv)
    (fun st s st' => Exact smallEnv watchHost st s st') alertState
      [calmScan (some [hostSeries "0"])] := by
  have h_policy : ∀ s ∈ [calmScan (some [hostSeries "0"])], s.policy = watchHost := by
    intro s h_s
    rw [List.mem_singleton.mp h_s]
    rfl
  refine exact_of_sound smallEnv watchHost start_alertState h_policy ⟨⟨?_, ?_, ?_⟩, trivial⟩
  · intro _ last h_last
    cases h_last
    decide
  · intro _ id a h_row _ _
    obtain ⟨rfl, rfl⟩ := lookup_alertState h_row
    exact ⟨hostAlert .alert "warning", rfl⟩
  · intro h_raises
    cases h_raises

/-- The state after the attempt whose query for missing data fails: the window has been counted. -/
def countedState : State ℤ where
  db :=
    { alerts := Table.insertRows ∅ 1 [(hostAlert .alert "warning").increment]
      nextAlertId := 2 }
  lastRunTime := some 300

theorem attempt_calmScan_none : attempt smallEnv alertState (calmScan none) = countedState := rfl

/-- **Counted twice.** A retry counts the window again. -/
theorem exact_retried :
    Start watchHost alertState ∧
      (∀ s ∈ [calmScan none, calmScan (some [hostSeries "0"])], s.policy = watchHost) ∧
      ¬Runs.Along (attempt smallEnv) (fun st s st' => Exact smallEnv watchHost st s st')
        alertState [calmScan none, calmScan (some [hostSeries "0"])] := by
  refine ⟨start_alertState, ?_, fun h => ?_⟩
  · intro s h_s
    rcases List.mem_cons.mp h_s with rfl | h_s
    · rfl
    · rw [List.mem_singleton.mp h_s]
      rfl
  · -- the second attempt recovers the alert
    rw [Runs.along_cons, attempt_calmScan_none] at h
    obtain ⟨a', h_row', h_iff⟩ := h.2.1.recovered rfl 1 (hostAlert .alert "warning").increment rfl
      ⟨rfl, rfl, rfl⟩
    have h_after : (((run smallEnv (calmScan (some [hostSeries "0"]))).after
        countedState.db).alerts.lookup 1).map (·.status) = some .recovered := by
      decide
    have h_row : (attempt smallEnv countedState (calmScan (some [hostSeries "0"]))).db =
        (run smallEnv (calmScan (some [hostSeries "0"]))).after countedState.db := rfl
    rw [h_row] at h_row'
    rw [h_row', Option.map_some] at h_after
    have h_overdue := h_iff.mp (Option.some.inj h_after)
    -- there is one window
    have h_card : ((attempt smallEnv countedState
        (calmScan (some [hostSeries "0"]))).windows 1).card ≤ 1 := by
      show (countWindows smallEnv countedState (calmScan (some [hostSeries "0"])) 1).card ≤ 1
      unfold countWindows
      split
      · decide
      · split_ifs <;> decide
    exact absurd h_overdue.2 (by
      rw [Int.not_le]
      exact lt_of_le_of_lt (Int.ofNat_le.mpr h_card) (by decide))

end Runs

end FailedScans
end Monitor
