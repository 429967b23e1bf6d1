import BkLite.Monitor.Recording

/-!
# Events and live alerts

A scan recovers alerts after it has detected its events and before it links them, and it links
them to the alerts it read at its start. An alert of the threshold type that gets an event has had
its count cleared, so it is not recovered. A no-data alert is recovered by a second query with a
period of its own: a series without data in the period of detection may have data in a longer
period of recovery, and then the alert is recovered and gets the event (`live_iff`).
-/

namespace Monitor
namespace LiveAlerts

open PolicyScan Identity

variable {Num : Type}

/-! ### The law -/

def created (db db' : Db Num) : List (EventRow Num) := db'.events.drop db.events.length

/-- Every new event is that of an alert that is not over, and no alert that the scan recovered has
one. -/
structure Live (db db' : Db Num) : Prop where
  live : ∀ e ∈ created db db', ∃ a, db'.alerts.lookup e.alertId = some a ∧ a.status = .new
  notBoth : ∀ id a a', db.alerts.lookup id = some a → a.status = .new →
    db'.alerts.lookup id = some a' → a'.status = .recovered →
      ∀ e ∈ created db db', e.alertId ≠ id

section Condition

variable (env : Env Num) (s : Scan Num) (db : Db Num)

/-- A no-data event has the key: the series has no data in the period of detection, or it meets a
threshold of this level. -/
def RaisedNoData (key : String) : Prop :=
  ("no_data" ∈ s.policy.enableAlerts ∧ s.policy.noDataPeriod = true ∧ s.policy.source = true ∧
    ∃ series keys, s.noDataResult = some series ∧
      aggregationKeys env s (buildCache env s db) series = some keys ∧
        key ∈ watchedKeys (buildCache env s db) ∧ key ∉ keys) ∨
  ("threshold" ∈ s.policy.enableAlerts ∧
    ∃ detected, detectThresholdAlerts env s (buildCache env s db) = some detected ∧
      ∃ e ∈ detected.1, e.level = "no_data" ∧ e.metricInstanceId = key)

def HeardAgain (key : String) : Prop :=
  "no_data" ∈ s.policy.enableAlerts ∧ s.policy.noDataRecoveryPeriod = true ∧
    ∃ keys, recoveryKeys env s (buildCache env s db) = some keys ∧ key ∈ keys

/-- No series that has an active no-data alert is without data in the one period and has data in
the other. -/
def Settled : Prop :=
  ∀ id a, db.alerts.lookup id = some a → isActive s a = true → a.alertType = .noData →
    RaisedNoData env s db (getAlertMetricInstanceId env a) →
      ¬HeardAgain env s db (getAlertMetricInstanceId env a)

end Condition

/-! ### The events and the alerts of a scan -/

section Scan

variable {env : Env Num} {s : Scan Num} {db db₁ : Db Num}
  {detected : List (Event Num) × List Info} {noDataEvents : List (Event Num)}

theorem mem_noDataEvents (h : NoDataFinds env s (buildCache env s db) noDataEvents) {e : Event Num}
    (h_e : e ∈ noDataEvents) :
    e.level = "no_data" ∧ RaisedNoData env s db e.metricInstanceId := by
  unfold NoDataFinds at h
  split_ifs at h with h_enabled
  · unfold detectNoDataAlerts at h
    split_ifs at h with h_off
    · cases h
      cases h_e
    · rw [not_or, Bool.not_eq_false, Bool.not_eq_false] at h_off
      obtain ⟨series, h_series, h⟩ := Option.bind_eq_some_iff.mp h
      obtain ⟨keys, h_keys, h⟩ := Option.bind_eq_some_iff.mp h
      cases h
      obtain ⟨key, h_key, rfl⟩ := List.mem_map.mp h_e
      obtain ⟨h_watched, h_absent⟩ := List.mem_filter.mp h_key
      exact ⟨rfl, Or.inl ⟨h_enabled, h_off.1, h_off.2, series, keys, h_series, h_keys, h_watched,
        of_decide_eq_true h_absent⟩⟩
  · rw [h] at h_e
    cases h_e

theorem raisedNoData_iff (h_threshold : ThresholdFinds env s (buildCache env s db) detected)
    (h_noData : NoDataFinds env s (buildCache env s db) noDataEvents) {key : String} :
    RaisedNoData env s db key ↔ ∃ e ∈ detected.1 ++ noDataEvents,
      e.metricInstanceId = key ∧ getEventAlertType e = .noData := by
  constructor
  · rintro (⟨h_enabled, h_period, h_source, series, keys, h_series, h_keys, h_watched, h_absent⟩ |
      ⟨h_enabled, d, h_d, e, h_e, h_level, h_key⟩)
    · unfold NoDataFinds detectNoDataAlerts at h_noData
      rw [if_pos h_enabled, if_neg (by simp [h_period, h_source]), h_series] at h_noData
      have h_found : some (buildNoDataEvents env (buildCache env s db) keys) =
          some noDataEvents := by
        rw [← h_noData]
        show _ = Option.bind (aggregationKeys env s (buildCache env s db) series) _
        rw [h_keys]
        rfl
      refine ⟨noDataEvent env (buildCache env s db) key, ?_, rfl, ?_⟩
      · rw [← Option.some.inj h_found]
        refine List.mem_append_right _ (List.mem_map.mpr ⟨key, ?_, rfl⟩)
        exact List.mem_filter.mpr ⟨h_watched, decide_eq_true h_absent⟩
      · exact if_pos rfl
    · unfold ThresholdFinds at h_threshold
      rw [if_pos h_enabled, h_d] at h_threshold
      cases h_threshold
      exact ⟨e, List.mem_append_left _ h_e, h_key, if_pos h_level⟩
  · rintro ⟨e, h_e, h_key, h_type⟩
    have h_level : e.level = "no_data" := by
      unfold getEventAlertType at h_type
      split_ifs at h_type with h_level
      exact h_level
    rcases List.mem_append.mp h_e with h_e | h_e
    · unfold ThresholdFinds at h_threshold
      split_ifs at h_threshold with h_enabled
      · exact Or.inr ⟨h_enabled, detected, h_threshold, e, h_e, h_level, h_key⟩
      · rw [h_threshold] at h_e
        cases h_e
    · rw [← h_key]
      exact (mem_noDataEvents h_noData h_e).2

theorem mem_recoveredNoDataIds {id : ℕ} :
    id ∈ recoveredNoDataIds env s (buildCache env s db) ↔
      ∃ a, (id, a) ∈ getActiveAlerts env s db ∧ a.alertType = .noData ∧
        HeardAgain env s db (getAlertMetricInstanceId env a) := by
  unfold recoveredNoDataIds HeardAgain
  split_ifs with h
  · rw [mem_heardAlertIds]
    constructor
    · rintro ⟨a, h_a, h_type, h_key⟩
      refine ⟨a, h_a, h_type, h.1, h.2, ?_⟩
      cases h_keys : recoveryKeys env s (buildCache env s db) with
      | none =>
        rw [h_keys] at h_key
        cases h_key
      | some keys =>
        rw [h_keys] at h_key
        exact ⟨keys, rfl, h_key⟩
    · rintro ⟨a, h_a, h_type, -, -, keys, h_keys, h_key⟩
      refine ⟨a, h_a, h_type, ?_⟩
      rw [h_keys]
      exact h_key
  · refine ⟨fun h_mem => absurd h_mem List.not_mem_nil, ?_⟩
    rintro ⟨a, -, -, h_enabled, h_period, -⟩
    exact absurd ⟨h_enabled, h_period⟩ h

theorem status_of_joined {id : ℕ} {a : Alert Num} {e : Event Num}
    (h_collected : Collected env s (buildCache env s db) detected noDataEvents db db₁)
    (h_e : e ∈ detected.1 ++ noDataEvents)
    (h_joined : activeAlert env (buildCache env s db) e.metricInstanceId (getEventAlertType e) =
      some (id, a)) :
    (collectedAlert env s (buildCache env s db) detected id a).status =
      if id ∈ recoveredNoDataIds env s (buildCache env s db) then .recovered else .new := by
  obtain ⟨h_active, h_key, h_type⟩ := mem_of_activeAlert h_joined
  obtain ⟨h_row, h_isActive⟩ := mem_getActiveAlerts.mp h_active
  have h_new : a.status = .new := by
    unfold isActive at h_isActive
    simp only [Bool.and_eq_true, decide_eq_true_iff] at h_isActive
    exact h_isActive.1.2
  have h_counted : (thresholdStage env s (buildCache env s db) detected id a).status = .new := by
    unfold thresholdStage
    split_ifs with h_enabled
    · cases h_kind : a.alertType with
      | noData => rw [thresholdAlert_of_noData h_active h_kind, h_new]
      | alert =>
        -- the event is one of the threshold path, so it clears the count
        have h_alert : getEventAlertType e = .alert := by rw [← h_type, h_kind]
        have h_detected : e ∈ detected.1 := by
          rcases List.mem_append.mp h_e with h_e | h_e
          · exact h_e
          · have h_level := (mem_noDataEvents h_collected.noData h_e).1
            unfold getEventAlertType at h_alert
            rw [if_pos h_level] at h_alert
            cases h_alert
        rw [thresholdAlert_of_cleared, h_new]
        refine mem_countedAlertIds.mpr ⟨e.metricInstanceId, ?_, a, ?_⟩
        · exact List.mem_map_of_mem h_detected
        · rw [← h_alert]
          exact h_joined
    · exact h_new
  unfold collectedAlert
  split_ifs with h_recovered
  · rfl
  · exact h_counted

end Scan

/-! ### When events are those of live alerts -/

section Live

variable {env : Env Num} {s : Scan Num} {db db₁ : Db Num}
  {detected : List (Event Num) × List Info} {noDataEvents : List (Event Num)}

theorem settled_of_noInstances (h_source : s.policy.source = true)
    (h_empty : (buildCache env s db).instancesMap = []) : Settled env s db := by
  intro id a h_row h_active
  have h_empty' : buildInstancesMap s = [] := h_empty
  unfold isActive at h_active
  rw [h_source, h_empty'] at h_active
  simp at h_active

theorem not_mem_recoveredNoDataIds (h_settled : Settled env s db)
    (h_collected : Collected env s (buildCache env s db) detected noDataEvents db db₁)
    {id : ℕ} {a : Alert Num} {e : Event Num} (h_e : e ∈ detected.1 ++ noDataEvents)
    (h_joined : activeAlert env (buildCache env s db) e.metricInstanceId (getEventAlertType e) =
      some (id, a)) :
    id ∉ recoveredNoDataIds env s (buildCache env s db) := by
  intro h_recovered
  obtain ⟨h_active, h_key, h_type⟩ := mem_of_activeAlert h_joined
  obtain ⟨a', h_active', h_noData, h_heard⟩ := mem_recoveredNoDataIds.mp h_recovered
  cases activeAlert_unique h_active h_active'
  obtain ⟨h_row, h_isActive⟩ := mem_getActiveAlerts.mp h_active
  have h_raised : RaisedNoData env s db (getAlertMetricInstanceId env a) :=
    (raisedNoData_iff h_collected.threshold h_collected.noData).mpr
      ⟨e, h_e, h_key.symm, h_type ▸ h_noData⟩
  exact h_settled id a h_row h_isActive h_noData h_raised h_heard

theorem lookup_of_created (h_settled : Settled env s db)
    (h_below : Table.Below db.alerts db.nextAlertId)
    (h_collected : Collected env s (buildCache env s db) detected noDataEvents db db₁)
    {id : ℕ} {e : Event Num}
    (h_e : (id, e) ∈ linkedNewEvents db₁.nextAlertId
        (newAlertEvents env (buildCache env s db) (detected.1 ++ noDataEvents)) ++
      existingAlertEvents env (buildCache env s db) (detected.1 ++ noDataEvents)) :
    ∃ a, (recordEvents env s (buildCache env s db) (detected.1 ++ noDataEvents)
      db₁).alerts.lookup id = some a ∧ a.status = .new := by
  have h_below₁ := h_collected.below h_below
  rcases List.mem_append.mp h_e with h_fresh | h_existing
  · obtain ⟨-, i, e', rfl, h_e', -⟩ := mem_linkedNewEvents h_fresh
    have h_cache : (buildCache env s db).Below db₁.nextAlertId := by
      rw [h_collected.nextAlertId]
      exact below_buildCache h_below
    refine ⟨alertOfEvent s (buildCache env s db) e', ?_, rfl⟩
    rw [lookup_new h_below₁ h_cache, h_e']
    rfl
  · obtain ⟨h_mem, a, h_joined⟩ := mem_existingAlertEvents.mp h_existing
    have h_row := (mem_getActiveAlerts.mp (mem_of_activeAlert h_joined).1).1
    have h_row₁ : db₁.alerts.lookup id =
        some (collectedAlert env s (buildCache env s db) detected id a) := by
      rw [h_collected.lookup, h_row]
      rfl
    refine ⟨_, lookup_old h_below₁ h_row₁, ?_⟩
    rw [Alert.upgradeAll_status, status_of_joined h_collected h_mem h_joined,
      if_neg (not_mem_recoveredNoDataIds h_settled h_collected h_mem h_joined)]

theorem exists_joining {id : ℕ} {a : Alert Num}
    (h_collected : Collected env s (buildCache env s db) detected noDataEvents db db₁)
    (h_active : (id, a) ∈ getActiveAlerts env s db) (h_type : a.alertType = .noData)
    (h_raised : RaisedNoData env s db (getAlertMetricInstanceId env a))
    (h_heard : HeardAgain env s db (getAlertMetricInstanceId env a)) :
    ∃ id' e, (id', e) ∈ existingAlertEvents env (buildCache env s db)
        (detected.1 ++ noDataEvents) ∧
      id' ∈ recoveredNoDataIds env s (buildCache env s db) := by
  obtain ⟨e, h_e, h_key, h_noData⟩ :=
    (raisedNoData_iff h_collected.threshold h_collected.noData).mp h_raised
  have h_active' : (id, a) ∈ (buildCache env s db).activeAlerts := h_active
  obtain ⟨id', a', h_joined⟩ : ∃ id' a', activeAlert env (buildCache env s db)
      (getAlertMetricInstanceId env a) a.alertType = some (id', a') :=
    exists_activeAlert h_active'
  obtain ⟨h_mem', h_key', h_type'⟩ := mem_of_activeAlert h_joined
  refine ⟨id', e, mem_existingAlertEvents.mpr ⟨h_e, a', ?_⟩, ?_⟩
  · rw [h_key, h_noData, ← h_type]
    exact h_joined
  · refine mem_recoveredNoDataIds.mpr ⟨a', h_mem', h_type'.trans h_type, ?_⟩
    rw [h_key']
    exact h_heard

/-- **Live alerts.** Events go to alerts that are not over, unless the two periods disagree. -/
theorem live_iff (env : Env Num) (s : Scan Num) {db db' : Db Num}
    (h_below : Table.Below db.alerts db.nextAlertId) (h_run : run env s db = .ok () db') :
    Live db db' ↔ Settled env s db := by
  rcases run_spec h_run with ⟨h_source, h_empty, rfl⟩ |
    ⟨-, detected, noDataEvents, db₁, h_collected, rfl⟩
  · have h_none : created db' db' = [] := List.drop_length
    refine ⟨fun _ => settled_of_noInstances h_source h_empty, fun _ => ⟨?_, ?_⟩⟩
    · intro e h_e
      rw [h_none] at h_e
      cases h_e
    · intro id a a' _ _ _ _ e h_e
      rw [h_none] at h_e
      cases h_e
  · have h_created : created db (recordEvents env s (buildCache env s db)
        (detected.1 ++ noDataEvents) db₁) =
        (linkedNewEvents db₁.nextAlertId
            (newAlertEvents env (buildCache env s db) (detected.1 ++ noDataEvents)) ++
          existingAlertEvents env (buildCache env s db) (detected.1 ++ noDataEvents)).map
            (eventRow s) := by
      unfold created
      rw [← h_collected.events]
      exact drop_recordEvents
    constructor
    · intro h_live id a h_row h_isActive h_type h_raised h_heard
      have h_active : (id, a) ∈ getActiveAlerts env s db :=
        mem_getActiveAlerts.mpr ⟨h_row, h_isActive⟩
      obtain ⟨id', e, h_existing, h_recovered⟩ :=
        exists_joining h_collected h_active h_type h_raised h_heard
      obtain ⟨h_e, a', h_joined⟩ := mem_existingAlertEvents.mp h_existing
      -- the alert that the event is linked to is over
      have h_mem : eventRow s (id', e) ∈ created db (recordEvents env s (buildCache env s db)
          (detected.1 ++ noDataEvents) db₁) := by
        rw [h_created]
        exact List.mem_map_of_mem (List.mem_append_right _ h_existing)
      obtain ⟨a'', h_row'', h_new⟩ := h_live.live _ h_mem
      have h_row' := (mem_getActiveAlerts.mp (mem_of_activeAlert h_joined).1).1
      have h_row₁ : db₁.alerts.lookup id' =
          some (collectedAlert env s (buildCache env s db) detected id' a') := by
        rw [h_collected.lookup, h_row']
        rfl
      have h_after : (recordEvents env s (buildCache env s db) (detected.1 ++ noDataEvents)
          db₁).alerts.lookup id' = some ((collectedAlert env s (buildCache env s db) detected id'
            a').upgradeAll (joining env (buildCache env s db) (detected.1 ++ noDataEvents) id')) :=
        lookup_old (h_collected.below h_below) h_row₁
      have h_same := h_row''.symm.trans h_after
      cases h_same
      rw [Alert.upgradeAll_status, status_of_joined h_collected h_e h_joined,
        if_pos h_recovered] at h_new
      cases h_new
    · intro h_settled
      have h_live : ∀ e ∈ created db (recordEvents env s (buildCache env s db)
          (detected.1 ++ noDataEvents) db₁), ∃ a, (recordEvents env s (buildCache env s db)
            (detected.1 ++ noDataEvents) db₁).alerts.lookup e.alertId = some a ∧
              a.status = .new := by
        intro row h_row
        rw [h_created] at h_row
        obtain ⟨⟨id, e⟩, h_e, rfl⟩ := List.mem_map.mp h_row
        exact lookup_of_created h_settled h_below h_collected h_e
      refine ⟨h_live, fun id a a' _ _ h_row' h_over e h_e h_id => ?_⟩
      obtain ⟨a'', h_row'', h_new⟩ := h_live e h_e
      rw [h_id, h_row'] at h_row''
      cases h_row''
      rw [h_over] at h_new
      cases h_new

def watchHost : Policy ℤ where
  id := 1
  source := true
  groupBy := ["instance_id"]
  enableAlerts := ["no_data"]
  noDataPeriod := true
  noDataRecoveryPeriod := true

def silentScan (recoveryResult : List Series) : Scan ℤ where
  policy := watchHost
  instances := [("('host1',)", "host1")]
  named := named_host
  lastRunTime := 600
  recoveryResult := some recoveryResult

def silentDb : Db ℤ where
  alerts := Table.insertRows ∅ 1 [hostAlert .noData "no_data"]
  nextAlertId := 2

theorem below_silentDb : Table.Below silentDb.alerts silentDb.nextAlertId :=
  Table.below_insertRows (fun _ _ => rfl) [hostAlert .noData "no_data"]

/-- The host has no data in either period: its alert gets the event and stays. -/
theorem live_silent : Live silentDb ((run smallEnv (silentScan [])).after silentDb) := by
  refine (live_iff smallEnv (silentScan []) below_silentDb rfl).mpr ?_
  intro id a _ _ _ _ h_heard
  obtain ⟨-, -, keys, h_keys, h_key⟩ := h_heard
  cases h_keys
  cases h_key

/-- **Recovered and raised** by one scan. -/
theorem live_recovered :
    run smallEnv (silentScan [hostSeries "1"]) silentDb =
        .ok () ((run smallEnv (silentScan [hostSeries "1"])).after silentDb) ∧
      ¬Live silentDb ((run smallEnv (silentScan [hostSeries "1"])).after silentDb) := by
  refine ⟨rfl, fun h => ?_⟩
  have h_created : (created silentDb
      ((run smallEnv (silentScan [hostSeries "1"])).after silentDb)).map (·.alertId) = [1] := by
    decide
  have h_over : (((run smallEnv (silentScan [hostSeries "1"])).after silentDb).alerts.lookup
      1).map (·.status) = some .recovered := by
    decide
  obtain ⟨e, h_e, h_id⟩ := List.mem_map.mp (h_created ▸ List.mem_singleton_self 1 :
    1 ∈ (created silentDb
      ((run smallEnv (silentScan [hostSeries "1"])).after silentDb)).map (·.alertId))
  obtain ⟨a, h_row, h_new⟩ := h.live e h_e
  rw [h_id] at h_row
  rw [h_row, Option.map_some, h_new] at h_over
  cases h_over

end Live

end LiveAlerts
end Monitor
