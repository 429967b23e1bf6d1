import BkLite.Alerts.Reminder
import BkLite.Framework.Schedule

/-!
# Missing-heartbeat detection

`AggregationProcessor._process_missing_detection_strategy` and `SyntheticAlertBuilder`. A strategy
expects a heartbeat at every tick of a cron schedule. A pass looks for heartbeats since the last
pass; if there are none it computes a deadline and raises an alert once the deadline is over.

`croniter` is a `Schedule`, of which only its documented nearest ticks are used. The heartbeats are
the reception times of the `CREATED` events that the rules of the strategy match; the texts of the
alert are not modelled.
-/

namespace Alerts
namespace MissingDetection

open Py

/-! ### The strategy row -/

/-- `HeartbeatActivationMode`. -/
inductive ActivationMode
  | firstHeartbeat
  | immediate
deriving DecidableEq, Repr

inductive HeartbeatStatus
  | waiting
  | monitoring
  | alerting
deriving DecidableEq, Repr

/-- `AlarmStrategy.params` of a missing-heartbeat strategy, the defaults of
`_load_params` filled in. -/
structure HeartbeatParams where
  /-- In minutes. -/
  gracePeriod : ℤ := 0
  activationMode : ActivationMode := .firstHeartbeat
  autoRecovery : Bool := true
  heartbeatStatus : HeartbeatStatus := .waiting
  lastHeartbeatTime : Option ℤ := none
  /-- The level of `alert_template`. -/
  alertLevel : String := "0"

/-- The columns of an `AlarmStrategy` that a pass reads or writes. -/
structure MissingStrategy where
  id : ℕ
  createdAt : ℤ
  lastExecuteTime : Option ℤ := none
  params : HeartbeatParams
  /-- `_get_safe_strategy_team`. -/
  team : List Value := []

/-! ### Synthetic alerts -/

section Builder

variable (md5 : String → String)

def buildFingerprint (strategyId : ℕ) : String :=
  md5 ("missing_detection:" ++ toString strategyId)

def isActiveAlert (s : MissingStrategy) (alert : Alert) : Bool :=
  alert.ruleId = some (toString s.id) && alert.groupByField = some "missing_detection" &&
    alert.fingerprint = buildFingerprint md5 s.id && decide alert.status.IsActive

def findActiveAlert (s : MissingStrategy) (db : Db) : Option (AlertId × Alert) :=
  Table.latestWhere db.alerts (isActiveAlert md5 s) (·.updatedAt)

/-- The row that `create_alert` writes. -/
def syntheticAlert (s : MissingStrategy) (params : HeartbeatParams) (now : ℤ) : Alert where
  status := .unassigned
  level := params.alertLevel
  firstEventTime := some now
  lastEventTime := some now
  updatedAt := now
  fingerprint := buildFingerprint md5 s.id
  groupByField := some "missing_detection"
  ruleId := some (toString s.id)
  team := s.team

/-- `create_alert` under a fresh id. -/
def createAlert (s : MissingStrategy) (params : HeartbeatParams) (newId : AlertId) (now : ℤ)
    (db : Db) : Db :=
  match findActiveAlert md5 s db with
  | some _ => db
  | none => { db with alerts := db.alerts.insert newId (syntheticAlert md5 s params now) }

def recoverMissingAlert (s : MissingStrategy) (now : ℤ) (db : Db) : Db :=
  match findActiveAlert md5 s db with
  | none => db
  | some (k, _) =>
    stopReminderTask k { db with
      alerts := Table.modify db.alerts k fun alert =>
        { alert with status := .autoRecovery, lastEventTime := some now, updatedAt := now } }

end Builder

/-! ### The pass -/

/-- `_query_candidate_events` and the rules: the heartbeats since the last pass. -/
def queryCandidateEvents (s : MissingStrategy) (heartbeats : List ℤ) : List ℤ :=
  heartbeats.filter fun receivedAt =>
    match s.lastExecuteTime with
    | some last => last < receivedAt
    | none => s.createdAt ≤ receivedAt

def activateIfNeeded (params : HeartbeatParams) (latestEvent : Option ℤ) : HeartbeatParams :=
  if params.heartbeatStatus ≠ .waiting then params
  else if params.activationMode = .immediate then { params with heartbeatStatus := .monitoring }
  else
    match latestEvent with
    | none => params
    | some receivedAt =>
      { params with heartbeatStatus := .monitoring, lastHeartbeatTime := some receivedAt }

/-- What heartbeats are counted from: the last one, or the creation of the
strategy in immediate mode without one. -/
def monitoringStart (s : MissingStrategy) (params : HeartbeatParams) : Option ℤ :=
  if params.activationMode = .immediate ∧ params.lastHeartbeatTime = none then some s.createdAt
  else params.lastHeartbeatTime

def calculateDeadline (cron : Schedule ℤ) (s : MissingStrategy) (params : HeartbeatParams)
    (now : ℤ) : Option ℤ :=
  match monitoringStart s params with
  | none => none
  | some start =>
    let gracePeriod := minutes params.gracePeriod
    let firstExpected := cron.next start
    if now < firstExpected then some (firstExpected + gracePeriod)
    else
      let previousExpected := cron.prev now
      if params.lastHeartbeatTime.any (previousExpected ≤ ·) then
        some (cron.next previousExpected + gracePeriod)
      else some (previousExpected + gracePeriod)

def saveRuntimeState (s : MissingStrategy) (params : HeartbeatParams) (now : ℤ) :
    MissingStrategy :=
  { s with params, lastExecuteTime := some now }

def processMissingDetectionStrategy (md5 : String → String) (cron : Schedule ℤ)
    (heartbeats : List ℤ) (newId : AlertId) (now : ℤ) (s : MissingStrategy) (db : Db) :
    Db × MissingStrategy :=
  let latestEvent := (queryCandidateEvents s heartbeats).max?
  let params := activateIfNeeded s.params latestEvent
  match latestEvent with
  | some receivedAt =>
    let params := { params with lastHeartbeatTime := some receivedAt }
    let monitoring := { params with heartbeatStatus := .monitoring }
    match findActiveAlert md5 s db with
    | some _ =>
      if params.autoRecovery then
        (recoverMissingAlert md5 s now db, saveRuntimeState s monitoring now)
      else (db, saveRuntimeState s params now)
    | none => (db, saveRuntimeState s monitoring now)
  | none =>
    match calculateDeadline cron s params now with
    | none => (db, saveRuntimeState s params now)
    | some deadline =>
      if now ≤ deadline then (db, saveRuntimeState s params now)
      else
        let alerting := { params with heartbeatStatus := .alerting }
        match findActiveAlert md5 s db with
        | some _ => (db, saveRuntimeState s alerting now)
        | none => (createAlert md5 s params newId now db, saveRuntimeState s alerting now)

/-! ### The deadline -/

section Deadline

variable {cron : Schedule ℤ} {s : MissingStrategy} {params : HeartbeatParams} {start now : ℤ}

theorem calculateDeadline_early (h_start : monitoringStart s params = some start)
    (h_now : now < cron.next start) :
    calculateDeadline cron s params now =
      some (cron.next start + minutes params.gracePeriod) := by
  unfold calculateDeadline
  rw [h_start]
  exact if_pos h_now

theorem calculateDeadline_recent {last : ℤ} (h_last : params.lastHeartbeatTime = some last)
    (h_now : cron.next last ≤ now) (h_recent : cron.prev now ≤ last) :
    calculateDeadline cron s params now =
      some (cron.next last + minutes params.gracePeriod) := by
  have h_start : monitoringStart s params = some last := by
    unfold monitoringStart
    rw [if_neg (by simp [h_last]), h_last]
  have h_after : now ≤ cron.next last := cron.le_next_of_prev_le h_recent
  have h_here : cron.next last = now := le_antisymm h_now h_after
  have h_next : cron.next (cron.prev now) = cron.next last := by
    refine le_antisymm ?_ ?_
    · exact cron.next_le _ _ (cron.next_isTick last) (h_here ▸ cron.prev_lt now)
    · exact h_here ▸ cron.le_next_prev
  unfold calculateDeadline
  rw [h_start]
  simp [h_here, h_last, h_recent, h_next]

theorem calculateDeadline_late (h_start : monitoringStart s params = some start)
    (h_now : cron.next start ≤ now)
    (h_old : ∀ last, params.lastHeartbeatTime = some last → last < cron.prev now) :
    calculateDeadline cron s params now =
      some (cron.prev now + minutes params.gracePeriod) := by
  have h_any : params.lastHeartbeatTime.any (cron.prev now ≤ ·) = false := by
    cases h_last : params.lastHeartbeatTime with
    | none => rfl
    | some last => simpa using h_old last h_last
  unfold calculateDeadline
  rw [h_start]
  simp only [if_neg (not_lt.mpr h_now), h_any]
  rfl

end Deadline

/-! ### What a pass leaves behind -/

section Pass

variable {md5 : String → String} {cron : Schedule ℤ} {heartbeats : List ℤ} {newId : AlertId}
  {now : ℤ} {s : MissingStrategy} {db : Db}

def ActiveMissing (md5 : String → String) (s : MissingStrategy) (db : Db) : Prop :=
  ∃ k alert, db.alerts.lookup k = some alert ∧ isActiveAlert md5 s alert = true

theorem findActiveAlert_eq_none :
    findActiveAlert md5 s db = none ↔ ¬ActiveMissing md5 s db := by
  unfold findActiveAlert ActiveMissing
  rw [Table.latestWhere_eq_none]
  simp

theorem activeMissing_createAlert (params : HeartbeatParams) :
    ActiveMissing md5 s (createAlert md5 s params newId now db) := by
  unfold createAlert
  cases h_find : findActiveAlert md5 s db with
  | some found =>
    obtain ⟨k, alert⟩ := found
    exact ⟨k, alert, Table.latestWhere_eq_some h_find⟩
  | none =>
    refine ⟨newId, syntheticAlert md5 s params now, AList.lookup_insert _, ?_⟩
    unfold isActiveAlert syntheticAlert
    simp [AlertStatus.IsActive, AlertStatus.activateStatus]

def StaysActive (md5 : String → String) (s : MissingStrategy) (db : Db) : Prop :=
  ∃ k alert, db.alerts.lookup k = some alert ∧ isActiveAlert md5 s alert = true ∧
    (s.params.autoRecovery = true → ∀ found, findActiveAlert md5 s db ≠ some (k, found))

theorem activeMissing_recover :
    ActiveMissing md5 s (recoverMissingAlert md5 s now db) ↔
      ∃ k alert, db.alerts.lookup k = some alert ∧ isActiveAlert md5 s alert = true ∧
        ∀ found, findActiveAlert md5 s db ≠ some (k, found) := by
  unfold recoverMissingAlert
  cases h_find : findActiveAlert md5 s db with
  | none => simp [ActiveMissing]
  | some found =>
    obtain ⟨k, alert⟩ := found
    refine ⟨?_, ?_⟩
    · rintro ⟨k', alert', h_row, h_active⟩
      obtain ⟨old, h_old, h_eq⟩ := Table.lookup_modify_eq_some h_row
      by_cases h_key : k' = k
      · -- the recovered alert is no longer active
        rw [if_pos h_key] at h_eq
        subst h_eq
        unfold isActiveAlert at h_active
        simp [AlertStatus.IsActive, AlertStatus.activateStatus] at h_active
      · rw [if_neg h_key] at h_eq
        subst h_eq
        exact ⟨k', alert', h_old, h_active, by simp [Ne.symm h_key]⟩
    · rintro ⟨k', alert', h_row, h_active, h_other⟩
      have h_key : k' ≠ k := fun h_eq => h_other alert (by rw [h_eq])
      exact ⟨k', alert', (Table.lookup_modify_ne _ _ h_key).trans h_row, h_active⟩

variable (md5 cron newId now db) in
theorem activeMissing_of_heartbeat {receivedAt : ℤ}
    (h_latest : (queryCandidateEvents s heartbeats).max? = some receivedAt) :
    ActiveMissing md5 s
        (processMissingDetectionStrategy md5 cron heartbeats newId now s db).1 ↔
      StaysActive md5 s db := by
  have h_auto : (activateIfNeeded s.params (some receivedAt)).autoRecovery =
      s.params.autoRecovery := by
    unfold activateIfNeeded
    split_ifs <;> rfl
  unfold processMissingDetectionStrategy StaysActive
  simp only [h_latest, h_auto]
  cases h_find : findActiveAlert md5 s db with
  | none =>
    refine ⟨fun h => absurd h (findActiveAlert_eq_none.mp h_find), ?_⟩
    rintro ⟨k, alert, h_row, h_active, -⟩
    exact ⟨k, alert, h_row, h_active⟩
  | some found =>
    dsimp only
    split
    next h_recovery =>
      rw [activeMissing_recover, h_find]
      simp [h_recovery]
    next h_recovery => simp [ActiveMissing, h_recovery]

variable (md5 newId db) in
theorem activeMissing_of_deadline {deadline : ℤ}
    (h_latest : (queryCandidateEvents s heartbeats).max? = none)
    (h_deadline : calculateDeadline cron s (activateIfNeeded s.params none) now = some deadline) :
    ActiveMissing md5 s
        (processMissingDetectionStrategy md5 cron heartbeats newId now s db).1 ↔
      ActiveMissing md5 s db ∨ deadline < now := by
  unfold processMissingDetectionStrategy
  simp only [h_latest, h_deadline]
  split
  next h_in_time =>
    refine ⟨Or.inl, fun h => h.resolve_right (not_lt.mpr h_in_time)⟩
  next h_over =>
    have h_lt : deadline < now := not_le.mp h_over
    cases h_find : findActiveAlert md5 s db with
    | some found =>
      have h_active : ActiveMissing md5 s db := by
        by_contra h_none
        rw [findActiveAlert_eq_none.mpr h_none] at h_find
        cases h_find
      exact ⟨fun _ => Or.inr h_lt, fun _ => h_active⟩
    | none => exact ⟨fun _ => Or.inr h_lt, fun _ => activeMissing_createAlert _⟩

end Pass

/-! ### Right and wrong passes -/

def Silent (heartbeats : List ℤ) (start : ℤ) : Prop :=
  ∀ receivedAt ∈ heartbeats, receivedAt ≤ start

def graceEnd (cron : Schedule ℤ) (s : MissingStrategy) (start : ℤ) : ℤ :=
  cron.next start + minutes s.params.gracePeriod

/-- What a pass is meant to do, `start` being the monitoring start. -/
structure DetectsMissing (md5 : String → String) (cron : Schedule ℤ) (heartbeats : List ℤ)
    (newId : AlertId) (now : ℤ) (s : MissingStrategy) (db : Db) (start : ℤ) : Prop where
  fires : Silent heartbeats start → graceEnd cron s start < now →
    ActiveMissing md5 s (processMissingDetectionStrategy md5 cron heartbeats newId now s db).1
  waits : now ≤ graceEnd cron s start → ¬ActiveMissing md5 s db →
    ¬ActiveMissing md5 s (processMissingDetectionStrategy md5 cron heartbeats newId now s db).1

/-- When a pass does what it is meant to: on a heartbeat, and without one. -/
def DeadlineFits (md5 : String → String) (cron : Schedule ℤ) (heartbeats : List ℤ) (now : ℤ)
    (s : MissingStrategy) (db : Db) (start : ℤ) : Prop :=
  if queryCandidateEvents s heartbeats ≠ [] then
    ¬Silent heartbeats start ∨ now ≤ graceEnd cron s start ∨ StaysActive md5 s db
  else
    ActiveMissing md5 s db ∨
      ((Silent heartbeats start → graceEnd cron s start < now →
          cron.prev now + minutes s.params.gracePeriod < now) ∧
        (now = cron.next start → s.params.lastHeartbeatTime = none →
          now ≤ cron.prev now + minutes s.params.gracePeriod))

theorem deadline_fits_iff (cron : Schedule ℤ) {s : MissingStrategy} {start : ℤ} (now : ℤ)
    (h_start : monitoringStart s s.params = some start) (h_grace : 0 < s.params.gracePeriod) :
    ∃ deadline, calculateDeadline cron s s.params now = some deadline ∧
      ((graceEnd cron s start < now → deadline < now) ↔
        (graceEnd cron s start < now → cron.prev now + minutes s.params.gracePeriod < now)) ∧
      ((deadline < now → graceEnd cron s start < now) ↔
        (now = cron.next start → s.params.lastHeartbeatTime = none →
          now ≤ cron.prev now + minutes s.params.gracePeriod)) := by
  have h_pos : 0 < minutes s.params.gracePeriod := by
    unfold minutes
    omega
  have h_same : ∀ last, s.params.lastHeartbeatTime = some last → start = last := by
    intro last h_last
    unfold monitoringStart at h_start
    rw [if_neg (by simp [h_last]), h_last] at h_start
    exact (Option.some.inj h_start).symm
  unfold graceEnd
  rcases lt_trichotomy now (cron.next start) with h_now | h_now | h_now
  · refine ⟨_, calculateDeadline_early h_start h_now, ?_, ?_⟩
    · refine ⟨fun _ h_over => ?_, fun _ h_over => h_over⟩
      omega
    · refine ⟨fun _ h_eq => ?_, fun _ h_over => h_over⟩
      omega
  · -- `now` is the first tick
    cases h_last : s.params.lastHeartbeatTime with
    | some last =>
      obtain rfl := h_same last h_last
      have h_recent : cron.prev now ≤ start := h_now ▸ cron.prev_next_le
      refine ⟨_, calculateDeadline_recent h_last h_now.ge h_recent, ?_, ?_⟩
      · refine ⟨fun _ h_over => ?_, fun _ h_over => h_over⟩
        omega
      · exact ⟨fun _ _ h_none => absurd h_none (by simp), fun _ h_over => h_over⟩
    | none =>
      refine ⟨_, calculateDeadline_late h_start h_now.ge (by simp [h_last]), Iff.rfl, ?_⟩
      refine ⟨fun h _ _ => ?_, fun h h_over => ?_⟩
      · by_contra h_early
        have h_late := h (not_le.mp h_early)
        omega
      · have h_wait := h h_now rfl
        omega
  · -- a tick has passed, and the tick before `now` is not before it
    have h_prev : cron.next start ≤ cron.prev now := cron.next_le_prev h_now
    have h_old : ∀ last, s.params.lastHeartbeatTime = some last → last < cron.prev now := by
      intro last h_last
      exact h_same last h_last ▸ lt_of_lt_of_le (cron.lt_next start) h_prev
    refine ⟨_, calculateDeadline_late h_start h_now.le h_old, Iff.rfl, ?_⟩
    refine ⟨fun _ h_eq => ?_, fun _ h_over => ?_⟩ <;> omega

/-- **When missing-heartbeat detection is right.** -/
theorem processMissingDetectionStrategy_right_iff (md5 : String → String) (cron : Schedule ℤ)
    (heartbeats : List ℤ) (newId : AlertId) (now : ℤ) (s : MissingStrategy) (db : Db) (start : ℤ)
    (h_active : s.params.heartbeatStatus ≠ .waiting)
    (h_start : monitoringStart s s.params = some start) (h_grace : 0 < s.params.gracePeriod) :
    DetectsMissing md5 cron heartbeats newId now s db start ↔
      DeadlineFits md5 cron heartbeats now s db start := by
  have h_params : ∀ latest, activateIfNeeded s.params latest = s.params := by
    intro latest
    unfold activateIfNeeded
    rw [if_pos h_active]
  unfold DeadlineFits
  cases h_latest : (queryCandidateEvents s heartbeats).max? with
  | some receivedAt =>
    have h_seen : queryCandidateEvents s heartbeats ≠ [] := by
      intro h_empty
      rw [h_empty] at h_latest
      cases h_latest
    have h_after := activeMissing_of_heartbeat md5 cron newId now db h_latest
    rw [if_pos h_seen]
    refine ⟨fun h => ?_, fun h => ⟨fun h_silent h_over => ?_, fun _ h_none h_new => ?_⟩⟩
    · by_cases h_silent : Silent heartbeats start
      swap
      · exact Or.inl h_silent
      by_cases h_over : now ≤ graceEnd cron s start
      · exact Or.inr (Or.inl h_over)
      · exact Or.inr (Or.inr (h_after.mp (h.fires h_silent (not_le.mp h_over))))
    · have h_rest := h.resolve_left (not_not_intro h_silent)
      exact h_after.mpr (h_rest.resolve_left (not_le.mpr h_over))
    · obtain ⟨k, alert, h_row, h_alert, -⟩ := h_after.mp h_new
      exact h_none ⟨k, alert, h_row, h_alert⟩
  | none =>
    have h_unseen : ¬queryCandidateEvents s heartbeats ≠ [] := by
      rw [not_ne_iff]
      exact List.max?_eq_none_iff.mp h_latest
    obtain ⟨deadline, h_deadline, h_late, h_early⟩ := deadline_fits_iff cron now h_start
      h_grace
    have h_after := activeMissing_of_deadline md5 newId db h_latest
      (by rw [h_params]; exact h_deadline)
    rw [if_neg h_unseen]
    by_cases h_before : ActiveMissing md5 s db
    · refine ⟨fun _ => Or.inl h_before, fun _ => ⟨fun _ _ => ?_, fun _ h_none => ?_⟩⟩
      · exact h_after.mpr (Or.inl h_before)
      · exact absurd h_before h_none
    · have h_over : ActiveMissing md5 s (processMissingDetectionStrategy md5 cron heartbeats
          newId now s db).1 ↔ deadline < now := by
        rw [h_after]
        exact or_iff_right h_before
      rw [or_iff_right h_before, ← h_early]
      refine ⟨fun h => ⟨fun h_silent => ?_, fun h_fired => ?_⟩, fun h => ⟨?_, ?_⟩⟩
      · exact h_late.mp fun h_end => h_over.mp (h.fires h_silent h_end)
      · by_contra h_wait
        exact h.waits (not_lt.mp h_wait) h_before (h_over.mpr h_fired)
      · intro h_silent h_end
        exact h_over.mpr (h_late.mpr (h.1 h_silent) h_end)
      · intro h_wait _ h_new
        exact absurd (h.2 (h_over.mp h_new)) (not_lt.mpr h_wait)

def hourly : MissingStrategy where
  id := 1
  createdAt := 0
  lastExecuteTime := some (minutes 629)
  params := { gracePeriod := 90, heartbeatStatus := .monitoring, lastHeartbeatTime := some 0 }

/-- The schedule `0 * * * *`. -/
def everyHour : Schedule ℤ := Schedule.every (minutes 60) (by decide)

def md5Hourly : String → String := fun _ => "3a7f3aa6cde4db494200b5f3e88a4793"

/-- Half past ten, with nine heartbeats missed and over, the pass raises no alert. -/
theorem processMissingDetectionStrategy_overdue :
    ¬DetectsMissing md5Hourly everyHour [0] 1 (minutes 630) hourly
      ⟨∅, ∅, ∅, ∅, [], .null, []⟩ 0 := by
  intro h
  obtain ⟨k, alert, h_row, -⟩ := h.fires (by simp [Silent]) (by decide)
  have h_mem := AList.mem_lookup_iff.mp h_row
  have h_empty : (processMissingDetectionStrategy md5Hourly everyHour [0] 1 (minutes 630) hourly
      ⟨∅, ∅, ∅, ∅, [], .null, []⟩).1.alerts.entries = [] := by decide
  rw [h_empty] at h_mem
  exact absurd h_mem List.not_mem_nil

/-- Ten past eleven with a grace period of five minutes, the alert is raised. -/
theorem processMissingDetectionStrategy_right_short :
    DetectsMissing md5Hourly everyHour [0] 1 (minutes 670)
      { hourly with params := { hourly.params with gracePeriod := 5 } }
      ⟨∅, ∅, ∅, ∅, [], .null, []⟩ 0 := by
  refine (processMissingDetectionStrategy_right_iff md5Hourly everyHour [0] 1 (minutes 670)
    { hourly with params := { hourly.params with gracePeriod := 5 } } _ 0 (by decide) (by decide)
    (by decide)).mpr ?_
  have h_over : everyHour.prev (minutes 670) + minutes 5 < minutes 670 := by decide
  exact Or.inr ⟨fun _ _ => h_over, fun _ h_none => absurd h_none (by decide)⟩

end MissingDetection
end Alerts
