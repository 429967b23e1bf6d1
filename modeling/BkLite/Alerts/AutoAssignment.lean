import BkLite.Alerts.Cells
import BkLite.Framework.Runs

/-!
# Automatic assignment

`common/assignment.py`: the active assignments are tried in the order of their
creation. Each one is offered the alerts of the list that are still unassigned,
match it and have not been reported as assigned before, and hands them out by
`AlertOperator.operate("assign")`.

`operate` reports a refusal in its result and raises only when something breaks,
but `_batch_execute_assignment` looks for an exception alone: it reports success
for an alert whose personnel `validate_alert_assignees` has just rejected, the
alert stays unassigned, and the assignments that come later never see it.

Which alerts an assignment matches — its time range and its rules — is an
arbitrary function here; an assignment whose matching raises matches nothing.
-/

namespace Alerts
namespace AutoAssignment

open Py Runs

/-! ### The run -/

/-- `SYSTEM_OPERATOR_USER`. -/
def systemOperator : AlertOperator := { user := "admin" }

/-- One entry of `assignment_results`. -/
structure AssignmentResult where
  alertId : AlertId
  success : Bool
  assignmentId : AssignmentId
  message : String := ""
deriving DecidableEq

def personnelValue (a : AlertAssignment) : Value :=
  .list (a.initialPersonnel.map Scalar.toValue)

def observing (alert : Alert) : Bool :=
  alert.isSessionAlert && alert.sessionStatus ≠ some .confirmed

/-- The rows that `_batch_find_matching_alerts` starts from; a `NULL` session
status is not in `NO_CONFIRMED`. -/
def candidate (alert : Alert) : Bool :=
  alert.status = .unassigned && !(alert.isSessionAlert &&
    alert.sessionStatus.any (· ∈ SessionStatus.noConfirmed))

abbrev Matching := AlertAssignment → AlertId → Alert → Bool

section Run

variable (matching : Matching) (clock : OperateClock) (alertIdList : List AlertId)

def offers (a : AlertAssignment) (db : Db) (k : AlertId) : Bool :=
  k ∈ alertIdList && (db.alerts.lookup k).any fun alert => matching a k alert

def batchFindMatchingAlerts (a : AlertAssignment) (excludedIds : List AlertId) (db : Db) :
    List AlertId :=
  (Table.keysWhere db.alerts candidate).filter fun k =>
    k ∉ excludedIds && offers matching alertIdList a db k

/-- One round of the loop of `_batch_execute_assignment`. The result of `operate`
is not looked at. -/
def executeOne (a : AlertAssignment) (k : AlertId) (db : Db) : Db × AssignmentResult :=
  match db.alerts.lookup k with
  | none => (db, ⟨k, false, a.id, "告警不存在"⟩)
  | some alert =>
    if observing alert then (db, ⟨k, false, a.id, "session alert observing"⟩)
    else
      match operate systemOperator clock .assign k
        { assignee := personnelValue a, assignmentId := some a.id } db with
      | .ok (db', _) => (db', ⟨k, true, a.id, ""⟩)
      | .error _ => (db, ⟨k, false, a.id, "error"⟩)

def executeVisit (a : AlertAssignment) (k : AlertId) (acc : Db × List AssignmentResult) :
    Db × List AssignmentResult :=
  ((executeOne clock a k acc.1).1, acc.2 ++ [(executeOne clock a k acc.1).2])

def batchExecuteAssignment (alertIds : List AlertId) (a : AlertAssignment) (db : Db) :
    Db × List AssignmentResult :=
  if a.initialPersonnel = [] then
    (db, alertIds.map fun k => ⟨k, false, a.id, "No personnel configured for assignment"⟩)
  else Sweep.sweep (executeVisit clock a) alertIds (db, [])

structure AutoState where
  db : Db
  /-- `assigned_alert_ids`. -/
  assigned : List AlertId
  /-- `assignment_results`. -/
  results : List AssignmentResult

def batch (s : AutoState) (a : AlertAssignment) : Db × List AssignmentResult :=
  batchExecuteAssignment clock
    (batchFindMatchingAlerts matching alertIdList a s.assigned s.db) a s.db

def assignStep (s : AutoState) (a : AlertAssignment) : AutoState where
  db := (batch matching clock alertIdList s a).1
  assigned := s.assigned ++
    ((batch matching clock alertIdList s a).2.filter (·.success)).map (·.alertId)
  results := s.results ++ (batch matching clock alertIdList s a).2

/-- `execute_auto_assignment` over the active assignments in order. -/
def executeAutoAssignment (order : List AlertAssignment) (db : Db) : AutoState :=
  run (assignStep matching clock alertIdList) ⟨db, [], []⟩ order

end Run

/-! ### What an assignment does with an alert -/

def Attempts (a : AlertAssignment) (alert : Alert) : Prop :=
  a.initialPersonnel ≠ [] ∧ observing alert = false

/-- The personnel are rejected: somebody does not exist or is in none of the
alert's organisations. -/
def Rejects (db : Db) (a : AlertAssignment) (alert : Alert) : Prop :=
  Attempts a alert ∧ (validateAlertAssignees db.users alert (personnelValue a)).2 ≠ none

def Takes (db : Db) (a : AlertAssignment) (alert : Alert) : Prop :=
  Attempts a alert ∧ (validateAlertAssignees db.users alert (personnelValue a)).2 = none ∧
    (dispatchParams systemOperator (activeAssignment db (some a.id))
      (normalizeUsernames (personnelValue a)) alert db).toOption.isSome

instance (a : AlertAssignment) (alert : Alert) : Decidable (Attempts a alert) :=
  inferInstanceAs (Decidable (_ ∧ _))

instance (db : Db) (a : AlertAssignment) (alert : Alert) : Decidable (Rejects db a alert) :=
  inferInstanceAs (Decidable (_ ∧ _))

instance (db : Db) (a : AlertAssignment) (alert : Alert) : Decidable (Takes db a alert) :=
  inferInstanceAs (Decidable (_ ∧ _ ∧ _))

theorem Takes.not_rejects {db : Db} {a : AlertAssignment} {alert : Alert}
    (h : Takes db a alert) : ¬Rejects db a alert :=
  fun h_rejects => h_rejects.2 h.2.1

theorem dispatchParams_congr {op : AlertOperator} {a : Option AlertAssignment}
    {assignee : List String} {alert alert' : Alert} {db db' : Db}
    (h_team : alert'.team = alert.team)
    (h_channel : db'.defaultEmailChannel = db.defaultEmailChannel) :
    dispatchParams op a assignee alert' db' = dispatchParams op a assignee alert db := by
  unfold dispatchParams formatAssignmentNotifyData formatNotifyData
  rw [h_team, h_channel]

theorem personnelValue_truthy {a : AlertAssignment} (h : a.initialPersonnel ≠ []) :
    (personnelValue a).truthy = true := by
  unfold personnelValue
  cases h_personnel : a.initialPersonnel with
  | nil => exact absurd h_personnel h
  | cons p ps => rfl

section Attempt

variable {clock : OperateClock} {a : AlertAssignment} {k : AlertId} {alert : Alert} {db : Db}

variable (clock) in
theorem operate_assign_eq (h_alert : db.alerts.lookup k = some alert)
    (h_status : alert.status = .unassigned) (h_personnel : a.initialPersonnel ≠ []) :
    operate systemOperator clock .assign k
        { assignee := personnelValue a, assignmentId := some a.id } db =
      match validateAlertAssignees db.users alert (personnelValue a) with
      | (_, some message) => .ok (db, refused message)
      | (assignee, none) => do
        let alert := dispatched .assign assignee clock.now alert
        let db := saveAlert k alert db
        let assignment := activeAssignment db (some a.id)
        let db := startTasks clock k alert assignment db
        let params ← dispatchParams systemOperator assignment assignee alert db
        return (enqueueNotifications .dispatch k clock.now params db, done "告警分派成功") := by
  have h_truthy := personnelValue_truthy h_personnel
  unfold operate assignAlert
  rw [if_neg (by simp [systemOperator])]
  dsimp only
  rw [h_alert]
  refine (if_neg (not_not_intro h_status)).trans ((if_neg ?_).trans rfl)
  simp [h_truthy]

variable (clock) in
theorem executeOne_of_rejects (h_alert : db.alerts.lookup k = some alert)
    (h_status : alert.status = .unassigned) (h : Rejects db a alert) :
    executeOne clock a k db = (db, ⟨k, true, a.id, ""⟩) := by
  obtain ⟨⟨h_personnel, h_observing⟩, h_message⟩ := h
  obtain ⟨message, h_some⟩ := Option.ne_none_iff_exists'.mp h_message
  have h_pair : validateAlertAssignees db.users alert (personnelValue a) =
      ((validateAlertAssignees db.users alert (personnelValue a)).1, some message) :=
    Prod.ext rfl h_some
  have h_operate := operate_assign_eq clock h_alert h_status h_personnel
  rw [h_pair] at h_operate
  unfold executeOne
  simp only [h_alert, h_observing, h_operate]
  rfl

variable (clock) in
theorem executeOne_of_takes (h_alert : db.alerts.lookup k = some alert)
    (h_status : alert.status = .unassigned) (h : Takes db a alert) :
    statusOf (executeOne clock a k db).1 k = some .pending ∧
      (executeOne clock a k db).2 = ⟨k, true, a.id, ""⟩ := by
  obtain ⟨⟨h_personnel, h_observing⟩, h_valid, h_params⟩ := h
  have h_pair : validateAlertAssignees db.users alert (personnelValue a) =
      (normalizeUsernames (personnelValue a), none) := by
    refine Prod.ext ?_ h_valid
    exact validateUsernamesInGroups_fst _ _ _ _
  have h_operate := operate_assign_eq clock h_alert h_status h_personnel
  rw [h_pair] at h_operate
  -- saving the alert and starting its tasks change nothing the notification reads
  dsimp only at h_operate
  set alert' := dispatched .assign (normalizeUsernames (personnelValue a)) clock.now alert
    with h_alert'
  set db₁ := saveAlert k alert' db with h_db₁
  set db₂ := startTasks clock k alert' (activeAssignment db₁ (some a.id)) db₁ with h_db₂
  have h_channel : db₂.defaultEmailChannel = db.defaultEmailChannel :=
    (sameConfig_startTasks clock k alert' _ db₁).defaultEmailChannel
  have h_same : dispatchParams systemOperator (activeAssignment db₁ (some a.id))
      (normalizeUsernames (personnelValue a)) alert' db₂ =
      dispatchParams systemOperator (activeAssignment db (some a.id))
        (normalizeUsernames (personnelValue a)) alert db :=
    dispatchParams_congr rfl h_channel
  obtain ⟨params, h_ok⟩ := Option.isSome_iff_exists.mp h_params
  rw [h_same] at h_operate
  cases h_result : dispatchParams systemOperator (activeAssignment db (some a.id))
      (normalizeUsernames (personnelValue a)) alert db with
  | error e =>
    rw [h_result] at h_ok
    cases h_ok
  | ok params =>
    rw [h_result] at h_operate
    change operate _ _ _ _ _ _ = .ok (enqueueNotifications .dispatch k clock.now params db₂,
      done "告警分派成功") at h_operate
    unfold executeOne
    simp only [h_alert, h_observing, h_operate]
    refine ⟨?_, rfl⟩
    change statusOf (enqueueNotifications _ _ _ _ db₂) k = _
    rw [statusOf_congr enqueueNotifications_alerts, h_db₂, statusOf_startTasks, h_db₁,
      statusOf_saveAlert, if_pos rfl]
    rfl

variable (clock) in
/-- **Visible failure.** Without a rejection or an acceptance the alert is left
alone and a failure is reported. -/
theorem executeOne_of_fails (h_alert : db.alerts.lookup k = some alert)
    (h_status : alert.status = .unassigned) (h_personnel : a.initialPersonnel ≠ [])
    (h_rejects : ¬Rejects db a alert) (h_takes : ¬Takes db a alert) :
    (executeOne clock a k db).1 = db ∧ (executeOne clock a k db).2.success = false := by
  unfold executeOne
  simp only [h_alert]
  by_cases h_observing : observing alert = true
  · rw [if_pos h_observing]
    exact ⟨rfl, rfl⟩
  rw [if_neg h_observing]
  have h_attempts : Attempts a alert := ⟨h_personnel, by simpa using h_observing⟩
  have h_valid : (validateAlertAssignees db.users alert (personnelValue a)).2 = none := by
    by_contra h_message
    exact h_rejects ⟨h_attempts, h_message⟩
  have h_pair : validateAlertAssignees db.users alert (personnelValue a) =
      (normalizeUsernames (personnelValue a), none) := by
    refine Prod.ext ?_ h_valid
    exact validateUsernamesInGroups_fst _ _ _ _
  have h_operate := operate_assign_eq clock h_alert h_status h_personnel
  rw [h_pair] at h_operate
  dsimp only at h_operate
  set alert' := dispatched .assign (normalizeUsernames (personnelValue a)) clock.now alert
  set db₁ := saveAlert k alert' db
  set db₂ := startTasks clock k alert' (activeAssignment db₁ (some a.id)) db₁
  have h_same : dispatchParams systemOperator (activeAssignment db₁ (some a.id))
      (normalizeUsernames (personnelValue a)) alert' db₂ =
      dispatchParams systemOperator (activeAssignment db (some a.id))
        (normalizeUsernames (personnelValue a)) alert db :=
    dispatchParams_congr rfl (sameConfig_startTasks clock k alert' _ db₁).defaultEmailChannel
  rw [h_same] at h_operate
  cases h_params : dispatchParams systemOperator (activeAssignment db (some a.id))
      (normalizeUsernames (personnelValue a)) alert db with
  | ok params =>
    refine absurd ⟨h_attempts, h_valid, ?_⟩ h_takes
    rw [h_params]
    rfl
  | error e =>
    rw [h_params] at h_operate
    rw [h_operate]
    exact ⟨rfl, rfl⟩

theorem executeOne_alertId : (executeOne clock a k db).2.alertId = k := by
  unfold executeOne
  split
  · rfl
  · split
    · rfl
    · split <;> rfl

variable (clock a k db) in
theorem executeOne_fst :
    (executeOne clock a k db).1 = db ∨
      OperateEffect clock k { assignee := personnelValue a, assignmentId := some a.id } db .assign
        (executeOne clock a k db).1 := by
  have h_effect := operateDb_effect systemOperator clock .assign k
    { assignee := personnelValue a, assignmentId := some a.id } db
  unfold operateDb at h_effect
  unfold executeOne
  split
  · exact Or.inl rfl
  · split
    · exact Or.inl rfl
    · split
      next h_operate =>
        rw [h_operate] at h_effect
        exact Or.inr h_effect
      · exact Or.inl rfl

theorem executeOne_lookup_ne {k' : AlertId} (h : k' ≠ k) :
    (executeOne clock a k db).1.alerts.lookup k' = db.alerts.lookup k' := by
  rcases executeOne_fst clock a k db with h_same | h_effect
  · rw [h_same]
  · exact (Prod.mk.inj (cell_operate_ne h_effect h)).1

theorem sameConfig_executeOne : SameConfig db (executeOne clock a k db).1 := by
  rcases executeOne_fst clock a k db with h_same | h_effect
  · rw [h_same]
    exact .refl db
  · generalize (executeOne clock a k db).1 = db' at h_effect ⊢
    cases h_effect with
    | refused => exact .refl db
    | finished _ _ h_end => simp at h_end
    | assigned =>
      refine SameConfig.trans ?_ (sameConfig_enqueue _ _ _ _ _)
      refine SameConfig.trans ?_ (sameConfig_startTasks _ _ _ _ _)
      exact ⟨rfl, rfl, rfl⟩

end Attempt

theorem Takes.congr {db db' : Db} (h : SameConfig db db') {a : AlertAssignment} {alert : Alert} :
    Takes db' a alert ↔ Takes db a alert := by
  unfold Takes activeAssignment
  rw [h.users, h.assignments, dispatchParams_congr rfl h.defaultEmailChannel]

theorem Rejects.congr {db db' : Db} (h : SameConfig db db') {a : AlertAssignment}
    {alert : Alert} : Rejects db' a alert ↔ Rejects db a alert := by
  unfold Rejects
  rw [h.users]

/-! ### One batch -/

section Batch

variable {clock : OperateClock} {a : AlertAssignment} {ids : List AlertId} {k : AlertId} {db : Db}

def batchView (k : AlertId) (acc : Db × List AssignmentResult) :
    Option Alert × List AssignmentResult :=
  (acc.1.alerts.lookup k, acc.2.filter fun r => r.alertId = k)

theorem batchView_visit_ne (clock : OperateClock) (a : AlertAssignment) (k : AlertId)
    (k' : AlertId) (h : k' ≠ k) (acc : Db × List AssignmentResult) :
    batchView k (executeVisit clock a k' acc) = batchView k acc := by
  unfold batchView executeVisit
  rw [executeOne_lookup_ne (Ne.symm h), List.filter_append]
  simp [executeOne_alertId, h]

theorem sameConfig_batch : SameConfig db (batchExecuteAssignment clock ids a db).1 := by
  unfold batchExecuteAssignment
  split
  · exact .refl db
  · exact Sweep.sweep_invariant (I := fun acc : Db × List AssignmentResult => SameConfig db acc.1)
      (fun k acc h => h.trans sameConfig_executeOne) ids (.refl db)

variable (clock db) in
theorem batch_of_not_mem (h : k ∉ ids) :
    (batchExecuteAssignment clock ids a db).1.alerts.lookup k = db.alerts.lookup k ∧
      ∀ r ∈ (batchExecuteAssignment clock ids a db).2, r.alertId ≠ k := by
  unfold batchExecuteAssignment
  split
  · refine ⟨rfl, fun r h_mem h_id => ?_⟩
    obtain ⟨k', h_k', rfl⟩ := List.mem_map.mp h_mem
    exact h (h_id ▸ h_k')
  · have h_view := Sweep.sweep_of_not_mem (executeVisit clock a) (batchView k)
      (batchView_visit_ne clock a k) h (db, [])
    obtain ⟨h_row, h_results⟩ := Prod.mk.inj h_view
    refine ⟨h_row, fun r h_mem h_id => ?_⟩
    have h_filtered : r ∈ (Sweep.sweep (executeVisit clock a) ids (db, [])).2.filter
        (fun r => r.alertId = k) := List.mem_filter.mpr ⟨h_mem, decide_eq_true h_id⟩
    rw [h_results] at h_filtered
    exact absurd h_filtered (by simp)

variable (clock db) in
theorem batch_of_mem (h_nodup : ids.Nodup) (h_personnel : a.initialPersonnel ≠ [])
    (h : k ∈ ids) :
    ∃ mid, SameConfig db mid ∧ mid.alerts.lookup k = db.alerts.lookup k ∧
      (batchExecuteAssignment clock ids a db).1.alerts.lookup k =
        (executeOne clock a k mid).1.alerts.lookup k ∧
      (batchExecuteAssignment clock ids a db).2.filter (fun r => r.alertId = k) =
        [(executeOne clock a k mid).2] := by
  unfold batchExecuteAssignment
  rw [if_neg h_personnel]
  obtain ⟨mid, ⟨pre, -, rfl⟩, h_mid, h_end⟩ := Sweep.sweep_of_mem
    (executeVisit clock a) (batchView k) (batchView_visit_ne clock a k) h_nodup h
    (db, [])
  refine ⟨(Sweep.sweep (executeVisit clock a) pre (db, [])).1, ?_, (Prod.mk.inj h_mid).1,
    (Prod.mk.inj h_end).1, ?_⟩
  · exact Sweep.sweep_invariant (I := fun acc : Db × List AssignmentResult => SameConfig db acc.1)
      (fun k acc h => h.trans sameConfig_executeOne) pre (.refl db)
  · have h_before : (Sweep.sweep (executeVisit clock a) pre (db, [])).2.filter
        (fun r => r.alertId = k) = [] := (Prod.mk.inj h_mid).2
    rw [(Prod.mk.inj h_end).2]
    change (_ ++ [_]).filter _ = _
    rw [List.filter_append, h_before]
    simp [executeOne_alertId]

end Batch

/-! ### One assignment, one alert -/

section Step

variable {matching : Matching} {clock : OperateClock} {alertIdList : List AlertId}
  {a : AlertAssignment} {k : AlertId} {alert : Alert} {s : AutoState}

def offered (matching : Matching) (alertIdList : List AlertId) (s : AutoState)
    (a : AlertAssignment) : List AlertId :=
  batchFindMatchingAlerts matching alertIdList a s.assigned s.db

theorem offered_nodup : (offered matching alertIdList s a).Nodup :=
  (Table.keysWhere_nodup _ _).filter _

theorem mem_offered (h_alert : s.db.alerts.lookup k = some alert) :
    k ∈ offered matching alertIdList s a ↔
      candidate alert = true ∧ k ∉ s.assigned ∧ k ∈ alertIdList ∧ matching a k alert = true := by
  unfold offered batchFindMatchingAlerts offers
  rw [List.mem_filter, Table.mem_keysWhere, h_alert]
  simp

def ReportsSuccess (matching : Matching) (clock : OperateClock) (alertIdList : List AlertId)
    (s : AutoState) (a : AlertAssignment) (k : AlertId) : Prop :=
  ∃ r ∈ (batch matching clock alertIdList s a).2, r.alertId = k ∧ r.success = true

theorem mem_assigned_assignStep :
    k ∈ (assignStep matching clock alertIdList s a).assigned ↔
      k ∈ s.assigned ∨ ReportsSuccess matching clock alertIdList s a k := by
  unfold assignStep ReportsSuccess
  rw [List.mem_append]
  refine or_congr Iff.rfl ?_
  rw [List.mem_map]
  refine ⟨?_, ?_⟩
  · rintro ⟨r, h_mem, rfl⟩
    obtain ⟨h_mem, h_success⟩ := List.mem_filter.mp h_mem
    exact ⟨r, h_mem, rfl, h_success⟩
  · rintro ⟨r, h_mem, rfl, h_success⟩
    exact ⟨r, List.mem_filter.mpr ⟨h_mem, h_success⟩, rfl⟩

variable (clock) in
theorem assignStep_of_not_offered (h : k ∉ offered matching alertIdList s a) :
    (assignStep matching clock alertIdList s a).db.alerts.lookup k = s.db.alerts.lookup k ∧
      ¬ReportsSuccess matching clock alertIdList s a k := by
  obtain ⟨h_row, h_results⟩ := batch_of_not_mem clock s.db (a := a) h
  refine ⟨h_row, ?_⟩
  rintro ⟨r, h_mem, h_id, -⟩
  exact h_results r h_mem h_id

variable (clock) in
theorem assignStep_of_offered (h_personnel : a.initialPersonnel ≠ [])
    (h : k ∈ offered matching alertIdList s a) :
    ∃ mid, SameConfig s.db mid ∧ mid.alerts.lookup k = s.db.alerts.lookup k ∧
      (assignStep matching clock alertIdList s a).db.alerts.lookup k =
        (executeOne clock a k mid).1.alerts.lookup k ∧
      (ReportsSuccess matching clock alertIdList s a k ↔
        (executeOne clock a k mid).2.success = true) := by
  obtain ⟨mid, h_config, h_row, h_after, h_results⟩ :=
    batch_of_mem clock s.db offered_nodup h_personnel h
  refine ⟨mid, h_config, h_row, h_after, ?_⟩
  have h_mem : ∀ r, (r ∈ (batch matching clock alertIdList s a).2 ∧ r.alertId = k) ↔
      r = (executeOne clock a k mid).2 := by
    intro r
    have h_single : r ∈ (batchExecuteAssignment clock (offered matching alertIdList s a) a
        s.db).2.filter (fun r => r.alertId = k) ↔ r = (executeOne clock a k mid).2 := by
      rw [h_results, List.mem_singleton]
    rw [← h_single, List.mem_filter, decide_eq_true_iff]
    rfl
  unfold ReportsSuccess
  refine ⟨?_, fun h_success => ?_⟩
  · rintro ⟨r, h_r, h_id, h_success⟩
    rw [← (h_mem r).mp ⟨h_r, h_id⟩]
    exact h_success
  · obtain ⟨h_r, h_id⟩ := (h_mem (executeOne clock a k mid).2).mpr rfl
    exact ⟨_, h_r, h_id, h_success⟩

variable (clock) in
theorem assignStep_of_takes (h_alert : s.db.alerts.lookup k = some alert)
    (h_status : alert.status = .unassigned) (h : k ∈ offered matching alertIdList s a)
    (h_takes : Takes s.db a alert) :
    statusOf (assignStep matching clock alertIdList s a).db k = some .pending ∧
      ReportsSuccess matching clock alertIdList s a k := by
  obtain ⟨mid, h_config, h_row, h_after, h_reports⟩ :=
    assignStep_of_offered clock h_takes.1.1 h
  obtain ⟨h_pending, h_result⟩ := executeOne_of_takes clock (h_row.trans h_alert)
    h_status ((Takes.congr h_config).mpr h_takes)
  refine ⟨?_, h_reports.mpr (by rw [h_result])⟩
  unfold statusOf
  rw [h_after]
  exact h_pending

variable (clock) in
theorem assignStep_of_rejects (h_alert : s.db.alerts.lookup k = some alert)
    (h_status : alert.status = .unassigned) (h : k ∈ offered matching alertIdList s a)
    (h_rejects : Rejects s.db a alert) :
    (assignStep matching clock alertIdList s a).db.alerts.lookup k = some alert ∧
      ReportsSuccess matching clock alertIdList s a k := by
  obtain ⟨mid, h_config, h_row, h_after, h_reports⟩ :=
    assignStep_of_offered clock h_rejects.1.1 h
  have h_one := executeOne_of_rejects clock (h_row.trans h_alert) h_status
    ((Rejects.congr h_config).mpr h_rejects)
  rw [h_one] at h_after h_reports
  exact ⟨h_after.trans (h_row.trans h_alert), h_reports.mpr rfl⟩

variable (clock) in
theorem assignStep_of_fails (h_alert : s.db.alerts.lookup k = some alert)
    (h_status : alert.status = .unassigned) (h : k ∈ offered matching alertIdList s a)
    (h_takes : ¬Takes s.db a alert) (h_rejects : ¬Rejects s.db a alert) :
    (assignStep matching clock alertIdList s a).db.alerts.lookup k = some alert ∧
      ¬ReportsSuccess matching clock alertIdList s a k := by
  by_cases h_personnel : a.initialPersonnel = []
  · -- without personnel every alert of the batch fails
    have h_batch : batch matching clock alertIdList s a = (s.db, (offered matching alertIdList
        s a).map fun k => ⟨k, false, a.id, "No personnel configured for assignment"⟩) := by
      unfold batch batchExecuteAssignment
      rw [if_pos h_personnel]
      rfl
    unfold assignStep ReportsSuccess
    rw [h_batch]
    refine ⟨h_alert, ?_⟩
    rintro ⟨r, h_mem, -, h_success⟩
    obtain ⟨k', -, rfl⟩ := List.mem_map.mp h_mem
    exact absurd h_success (by simp)
  · obtain ⟨mid, h_config, h_row, h_after, h_reports⟩ :=
      assignStep_of_offered clock h_personnel h
    obtain ⟨h_same, h_failed⟩ := executeOne_of_fails clock (h_row.trans h_alert)
      h_status h_personnel (fun h => h_rejects ((Rejects.congr h_config).mp h))
      (fun h => h_takes ((Takes.congr h_config).mp h))
    rw [h_same] at h_after
    refine ⟨h_after.trans (h_row.trans h_alert), fun h_success => ?_⟩
    rw [h_reports, h_failed] at h_success
    exact absurd h_success (by simp)

theorem sameConfig_assignStep : SameConfig s.db (assignStep matching clock alertIdList s a).db :=
  sameConfig_batch

end Step

/-! ### The run and its first decisive assignment -/

section Decisive

variable {matching : Matching} {clock : OperateClock} {alertIdList : List AlertId} {db : Db}
  {k : AlertId} {alert : Alert}

def decisive (matching : Matching) (db : Db) (k : AlertId) (alert : Alert)
    (a : AlertAssignment) : Bool :=
  matching a k alert && (decide (Takes db a alert) || decide (Rejects db a alert))

/-- What the first decisive assignment so far leaves of an alert. -/
def AlertState (matching : Matching) (db : Db) (k : AlertId) (alert : Alert)
    (tried : List AlertAssignment) (s : AutoState) : Prop :=
  SameConfig db s.db ∧
  match tried.find? (decisive matching db k alert) with
  | none => s.db.alerts.lookup k = some alert ∧ k ∉ s.assigned
  | some b => k ∈ s.assigned ∧ (Takes db b alert → statusOf s.db k = some .pending) ∧
      (¬Takes db b alert → s.db.alerts.lookup k = some alert)

variable (clock) in
theorem AlertState.step {tried : List AlertAssignment} {s : AutoState} {a : AlertAssignment}
    (h_list : k ∈ alertIdList) (h_candidate : candidate alert = true)
    (h : AlertState matching db k alert tried s) :
    AlertState matching db k alert (tried ++ [a])
      (assignStep matching clock alertIdList s a) := by
  obtain ⟨h_config, h_state⟩ := h
  refine ⟨h_config.trans sameConfig_assignStep, ?_⟩
  have h_status : alert.status = .unassigned := by
    unfold candidate at h_candidate
    simpa using (Bool.and_eq_true_iff.mp h_candidate).1
  rw [List.find?_append]
  cases h_find : tried.find? (decisive matching db k alert) with
  | some b =>
    -- the alert is excluded, so this assignment does not see it
    rw [h_find] at h_state
    obtain ⟨h_assigned, h_taken, h_left⟩ := h_state
    have h_not : k ∉ offered matching alertIdList s a := by
      unfold offered batchFindMatchingAlerts
      rw [List.mem_filter]
      simp [h_assigned]
    obtain ⟨h_row, -⟩ := assignStep_of_not_offered clock h_not
    refine ⟨mem_assigned_assignStep.mpr (Or.inl h_assigned), ?_, ?_⟩
    · intro h_takes
      rw [← h_taken h_takes]
      unfold statusOf
      rw [h_row]
    · intro h_takes
      exact h_row.trans (h_left h_takes)
  | none =>
    rw [h_find] at h_state
    obtain ⟨h_alert, h_free⟩ := h_state
    have h_offered : k ∈ offered matching alertIdList s a ↔ matching a k alert = true := by
      rw [mem_offered h_alert]
      simp [h_candidate, h_free, h_list]
    by_cases h_match : matching a k alert = true
    swap
    · -- not matched, not decisive
      obtain ⟨h_row, h_silent⟩ := assignStep_of_not_offered clock
        (fun h => h_match (h_offered.mp h))
      have h_decisive : decisive matching db k alert a = false := by
        simp [decisive, h_match]
      rw [List.find?_singleton, h_decisive]
      refine ⟨h_row.trans h_alert, fun h_mem => ?_⟩
      rcases mem_assigned_assignStep.mp h_mem with h_old | h_new
      · exact h_free h_old
      · exact h_silent h_new
    have h_in : k ∈ offered matching alertIdList s a := h_offered.mpr h_match
    by_cases h_takes : Takes db a alert
    · have h_decisive : decisive matching db k alert a = true := by
        simp [decisive, h_match, h_takes]
      rw [List.find?_singleton, h_decisive]
      obtain ⟨h_pending, h_success⟩ := assignStep_of_takes clock h_alert h_status h_in
        ((Takes.congr h_config).mpr h_takes)
      exact ⟨mem_assigned_assignStep.mpr (Or.inr h_success), fun _ => h_pending,
        fun h => absurd h_takes h⟩
    by_cases h_rejects : Rejects db a alert
    · have h_decisive : decisive matching db k alert a = true := by
        simp [decisive, h_match, h_rejects]
      rw [List.find?_singleton, h_decisive]
      obtain ⟨h_left, h_success⟩ := assignStep_of_rejects clock h_alert h_status h_in
        ((Rejects.congr h_config).mpr h_rejects)
      exact ⟨mem_assigned_assignStep.mpr (Or.inr h_success), fun h => absurd h h_takes,
        fun _ => h_left⟩
    · have h_decisive : decisive matching db k alert a = false := by
        simp [decisive, h_takes, h_rejects]
      rw [List.find?_singleton, h_decisive]
      obtain ⟨h_left, h_silent⟩ := assignStep_of_fails clock h_alert h_status h_in
        (fun h => h_takes ((Takes.congr h_config).mp h))
        (fun h => h_rejects ((Rejects.congr h_config).mp h))
      refine ⟨h_left, fun h_mem => ?_⟩
      rcases mem_assigned_assignStep.mp h_mem with h_old | h_new
      · exact h_free h_old
      · exact h_silent h_new

variable (matching clock) in
/-- **First decisive assignment.** It alone determines what a run has done to an
alert that it may assign. -/
theorem alertState_run (h_alert : db.alerts.lookup k = some alert) (h_list : k ∈ alertIdList)
    (h_candidate : candidate alert = true) (order : List AlertAssignment) :
    AlertState matching db k alert order
      (executeAutoAssignment matching clock alertIdList order db) := by
  unfold executeAutoAssignment
  suffices h : ∀ (order tried : List AlertAssignment) (s : AutoState),
      AlertState matching db k alert tried s →
      AlertState matching db k alert (tried ++ order)
        (run (assignStep matching clock alertIdList) s order) by
    have h_start : AlertState matching db k alert [] ⟨db, [], []⟩ :=
      ⟨.refl db, h_alert, List.not_mem_nil⟩
    exact h order [] _ h_start
  intro order
  induction order with
  | nil =>
    intro tried s h
    rw [List.append_nil]
    exact h
  | cons a order ih =>
    intro tried s h
    have h_next := ih (tried ++ [a]) _ (h.step clock (a := a) h_list h_candidate)
    rw [List.append_assoc] at h_next
    exact h_next

theorem lookup_run_of_not_candidate
    (h : ∀ alert, db.alerts.lookup k = some alert → k ∈ alertIdList → candidate alert = false)
    (order : List AlertAssignment) :
    (executeAutoAssignment matching clock alertIdList order db).db.alerts.lookup k =
        db.alerts.lookup k := by
  unfold executeAutoAssignment
  refine run_invariant (I := fun s : AutoState => s.db.alerts.lookup k = db.alerts.lookup k)
    (fun s a h_row => ?_) rfl order
  refine (assignStep_of_not_offered clock (fun h_in => ?_)).1.trans h_row
  unfold offered batchFindMatchingAlerts at h_in
  obtain ⟨h_key, h_offers⟩ := List.mem_filter.mp h_in
  obtain ⟨alert, h_alert, h_candidate⟩ := Table.mem_keysWhere.mp h_key
  have h_list : k ∈ alertIdList := by
    unfold offers at h_offers
    simp only [Bool.and_eq_true, decide_eq_true_eq] at h_offers
    exact h_offers.2.1
  rw [h alert (h_row.symm.trans h_alert) h_list] at h_candidate
  exact absurd h_candidate (by simp)

end Decisive

/-! ### Faithfulness -/

/-- What the reports of a run are worth. -/
structure AssignmentFaithful (matching : Matching) (clock : OperateClock)
    (alertIdList : List AlertId) (order : List AlertAssignment) (db : Db) : Prop where
  /-- An assignment reports success for an alert exactly if it has moved it from
  unassigned to pending. -/
  reported : ∀ pre a post k, order = pre ++ a :: post →
    let before := executeAutoAssignment matching clock alertIdList pre db
    let after := assignStep matching clock alertIdList before a
    ReportsSuccess matching clock alertIdList before a k ↔
      statusOf before.db k = some .unassigned ∧ statusOf after.db k = some .pending
  /-- An alert that is still unassigned is offered to every later assignment that
  matches it. -/
  offered : ∀ pre a post k alert, order = pre ++ a :: post →
    let before := executeAutoAssignment matching clock alertIdList pre db
    before.db.alerts.lookup k = some alert → candidate alert = true → k ∈ alertIdList →
      matching a k alert = true → k ∈ offered matching alertIdList before a
  /-- An alert is unassigned at the end only if every assignment that matches it
  failed to take it. -/
  complete : ∀ k alert, db.alerts.lookup k = some alert → candidate alert = true →
    k ∈ alertIdList →
    statusOf (executeAutoAssignment matching clock alertIdList order db).db k =
        some .unassigned →
      ∀ a ∈ order, matching a k alert = true → ¬Takes db a alert

/-- Every assignment that rejects its personnel for an alert it matches comes after
one that takes the alert. -/
def RejectsOnlyAfterTaken (matching : Matching) (alertIdList : List AlertId)
    (order : List AlertAssignment) (db : Db) : Prop :=
  ∀ k alert, db.alerts.lookup k = some alert → candidate alert = true → k ∈ alertIdList →
    ∀ pre a post, order = pre ++ a :: post → matching a k alert = true → Rejects db a alert →
      ∃ b ∈ pre, matching b k alert = true ∧ Takes db b alert

section Faithful

variable {matching : Matching} {clock : OperateClock} {alertIdList : List AlertId} {db : Db}
  {k : AlertId} {alert : Alert} {order : List AlertAssignment}

theorem RejectsOnlyAfterTaken.first_takes
    (h : RejectsOnlyAfterTaken matching alertIdList order db)
    (h_alert : db.alerts.lookup k = some alert) (h_candidate : candidate alert = true)
    (h_list : k ∈ alertIdList) {pre post : List AlertAssignment} (h_order : order = pre ++ post)
    {b : AlertAssignment} (h_first : pre.find? (decisive matching db k alert) = some b) :
    Takes db b alert := by
  obtain ⟨h_decisive, early, late, rfl, h_none⟩ := List.find?_eq_some_iff_append.mp h_first
  by_contra h_takes
  simp only [decisive, h_takes, decide_false, Bool.false_or, Bool.and_eq_true,
    decide_eq_true_eq] at h_decisive
  obtain ⟨c, h_mem, h_match, h_taker⟩ := h k alert h_alert h_candidate h_list early b
    (late ++ post) (by rw [h_order, List.append_assoc]; rfl) h_decisive.1 h_decisive.2
  -- a taker before the first decisive assignment would itself be decisive
  have h_not := h_none c h_mem
  simp [decisive, h_match, h_taker] at h_not

theorem status_of_candidate (h : candidate alert = true) : alert.status = .unassigned := by
  unfold candidate at h
  simpa using (Bool.and_eq_true_iff.mp h).1

theorem AssignmentFaithful.rejectsOnlyAfterTaken
    (h : AssignmentFaithful matching clock alertIdList order db) :
    RejectsOnlyAfterTaken matching alertIdList order db := by
  intro k alert h_alert h_candidate h_list pre a post h_order h_match h_rejects
  by_contra h_none
  push Not at h_none
  have h_decisive : decisive matching db k alert a = true := by
    simp [decisive, h_match, h_rejects]
  obtain ⟨b, h_first⟩ : ∃ b, (pre ++ [a]).find? (decisive matching db k alert) = some b :=
    Option.isSome_iff_exists.mp (List.find?_isSome.mpr ⟨a, by simp, h_decisive⟩)
  obtain ⟨h_b, early, late, h_split, h_early⟩ := List.find?_eq_some_iff_append.mp h_first
  have h_b_rejects : matching b k alert = true ∧ Rejects db b alert := by
    simp only [decisive, Bool.and_eq_true, Bool.or_eq_true, decide_eq_true_eq] at h_b
    obtain ⟨h_b_match, h_takes | h_b_rejects⟩ := h_b
    · -- nobody takes the alert up to `a`
      have h_mem : b ∈ pre ++ [a] := by rw [h_split]; simp
      rcases List.mem_append.mp h_mem with h_pre | h_last
      · exact absurd h_takes (h_none b h_pre h_b_match)
      · rw [List.mem_singleton] at h_last
        subst h_last
        exact absurd h_rejects h_takes.not_rejects
    · exact ⟨h_b_match, h_b_rejects⟩
  have h_state := alertState_run matching clock h_alert h_list
    h_candidate early
  obtain ⟨h_config, h_find⟩ := h_state
  have h_no_first : early.find? (decisive matching db k alert) = none := by
    rw [List.find?_eq_none]
    intro c h_mem
    simpa using h_early c h_mem
  rw [h_no_first] at h_find
  obtain ⟨h_row, h_free⟩ := h_find
  have h_in : k ∈ AutoAssignment.offered matching alertIdList
      (executeAutoAssignment matching clock alertIdList early db) b :=
    (mem_offered h_row).mpr ⟨h_candidate, h_free, h_list, h_b_rejects.1⟩
  obtain ⟨h_left, h_success⟩ := assignStep_of_rejects clock h_row
    (status_of_candidate h_candidate) h_in ((Rejects.congr h_config).mpr h_b_rejects.2)
  have h_order' : order = early ++ b :: (late ++ post) := by
    rw [h_order, ← List.singleton_append (x := a), ← List.append_assoc, h_split]
    simp
  obtain ⟨-, h_moved⟩ := (h.reported early b (late ++ post) k h_order').mp h_success
  unfold statusOf at h_moved
  rw [h_left, Option.map_some, status_of_candidate h_candidate] at h_moved
  exact absurd h_moved (by decide)

theorem RejectsOnlyAfterTaken.reported (h : RejectsOnlyAfterTaken matching alertIdList order db)
    {pre post : List AlertAssignment} {a : AlertAssignment} (h_order : order = pre ++ a :: post)
    (k : AlertId) :
    ReportsSuccess matching clock alertIdList
        (executeAutoAssignment matching clock alertIdList pre db) a k ↔
      statusOf (executeAutoAssignment matching clock alertIdList pre db).db k =
          some .unassigned ∧
        statusOf (assignStep matching clock alertIdList
          (executeAutoAssignment matching clock alertIdList pre db) a).db k = some .pending := by
  set before := executeAutoAssignment matching clock alertIdList pre db with h_before
  -- without a report nothing moves, so it is enough to look at the alerts offered
  have h_quiet : k ∉ AutoAssignment.offered matching alertIdList before a →
      (ReportsSuccess matching clock alertIdList before a k ↔
        statusOf before.db k = some .unassigned ∧
          statusOf (assignStep matching clock alertIdList before a).db k = some .pending) := by
    intro h_not
    obtain ⟨h_row, h_silent⟩ := assignStep_of_not_offered clock h_not
    refine ⟨fun h_success => absurd h_success h_silent, ?_⟩
    rintro ⟨h_unassigned, h_pending⟩
    unfold statusOf at h_unassigned h_pending
    rw [h_row, h_unassigned] at h_pending
    exact absurd h_pending (by decide)
  by_cases h_in : k ∈ AutoAssignment.offered matching alertIdList before a
  swap
  · exact h_quiet h_in
  -- an offered alert is one that the run may assign
  by_cases h_may : ∃ alert, db.alerts.lookup k = some alert ∧ k ∈ alertIdList ∧
      candidate alert = true
  swap
  · have h_same : before.db.alerts.lookup k = db.alerts.lookup k :=
      lookup_run_of_not_candidate (fun alert h_alert h_list => by
        by_contra h_candidate
        exact h_may ⟨alert, h_alert, h_list, by simpa using h_candidate⟩) pre
    refine absurd ?_ h_may
    have h_key := h_in
    unfold AutoAssignment.offered batchFindMatchingAlerts at h_key
    obtain ⟨alert, h_alert, -⟩ := Table.mem_keysWhere.mp (List.mem_filter.mp h_key).1
    obtain ⟨h_candidate, -, h_list, -⟩ := (mem_offered h_alert).mp h_in
    exact ⟨alert, h_same.symm.trans h_alert, h_list, h_candidate⟩
  obtain ⟨alert, h_alert, h_list, h_candidate⟩ := h_may
  have h_status := status_of_candidate h_candidate
  obtain ⟨h_config, h_state⟩ := alertState_run matching clock h_alert
    h_list h_candidate pre
  rw [← h_before] at h_config h_state
  cases h_find : pre.find? (decisive matching db k alert) with
  | some b =>
    rw [h_find] at h_state
    refine h_quiet fun h_mem => ?_
    unfold AutoAssignment.offered batchFindMatchingAlerts at h_mem
    have h_excluded := (List.mem_filter.mp h_mem).2
    simp [h_state.1] at h_excluded
  | none =>
    rw [h_find] at h_state
    obtain ⟨h_row, -⟩ := h_state
    have h_match : matching a k alert = true := ((mem_offered h_row).mp h_in).2.2.2
    have h_unassigned : statusOf before.db k = some .unassigned := by
      unfold statusOf
      rw [h_row, Option.map_some, h_status]
    by_cases h_takes : Takes db a alert
    · obtain ⟨h_pending, h_success⟩ := assignStep_of_takes clock h_row h_status h_in
        ((Takes.congr h_config).mpr h_takes)
      exact ⟨fun _ => ⟨h_unassigned, h_pending⟩, fun _ => h_success⟩
    by_cases h_rejects : Rejects db a alert
    · -- excluded by the condition: nobody has taken the alert yet
      obtain ⟨b, h_mem, h_b_match, h_b_takes⟩ := h k alert h_alert h_candidate h_list pre a post
        h_order h_match h_rejects
      have h_not := List.find?_eq_none.mp h_find b h_mem
      simp [decisive, h_b_match, h_b_takes] at h_not
    · obtain ⟨h_left, h_silent⟩ := assignStep_of_fails clock h_row h_status h_in
        (fun h => h_takes ((Takes.congr h_config).mp h))
        (fun h => h_rejects ((Rejects.congr h_config).mp h))
      refine ⟨fun h_success => absurd h_success h_silent, ?_⟩
      rintro ⟨-, h_pending⟩
      unfold statusOf at h_pending
      rw [h_left, Option.map_some, h_status] at h_pending
      exact absurd h_pending (by decide)

/-- **When automatic assignment is faithful.** Every rejecting assignment comes after one that takes
the alert. -/
theorem executeAutoAssignment_faithful_iff (matching : Matching) (clock : OperateClock)
    (alertIdList : List AlertId) (order : List AlertAssignment) (db : Db) :
    AssignmentFaithful matching clock alertIdList order db ↔
      RejectsOnlyAfterTaken matching alertIdList order db := by
  refine ⟨AssignmentFaithful.rejectsOnlyAfterTaken, fun h => ⟨?_, ?_, ?_⟩⟩
  · intro pre a post k h_order
    exact h.reported h_order k
  · intro pre a post k alert h_order before h_row h_candidate h_list h_match
    refine (mem_offered h_row).mpr ⟨h_candidate, ?_, h_list, h_match⟩
    -- before the run the alert had the same row, so it is one the run may assign
    by_cases h_alert : ∃ alert₀, db.alerts.lookup k = some alert₀ ∧ candidate alert₀ = true
    swap
    · have h_same : before.db.alerts.lookup k = db.alerts.lookup k :=
        lookup_run_of_not_candidate (fun alert₀ h_alert₀ _ => by
          by_contra h_candidate₀
          exact h_alert ⟨alert₀, h_alert₀, by simpa using h_candidate₀⟩) pre
      exact absurd ⟨alert, h_same.symm.trans h_row, h_candidate⟩ h_alert
    obtain ⟨alert₀, h_alert₀, h_candidate₀⟩ := h_alert
    have h_state := alertState_run matching clock h_alert₀ h_list
      h_candidate₀ pre
    obtain ⟨-, h_find⟩ := h_state
    cases h_first : pre.find? (decisive matching db k alert₀) with
    | none =>
      rw [h_first] at h_find
      exact h_find.2
    | some b =>
      rw [h_first] at h_find
      have h_pending := h_find.2.1
        (h.first_takes h_alert₀ h_candidate₀ h_list h_order h_first)
      unfold statusOf at h_pending
      rw [show (executeAutoAssignment matching clock alertIdList pre db).db.alerts.lookup k =
        some alert from h_row, Option.map_some, status_of_candidate h_candidate] at h_pending
      exact absurd h_pending (by decide)
  · intro k alert h_alert h_candidate h_list h_end a h_mem h_match h_takes
    obtain ⟨-, h_find⟩ := alertState_run matching clock h_alert h_list
      h_candidate order
    obtain ⟨b, h_first⟩ : ∃ b, order.find? (decisive matching db k alert) = some b :=
      Option.isSome_iff_exists.mp (List.find?_isSome.mpr
        ⟨a, h_mem, by simp [decisive, h_match, h_takes]⟩)
    rw [h_first] at h_find
    have h_b_takes : Takes db b alert :=
      h.first_takes h_alert h_candidate h_list (List.append_nil order).symm h_first
    rw [h_find.2.1 h_b_takes] at h_end
    exact absurd h_end (by decide)

end Faithful

def staleAssignment : AlertAssignment := { id := 1, personnel := some [.str "gone"] }

def liveAssignment : AlertAssignment := { id := 2, personnel := some [.str "amy"] }

/-- One unassigned alert of organisation 7, in which `amy` works. -/
def oneAlert : Db where
  alerts := (∅ : Table AlertId Alert).insert 1 { team := [.int 7] }
  assignments := ((∅ : Table AssignmentId AlertAssignment).insert 2 liveAssignment).insert 1
    staleAssignment
  escalations := ∅
  reminders := ∅
  users := [⟨"amy", [.int 7]⟩]
  outbox := []

/-- The alert is rejected by the first assignment, and never offered to the second. -/
theorem executeAutoAssignment_not_faithful :
    ¬AssignmentFaithful (fun _ _ _ => true) ⟨0, 0, 0⟩ [1]
      [staleAssignment, liveAssignment] oneAlert := by
  intro h
  have h_reported := (h.reported [] staleAssignment [liveAssignment] 1 rfl).mp
    ⟨⟨1, true, 1, ""⟩, by decide, rfl, rfl⟩
  exact absurd h_reported.2 (by decide)

end AutoAssignment
end Alerts
