import BkLite.Alerts.AlertOperator

/-!
# The cell of an alert

What belongs to one alert is its `cell`: the alert row and its escalation task.
An operator action and a visit of the escalation scan touch the cell of one alert
only (`cell_operate_ne`, `cell_escalateOne_ne`), and what the services write to it
is stated here once (`cell_started`, `cell_stopped`, `cell_saveAlert`,
`cell_advanced`).

The assignments, the users and the default channel are read by the actions and
written by none of them (`SameConfig`).
-/

namespace Alerts

open Py

abbrev Cell := Option Alert × Option AlertEscalationTask

def cell (alertId : AlertId) (db : Db) : Cell :=
  (db.alerts.lookup alertId, db.escalations.lookup alertId)

theorem cell_congr {k : AlertId} {db db' : Db} (h_alerts : db'.alerts = db.alerts)
    (h_tasks : db'.escalations = db.escalations) : cell k db' = cell k db := by
  unfold cell
  rw [h_alerts, h_tasks]

section Cells

variable {alertId k : AlertId} {db db' : Db}

theorem cell_started {a : AlertAssignment} {c : EscalationConfig} {personnel : List Scalar}
    {now : ℤ} :
    cell alertId (unionIntoOperator alertId personnel now
        { db with escalations := db.escalations.insert alertId (startedTask a c now) }) =
      ((db.alerts.lookup alertId).map (Alert.unite personnel now),
        some (startedTask a c now)) := by
  unfold cell unionIntoOperator
  simp [AList.lookup_insert]

theorem cell_stopped :
    cell alertId (stopEscalationTask alertId db) =
      (db.alerts.lookup alertId, (db.escalations.lookup alertId).map fun task =>
        { task with isActive := false }) := by
  unfold cell stopEscalationTask
  simp

theorem cell_stopped_ne (h : k ≠ alertId) :
    cell k (stopEscalationTask alertId db) = cell k db := by
  unfold cell stopEscalationTask
  rw [Table.lookup_modify_ne _ _ h]

theorem cell_saveAlert (alert : Alert) :
    cell alertId (saveAlert alertId alert db) = (some alert, db.escalations.lookup alertId) := by
  unfold cell
  rw [saveAlert_lookup, if_pos rfl]
  rfl

theorem cell_saveAlert_ne (h : k ≠ alertId) (alert : Alert) :
    cell k (saveAlert alertId alert db) = cell k db := by
  unfold cell
  rw [saveAlert_lookup, if_neg h]
  rfl

theorem cell_createEscalationTask_ne {a : AlertAssignment} {now : ℤ} (h : k ≠ alertId) :
    cell k (orUnchanged db (createEscalationTask alertId a now db)) = cell k db := by
  cases h_create : createEscalationTask alertId a now db with
  | error e => rfl
  | ok db' =>
    rcases createEscalationTask_cases h_create with rfl | ⟨c, start, -, -, rfl⟩
    · rfl
    · change cell k (unionIntoOperator _ _ _ _) = _
      unfold cell unionIntoOperator
      rw [Table.lookup_modify_ne _ _ h, AList.lookup_insert_ne h]

theorem cell_startTasks_ne {clock : OperateClock} {alert : Alert} {a : Option AlertAssignment}
    (h : k ≠ alertId) : cell k (startTasks clock alertId alert a db) = cell k db := by
  unfold startTasks
  cases a with
  | none => rfl
  | some a =>
    dsimp only
    rw [cell_createEscalationTask_ne h]
    exact cell_congr createReminderTask_alerts createReminderTask_escalations

theorem resetEscalationTask_eq (alertId : AlertId) (a : Option AlertAssignment) (now : ℤ)
    (db : Db) :
    (resetEscalationTask alertId a now db = .ok db ∧ a = none ∧
      ((db.escalations.lookup alertId).bind fun task =>
        db.assignments.lookup task.assignmentId) = none) ∨
    ∃ a', a.or ((db.escalations.lookup alertId).bind fun task =>
        db.assignments.lookup task.assignmentId) = some a' ∧
      resetEscalationTask alertId a now db = createEscalationTask alertId a' now db := by
  unfold resetEscalationTask
  cases a with
  | some a => exact Or.inr ⟨a, rfl, rfl⟩
  | none =>
    dsimp only
    cases h_existing : (db.escalations.lookup alertId).bind fun task =>
        db.assignments.lookup task.assignmentId with
    | none => exact Or.inl ⟨rfl, rfl, rfl⟩
    | some a' => exact Or.inr ⟨a', rfl, rfl⟩

theorem cell_resumeTasks_ne {clock : OperateClock} {alert : Alert}
    {assignmentId : Option AssignmentId} (h : k ≠ alertId) :
    cell k (resumeTasks clock alertId alert assignmentId db) = cell k db := by
  unfold resumeTasks
  dsimp only
  have h_ensure : cell k (ensureReminderTask alertId alert assignmentId clock.reminder db) =
      cell k db :=
    cell_congr ensureReminderTask_alerts ensureReminderTask_escalations
  rcases resetEscalationTask_eq alertId (activeAssignment (ensureReminderTask alertId alert
    assignmentId clock.reminder db) assignmentId) clock.escalation (ensureReminderTask alertId
    alert assignmentId clock.reminder db) with ⟨h_reset, -, -⟩ | ⟨a, -, h_reset⟩
  · rw [h_reset]
    exact h_ensure
  · rw [h_reset, cell_createEscalationTask_ne h]
    exact h_ensure

theorem cell_operate_ne {clock : OperateClock} {data : OperateData} {action : OperateAction}
    (h_effect : OperateEffect clock alertId data db action db') (h : k ≠ alertId) :
    cell k db' = cell k db := by
  cases h_effect with
  | refused => rfl
  | assigned =>
    rw [cell_congr enqueueNotifications_alerts enqueueNotifications_escalations,
      cell_startTasks_ne h, cell_saveAlert_ne h]
  | acknowledged =>
    rw [cell_stopped_ne h, cell_congr stopReminderTask_alerts stopReminderTask_escalations,
      cell_saveAlert_ne h]
  | reassigned =>
    rw [cell_resumeTasks_ne h,
      cell_congr enqueueNotifications_alerts enqueueNotifications_escalations,
      cell_saveAlert_ne h]
  | finished => rw [cell_saveAlert_ne h]

/-- An action, by whom it is and what it is about. -/
structure Operation where
  op : AlertOperator
  clock : OperateClock
  action : OperateAction
  alertId : AlertId
  data : OperateData

/-- **Scope.** An alert that actions have changed is one that an operator of theirs may act on, and
that an action of that operator is about. -/
theorem cell_operations (k : AlertId) (operations : List Operation) (db : Db) :
    cell k (operations.foldl
        (fun db o => operateDb o.op o.clock o.action o.alertId o.data db) db) = cell k db ∨
      ∃ o ∈ operations, o.alertId = k ∧ o.op.allowedAlertIds.any (k ∉ ·) = false := by
  induction operations generalizing db with
  | nil => exact Or.inl rfl
  | cons o operations ih =>
    rw [List.foldl_cons]
    rcases ih (operateDb o.op o.clock o.action o.alertId o.data db) with h_rest | ⟨o', h_o', h_k⟩
    · rw [h_rest]
      by_cases h_key : k = o.alertId
      · cases h_scope : o.op.allowedAlertIds.any (k ∉ ·) with
        | false => exact Or.inr ⟨o, List.mem_cons_self, h_key.symm, h_scope⟩
        | true =>
          unfold operateDb operate
          rw [← h_key, if_pos h_scope]
          exact Or.inl rfl
      · exact Or.inl (cell_operate_ne (operateDb_effect ..) h_key)
    · exact Or.inr ⟨o', List.mem_cons_of_mem o h_o', h_k⟩

theorem cell_advanced {task : AlertEscalationTask} {advance : ℤ}
    (h : Advanced alertId task advance db db') :
    ∃ next, task.layers[task.currentLayerIndex + 1]? = some next ∧
      cell alertId db' = ((db.alerts.lookup alertId).map (Alert.unite next.personnel advance),
        some { task with
          currentLayerIndex := task.currentLayerIndex + 1, layerStartedAt := advance }) := by
  obtain ⟨next, h_next, h_alerts⟩ := h.alerts
  refine ⟨next, h_next, ?_⟩
  unfold cell
  rw [h_alerts, h.escalations, Table.lookup_modify_self, AList.lookup_insert]

theorem cell_escalateOne_ne (visit : Visit) (h : k ≠ alertId) (db : Db) :
    cell k (escalateOne visit alertId db) = cell k db := by
  have h_effect := escalateOne_effect visit alertId db
  generalize escalateOne visit alertId db = db' at h_effect ⊢
  cases h_effect with
  | kept => rfl
  | stopped => exact cell_stopped_ne h
  | advanced _ _ _ _ _ _ _ h_advanced =>
    obtain ⟨next, -, h_alerts⟩ := h_advanced.alerts
    unfold cell
    rw [h_alerts, h_advanced.escalations, Table.lookup_modify_ne _ _ h, AList.lookup_insert_ne h]

end Cells

/-! ### The status of an alert -/

def statusOf (db : Db) (k : AlertId) : Option AlertStatus :=
  (db.alerts.lookup k).map (·.status)

section Status

variable {alertId : AlertId} {db : Db}

theorem statusOf_congr {db' : Db} (h : db'.alerts = db.alerts) (k : AlertId) :
    statusOf db' k = statusOf db k := by
  unfold statusOf
  rw [h]

theorem statusOf_saveAlert (alertId k : AlertId) (alert : Alert) (db : Db) :
    statusOf (saveAlert alertId alert db) k =
      if k = alertId then some alert.status else statusOf db k := by
  unfold statusOf
  rw [saveAlert_lookup]
  split_ifs <;> rfl

theorem statusOf_unite (alertId k : AlertId) (personnel : List Scalar) (now : ℤ) (db : Db) :
    statusOf (unionIntoOperator alertId personnel now db) k = statusOf db k := by
  unfold statusOf unionIntoOperator
  rw [Table.lookup_modify]
  split_ifs with h_key
  · rw [h_key, Option.map_map]
    congr 1
    funext alert
    exact Alert.unite_status personnel now alert
  · rfl

theorem statusOf_createEscalationTask (alertId k : AlertId) (a : AlertAssignment) (now : ℤ)
    (db : Db) :
    statusOf (orUnchanged db (createEscalationTask alertId a now db)) k = statusOf db k := by
  cases h_create : createEscalationTask alertId a now db with
  | error e => rfl
  | ok db' =>
    rcases createEscalationTask_cases h_create with rfl | ⟨c, start, -, -, rfl⟩
    · rfl
    · exact statusOf_unite alertId k start.personnel now _

theorem statusOf_startTasks (clock : OperateClock) (alertId k : AlertId) (alert : Alert)
    (a : Option AlertAssignment) (db : Db) :
    statusOf (startTasks clock alertId alert a db) k = statusOf db k := by
  unfold startTasks
  cases a with
  | none => rfl
  | some a =>
    exact (statusOf_createEscalationTask alertId k a clock.escalation _).trans
      (statusOf_congr createReminderTask_alerts k)

end Status

/-! ### The tables no action writes -/

structure SameConfig (db db' : Db) : Prop where
  assignments : db'.assignments = db.assignments
  users : db'.users = db.users
  defaultEmailChannel : db'.defaultEmailChannel = db.defaultEmailChannel

theorem SameConfig.refl (db : Db) : SameConfig db db := ⟨rfl, rfl, rfl⟩

theorem SameConfig.trans {db₁ db₂ db₃ : Db} (h : SameConfig db₁ db₂) (h' : SameConfig db₂ db₃) :
    SameConfig db₁ db₃ :=
  ⟨h'.assignments.trans h.assignments, h'.users.trans h.users,
    h'.defaultEmailChannel.trans h.defaultEmailChannel⟩

theorem sameConfig_enqueue (kind : NotifyKind) (alertId : AlertId) (now : ℤ)
    (params : List NotifyParam) (db : Db) :
    SameConfig db (enqueueNotifications kind alertId now params db) := by
  unfold enqueueNotifications
  split <;> exact ⟨rfl, rfl, rfl⟩

theorem sameConfig_createReminderTask (alertId : AlertId) (alert : Alert) (a : AlertAssignment)
    (now : ℤ) (db : Db) : SameConfig db (createReminderTask alertId alert a now db) := by
  rcases createReminderTask_cases alertId alert a now db with h | ⟨task, -, -, -, h⟩ <;> rw [h]
  · exact .refl db
  · exact ⟨rfl, rfl, rfl⟩

theorem sameConfig_createEscalationTask (alertId : AlertId) (a : AlertAssignment) (now : ℤ)
    (db : Db) : SameConfig db (orUnchanged db (createEscalationTask alertId a now db)) := by
  cases h_create : createEscalationTask alertId a now db with
  | error e => exact .refl db
  | ok db' =>
    rcases createEscalationTask_cases h_create with rfl | ⟨c, start, -, -, rfl⟩
    · exact .refl _
    · exact ⟨rfl, rfl, rfl⟩

theorem sameConfig_startTasks (clock : OperateClock) (alertId : AlertId) (alert : Alert)
    (a : Option AlertAssignment) (db : Db) :
    SameConfig db (startTasks clock alertId alert a db) := by
  unfold startTasks
  cases a with
  | none => exact .refl db
  | some a =>
    exact (sameConfig_createReminderTask alertId alert a clock.reminder db).trans
      (sameConfig_createEscalationTask alertId a clock.escalation _)

end Alerts
