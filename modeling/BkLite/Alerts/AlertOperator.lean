import BkLite.Alerts.OperatorScope
import BkLite.Alerts.Reminder

/-!
# Operator actions

`service/alter_operator.py`: an operator moves an alert through
unassigned → pending → processing → closed or resolved, and back from processing
to pending by a reassignment. Every action runs in one transaction on the locked
row and first checks the status; a check that fails leaves the database as it is
and is reported in the result, not by an exception.

An exception inside the transaction rolls it back and leaves `operate`, so an
action is a function into `Except`. The audit log and the follow-up automations
that the actions trigger are not modelled.
-/

namespace Alerts

open Py

/-- The display texts of `AlertStatus.CHOICES`. -/
def AlertStatus.display : AlertStatus → String
  | .pending => "待响应"
  | .processing => "处理中"
  | .resolved => "已处理"
  | .closed => "已关闭"
  | .unassigned => "未分派"
  | .autoClose => "自动关闭"
  | .autoRecovery => "自动恢复"

structure OperateResult where
  result : Bool
  message : String
deriving DecidableEq

structure OperateData where
  assignee : Value := .list []
  assignmentId : Option AssignmentId := none

structure OperateClock where
  /-- `alert.updated_at`. -/
  now : ℤ
  /-- In the reminder service. -/
  reminder : ℤ
  /-- In the escalation service. -/
  escalation : ℤ

/-- An `AlertOperator`: who acts, and on which alerts. -/
structure AlertOperator where
  user : String
  allowedAlertIds : Option (List AlertId) := none

/-- The actions `operate` dispatches on. -/
inductive OperateAction
  | assign
  | acknowledge
  | reassign
  | close
  | resolve
deriving DecidableEq, Repr

def refused (message : String) : OperateResult := { result := false, message }

def done (message : String) : OperateResult := { result := true, message }

def wrongStatus (alert : Alert) (what : String) : String :=
  "告警当前状态为" ++ alert.status.display ++ "，无法" ++ what

/-- `_create_escalation_task` and `_reset_escalation_tasks` go on after an
exception. -/
def orUnchanged (db : Db) (result : Except PyError Db) : Db :=
  match result with
  | .ok db' => db'
  | .error _ => db

def activeAssignment (db : Db) (assignmentId : Option AssignmentId) : Option AlertAssignment :=
  (assignmentId.bind fun id => db.assignments.lookup id).filter (·.isActive)

/-- `format_notify_data`: the default mail channel, without the operator. -/
def formatNotifyData (op : AlertOperator) (assignee : List String) (alert : Alert) (db : Db) :
    Except PyError (List NotifyParam) :=
  if db.defaultEmailChannel.truthy then
    buildChannelParams ((assignee.filter (· ≠ op.user)).map .str)
      (.list [.dict [("channel_type", .str "email"), ("id", db.defaultEmailChannel)]]) alert.team
  else .ok []

/-- `format_assignment_notify_data`: the channels of the assignment, everybody
assigned. -/
def formatAssignmentNotifyData (assignment : AlertAssignment) (assignee : List String)
    (alert : Alert) : Except PyError (List NotifyParam) :=
  buildChannelParams (assignee.map .str) (assignment.notifyChannels.orElse (.list [])) alert.team

def saveAlert (alertId : AlertId) (alert : Alert) (db : Db) : Db :=
  { db with alerts := db.alerts.insert alertId alert }

def startTasks (clock : OperateClock) (alertId : AlertId) (alert : Alert)
    (assignment : Option AlertAssignment) (db : Db) : Db :=
  match assignment with
  | none => db
  | some assignment =>
    let db := createReminderTask alertId alert assignment clock.reminder db
    orUnchanged db (createEscalationTask alertId assignment clock.escalation db)

/-- Whom a dispatch notifies: by an assignment on its channels, by hand on the
default one. -/
def dispatchParams (op : AlertOperator) (assignment : Option AlertAssignment)
    (assignee : List String) (alert : Alert) (db : Db) : Except PyError (List NotifyParam) :=
  match assignment with
  | some assignment => formatAssignmentNotifyData assignment assignee alert
  | none => formatNotifyData op assignee alert db

def dispatched (operate : AlertOperate) (assignee : List String) (now : ℤ) (alert : Alert) :
    Alert :=
  { alert with
    status := .pending
    operate := some operate
    operator := assignee.map .str
    updatedAt := now }

/-- `_assign_alert`: unassigned → pending. -/
def assignAlert (op : AlertOperator) (clock : OperateClock) (alertId : AlertId)
    (data : OperateData) (db : Db) : Except PyError (Db × OperateResult) :=
  match db.alerts.lookup alertId with
  | none => .ok (db, refused "告警不存在")
  | some alert =>
    if alert.status ≠ .unassigned then .ok (db, refused (wrongStatus alert "进行分派操作"))
    else if !data.assignee.truthy then .ok (db, refused "请指定处理人")
    else
      match validateAlertAssignees db.users alert data.assignee with
      | (_, some message) => .ok (db, refused message)
      | (assignee, none) => do
        let alert := dispatched .assign assignee clock.now alert
        let db := saveAlert alertId alert db
        let assignment := activeAssignment db data.assignmentId
        let db := startTasks clock alertId alert assignment db
        let params ← dispatchParams op assignment assignee alert db
        return (enqueueNotifications .dispatch alertId clock.now params db, done "告警分派成功")

/-- `_acknowledge_alert`: pending → processing, by one of the operators. -/
def acknowledgeAlert (op : AlertOperator) (clock : OperateClock) (alertId : AlertId) (db : Db) :
    Db × OperateResult :=
  match db.alerts.lookup alertId with
  | none => (db, refused "告警不存在")
  | some alert =>
    if alert.status ≠ .pending then (db, refused (wrongStatus alert "进行认领操作"))
    else if .str op.user ∉ alert.operator then (db, refused "您没有权限认领此告警")
    else
      let alert := { alert with
        status := .processing
        operate := some .acknowledge
        updatedAt := clock.now }
      let db := stopReminderTask alertId (saveAlert alertId alert db)
      (stopEscalationTask alertId db, done "告警认领成功")

def resumeTasks (clock : OperateClock) (alertId : AlertId) (alert : Alert)
    (assignmentId : Option AssignmentId) (db : Db) : Db :=
  let db := ensureReminderTask alertId alert assignmentId clock.reminder db
  orUnchanged db
    (resetEscalationTask alertId (activeAssignment db assignmentId) clock.escalation db)

/-- `_reassign_alert`: processing → pending, to somebody else. -/
def reassignAlert (op : AlertOperator) (clock : OperateClock) (alertId : AlertId)
    (data : OperateData) (db : Db) : Except PyError (Db × OperateResult) :=
  match db.alerts.lookup alertId with
  | none => .ok (db, refused "告警不存在")
  | some alert =>
    if alert.status ≠ .processing then .ok (db, refused (wrongStatus alert "进行转派操作"))
    else if .str op.user ∉ alert.operator then .ok (db, refused "您没有权限转派此告警")
    else if !data.assignee.truthy then .ok (db, refused "请指定新的处理人")
    else
      match validateAlertAssignees db.users alert data.assignee with
      | (_, some message) => .ok (db, refused message)
      | (assignee, none) => do
        let alert := dispatched .reassign assignee clock.now alert
        let params ← formatNotifyData op assignee alert db
        let db := enqueueNotifications .reassign alertId clock.now params
          (saveAlert alertId alert db)
        return (resumeTasks clock alertId alert data.assignmentId db, done "告警转派成功")

/-- `_close_alert` and `_resolve_alert` differ in the status they set, the
operation they record and their texts. -/
def finishAlert (status : AlertStatus) (operate : Option AlertOperate) (what denied ok : String)
    (op : AlertOperator) (clock : OperateClock) (alertId : AlertId) (db : Db) :
    Db × OperateResult :=
  match db.alerts.lookup alertId with
  | none => (db, refused "告警不存在")
  | some alert =>
    if alert.status ≠ .processing then (db, refused (wrongStatus alert what))
    else if .str op.user ∉ alert.operator then (db, refused denied)
    else
      let alert := { alert with
        status
        operate := operate.or alert.operate
        updatedAt := clock.now }
      (saveAlert alertId alert db, done ok)

/-- `_close_alert`: processing → closed. -/
def closeAlert : AlertOperator → OperateClock → AlertId → Db → Db × OperateResult :=
  finishAlert .closed (some .close) "进行关闭操作" "您没有权限关闭此告警" "告警关闭成功"

/-- `_resolve_alert`: processing → resolved. -/
def resolveAlert : AlertOperator → OperateClock → AlertId → Db → Db × OperateResult :=
  finishAlert .resolved none "标记为已处理" "您没有权限处理此告警" "告警处理成功"

def operate (op : AlertOperator) (clock : OperateClock) (action : OperateAction)
    (alertId : AlertId) (data : OperateData) (db : Db) : Except PyError (Db × OperateResult) :=
  if op.allowedAlertIds.any (alertId ∉ ·) then .ok (db, refused "您没有权限操作此告警")
  else
    match action with
    | .assign => assignAlert op clock alertId data db
    | .acknowledge => .ok (acknowledgeAlert op clock alertId db)
    | .reassign => reassignAlert op clock alertId data db
    | .close => .ok (closeAlert op clock alertId db)
    | .resolve => .ok (resolveAlert op clock alertId db)

def operateDb (op : AlertOperator) (clock : OperateClock) (action : OperateAction)
    (alertId : AlertId) (data : OperateData) (db : Db) : Db :=
  match operate op clock action alertId data db with
  | .ok (db', _) => db'
  | .error _ => db

/-! ### What an action does -/

section Effects

variable {op : AlertOperator} {clock : OperateClock} {alertId : AlertId} {data : OperateData}
  {db db' : Db} {r : OperateResult}

@[simp] theorem saveAlert_lookup (alertId k : AlertId) (alert : Alert) (db : Db) :
    (saveAlert alertId alert db).alerts.lookup k =
      if k = alertId then some alert else db.alerts.lookup k :=
  Table.lookup_insert db.alerts alertId k alert

/-- **Assignment.** It is refused, or writes the alert, the tasks and the notification. -/
theorem assignAlert_ok (h : assignAlert op clock alertId data db = .ok (db', r)) :
    (db' = db ∧ r.result = false) ∨
    ∃ alert assignee params, db.alerts.lookup alertId = some alert ∧
      alert.status = .unassigned ∧ data.assignee.truthy = true ∧
      validateAlertAssignees db.users alert data.assignee = (assignee, none) ∧
      r.result = true ∧
      db' = enqueueNotifications .dispatch alertId clock.now params
        (startTasks clock alertId (dispatched .assign assignee clock.now alert)
          (activeAssignment db data.assignmentId)
          (saveAlert alertId (dispatched .assign assignee clock.now alert) db)) := by
  unfold assignAlert at h
  cases h_alert : db.alerts.lookup alertId with
  | none =>
    rw [h_alert] at h
    cases h
    exact Or.inl ⟨rfl, rfl⟩
  | some alert =>
    rw [h_alert] at h
    dsimp only at h
    split at h
    · cases h
      exact Or.inl ⟨rfl, rfl⟩
    next h_status =>
    split at h
    · cases h
      exact Or.inl ⟨rfl, rfl⟩
    next h_truthy =>
    split at h
    · cases h
      exact Or.inl ⟨rfl, rfl⟩
    next assignee h_valid =>
    obtain ⟨params, -, h⟩ := bind_eq_ok.mp h
    cases h
    refine Or.inr ⟨alert, assignee, params, rfl, not_ne_iff.mp h_status, ?_, h_valid, rfl, rfl⟩
    simpa using h_truthy

/-- **Reassignment.** As for an assignment, from the status processing and by one
of the operators. -/
theorem reassignAlert_ok (h : reassignAlert op clock alertId data db = .ok (db', r)) :
    (db' = db ∧ r.result = false) ∨
    ∃ alert assignee params, db.alerts.lookup alertId = some alert ∧
      alert.status = .processing ∧ r.result = true ∧
      db' = resumeTasks clock alertId (dispatched .reassign assignee clock.now alert)
        data.assignmentId (enqueueNotifications .reassign alertId clock.now params
          (saveAlert alertId (dispatched .reassign assignee clock.now alert) db)) := by
  unfold reassignAlert at h
  cases h_alert : db.alerts.lookup alertId with
  | none =>
    rw [h_alert] at h
    cases h
    exact Or.inl ⟨rfl, rfl⟩
  | some alert =>
    rw [h_alert] at h
    dsimp only at h
    split at h
    · cases h
      exact Or.inl ⟨rfl, rfl⟩
    next h_status =>
    split at h
    · cases h
      exact Or.inl ⟨rfl, rfl⟩
    split at h
    · cases h
      exact Or.inl ⟨rfl, rfl⟩
    split at h
    · cases h
      exact Or.inl ⟨rfl, rfl⟩
    next assignee h_valid =>
    obtain ⟨params, -, h⟩ := bind_eq_ok.mp h
    cases h
    exact Or.inr ⟨alert, assignee, params, rfl, not_ne_iff.mp h_status, rfl, rfl⟩

/-- **Acknowledgement.** Either refused, or the alert was pending and is now
processing with both of its tasks stopped. -/
theorem acknowledgeAlert_cases (op : AlertOperator) (clock : OperateClock) (alertId : AlertId)
    (db : Db) :
    acknowledgeAlert op clock alertId db = (db, (acknowledgeAlert op clock alertId db).2) ∨
    ∃ alert, db.alerts.lookup alertId = some alert ∧ alert.status = .pending ∧
      (acknowledgeAlert op clock alertId db).1 =
        stopEscalationTask alertId (stopReminderTask alertId (saveAlert alertId
          { alert with
            status := .processing, operate := some .acknowledge, updatedAt := clock.now }
          db)) := by
  unfold acknowledgeAlert
  cases h_alert : db.alerts.lookup alertId with
  | none => exact Or.inl rfl
  | some alert =>
    dsimp only
    split
    · exact Or.inl rfl
    next h_status =>
    split
    · exact Or.inl rfl
    · exact Or.inr ⟨alert, rfl, not_ne_iff.mp h_status, rfl⟩

/-- **Closing and resolving.** Either refused, or the alert was processing and has
the new status. -/
theorem finishAlert_cases (status : AlertStatus) (operate : Option AlertOperate)
    (what denied ok : String) (op : AlertOperator) (clock : OperateClock) (alertId : AlertId)
    (db : Db) :
    (finishAlert status operate what denied ok op clock alertId db).1 = db ∨
    ∃ alert, db.alerts.lookup alertId = some alert ∧ alert.status = .processing ∧
      (finishAlert status operate what denied ok op clock alertId db).1 =
        saveAlert alertId
          { alert with
            status, operate := operate.or alert.operate, updatedAt := clock.now } db := by
  unfold finishAlert
  cases h_alert : db.alerts.lookup alertId with
  | none => exact Or.inl rfl
  | some alert =>
    dsimp only
    split
    · exact Or.inl rfl
    next h_status =>
    split
    · exact Or.inl rfl
    · exact Or.inr ⟨alert, rfl, not_ne_iff.mp h_status, rfl⟩

/-- **One action.** What `operate` leaves in the database. -/
inductive OperateEffect (clock : OperateClock) (alertId : AlertId) (data : OperateData)
    (db : Db) : OperateAction → Db → Prop
  | refused {action : OperateAction} : OperateEffect clock alertId data db action db
  | assigned {alert : Alert} {assignee : List String} {params : List NotifyParam}
      (h_alert : db.alerts.lookup alertId = some alert)
      (h_status : alert.status = .unassigned) :
      OperateEffect clock alertId data db .assign
        (enqueueNotifications .dispatch alertId clock.now params
          (startTasks clock alertId (dispatched .assign assignee clock.now alert)
            (activeAssignment db data.assignmentId)
            (saveAlert alertId (dispatched .assign assignee clock.now alert) db)))
  | acknowledged {alert : Alert}
      (h_alert : db.alerts.lookup alertId = some alert)
      (h_status : alert.status = .pending) :
      OperateEffect clock alertId data db .acknowledge
        (stopEscalationTask alertId (stopReminderTask alertId (saveAlert alertId
          { alert with
            status := .processing, operate := some .acknowledge, updatedAt := clock.now }
          db)))
  | reassigned {alert : Alert} {assignee : List String} {params : List NotifyParam}
      (h_alert : db.alerts.lookup alertId = some alert)
      (h_status : alert.status = .processing) :
      OperateEffect clock alertId data db .reassign
        (resumeTasks clock alertId (dispatched .reassign assignee clock.now alert)
          data.assignmentId (enqueueNotifications .reassign alertId clock.now params
            (saveAlert alertId (dispatched .reassign assignee clock.now alert) db)))
  | finished {action : OperateAction} {alert : Alert} {status : AlertStatus}
      {operate : Option AlertOperate}
      (h_alert : db.alerts.lookup alertId = some alert)
      (h_status : alert.status = .processing)
      (h_end : action = .close ∧ status = .closed ∨ action = .resolve ∧ status = .resolved) :
      OperateEffect clock alertId data db action
        (saveAlert alertId { alert with status, operate, updatedAt := clock.now } db)

theorem operateDb_effect (op : AlertOperator) (clock : OperateClock) (action : OperateAction)
    (alertId : AlertId) (data : OperateData) (db : Db) :
    OperateEffect clock alertId data db action (operateDb op clock action alertId data db) := by
  unfold operateDb operate
  split
  next db' r h =>
    split at h
    · cases h
      exact .refused
    cases action with
    | assign =>
      rcases assignAlert_ok h with ⟨rfl, -⟩ | ⟨alert, assignee, params, h_alert, h_status, -, -, -, rfl⟩
      · exact .refused
      · exact .assigned h_alert h_status
    | acknowledge =>
      have h_eq : (acknowledgeAlert op clock alertId db).1 = db' := congrArg Prod.fst (Except.ok.inj h)
      rw [← h_eq]
      rcases acknowledgeAlert_cases op clock alertId db with h_same | ⟨alert, h_alert, h_status, h_new⟩
      · rw [h_same]
        exact .refused
      · rw [h_new]
        exact .acknowledged h_alert h_status
    | reassign =>
      rcases reassignAlert_ok h with ⟨rfl, -⟩ | ⟨alert, assignee, params, h_alert, h_status, -, rfl⟩
      · exact .refused
      · exact .reassigned h_alert h_status
    | close =>
      have h_eq : (closeAlert op clock alertId db).1 = db' := congrArg Prod.fst (Except.ok.inj h)
      rw [← h_eq]
      unfold closeAlert
      rcases finishAlert_cases .closed (some .close) "进行关闭操作" "您没有权限关闭此告警"
        "告警关闭成功" op clock alertId db with h_same | ⟨alert, h_alert, h_status, h_new⟩
      · rw [h_same]
        exact .refused
      · rw [h_new]
        exact .finished h_alert h_status (Or.inl ⟨rfl, rfl⟩)
    | resolve =>
      have h_eq : (resolveAlert op clock alertId db).1 = db' := congrArg Prod.fst (Except.ok.inj h)
      rw [← h_eq]
      unfold resolveAlert
      rcases finishAlert_cases .resolved none "标记为已处理" "您没有权限处理此告警"
        "告警处理成功" op clock alertId db with h_same | ⟨alert, h_alert, h_status, h_new⟩
      · rw [h_same]
        exact .refused
      · rw [h_new]
        exact .finished h_alert h_status (Or.inr ⟨rfl, rfl⟩)
  next => exact .refused

end Effects

end Alerts
