import BkLite.Alerts.Escalation

/-!
# The reminder service

`service/reminder_service.py`. An alert that waits for an acknowledgement may
have one reminder task, created from the notification frequency its assignment
configures for the alert's level. The task holds its own copy of the frequency
and of the maximal number of reminders, where `0` means that reminders are not
limited.

A due reminder is handled in two transactions: `checkReminder` locks the row,
checks it and hands over the notification to send, and after the commit the
notification is enqueued and `advanceReminderAfterEnqueue` counts it. The two are
separate functions here because other transactions may run in between.
-/

namespace Alerts

open Py

def defaultMaxReminders : ℤ := 10

def parseMaxCount (raw : Value) : ℤ :=
  match raw with
  | .null | .str "" => defaultMaxReminders
  | raw =>
    match raw.toInt with
    | .error _ => defaultMaxReminders
    | .ok maxCount => if maxCount < 0 then defaultMaxReminders else maxCount

def getEffectiveMaxReminders (assignment : AlertAssignment) (alert : Alert)
    (reminder : AlertReminderTask) : Except PyError ℤ := do
  let assignmentConfig := assignment.notificationFrequency.orElse (.dict [])
  let levelConfig ← assignmentConfig.get alert.level
  let unlimited ←
    if levelConfig.truthy then do
      pure (parseMaxCount (← levelConfig.get "max_count") = 0 : Bool)
    else pure false
  return if unlimited then 0
    else if reminder.currentMaxReminders < 0 then defaultMaxReminders
    else reminder.currentMaxReminders

/-- `_normalize_frequency_config`: interval and maximum, `none` if no interval is
configured. -/
def normalizeFrequencyConfig (levelConfig : Value) : Except PyError (Option (ℤ × ℤ)) := do
  if !levelConfig.truthy then return none
  let intervalMinutes ← ((← levelConfig.get "interval_minutes").orElse (.int 0)).toInt
  if intervalMinutes ≤ 0 then return none
  return some (intervalMinutes, parseMaxCount (← levelConfig.get "max_count"))

/-- The normalised frequency an assignment configures for a level; a config that
raises counts as none. -/
def frequencyConfig (assignment : AlertAssignment) (level : String) : Option (ℤ × ℤ) :=
  match (do normalizeFrequencyConfig (← assignment.notificationFrequency.get level)) with
  | .ok config => config
  | .error _ => none

/-- `create_reminder_task`: an active task is left as it is, an inactive one is
started again from zero. -/
def createReminderTask (alertId : AlertId) (alert : Alert) (assignment : AlertAssignment)
    (now : ℤ) (db : Db) : Db :=
  match frequencyConfig assignment alert.level with
  | none => db
  | some (intervalMinutes, maxCount) =>
    if (db.reminders.lookup alertId).any (·.isActive) then db
    else
      let task : AlertReminderTask :=
        { assignmentId := assignment.id
          isActive := true
          reminderCount := 0
          currentFrequencyMinutes := intervalMinutes
          currentMaxReminders := maxCount
          nextReminderTime := now + minutes intervalMinutes
          lastReminderTime := none }
      { db with reminders := db.reminders.insert alertId task }

/-- `ensure_reminder_task`: the given assignment if it is active, else the one of
the existing task. -/
def ensureReminderTask (alertId : AlertId) (alert : Alert)
    (assignmentId : Option AssignmentId) (now : ℤ) (db : Db) : Db :=
  let given := (assignmentId.bind fun id => db.assignments.lookup id).filter (·.isActive)
  let existing := (db.reminders.lookup alertId).bind fun task =>
    db.assignments.lookup task.assignmentId
  match given.or existing with
  | none => db
  | some assignment =>
    if assignment.isActive then createReminderTask alertId alert assignment now db else db

def stopReminderTask (alertId : AlertId) (db : Db) : Db :=
  { db with
    reminders := Table.modify db.reminders alertId fun task => { task with isActive := false } }

/-- `_update_reminder_task` on a row read before: every column is written back. -/
def updateReminderTask (read : AlertReminderTask) (newFrequency newMaxCount : ℤ) (now : ℤ) :
    AlertReminderTask :=
  let task := { read with
    currentFrequencyMinutes := newFrequency
    currentMaxReminders := if 0 ≤ newMaxCount then newMaxCount else defaultMaxReminders }
  if read.currentFrequencyMinutes ≠ newFrequency ∧ now < read.nextReminderTime then
    let sinceLast := match read.lastReminderTime with
      | some last => now - last
      | none => 0
    let remaining := minutes newFrequency - sinceLast
    { task with nextReminderTime := if 0 < remaining then now + remaining else now }
  else task

section UpdateReminderTask

variable (read : AlertReminderTask) (newFrequency newMaxCount now : ℤ)

@[simp] theorem updateReminderTask_isActive :
    (updateReminderTask read newFrequency newMaxCount now).isActive = read.isActive := by
  unfold updateReminderTask
  split_ifs <;> rfl

@[simp] theorem updateReminderTask_reminderCount :
    (updateReminderTask read newFrequency newMaxCount now).reminderCount =
      read.reminderCount := by
  unfold updateReminderTask
  split_ifs <;> rfl

@[simp] theorem updateReminderTask_lastReminderTime :
    (updateReminderTask read newFrequency newMaxCount now).lastReminderTime =
      read.lastReminderTime := by
  unfold updateReminderTask
  split_ifs <;> rfl

@[simp] theorem updateReminderTask_frequency :
    (updateReminderTask read newFrequency newMaxCount now).currentFrequencyMinutes =
      newFrequency := by
  unfold updateReminderTask
  split_ifs <;> rfl

end UpdateReminderTask

inductive CheckOutcome
  /-- Not visited: locked, inactive, missing or not due yet. -/
  | notDue
  /-- The task was deactivated. -/
  | deactivated
  /-- The notification is to be enqueued after the commit. -/
  | due (params : List NotifyParam)
  /-- Nothing can be sent, or the visit failed; the task stays as it is. -/
  | nothingSent

section Check

variable (loads : String → Option Value)

/-- Whom `_send_reminder_notification` notifies on which channels. `loads` is `json.loads`. -/
def reminderParams (alertId : AlertId) (assignment : AlertAssignment) (alert : Alert) (db : Db) :
    Except PyError (Option (List NotifyParam)) := do
  if alert.isSessionAlert && alert.sessionStatus ≠ some .confirmed then
    return none
  let escalation := (db.escalations.lookup alertId).filter (·.isActive)
  let roster := match escalation with
    | some task => computeRoster task.layers task.currentLayerIndex task.mode
    | none => assignment.initialPersonnel
  let layerChannels := (escalation.bind fun task =>
    task.layers[task.currentLayerIndex]?.map (·.notifyChannels)).getD .null
  if roster = [] then return none
  let channels := match layerChannels.orElse assignment.notifyChannels with
    | .str text => (loads text).getD (.list [])
    | channels => channels
  if !channels.truthy then return none
  return some (← buildChannelParams roster channels alert.team)

/-- The check transaction of `check_and_process_reminders` on one task. -/
def checkReminder (alertId : AlertId) (now : ℤ) (db : Db) : Db × CheckOutcome :=
  match db.reminders.lookup alertId, db.alerts.lookup alertId with
  | some reminder, some alert =>
    if !reminder.isActive ∨ now < reminder.nextReminderTime then (db, .notDue)
    else if alert.status ≠ .pending then (stopReminderTask alertId db, .deactivated)
    else
      match db.assignments.lookup reminder.assignmentId with
      | none => (db, .nothingSent)
      | some assignment =>
        match getEffectiveMaxReminders assignment alert reminder with
        | .error _ => (db, .nothingSent)
        | .ok maxReminders =>
          if 0 < maxReminders ∧ maxReminders ≤ reminder.reminderCount then
            (stopReminderTask alertId db, .deactivated)
          else
            match reminderParams loads alertId assignment alert db with
            | .ok (some params) => (db, .due params)
            | _ => (db, .nothingSent)
  | _, _ => (db, .notDue)

end Check

def advanceReminderAfterEnqueue (alertId : AlertId) (now : ℤ) (db : Db) : Db :=
  match db.reminders.lookup alertId, db.alerts.lookup alertId with
  | some reminder, some alert =>
    if !reminder.isActive then db
    else if alert.status ≠ .pending then stopReminderTask alertId db
    else
      match db.assignments.lookup reminder.assignmentId with
      | none => db
      | some assignment =>
        match getEffectiveMaxReminders assignment alert reminder with
        | .error _ => db
        | .ok maxReminders =>
          if 0 < maxReminders ∧ maxReminders ≤ reminder.reminderCount then
            stopReminderTask alertId db
          else
            let counted := { reminder with
              reminderCount := reminder.reminderCount + 1
              lastReminderTime := some now }
            let advanced :=
              if maxReminders ≤ 0 ∨ counted.reminderCount < maxReminders then
                { counted with
                  nextReminderTime := now + minutes reminder.currentFrequencyMinutes }
              else { counted with isActive := false }
            { db with reminders := db.reminders.insert alertId advanced }
  | _, _ => db

/-! ### The service leaves the other tables alone -/

section Frame

variable {alertId : AlertId} {alert : Alert} {now : ℤ} {db : Db}

theorem createReminderTask_cases (alertId : AlertId) (alert : Alert) (a : AlertAssignment)
    (now : ℤ) (db : Db) :
    createReminderTask alertId alert a now db = db ∨ ∃ task : AlertReminderTask,
      task.reminderCount = 0 ∧
      task.nextReminderTime = now + minutes task.currentFrequencyMinutes ∧
      (∀ old, db.reminders.lookup alertId = some old → old.isActive = false) ∧
      createReminderTask alertId alert a now db =
        { db with reminders := db.reminders.insert alertId task } := by
  unfold createReminderTask
  split
  · exact Or.inl rfl
  · split
    · exact Or.inl rfl
    next h_idle =>
    refine Or.inr ⟨_, rfl, rfl, ?_, rfl⟩
    intro old h_old
    rw [h_old] at h_idle
    simpa using h_idle

theorem ensureReminderTask_cases (alertId : AlertId) (alert : Alert)
    (assignmentId : Option AssignmentId) (now : ℤ) (db : Db) :
    ensureReminderTask alertId alert assignmentId now db = db ∨ ∃ a,
      ensureReminderTask alertId alert assignmentId now db =
        createReminderTask alertId alert a now db := by
  unfold ensureReminderTask
  dsimp only
  split
  · exact Or.inl rfl
  · split
    · exact Or.inr ⟨_, rfl⟩
    · exact Or.inl rfl

@[simp] theorem createReminderTask_alerts {a : AlertAssignment} :
    (createReminderTask alertId alert a now db).alerts = db.alerts := by
  rcases createReminderTask_cases alertId alert a now db with h | ⟨task, -, -, -, h⟩ <;> rw [h]

@[simp] theorem createReminderTask_escalations {a : AlertAssignment} :
    (createReminderTask alertId alert a now db).escalations = db.escalations := by
  rcases createReminderTask_cases alertId alert a now db with h | ⟨task, -, -, -, h⟩ <;> rw [h]

@[simp] theorem createReminderTask_assignments {a : AlertAssignment} :
    (createReminderTask alertId alert a now db).assignments = db.assignments := by
  rcases createReminderTask_cases alertId alert a now db with h | ⟨task, -, -, -, h⟩ <;> rw [h]

@[simp] theorem ensureReminderTask_alerts {assignmentId : Option AssignmentId} :
    (ensureReminderTask alertId alert assignmentId now db).alerts = db.alerts := by
  rcases ensureReminderTask_cases alertId alert assignmentId now db with h | ⟨a, h⟩ <;> simp [h]

@[simp] theorem ensureReminderTask_escalations {assignmentId : Option AssignmentId} :
    (ensureReminderTask alertId alert assignmentId now db).escalations = db.escalations := by
  rcases ensureReminderTask_cases alertId alert assignmentId now db with h | ⟨a, h⟩ <;> simp [h]

@[simp] theorem ensureReminderTask_assignments {assignmentId : Option AssignmentId} :
    (ensureReminderTask alertId alert assignmentId now db).assignments = db.assignments := by
  rcases ensureReminderTask_cases alertId alert assignmentId now db with h | ⟨a, h⟩ <;> simp [h]

@[simp] theorem createReminderTask_outbox {a : AlertAssignment} :
    (createReminderTask alertId alert a now db).outbox = db.outbox := by
  rcases createReminderTask_cases alertId alert a now db with h | ⟨task, -, -, -, h⟩ <;> rw [h]

@[simp] theorem ensureReminderTask_outbox {assignmentId : Option AssignmentId} :
    (ensureReminderTask alertId alert assignmentId now db).outbox = db.outbox := by
  rcases ensureReminderTask_cases alertId alert assignmentId now db with h | ⟨a, h⟩ <;> simp [h]

@[simp] theorem stopReminderTask_alerts : (stopReminderTask alertId db).alerts = db.alerts := rfl

@[simp] theorem stopReminderTask_escalations :
    (stopReminderTask alertId db).escalations = db.escalations := rfl

end Frame

end Alerts
