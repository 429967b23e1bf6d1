import BkLite.Alerts.AlertOperator
import BkLite.Alerts.Recovery

/-!
# Closing and confirming alerts

`common/auto_close.py` and `aggregation/recovery/timeout_checker.py`.

`TimeoutChecker` decides on rows that it has read and saves them afterwards, so what its
functions give here are the `Save`s that they are about to write.
-/

namespace Alerts

open Py

/-! ### Automatic closing -/

/-- The columns of an `AlarmStrategy` that the automatic closing reads. -/
structure ClosingStrategy where
  id : ℕ
  isActive : Bool := true
  autoClose : Bool := true
  closeMinutes : ℤ := 120
  isInstant : Bool := false

namespace ClosingStrategy

/-- The strategy is one of those that `build_rule_mapping` keeps. -/
def closes (s : ClosingStrategy) : Bool :=
  s.isActive && s.autoClose && decide (0 < s.closeMinutes) && !s.isInstant

def shouldAutoClose (s : ClosingStrategy) (currentTime : ℤ) (alert : Alert) : Bool :=
  -- a session that is not confirmed does not count down
  if alert.isSessionAlert ∧ alert.sessionStatus.any (· ∈ SessionStatus.noConfirmed) then false
  else alert.lastEventTime.any fun last => last + minutes s.closeMinutes ≤ currentTime

end ClosingStrategy

/-- The alerts that `main` hands to `auto_close_alert`. -/
def autoCloseCandidates (strategies : List ClosingStrategy) (currentTime : ℤ) (db : Db) :
    List AlertId :=
  Table.keysWhere db.alerts fun alert =>
    alert.status.IsActive ∧ strategies.any fun s =>
      s.closes && alert.ruleId = some (toString s.id) && s.shouldAutoClose currentTime alert

def autoCloseAlert (alertId : AlertId) (now : ℤ) (db : Db) : Db :=
  match db.alerts.lookup alertId with
  | none => db
  | some alert =>
    -- the locked row may have been handled by another process in the meantime
    if alert.status.IsActive then
      stopReminderTask alertId (saveAlert alertId
        { alert with status := .autoClose, operate := some .close, updatedAt := now } db)
    else db

theorem autoCloseAlert_cases (alertId : AlertId) (now : ℤ) (db : Db) :
    autoCloseAlert alertId now db = db ∨
      ∃ alert, db.alerts.lookup alertId = some alert ∧ alert.status.IsActive ∧
        (autoCloseAlert alertId now db).alerts = db.alerts.insert alertId
          { alert with status := .autoClose, operate := some .close, updatedAt := now } := by
  unfold autoCloseAlert
  cases h_alert : db.alerts.lookup alertId with
  | none => exact Or.inl rfl
  | some alert =>
    dsimp only
    split_ifs with h_active
    · exact Or.inr ⟨alert, rfl, h_active, rfl⟩
    · exact Or.inl rfl

/-! ### Sessions -/

def isObserving (alert : Alert) : Bool :=
  alert.isSessionAlert && alert.sessionStatus = some .observing && decide alert.status.IsActive

/-- `check_session_timeouts`: the sessions that are over. -/
def checkSessionTimeouts (now : ℤ) (db : Db) : List (AlertId × Save) :=
  (Table.keysWhere db.alerts fun alert =>
    isObserving alert && alert.sessionEndTime.any (· ≤ now)).map fun k =>
      (k, { sessionStatus := some .confirmed })

def observedBy (strategyId : ℕ) (alert : Alert) : Bool :=
  isObserving alert && alert.ruleId = some (toString strategyId)

/-- `confirm_observing_alerts_by_strategy`. -/
def confirmObservingAlerts (strategyId : ℕ) (db : Db) : List (AlertId × Save) :=
  (Table.keysWhere db.alerts (observedBy strategyId)).map fun k =>
    (k, { sessionStatus := some .confirmed })

/-- `close_observing_session_alerts_by_strategy`. -/
def closeObservingSessionAlerts (strategyId : ℕ) (db : Db) : List (AlertId × Save) :=
  (Table.keysWhere db.alerts (observedBy strategyId)).map fun k =>
    (k, { status := some .closed, sessionStatus := some .recovered })

end Alerts
