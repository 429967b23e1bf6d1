import BkLite.Alerts.Reminder

/-!
# Recovery of alerts

`aggregation/recovery/recovery_checker.py` and `recovery_handler.py`. A recovery event is
linked to the active alerts that hold an event of the same `external_id`, and an alert
recovers when each of its `created` events has a later recovery among its linked events.

The status is written without looking at the status the row has by then: `shouldRecover`
does not ask for it. What a writer has decided to store is a `Save`, the columns of its
`update_fields`.
-/

namespace Alerts

open Py

/-- The tables that aggregation and recovery work on, and the next unused `alert_id`. -/
structure Store where
  events : Table EventId Event
  db : Db
  nextAlertId : AlertId

def linkedEvents (events : Table EventId Event) (alert : Alert) : List Event :=
  alert.events.filterMap fun eid => events.lookup eid

/-! ### Saving some columns -/

/-- What `save(update_fields=…)` writes besides `updated_at`. -/
structure Save where
  status : Option AlertStatus := none
  sessionStatus : Option SessionStatus := none
  lastEventTime : Option ℤ := none
deriving DecidableEq

def Save.apply (save : Save) (now : ℤ) (alert : Alert) : Alert :=
  { alert with
    status := save.status.getD alert.status
    sessionStatus := save.sessionStatus.or alert.sessionStatus
    lastEventTime := save.lastEventTime.or alert.lastEventTime
    updatedAt := now }

/-! ### The checker -/

/-- `_get_created_event_time`. -/
def createdEventTime (e : Event) : ℤ := e.startTime

/-- `_get_recovery_event_time`. -/
def recoveryEventTime (e : Event) : ℤ := e.endTime.getD e.startTime

/-- The event has an `external_id`. -/
def hasExternalId (e : Event) : Bool := e.externalId.any (· ≠ "")

def isRecovery (e : Event) : Bool := e.action ∈ [EventAction.recovery, .closed]

def recovers (created r : Event) : Bool :=
  isRecovery r && hasExternalId r && r.externalId = created.externalId &&
    createdEventTime created < recoveryEventTime r

/-- `check_and_recover_alert` decides for a recovery. -/
def shouldRecover (linked : List Event) : Bool :=
  let created := linked.filter (·.action = .created)
  let recovery := linked.filter fun e => isRecovery e && hasExternalId e
  !(created.isEmpty && recovery.isEmpty) &&
    created.all fun e => hasExternalId e && linked.any (recovers e)

def recoverySave (alert : Alert) : Save where
  status := some .autoRecovery
  sessionStatus :=
    if alert.isSessionAlert ∧ alert.sessionStatus = some .observing then some .recovered else none

/-- `check_and_recover_alert` on a locked row. -/
def checkAndRecoverAlert (alertId : AlertId) (now : ℤ) (s : Store) : Store :=
  match s.db.alerts.lookup alertId with
  | none => s
  | some alert =>
    if shouldRecover (linkedEvents s.events alert) then
      { s with
        db := stopReminderTask alertId
          { s.db with alerts := s.db.alerts.insert alertId ((recoverySave alert).apply now alert) } }
    else s

/-! ### The handler -/

def normalizeValue (value : Option String) : String :=
  String.ofList (strip (value.getD "").toList)

/-- `_build_fallback_key`. -/
def fallbackKey (e : Event) : Option (ℕ × String × String) :=
  let item := normalizeValue e.item
  let resourceName := normalizeValue e.resourceName
  if item = "" ∨ resourceName = "" then none else some (e.sourceId, item, resourceName)

def supportsUniqueFallback (e : Event) : Bool :=
  normalizeValue e.resourceId = "" && normalizeValue e.resourceType = ""

/-- A recovery event asks for a created event: by its `external_id`, or by the fallback
key. -/
def asksFor (r created : Event) : Bool :=
  created.action = .created && hasExternalId r &&
    (created.externalId = r.externalId ||
      (supportsUniqueFallback r && (fallbackKey r).any fun key =>
        created.sourceId = key.1 ∧ created.item = some key.2.1 ∧
          created.resourceName = some key.2.2))

def affectedAlerts (recoveryEvents : List (EventId × Event)) (s : Store) : List AlertId :=
  Table.keysWhere s.db.alerts fun alert =>
    alert.status.IsActive ∧ (linkedEvents s.events alert).any fun created =>
      recoveryEvents.any fun r => asksFor r.2 created

/-- Some event linked to the alert satisfies `p`. -/
def linkedAny (s : Store) (k : AlertId) (p : Event → Bool) : Bool :=
  (s.db.alerts.lookup k).any fun alert => (linkedEvents s.events alert).any p

def matchingAlerts (affected : List AlertId) (r : Event) (s : Store) : List AlertId :=
  let byExternalId := affected.filter fun k => linkedAny s k (·.externalId = r.externalId)
  if !hasExternalId r then []
  else if byExternalId ≠ [] then byExternalId
  else if supportsUniqueFallback r ∧ fallbackKey r ≠ none then
    let byKey := affected.filter fun k =>
      linkedAny s k fun e => e.action = .created ∧ fallbackKey e = fallbackKey r
    if byKey.length = 1 then byKey else []
  else []

/-- `alert.events.add`. -/
def addEvent (eid : EventId) (alert : Alert) : Alert :=
  { alert with events := if eid ∈ alert.events then alert.events else alert.events ++ [eid] }

def linkEvent (eid : EventId) (ks : List AlertId) (db : Db) : Db :=
  { db with
    alerts := ks.foldl (fun alerts k => Table.modify alerts k (addEvent eid)) db.alerts }

/-- `handle_recovery_events`: the store after the links are inserted, and the alerts to
check after the commit. -/
def handleRecoveryEvents (recoveryEvents : List (EventId × Event)) (s : Store) :
    Store × List AlertId :=
  let affected := affectedAlerts recoveryEvents s
  let matched := recoveryEvents.map fun r => (r.1, matchingAlerts affected r.2 s)
  ({ s with db := matched.foldl (fun db m => linkEvent m.1 m.2 db) s.db },
    fromKeys (matched.flatMap (·.2)))

end Alerts
