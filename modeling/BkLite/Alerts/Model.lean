import BkLite.Framework.Value
import BkLite.Framework.Table

/-!
# The alert centre's data model

The rows the alert centre works on, and the choices their columns are drawn from.

A point in time is a count of microseconds, the resolution of Python's `datetime`.
-/

namespace Alerts

open Py

/-- `timedelta(minutes=m)`. -/
def minutes (m : ℤ) : ℤ := m * 60000000

theorem minutes_add (m n : ℤ) : minutes (m + n) = minutes m + minutes n := by
  exact Int.add_mul m n _

theorem minutes_mono {m n : ℤ} (h : m ≤ n) : minutes m ≤ minutes n :=
  Int.mul_le_mul_of_nonneg_right h (by decide)

/-- `Alert.alert_id`, also the key of the per-alert tasks. -/
abbrev AlertId := ℕ

abbrev EventId := ℕ

/-- Primary key of an `AlertAssignment`. -/
abbrev AssignmentId := ℕ

/-! ### Choices -/

inductive AlertStatus
  | pending
  | resolved
  | processing
  | closed
  | unassigned
  | autoClose
  | autoRecovery
deriving DecidableEq, Repr

def AlertStatus.activateStatus : List AlertStatus := [.pending, .processing, .unassigned]

/-- The status is one of `ACTIVATE_STATUS`. -/
def AlertStatus.IsActive (s : AlertStatus) : Prop := s ∈ AlertStatus.activateStatus

instance : DecidablePred AlertStatus.IsActive :=
  fun s => inferInstanceAs (Decidable (s ∈ AlertStatus.activateStatus))

/-- `SessionStatus`: an observing alert is a virtual one that its session window
has not confirmed yet. -/
inductive SessionStatus
  | observing
  | confirmed
  | recovered
deriving DecidableEq, Repr

def SessionStatus.noConfirmed : List SessionStatus := [.observing, .recovered]

/-- `AlertOperate`, the last operator action. -/
inductive AlertOperate
  | acknowledge
  | close
  | reassign
  | assign
deriving DecidableEq, Repr

inductive EventStatus
  | received
  | pending
  | resolved
  | processing
  | closed
  | shield
deriving DecidableEq, Repr

inductive EventAction
  | created
  | closed
  | recovery
deriving DecidableEq, Repr

/-! ### Rows -/

/-- A row of `alerts_event`; its `event_id` is its key in the table. -/
structure Event where
  sourceId : ℕ := 0
  sourceName : String := ""
  pushSourceId : String := "default"
  action : EventAction := .created
  status : EventStatus := .received
  level : String := "0"
  title : String := ""
  description : Option String := none
  service : Option String := none
  location : Option String := none
  item : Option String := none
  resourceId : Option String := none
  resourceName : Option String := none
  resourceType : Option String := none
  externalId : Option String := none
  receivedAt : ℤ := 0
  startTime : ℤ := 0
  endTime : Option ℤ := none
  labels : Value := .dict []
  tags : Value := .dict []
  /-- The data of the enrichment sources, by name space. -/
  enrichment : List (String × Value) := []

/-- A row of `alerts_alert`; its `alert_id` is its key in the table. -/
structure Alert where
  status : AlertStatus := .unassigned
  level : String := "0"
  operate : Option AlertOperate := none
  operator : List Scalar := []
  team : List Value := []
  isSessionAlert : Bool := false
  sessionStatus : Option SessionStatus := none
  updatedAt : ℤ := 0
  firstEventTime : Option ℤ := none
  lastEventTime : Option ℤ := none
  fingerprint : String := ""
  groupByField : Option String := none
  ruleId : Option String := none
  title : String := ""
  content : String := ""
  labels : Value := .dict []
  item : Option String := none
  resourceId : Option String := none
  resourceName : Option String := none
  resourceType : Option String := none
  sourceName : Option String := none
  sessionEndTime : Option ℤ := none
  enrichment : List (String × Value) := []
  dimensions : List (String × String) := []
  /-- The linked events. -/
  events : List EventId := []

/-- A row of `alerts_alert_assignment`. The personnel are user names. -/
structure AlertAssignment where
  id : AssignmentId
  personnel : Option (List Scalar) := some []
  notifyChannels : Value := .list []
  config : Value := .dict []
  notificationFrequency : Value := .dict []
  isActive : Bool := true

/-- `AlertEscalationTask.mode`. -/
inductive EscalationMode
  | append
  | replace
deriving DecidableEq, Repr

structure Layer where
  personnel : List Scalar
  waitMinutes : ℤ
  notifyChannels : Value

/-- A row of `alerts_escalation_task`; `layers` is the snapshot taken at
dispatch. -/
structure AlertEscalationTask where
  assignmentId : AssignmentId
  isActive : Bool
  mode : EscalationMode
  layers : List Layer
  currentLayerIndex : ℕ
  layerStartedAt : ℤ

/-- A row of `alerts_reminder_task`. -/
structure AlertReminderTask where
  assignmentId : AssignmentId
  isActive : Bool
  reminderCount : ℤ
  currentFrequencyMinutes : ℤ
  currentMaxReminders : ℤ
  nextReminderTime : ℤ
  lastReminderTime : Option ℤ

structure User where
  username : String
  groupList : List Value

inductive NotifyKind
  | dispatch
  | reassign
  | escalation
  | reminder
deriving DecidableEq, Repr

/-- One entry of the argument of `sync_notify`. -/
structure NotifyParam where
  usernameList : List Scalar
  channelType : Value
  channelId : Value

structure Notification where
  kind : NotifyKind
  alertId : AlertId
  params : List NotifyParam
  time : ℤ

structure Db where
  alerts : Table AlertId Alert
  assignments : Table AssignmentId AlertAssignment
  escalations : Table AlertId AlertEscalationTask
  reminders : Table AlertId AlertReminderTask
  users : List User
  /-- The id of the first mail channel, the default of a manual dispatch. -/
  defaultEmailChannel : Value := .null
  outbox : List Notification

end Alerts
