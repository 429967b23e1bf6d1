import BkLite.Framework.Exceptions
import BkLite.Framework.Table
import BkLite.Monitor.Identity
import Mathlib.Data.List.Sort
import Mathlib.Data.List.Dedup

/-!
# One scan of a policy

`MonitorPolicyScan.run`: the events of the threshold path and of the no-data path are detected,
alerts are counted and recovered, and the events are linked to alerts, existing or new. All parts
share one list of active alerts, read once (`Cache.activeAlerts`).

What lies outside the server is an argument of the scan: the series that VictoriaMetrics gives to
each query (after the conversion of units), and the statements at which the scan fails. The names,
dimensions and raw data that only notices and snapshots show are left out.
-/

namespace Monitor
namespace PolicyScan

open Py Identity

/-! ### Records -/

inductive AlertType
  | alert
  | noData
deriving DecidableEq

/-- `MonitorAlert.STATUS_CHOICES`. -/
inductive Status
  | new
  | closed
  | recovered
deriving DecidableEq

/-- `LEVEL_WEIGHT.get(level, 0)`. -/
def levelWeight (level : String) : ℕ :=
  if level = "warning" then 2
  else if level = "error" then 3
  else if level = "critical" then 4
  else if level = "no_data" then 5
  else 0

structure Threshold (Num : Type) where
  method : String
  value : Num
  level : String

/-- The fields of `MonitorPolicy` that a scan reads; `source` tells whether there is one. -/
structure Policy (Num : Type) where
  id : ℕ
  source : Bool
  groupBy : List String
  enableAlerts : List String
  threshold : List (Threshold Num) := []
  triggerCount : ℕ := 1
  recoveryCondition : ℤ := 1
  noDataPeriod : Bool := false
  noDataLevel : String := ""
  noDataRecoveryPeriod : Bool := false

/-- An entry of `operation_logs`. -/
structure OperationLog where
  action : String
  reason : String
  operator : String
  time : ℤ

/-- `MonitorAlert`. -/
structure Alert (Num : Type) where
  policyId : ℕ
  monitorInstanceId : String
  metricInstanceId : String
  monitorInstanceName : String
  alertType : AlertType
  level : String
  value : Option Num
  content : String
  status : Status
  startEventTime : ℤ
  endEventTime : Option ℤ := none
  operator : String := ""
  infoEventCount : ℕ := 0
  operationLogs : List OperationLog := []
  alertCenterNotified : Bool := true

/-- `MonitorEvent`. -/
structure EventRow (Num : Type) where
  alertId : ℕ
  policyId : ℕ
  monitorInstanceId : String
  metricInstanceId : String
  value : Option Num
  level : String
  content : String
  eventTime : ℤ

/-- `PolicyInstanceBaseline`. -/
structure Baseline where
  policyId : ℕ
  monitorInstanceId : String
  metricInstanceId : String
  named : metricInstanceId ≠ ""

structure Db (Num : Type) where
  alerts : Table ℕ (Alert Num) := ∅
  nextAlertId : ℕ := 1
  events : List (EventRow Num) := []
  baselines : List Baseline := []

structure Event (Num : Type) where
  metricInstanceId : String
  monitorInstanceId : String
  value : Option Num
  level : String
  content : String

structure Info where
  metricInstanceId : String
  monitorInstanceId : String
  value : String

/-- The statements at which a scan may fail although its queries are answered. -/
inductive Step
  | setKey
  | incrementInfoCount
  | clearInfoCount
  | recoverThreshold
  | notifyThreshold
  | recoverNoData
  | notifyNoData
  | syncBaselines
  | createEventsAndAlerts
deriving DecidableEq

/-- One execution of `MonitorPolicyScan.run`, with the answers to its queries, and where it
fails. -/
structure Scan (Num : Type) where
  policy : Policy Num
  instances : List (String × String) := []
  named : ∀ row ∈ instances, row.1 ≠ "" := by simp
  lastRunTime : ℤ
  thresholdResult : Option (List Series) := some []
  noDataResult : Option (List Series) := some []
  recoveryResult : Option (List Series) := some []
  fails : Step → Bool := fun _ => false

/-- The result of `ast.literal_eval`. -/
inductive Literal
  | tuple (ts : List Cell)
  /-- Any other value, by its `str`. -/
  | other (text : String)

/-- Python and the database: `repr`, floats, templates, and the order of rows. -/
structure Env (Num : Type) where
  printable : Char → Bool
  literalEval : String → Option Literal
  float : String → Option Num
  lt : Num → Num → Bool
  le : Num → Num → Bool
  eq : Num → Num → Bool
  alertContent : Series → Threshold Num → String
  noDataContent : String → String
  fetch : List ℕ → List ℕ
  fetch_perm : ∀ ids, (fetch ids).Perm ids

variable {Num : Type}

structure Cache (Num : Type) where
  instancesMap : List (String × String)
  baselinesMap : List (String × String)
  activeAlerts : List (ℕ × Alert Num)

section Model

variable (env : Env Num) (s : Scan Num) (c : Cache Num)

/-! ### Keys -/

/-- `extract_monitor_instance_id` of a tuple. -/
def monitorInstanceIdOf : List Cell → String
  | [] => strTuple env.printable []
  | t :: _ => strTuple env.printable [t]

/-- `extract_monitor_instance_id` of a text. -/
def extractMonitorInstanceId (instanceId : String) : String :=
  match env.literalEval instanceId with
  | none => instanceId
  | some (.tuple ts) => monitorInstanceIdOf env ts
  | some (.other text) => text

def getAlertMetricInstanceId (a : Alert Num) : String :=
  if a.metricInstanceId = "" then strTuple env.printable [.str a.monitorInstanceId]
  else a.metricInstanceId

def getEventAlertType (e : Event Num) : AlertType :=
  if e.level = "no_data" then .noData else .alert

/-! ### The start of a scan -/

def buildInstancesMap : List (String × String) :=
  if s.policy.source = true then s.instances else []

def buildBaselinesMap (db : Db Num) : List (String × String) :=
  if s.policy.source = true then
    (db.baselines.filter fun b => b.policyId = s.policy.id &&
      b.monitorInstanceId ∈ (buildInstancesMap s).map (·.1)).map
        fun b => (b.metricInstanceId, b.monitorInstanceId)
  else []

/-- The alert is one that the scan sees: `_get_active_alerts`. -/
def isActive (a : Alert Num) : Bool :=
  a.policyId = s.policy.id && a.status = .new &&
    (!s.policy.source || a.monitorInstanceId ∈ (buildInstancesMap s).map (·.1))

def getActiveAlerts (db : Db Num) : List (ℕ × Alert Num) :=
  (env.fetch (db.alerts.keysWhere (isActive s))).filterMap fun id =>
    (db.alerts.lookup id).map fun a => (id, a)

/-- `MonitorPolicyScan.__init__`. -/
def buildCache (db : Db Num) : Cache Num where
  instancesMap := buildInstancesMap s
  baselinesMap := buildBaselinesMap s db
  activeAlerts := getActiveAlerts env s db

def activeAlert (metricInstanceId : String) (alertType : AlertType) : Option (ℕ × Alert Num) :=
  c.activeAlerts.reverse.find? fun a =>
    getAlertMetricInstanceId env a.2 = metricInstanceId && a.2.alertType = alertType

/-! ### Thresholds -/

/-- `THRESHOLD_METHODS.get(method)`. -/
def thresholdMethod (method : String) : Option (Num → Num → Bool) :=
  if method = ">" then some fun x y => env.lt y x
  else if method = "<" then some fun x y => env.lt x y
  else if method = "=" then some fun x y => env.eq x y
  else if method = "!=" then some fun x y => !env.eq x y
  else if method = ">=" then some fun x y => env.le y x
  else if method = "<=" then some fun x y => env.le x y
  else none

/-- Every value meets the threshold: `all(...)` stops at the first that does not, and a text that
is no float raises. -/
def allMeet (method : Num → Num → Bool) (value : Num) : List String → Option Bool
  | [] => some true
  | v :: vs => do
    let x ← env.float v
    if method x value = true then allMeet method value vs else some false

def firstMet (values : List String) : List (Threshold Num) → Option (Option (Threshold Num))
  | [] => some none
  | t :: ts => do
    let method ← thresholdMethod env t.method
    let met ← allMeet env method t.value values
    if met = true then some (some t) else firstMet values ts

/-- `sorted(thresholds, key=weight, reverse=True)`. -/
def sortedThresholds : List (Threshold Num) :=
  s.policy.threshold.insertionSort fun t u => levelWeight u.level ≤ levelWeight t.level

/-- `trigger_count or 1`. -/
def points : ℕ := if s.policy.triggerCount = 0 then 1 else s.policy.triggerCount

/-- What `calculate_alerts` makes of one series. -/
inductive Verdict (Num : Type)
  | skipped
  | alert (e : Event Num)
  | info (i : Info)

/-- `row["values"][-n:]`, as texts. -/
def lastValues (x : Series) : List String :=
  (x.values.map (·.2)).drop (x.values.length - points s)

/-- The event of a series with the labels `ts` that meets the threshold, or the info event of one
that meets none. -/
def verdictOf (ts : List Cell) (x : Series) : Option (Threshold Num) → Verdict Num
  | some t => .alert
    { metricInstanceId := strTuple env.printable ts
      monitorInstanceId := monitorInstanceIdOf env ts
      value := ((lastValues s x).getLast?).bind env.float
      level := t.level
      content := env.alertContent x t }
  | none => .info
    { metricInstanceId := strTuple env.printable ts
      monitorInstanceId := monitorInstanceIdOf env ts
      value := ((lastValues s x).getLast?).getD "" }

/-- The body of the loop of `calculate_alerts`. -/
def calculateAlert (series : List Series) (x : Series) : Option (Verdict Num) := do
  let ts ← rowTuple s.policy.groupBy series x
  if (lastValues s x).length < points s then
    return .skipped
  let met ← firstMet env (lastValues s x) (sortedThresholds s)
  return verdictOf env s ts x met

def Verdict.event? : Verdict Num → Option (Event Num)
  | .alert e => some e
  | _ => none

def Verdict.info? : Verdict Num → Option Info
  | .info i => some i
  | _ => none

/-- `_filter_events_by_scope`, which a policy without a source leaves out. -/
def inPolicyScope (metricInstanceId : String) : Bool :=
  !s.policy.source ||
    extractMonitorInstanceId env metricInstanceId ∈ c.instancesMap.map (·.1)

def detectThresholdAlerts : Option (List (Event Num) × List Info) := do
  let series ← s.thresholdResult
  let verdicts ← series.mapM (calculateAlert env s series)
  let alertEvents := verdicts.filterMap Verdict.event?
  let infoEvents := verdicts.filterMap Verdict.info?
  return (alertEvents.filter fun e => inPolicyScope env s c e.metricInstanceId,
    infoEvents.filter fun i => inPolicyScope env s c i.metricInstanceId)

/-! ### Counting and recovery -/

def updateAlerts (ids : List ℕ) (f : Alert Num → Alert Num) (db : Db Num) : Db Num :=
  { db with alerts := db.alerts.mapRows fun id a => if id ∈ ids then f a else a }

def countedAlertIds (keys : List String) : List ℕ :=
  keys.filterMap fun key => (activeAlert env c key .alert).map (·.1)

/-- `_increment_info_count` of one alert. -/
def Alert.increment (a : Alert Num) : Alert Num :=
  { a with infoEventCount := a.infoEventCount + 1 }

/-- `_clear_info_count` of one alert. -/
def Alert.clear (a : Alert Num) : Alert Num := { a with infoEventCount := 0 }

def countEvents (alertEvents : List (Event Num)) (infoEvents : List Info) :
    Exec (Db Num) Unit := do
  Exec.raiseIf (s.fails .incrementInfoCount)
  Exec.write
    (updateAlerts (countedAlertIds env c (infoEvents.map (·.metricInstanceId))) Alert.increment)
  Exec.raiseIf (s.fails .clearInfoCount)
  Exec.write
    (updateAlerts (countedAlertIds env c (alertEvents.map (·.metricInstanceId))) Alert.clear)

def Alert.recover (endTime : ℤ) (a : Alert Num) : Alert Num :=
  { a with
    status := .recovered
    endEventTime := some endTime
    operator := "system"
    operationLogs := a.operationLogs ++ [⟨"recovered", "auto_recovered", "system", endTime⟩]
    alertCenterNotified := false }

def recoverCounted (ids : List ℕ) (db : Db Num) : Db Num :=
  updateAlerts ids (fun a =>
    if s.policy.recoveryCondition ≤ (a.infoEventCount : ℤ) then a.recover s.lastRunTime else a) db

def recoverThresholdAlerts : Exec (Db Num) Unit :=
  if s.policy.recoveryCondition ≤ 0 then pure ()
  else do
    Exec.raiseIf (s.fails .recoverThreshold)
    Exec.write (recoverCounted s
      ((c.activeAlerts.filter fun a => a.2.alertType = .alert).map (·.1)))
    Exec.raiseIf (s.fails .notifyThreshold)

def processThresholdAlerts : Exec (Db Num) (List (Event Num) × List Info) := do
  let detected ← Exec.ofOption (detectThresholdAlerts env s c)
  countEvents env s c detected.1 detected.2
  recoverThresholdAlerts s c
  return detected

/-! ### No data -/

/-- `float(values[-1][1])` succeeds. -/
def lastIsFloat (x : Series) : Bool :=
  ((x.values.getLast?).bind fun v => env.float v.2).isSome

/-- `format_aggregation_metrics`: its keys. -/
def aggregationKeys (series : List Series) : Option (List String) :=
  let instances := c.instancesMap.map (·.1)
  let kept := formatAggregationMetrics env.printable instances s.policy.groupBy series
  if kept.all (fun e => lastIsFloat env e.2) = true then some (kept.map (·.1)) else none

def watchedKeys : List String :=
  if c.baselinesMap = [] then (c.instancesMap.map (·.1)).dedup
  else (c.baselinesMap.map (·.1)).dedup

def noDataEvent (metricInstanceId : String) : Event Num where
  metricInstanceId := metricInstanceId
  monitorInstanceId :=
    match c.baselinesMap.lookup metricInstanceId with
    | some m => if m = "" then extractMonitorInstanceId env metricInstanceId else m
    | none => extractMonitorInstanceId env metricInstanceId
  value := none
  level := "no_data"
  content := env.noDataContent metricInstanceId

def buildNoDataEvents (aggregationResult : List String) : List (Event Num) :=
  ((watchedKeys c).filter (· ∉ aggregationResult)).map (noDataEvent env c)

def detectNoDataAlerts : Option (List (Event Num)) :=
  if s.policy.noDataPeriod = false ∨ s.policy.source = false then some []
  else do
    let series ← s.noDataResult
    let keys ← aggregationKeys env s c series
    return buildNoDataEvents env c keys

def heardAlertIds (keys : List String) : List ℕ :=
  (c.activeAlerts.filter fun a =>
    a.2.alertType = .noData && getAlertMetricInstanceId env a.2 ∈ keys).map (·.1)

def recoveryKeys : Option (List String) := do
  let series ← s.recoveryResult
  aggregationKeys env s c series

def recoverNoDataAlerts : Exec (Db Num) Unit :=
  if s.policy.noDataRecoveryPeriod = false then pure ()
  else do
    let keys ← Exec.ofOption (recoveryKeys env s c)
    Exec.raiseIf (s.fails .recoverNoData)
    Exec.write (updateAlerts (heardAlertIds env c keys) (Alert.recover s.lastRunTime))
    Exec.raiseIf (s.fails .notifyNoData)

def processNoDataAlerts : Exec (Db Num) (List (Event Num)) := do
  let noDataEvents ← Exec.ofOption (detectNoDataAlerts env s c)
  recoverNoDataAlerts env s c
  return noDataEvents

/-! ### Baselines -/

/-- `_sync_baselines` of one event. -/
def addBaseline (baselines : List Baseline) (e : String × String) : List Baseline :=
  if h : e.1 = "" ∨ e.2 = "" ∨ e.2 ∉ c.instancesMap.map (·.1) ∨ e.1 ∈ c.baselinesMap.map (·.1) ∨
      (baselines.any fun b => b.policyId = s.policy.id && b.metricInstanceId = e.1) = true then
    baselines
  else baselines ++ [⟨s.policy.id, e.2, e.1, (not_or.mp h).1⟩]

def syncBaselines (alertEvents : List (Event Num)) (infoEvents : List Info) :
    Exec (Db Num) Unit :=
  if s.policy.source = false ∨ c.instancesMap = [] then pure ()
  else do
    Exec.raiseIf (s.fails .syncBaselines)
    Exec.write fun db =>
      { db with
        baselines := ((alertEvents.map fun e => (e.metricInstanceId, e.monitorInstanceId)) ++
          infoEvents.map fun i => (i.metricInstanceId, i.monitorInstanceId)).foldl
            (addBaseline s c) db.baselines }

/-! ### Events and alerts -/

def newAlertEvents (events : List (Event Num)) : List (Event Num) :=
  events.filter fun e => (activeAlert env c e.metricInstanceId (getEventAlertType e)).isNone

def existingAlertEvents (events : List (Event Num)) : List (ℕ × Event Num) :=
  events.filterMap fun e =>
    (activeAlert env c e.metricInstanceId (getEventAlertType e)).map fun a => (a.1, e)

/-- The alert that `_create_alerts_from_events` makes for an event. -/
def alertOfEvent (e : Event Num) : Alert Num where
  policyId := s.policy.id
  monitorInstanceId := e.monitorInstanceId
  metricInstanceId := e.metricInstanceId
  monitorInstanceName := (c.instancesMap.lookup e.monitorInstanceId).getD e.monitorInstanceId
  alertType := getEventAlertType e
  level := if e.level = "no_data" then s.policy.noDataLevel else e.level
  value := if e.level = "no_data" then none else e.value
  content := e.content
  status := .new
  startEventTime := s.lastRunTime

/-- The row that `create_events` makes for an event. -/
def eventRow (e : ℕ × Event Num) : EventRow Num where
  alertId := e.1
  policyId := s.policy.id
  monitorInstanceId := e.2.monitorInstanceId
  metricInstanceId := e.2.metricInstanceId
  value := e.2.value
  level := e.2.level
  content := e.2.content
  eventTime := s.lastRunTime

/-- The id that `alert_map` has for an event; of alerts with one key the last counts. -/
def createdAlertId (base : ℕ) (events : List (Event Num)) (e : Event Num) : Option ℕ :=
  ((events.zipIdx base).reverse.find? fun p => p.1.metricInstanceId = e.metricInstanceId &&
    getEventAlertType p.1 = getEventAlertType e).map (·.2)

def linkedNewEvents (base : ℕ) (events : List (Event Num)) : List (ℕ × Event Num) :=
  events.filterMap fun e => (createdAlertId base events e).map fun id => (id, e)

/-- `_update_existing_alerts_from_events` of one alert. -/
def Alert.upgrade (e : Event Num) (a : Alert Num) : Alert Num :=
  if e.level = "no_data" then a
  else if levelWeight a.level < levelWeight e.level then
    { a with level := e.level, value := e.value, content := e.content }
  else a

/-- `_update_existing_alerts_from_events`. -/
def upgradeAlerts (alerts : Table ℕ (Alert Num)) (events : List (ℕ × Event Num)) :
    Table ℕ (Alert Num) :=
  events.foldl (fun t e => Table.modify t e.1 (Alert.upgrade e.2)) alerts

/-- The transaction of `create_events_and_alerts`. -/
def recordEvents (events : List (Event Num)) (db : Db Num) : Db Num :=
  let fresh := newAlertEvents env c events
  let existing := existingAlertEvents env c events
  { db with
    alerts := upgradeAlerts
      (Table.insertRows db.alerts db.nextAlertId (fresh.map (alertOfEvent s c))) existing
    nextAlertId := db.nextAlertId + fresh.length
    events := db.events ++ (linkedNewEvents db.nextAlertId fresh ++ existing).map (eventRow s) }

def createEventsAndAlerts (events : List (Event Num)) : Exec (Db Num) Unit :=
  if events.isEmpty = true then pure ()
  else do
    Exec.raiseIf (s.fails .createEventsAndAlerts)
    Exec.write (recordEvents env s c events)

/-! ### The scan -/

/-- The part of `_collect_events` for thresholds. -/
def collectThreshold : Exec (Db Num) (List (Event Num) × List Info) :=
  if "threshold" ∈ s.policy.enableAlerts then processThresholdAlerts env s c else pure ([], [])

/-- The part of `_collect_events` for missing data. -/
def collectNoData : Exec (Db Num) (List (Event Num)) :=
  if "no_data" ∈ s.policy.enableAlerts then processNoDataAlerts env s c else pure []

/-- `run`, with what the scan has read at its start. -/
def runWith : Exec (Db Num) Unit :=
  -- a source without instances: `_pre_check`
  if s.policy.source = true ∧ c.instancesMap = [] then pure ()
  else do
    Exec.raiseIf (s.fails .setKey)
    let detected ← collectThreshold env s c
    let noDataEvents ← collectNoData env s c
    syncBaselines s c detected.1 detected.2
    createEventsAndAlerts env s c (detected.1 ++ noDataEvents)

/-- `MonitorPolicyScan(policy).run()`. -/
def run : Exec (Db Num) Unit := fun db => runWith env s (buildCache env s db) db

end Model

/-! ### The active alerts -/

section Active

variable {env : Env Num} {s : Scan Num} {c : Cache Num} {db : Db Num} {id : ℕ} {a : Alert Num}

theorem mem_getActiveAlerts :
    (id, a) ∈ getActiveAlerts env s db ↔ db.alerts.lookup id = some a ∧ isActive s a = true := by
  unfold getActiveAlerts
  rw [List.mem_filterMap]
  constructor
  · rintro ⟨id', h_id', h_row⟩
    obtain ⟨a', h_a', h_pair⟩ := Option.map_eq_some_iff.mp h_row
    cases h_pair
    have h_mem := (env.fetch_perm _).mem_iff.mp h_id'
    obtain ⟨a'', h_a'', h_active⟩ := Table.mem_keysWhere.mp h_mem
    rw [h_a'] at h_a''
    cases h_a''
    exact ⟨h_a', h_active⟩
  · rintro ⟨h_row, h_active⟩
    refine ⟨id, ?_, by rw [h_row]; rfl⟩
    exact (env.fetch_perm _).mem_iff.mpr (Table.mem_keysWhere.mpr ⟨a, h_row, h_active⟩)

theorem mem_of_activeAlert {key : String} {alertType : AlertType}
    (h : activeAlert env c key alertType = some (id, a)) :
    (id, a) ∈ c.activeAlerts ∧ getAlertMetricInstanceId env a = key ∧
      a.alertType = alertType := by
  unfold activeAlert at h
  have h_found := List.find?_some h
  rw [Bool.and_eq_true, decide_eq_true_iff, decide_eq_true_iff] at h_found
  exact ⟨List.mem_reverse.mp (List.mem_of_find?_eq_some h), h_found.1, h_found.2⟩

theorem activeAlert_eq_none_iff {key : String} {alertType : AlertType} :
    activeAlert env c key alertType = none ↔
      ∀ id a, (id, a) ∈ c.activeAlerts → getAlertMetricInstanceId env a = key →
        a.alertType ≠ alertType := by
  unfold activeAlert
  rw [List.find?_eq_none]
  constructor
  · intro h id a h_mem h_key h_type
    refine h (id, a) (List.mem_reverse.mpr h_mem) ?_
    rw [Bool.and_eq_true, decide_eq_true_iff, decide_eq_true_iff]
    exact ⟨h_key, h_type⟩
  · intro h e h_mem h_both
    rw [Bool.and_eq_true, decide_eq_true_iff, decide_eq_true_iff] at h_both
    exact h e.1 e.2 (List.mem_reverse.mp h_mem) h_both.1 h_both.2

theorem exists_activeAlert (h : (id, a) ∈ c.activeAlerts) :
    ∃ id' a', activeAlert env c (getAlertMetricInstanceId env a) a.alertType = some (id', a') := by
  cases h_entry : activeAlert env c (getAlertMetricInstanceId env a) a.alertType with
  | some e => exact ⟨e.1, e.2, rfl⟩
  | none => exact absurd rfl (activeAlert_eq_none_iff.mp h_entry id a h rfl)

end Active

/-! ### What a successful scan has done -/

section Completed

variable {env : Env Num} {s : Scan Num} {c : Cache Num} {db db' : Db Num}

theorem lookup_updateAlerts (ids : List ℕ) (f : Alert Num → Alert Num) (db : Db Num) (id : ℕ) :
    (updateAlerts ids f db).alerts.lookup id =
      (db.alerts.lookup id).map fun a => if id ∈ ids then f a else a :=
  Table.lookup_mapRows db.alerts _ id

def thresholdDone (env : Env Num) (s : Scan Num) (c : Cache Num)
    (detected : List (Event Num) × List Info) (db : Db Num) : Db Num :=
  let counted := updateAlerts (countedAlertIds env c (detected.1.map (·.metricInstanceId)))
    Alert.clear (updateAlerts (countedAlertIds env c (detected.2.map (·.metricInstanceId)))
      Alert.increment db)
  if s.policy.recoveryCondition ≤ 0 then counted
  else recoverCounted s ((c.activeAlerts.filter fun a => a.2.alertType = .alert).map (·.1)) counted

theorem countEvents_eq_ok {alertEvents : List (Event Num)} {infoEvents : List Info} {u : Unit}
    (h : countEvents env s c alertEvents infoEvents db = .ok u db') :
    db' = updateAlerts (countedAlertIds env c (alertEvents.map (·.metricInstanceId))) Alert.clear
      (updateAlerts (countedAlertIds env c (infoEvents.map (·.metricInstanceId)))
        Alert.increment db) := by
  unfold countEvents at h
  rw [Exec.bind_eq_ok] at h
  obtain ⟨_, db₁, h_first, h⟩ := h
  obtain ⟨-, rfl⟩ := Exec.raiseIf_eq_ok.mp h_first
  rw [Exec.bind_eq_ok] at h
  obtain ⟨_, db₂, h_increment, h⟩ := h
  cases h_increment
  rw [Exec.bind_eq_ok] at h
  obtain ⟨_, db₃, h_second, h⟩ := h
  obtain ⟨-, rfl⟩ := Exec.raiseIf_eq_ok.mp h_second
  cases h
  rfl

theorem processThresholdAlerts_eq_ok {detected : List (Event Num) × List Info}
    (h : processThresholdAlerts env s c db = .ok detected db') :
    detectThresholdAlerts env s c = some detected ∧ db' = thresholdDone env s c detected db := by
  unfold processThresholdAlerts at h
  rw [Exec.bind_eq_ok] at h
  obtain ⟨d, db₁, h_detect, h⟩ := h
  obtain ⟨h_found, rfl⟩ := Exec.ofOption_eq_ok.mp h_detect
  rw [Exec.bind_eq_ok] at h
  obtain ⟨_, db₂, h_count, h⟩ := h
  rw [Exec.bind_eq_ok] at h
  obtain ⟨_, db₃, h_recover, h⟩ := h
  cases h
  refine ⟨h_found, ?_⟩
  unfold thresholdDone
  rw [← countEvents_eq_ok h_count]
  unfold recoverThresholdAlerts at h_recover
  split_ifs at h_recover ⊢ with h_condition
  · cases h_recover
    rfl
  · rw [Exec.bind_eq_ok] at h_recover
    obtain ⟨_, db₄, h_first, h_recover⟩ := h_recover
    obtain ⟨-, rfl⟩ := Exec.raiseIf_eq_ok.mp h_first
    rw [Exec.bind_eq_ok] at h_recover
    obtain ⟨_, db₅, h_write, h_recover⟩ := h_recover
    cases h_write
    obtain ⟨-, rfl⟩ := Exec.raiseIf_eq_ok.mp h_recover
    rfl

def ThresholdFinds (env : Env Num) (s : Scan Num) (c : Cache Num)
    (detected : List (Event Num) × List Info) : Prop :=
  if "threshold" ∈ s.policy.enableAlerts then detectThresholdAlerts env s c = some detected
  else detected = ([], [])

theorem ThresholdFinds.unique {detected detected' : List (Event Num) × List Info}
    (h : ThresholdFinds env s c detected) (h' : ThresholdFinds env s c detected') :
    detected = detected' := by
  unfold ThresholdFinds at h h'
  split_ifs at h h'
  · rw [h] at h'
    exact Option.some.inj h'
  · rw [h, h']

theorem collectThreshold_eq_ok {detected : List (Event Num) × List Info}
    (h : collectThreshold env s c db = .ok detected db') :
    ThresholdFinds env s c detected ∧
      db' = if "threshold" ∈ s.policy.enableAlerts then thresholdDone env s c detected db
        else db := by
  unfold collectThreshold at h
  unfold ThresholdFinds
  split_ifs at h ⊢ with h_enabled
  · exact processThresholdAlerts_eq_ok h
  · cases h
    exact ⟨rfl, rfl⟩

def recoveredNoDataIds (env : Env Num) (s : Scan Num) (c : Cache Num) : List ℕ :=
  if "no_data" ∈ s.policy.enableAlerts ∧ s.policy.noDataRecoveryPeriod = true then
    heardAlertIds env c ((recoveryKeys env s c).getD [])
  else []

def NoDataFinds (env : Env Num) (s : Scan Num) (c : Cache Num)
    (noDataEvents : List (Event Num)) : Prop :=
  if "no_data" ∈ s.policy.enableAlerts then detectNoDataAlerts env s c = some noDataEvents
  else noDataEvents = []

theorem NoDataFinds.unique {noDataEvents noDataEvents' : List (Event Num)}
    (h : NoDataFinds env s c noDataEvents) (h' : NoDataFinds env s c noDataEvents') :
    noDataEvents = noDataEvents' := by
  unfold NoDataFinds at h h'
  split_ifs at h h'
  · rw [h] at h'
    exact Option.some.inj h'
  · rw [h, h']

/-- The alerts after the no-data part. -/
structure NoDataDone (env : Env Num) (s : Scan Num) (c : Cache Num) (db db' : Db Num) :
    Prop where
  lookup : ∀ id, db'.alerts.lookup id = (db.alerts.lookup id).map fun a =>
    if id ∈ recoveredNoDataIds env s c then a.recover s.lastRunTime else a
  nextAlertId : db'.nextAlertId = db.nextAlertId
  events : db'.events = db.events

theorem NoDataDone.of_nil (h : recoveredNoDataIds env s c = []) : NoDataDone env s c db db where
  lookup := by
    intro id
    rw [h]
    simp only [List.not_mem_nil, if_false, Option.map_id']
  nextAlertId := rfl
  events := rfl

theorem collectNoData_eq_ok {noDataEvents : List (Event Num)}
    (h : collectNoData env s c db = .ok noDataEvents db') :
    NoDataFinds env s c noDataEvents ∧ NoDataDone env s c db db' := by
  unfold collectNoData at h
  unfold NoDataFinds
  split_ifs at h ⊢ with h_enabled
  · unfold processNoDataAlerts at h
    rw [Exec.bind_eq_ok] at h
    obtain ⟨es, db₁, h_detect, h⟩ := h
    obtain ⟨h_found, rfl⟩ := Exec.ofOption_eq_ok.mp h_detect
    rw [Exec.bind_eq_ok] at h
    obtain ⟨_, db₂, h_recover, h⟩ := h
    cases h
    refine ⟨h_found, ?_⟩
    unfold recoverNoDataAlerts at h_recover
    split_ifs at h_recover with h_period
    · cases h_recover
      refine .of_nil ?_
      unfold recoveredNoDataIds
      rw [if_neg (fun h => Bool.noConfusion (h_period.symm.trans h.2))]
    · rw [Exec.bind_eq_ok] at h_recover
      obtain ⟨keys, db₃, h_keys, h_recover⟩ := h_recover
      obtain ⟨h_heard, rfl⟩ := Exec.ofOption_eq_ok.mp h_keys
      rw [Exec.bind_eq_ok] at h_recover
      obtain ⟨_, db₄, h_first, h_recover⟩ := h_recover
      obtain ⟨-, rfl⟩ := Exec.raiseIf_eq_ok.mp h_first
      rw [Exec.bind_eq_ok] at h_recover
      obtain ⟨_, db₅, h_write, h_recover⟩ := h_recover
      cases h_write
      obtain ⟨-, rfl⟩ := Exec.raiseIf_eq_ok.mp h_recover
      have h_ids : recoveredNoDataIds env s c = heardAlertIds env c keys := by
        unfold recoveredNoDataIds
        rw [if_pos ⟨h_enabled, (Bool.not_eq_false _).mp h_period⟩, h_heard]
        rfl
      refine ⟨fun id => ?_, rfl, rfl⟩
      rw [h_ids]
      exact lookup_updateAlerts _ _ _ id
  · cases h
    refine ⟨rfl, .of_nil ?_⟩
    unfold recoveredNoDataIds
    rw [if_neg (fun h => h_enabled h.1)]

theorem completes_run (db : Db Num) :
    (run env s).completes db = (runWith env s (buildCache env s db)).completes db := by
  unfold Exec.completes run
  rfl

theorem after_run (db : Db Num) :
    (run env s).after db = (runWith env s (buildCache env s db)).after db := by
  unfold Exec.after run
  rfl

theorem run_eq_ok {u : Unit} (h : run env s db = .ok u db') :
    (s.policy.source = true ∧ (buildCache env s db).instancesMap = [] ∧ db' = db) ∨
    ¬(s.policy.source = true ∧ (buildCache env s db).instancesMap = []) ∧
    ∃ detected noDataEvents db₁ db₂ baselines,
      ThresholdFinds env s (buildCache env s db) detected ∧
      (db₁ = if "threshold" ∈ s.policy.enableAlerts then
        thresholdDone env s (buildCache env s db) detected db else db) ∧
      NoDataFinds env s (buildCache env s db) noDataEvents ∧
      NoDataDone env s (buildCache env s db) db₁ db₂ ∧
      db' = (if (detected.1 ++ noDataEvents).isEmpty = true then { db₂ with baselines }
        else recordEvents env s (buildCache env s db) (detected.1 ++ noDataEvents)
          { db₂ with baselines }) := by
  unfold run at h
  generalize buildCache env s db = c at h ⊢
  unfold runWith at h
  split_ifs at h with h_source
  · cases h
    exact Or.inl ⟨h_source.1, h_source.2, rfl⟩
  · rw [Exec.bind_eq_ok] at h
    obtain ⟨_, db₀, h_key, h⟩ := h
    obtain ⟨-, rfl⟩ := Exec.raiseIf_eq_ok.mp h_key
    rw [Exec.bind_eq_ok] at h
    obtain ⟨detected, db₁, h_threshold, h⟩ := h
    rw [Exec.bind_eq_ok] at h
    obtain ⟨noDataEvents, db₂, h_noData, h⟩ := h
    rw [Exec.bind_eq_ok] at h
    obtain ⟨_, db₃, h_sync, h⟩ := h
    obtain ⟨h_finds, h_db₁⟩ := collectThreshold_eq_ok h_threshold
    obtain ⟨h_noDataFinds, h_done⟩ := collectNoData_eq_ok h_noData
    have h_baselines : ∃ baselines, db₃ = { db₂ with baselines } := by
      unfold syncBaselines at h_sync
      split_ifs at h_sync
      · cases h_sync
        exact ⟨db₂.baselines, rfl⟩
      · rw [Exec.bind_eq_ok] at h_sync
        obtain ⟨_, db₄, h_first, h_sync⟩ := h_sync
        obtain ⟨-, rfl⟩ := Exec.raiseIf_eq_ok.mp h_first
        cases h_sync
        exact ⟨_, rfl⟩
    obtain ⟨baselines, rfl⟩ := h_baselines
    refine Or.inr ⟨h_source, detected, noDataEvents, db₁, db₂, baselines, h_finds, h_db₁,
      h_noDataFinds, h_done, ?_⟩
    unfold createEventsAndAlerts at h
    split_ifs at h ⊢ with h_empty
    · cases h
      rfl
    · rw [Exec.bind_eq_ok] at h
      obtain ⟨_, db₄, h_first, h⟩ := h
      obtain ⟨-, rfl⟩ := Exec.raiseIf_eq_ok.mp h_first
      cases h
      rfl

end Completed

/-! ### Small scans -/

/-- Python and the database as far as small examples go: whole numbers, and two hosts. -/
def smallEnv : Env ℤ where
  printable := fun _ => true
  literalEval := fun t =>
    if t = "('host1',)" then some (.tuple [.str "host1"])
    else if t = "('vc-a', 'host-1')" then some (.tuple [.str "vc-a", .str "host-1"])
    else none
  float := fun t => if t = "0" then some 0 else if t = "1" then some 1 else none
  lt := fun x y => x < y
  le := fun x y => x ≤ y
  eq := fun x y => x = y
  alertContent := fun _ t => t.level
  noDataContent := fun _ => "no data"
  fetch := fun ids => ids
  fetch_perm := fun _ => List.Perm.refl _

theorem named_host : ∀ row ∈ [("('host1',)", "host1")], row.1 ≠ "" := by simp

def hostSeries (value : String) : Series where
  metric := [("instance_id", "host1")]
  values := [(0, value)]

def hostAlert (alertType : AlertType) (level : String) : Alert ℤ where
  policyId := 1
  monitorInstanceId := "('host1',)"
  metricInstanceId := "('host1',)"
  monitorInstanceName := "host1"
  alertType := alertType
  level := level
  value := none
  content := ""
  status := .new
  startEventTime := 0

end PolicyScan
end Monitor
