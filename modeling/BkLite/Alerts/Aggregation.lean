import Mathlib.Data.List.Sort
import BkLite.Alerts.AlertOperator
import BkLite.Alerts.Recovery

/-!
# The aggregation pass

`aggregation/processor/aggregation_processor.py`, the query templates it renders and
`aggregation/builder/alert_builder.py`. A pass takes the `created` events of the window
that are not shielded and match the rules of the strategy, groups them by the dimensions of
the strategy, and turns every group into an alert: the freshest active alert with the
group's fingerprint is updated, and where there is none, one is created.

The query names a group `<strategy id>|<key>`, and `normalizeFingerprint` hashes the part
behind the first bar. The hash, the cast of the query engine and the serialisation of
labels are parameters. Every group is handled in a transaction of its own that holds the
row of its alert, and an exception leaves the tables as they were.
-/

namespace Alerts
namespace Aggregation

open Py

/-! ### Strategies -/

/-- `ALLOWED_DIMENSIONS`. -/
inductive Dimension
  | eventId
  | service
  | location
  | resourceName
  | item
  | externalId
  | sourceId
  | level
  | title
  | description
  | resourceId
  | resourceType
deriving DecidableEq, Repr

def Dimension.name : Dimension → String
  | .eventId => "event_id"
  | .service => "service"
  | .location => "location"
  | .resourceName => "resource_name"
  | .item => "item"
  | .externalId => "external_id"
  | .sourceId => "source_id"
  | .level => "level"
  | .title => "title"
  | .description => "description"
  | .resourceId => "resource_id"
  | .resourceType => "resource_type"

def Dimension.all : List Dimension :=
  [.eventId, .service, .location, .resourceName, .item, .externalId, .sourceId, .level, .title,
    .description, .resourceId, .resourceType]

def Dimension.column (d : Dimension) (eid : EventId) (e : Event) : Option String :=
  match d with
  | .eventId => some (toString eid)
  | .service => e.service
  | .location => e.location
  | .resourceName => e.resourceName
  | .item => e.item
  | .externalId => e.externalId
  | .sourceId => some (toString e.sourceId)
  | .level => some e.level
  | .title => some e.title
  | .description => e.description
  | .resourceId => e.resourceId
  | .resourceType => e.resourceType

/-- What a `smart_denoise` strategy contributes to a pass. -/
structure AlarmStrategy where
  id : ℕ
  windowSize : Value := .null
  groupBy : List Value := []
  timeOut : Bool := false
  timeMinutes : ℤ := 10
  dispatchTeam : Value := .list []

/-- `_validate_dimensions` of the configured ones. -/
def validateDimensions (rawDimensions : List Value) : List Dimension :=
  let validated := rawDimensions.filterMap fun
    | .str dim => Dimension.all.find? (·.name = stripped dim)
    | _ => none
  if validated = [] then [.eventId] else validated

/-- `parse_aggregation_window_size` with `clamp`. -/
def parseAggregationWindowSize : Value → ℤ
  | .int size => if size ≤ 0 then 10 else if 1440 < size then 1440 else size
  | _ => 10

namespace AlarmStrategy

def dimensions (s : AlarmStrategy) : List Dimension := validateDimensions s.groupBy

def window (s : AlarmStrategy) : ℤ := minutes (parseAggregationWindowSize s.windowSize)

def isSession (s : AlarmStrategy) : Bool := s.timeOut && decide (0 < s.timeMinutes)

/-- `get_session_end_time`. -/
def sessionEndTime (s : AlarmStrategy) (now : ℤ) : ℤ :=
  now + if s.isSession then minutes s.timeMinutes else s.window

end AlarmStrategy

/-! ### Groups -/

def present (d : Dimension) (eid : EventId) (e : Event) : Bool :=
  (d.column eid e).any (· ≠ "")

/-- `effective_dimension`: the dimensions if all of them have a value, else the
`external_id`. -/
def effectiveDimension (dims : List Dimension) (eid : EventId) (e : Event) : Option String :=
  if dims.all fun d => present d eid e then
    some ("|".intercalate (dims.map fun d => d.name ++ "=" ++ (d.column eid e).getD ""))
  else e.externalId

structure AggregationResult where
  fingerprint : Option String
  eventCount : ℕ
  firstEventTime : ℤ
  lastEventTime : ℤ
  alertLevel : Option ℤ
  eventIds : List EventId
  alertTitle : String
  firstEventDescription : Option String
  alertDescription : Option String

structure Env where
  /-- `str_to_md5`. -/
  md5 : String → String
  /-- `TRY_CAST(level AS INTEGER)`. -/
  castLevel : String → Option ℤ
  /-- `json.dumps` of labels. -/
  dumps : Value → String
  /-- The `level_id`s of the levels of alerts. -/
  alertLevels : List ℤ

section Query

variable (env : Env)

def aggregateGroup (strategyId : ℕ) (key : Option String) (first : EventId × Event)
    (rest : List (EventId × Event)) : AggregationResult :=
  let group := (first :: rest).map (·.2)
  { fingerprint := key.map fun key => toString strategyId ++ "|" ++ key
    eventCount := group.length
    firstEventTime := (rest.map (·.2.receivedAt)).foldl min first.2.receivedAt
    lastEventTime := (rest.map (·.2.receivedAt)).foldl max first.2.receivedAt
    alertLevel := (group.filterMap fun e => env.castLevel e.level).min?
    eventIds := (first :: rest).map (·.1)
    alertTitle := first.2.title
    firstEventDescription := first.2.description
    alertDescription :=
      let names := fromKeys (group.filterMap (·.resourceName))
      if names = [] then none else some (",".intercalate names) }

def aggregationQuery (s : AlarmStrategy) (windowStart : ℤ) (events : List (EventId × Event)) :
    List AggregationResult :=
  let rows := events.filter fun e => windowStart ≤ e.2.receivedAt ∧ e.2.action = .created
  let key := fun e : EventId × Event => effectiveDimension s.dimensions e.1 e.2
  (fromKeys (rows.map key)).filterMap fun k =>
    match rows.filter (key · = k) with
    | [] => none
    | first :: rest => some (aggregateGroup env s.id k first rest)

def behindBar (fingerprint : String) : String :=
  match fingerprint.toList.dropWhile (· ≠ '|') with
  | [] => fingerprint
  | _ :: rest => String.ofList rest

/-- `[0-9a-fA-F]{32}`. -/
def isMd5 (text : String) : Bool :=
  text.toList.length = 32 && text.toList.all fun c =>
    c.isDigit || (decide ('a' ≤ c) && decide (c ≤ 'f')) || (decide ('A' ≤ c) && decide (c ≤ 'F'))

def buildDescription (r : AggregationResult) : String :=
  let first := stripped (r.firstEventDescription.getD "")
  if r.eventCount = 1 ∧ first ≠ "" then first
  else "影响范围：" ++ r.alertDescription.getD "None"

/-- `str(level)`. -/
def levelText (level : Option ℤ) : String := (level.map toString).getD "None"

def criticalLevel (alertLevels : List ℤ) : Option String :=
  ((alertLevels.map toString).insertionSort fun a b => !textLt b.toList a.toList).head?

def normalizeFingerprint (r : AggregationResult) : AggregationResult :=
  match r.fingerprint with
  | none => r
  | some fingerprint =>
    if fingerprint = "" then r
    else
      let raw := behindBar fingerprint
      let hashed := { r with fingerprint := some (env.md5 raw) }
      let level := levelText r.alertLevel
      if isMd5 raw then hashed
      else if criticalLevel env.alertLevels = some level then
        { hashed with
          alertTitle := raw ++ " 发生严重问题"
          alertDescription := some (buildDescription r) }
      else if level ∈ env.alertLevels.map toString then
        { hashed with
          alertTitle := raw ++ " 检测到异常"
          alertDescription := some (buildDescription r) }
      else hashed

/-! ### Building alerts -/

def mapEventLevelToAlert (eventLevel : Option ℤ) : String :=
  match eventLevel, env.alertLevels.min?, env.alertLevels.max? with
  | some level, some least, some greatest =>
    if level ∈ env.alertLevels then toString level
    else if level < least then toString least
    else if greatest < level then toString greatest
    else toString (((env.alertLevels.filter (· < level)).max?).getD least)
  | _, _, _ => "0"

/-- `_get_unique_scalar_value`. -/
def uniqueScalarValue {α : Type} [DecidableEq α] (values : List (Option α)) : Option α :=
  match values with
  | [] => none
  | v :: vs => if vs.all (· = v) then v else none

/-- `_get_consistent_labels`. -/
def consistentLabels (events : List Event) : Value :=
  match events with
  | [] => .dict []
  | e :: es =>
    let serialized := fun e : Event => env.dumps (e.labels.orElse (.dict []))
    if es.all (serialized · = serialized e) then e.labels.orElse (.dict []) else .dict []

/-- `_merge_enrichment`: the first payload of every name space. -/
def mergeEnrichment (events : List Event) : List (String × Value) :=
  events.foldl (fun merged e => e.enrichment.foldl (fun merged payload =>
    if payload.1 ∉ merged.map (·.1) ∧ payload.2.truthy then merged ++ [payload] else merged)
    merged) []

/-- `_resolve_dimensions`: the names of the group-by field whose values agree. -/
def resolveDimensions (events : List (EventId × Event)) (groupByField : String) :
    List (String × String) :=
  let names := ((groupByField.toList.splitOn ',').map fun name =>
    String.ofList (strip name)).filter (· ≠ "")
  names.filterMap fun name =>
    (Dimension.all.find? (·.name = name)).bind fun d =>
      let values := fromKeys ((events.filterMap fun e => (d.column e.1 e.2).map stripped).filter
        (· ≠ ""))
      match values with
      | [value] => some (name, value)
      | _ => none

/-- `_resolve_standard_fields` and `_resolve_dimensions`, written to an alert. -/
def withStandardFields (events : List (EventId × Event)) (alert : Alert) : Alert :=
  let rows := events.map (·.2)
  { alert with
    sourceName := uniqueScalarValue (rows.map fun e => some e.sourceName)
    resourceId := uniqueScalarValue (rows.map (·.resourceId))
    resourceName := uniqueScalarValue (rows.map (·.resourceName))
    resourceType := uniqueScalarValue (rows.map (·.resourceType))
    item := uniqueScalarValue (rows.map (·.item))
    labels := consistentLabels env rows
    enrichment := mergeEnrichment rows
    dimensions := resolveDimensions events (alert.groupByField.getD "") }

def eventRows (events : Table EventId Event) (ids : List EventId) : List (EventId × Event) :=
  ((events.entries.map fun e => (e.1, e.2)).filter fun e => e.1 ∈ ids).insertionSort
    fun e e' => e.1 ≤ e'.1

def createNewAlert (s : AlarmStrategy) (r : AggregationResult) (fingerprint : String) (now : ℤ)
    (events : Table EventId Event) : Alert :=
  let found := eventRows events r.eventIds
  withStandardFields env found
    { fingerprint := fingerprint
      level := mapEventLevelToAlert env r.alertLevel
      title := if r.alertTitle = "" then "聚合告警" else r.alertTitle
      content := r.alertDescription.getD ""
      status := .unassigned
      firstEventTime := some r.firstEventTime
      lastEventTime := some r.lastEventTime
      groupByField := some (",".intercalate (s.dimensions.map Dimension.name))
      isSessionAlert := s.isSession
      sessionStatus := if s.isSession then some .observing else none
      sessionEndTime := if s.isSession then some (s.sessionEndTime now) else none
      ruleId := some (toString s.id)
      team := safeTeam s.dispatchTeam
      updatedAt := now
      events := found.map (·.1) }

def updateExistingAlert (s : AlarmStrategy) (r : AggregationResult) (now : ℤ)
    (events : Table EventId Event) (alert : Alert) : Alert :=
  let added := (eventRows events r.eventIds).filter fun e => e.1 ∉ alert.events
  let linked := alert.events ++ added.map (·.1)
  withStandardFields env (eventRows events linked)
    { alert with
      lastEventTime := some r.lastEventTime
      level := mapEventLevelToAlert env r.alertLevel
      updatedAt := now
      sessionEndTime :=
        if alert.isSessionAlert ∧ alert.sessionStatus = some .observing ∧ s.timeOut then
          some (s.sessionEndTime now)
        else alert.sessionEndTime
      events := linked }

/-- The alert that `create_or_update_alert` looks for. -/
def findAlert (fingerprint : String) (db : Db) : Option (AlertId × Alert) :=
  Table.latestWhere db.alerts
    (fun alert => alert.fingerprint = fingerprint ∧ alert.status.IsActive) (·.updatedAt)

/-- `create_or_update_alert`: the alert's id, and the tables. -/
def createOrUpdateAlert (s : AlarmStrategy) (r : AggregationResult) (fingerprint : String)
    (now : ℤ) (store : Store) : AlertId × Store :=
  match findAlert fingerprint store.db with
  | some (k, alert) =>
    (k, { store with
      db := saveAlert k (updateExistingAlert env s r now store.events alert) store.db })
  | none =>
    (store.nextAlertId,
      { store with
        db := saveAlert store.nextAlertId
          (createNewAlert env s r fingerprint now store.events) store.db
        nextAlertId := store.nextAlertId + 1 })

/-- One round of `_create_or_update_alerts`. A group without a key cannot be stored. -/
def processResult (s : AlarmStrategy) (now : ℤ) (store : Store) (r : AggregationResult) : Store :=
  match (normalizeFingerprint env r).fingerprint with
  | none => store
  | some fingerprint =>
    let built := createOrUpdateAlert env s (normalizeFingerprint env r) fingerprint now store
    checkAndRecoverAlert built.1 now built.2

/-! ### The pass -/

abbrev Matches := AlarmStrategy → EventId → Event → Bool

/-- `get_events_for_strategy` and the rules; the latest events come first. -/
def matchedEvents (matching : Matches) (s : AlarmStrategy) (now : ℤ)
    (events : Table EventId Event) : List (EventId × Event) :=
  ((events.entries.map fun e => (e.1, e.2)).filter fun e =>
    now - s.window ≤ e.2.receivedAt ∧ e.2.action = .created ∧ e.2.status ≠ .shield ∧
      matching s e.1 e.2).insertionSort fun e e' => e'.2.receivedAt ≤ e.2.receivedAt

/-- What the clock shows in a pass: when the events are selected, when the query is built,
and when an alert is written. -/
structure PassClock where
  now : ℤ
  query : ℤ
  write : ℤ

def passResults (matching : Matches) (s : AlarmStrategy) (clock : PassClock) (store : Store) :
    List AggregationResult :=
  aggregationQuery env s (clock.query - s.window) (matchedEvents matching s clock.now store.events)

/-- `_process_strategy` of a `smart_denoise` strategy. -/
def processStrategy (matching : Matches) (s : AlarmStrategy) (clock : PassClock)
    (store : Store) : Store :=
  (passResults env matching s clock store).foldl (processResult env s clock.write) store

end Query

/-! ### What a group writes

A group with a key writes one row: the one `findAlert` gives, or a new one. -/

section Spec

variable {env : Env} {s : AlarmStrategy} {r : AggregationResult} {fp : String} {now : ℤ}
  {store : Store} {k : AlertId} {alert : Alert}

theorem mem_eventRows {events : Table EventId Event} {ids : List EventId} {eid : EventId}
    {e : Event} : (eid, e) ∈ eventRows events ids ↔ events.lookup eid = some e ∧ eid ∈ ids := by
  unfold eventRows
  rw [List.mem_insertionSort, List.mem_filter, Table.mem_entries_pair, ← AList.mem_lookup_iff,
    Option.mem_def, decide_eq_true_iff]

theorem findAlert_eq_some (h : findAlert fp store.db = some (k, alert)) :
    store.db.alerts.lookup k = some alert ∧ alert.fingerprint = fp ∧ alert.status.IsActive := by
  have h_row := Table.latestWhere_eq_some h
  exact ⟨h_row.1, of_decide_eq_true h_row.2⟩

/-- The row that a group is written to, and what `create_or_update_alert` writes. -/
def builtAlert (env : Env) (s : AlarmStrategy) (r : AggregationResult) (fp : String) (now : ℤ)
    (store : Store) : AlertId × Alert :=
  match findAlert fp store.db with
  | some (k, alert) => (k, updateExistingAlert env s r now store.events alert)
  | none => (store.nextAlertId, createNewAlert env s r fp now store.events)

theorem builtAlert_of_some (h : findAlert fp store.db = some (k, alert)) :
    builtAlert env s r fp now store = (k, updateExistingAlert env s r now store.events alert) := by
  unfold builtAlert
  rw [h]

theorem builtAlert_of_none (h : findAlert fp store.db = none) :
    builtAlert env s r fp now store =
      (store.nextAlertId, createNewAlert env s r fp now store.events) := by
  unfold builtAlert
  rw [h]

def checkedAlert (events : Table EventId Event) (now : ℤ) (alert : Alert) : Alert :=
  if shouldRecover (linkedEvents events alert) then (recoverySave alert).apply now alert else alert

theorem checkedAlert_status (events : Table EventId Event) (now : ℤ) (alert : Alert) :
    (checkedAlert events now alert).status = alert.status ∨
      (checkedAlert events now alert).status = .autoRecovery := by
  unfold checkedAlert
  split_ifs
  · exact Or.inr rfl
  · exact Or.inl rfl

theorem checkedAlert_keeps (events : Table EventId Event) (now : ℤ) (alert : Alert) :
    (checkedAlert events now alert).fingerprint = alert.fingerprint ∧
      (checkedAlert events now alert).ruleId = alert.ruleId ∧
      (checkedAlert events now alert).events = alert.events ∧
      (alert.updatedAt = now → (checkedAlert events now alert).updatedAt = now) := by
  unfold checkedAlert
  split_ifs
  · exact ⟨rfl, rfl, rfl, fun _ => rfl⟩
  · exact ⟨rfl, rfl, rfl, id⟩

theorem checkAndRecoverAlert_saved (k : AlertId) (now : ℤ) (alert : Alert) (store : Store) :
    (checkAndRecoverAlert k now { store with db := saveAlert k alert store.db }).db.alerts =
        store.db.alerts.insert k (checkedAlert store.events now alert) ∧
      (checkAndRecoverAlert k now { store with db := saveAlert k alert store.db }).events =
        store.events ∧
      (checkAndRecoverAlert k now
        { store with db := saveAlert k alert store.db }).nextAlertId = store.nextAlertId := by
  have h_row : (saveAlert k alert store.db).alerts.lookup k = some alert :=
    AList.lookup_insert _
  unfold checkAndRecoverAlert checkedAlert
  dsimp only
  rw [h_row]
  dsimp only
  split_ifs
  · refine ⟨?_, rfl, rfl⟩
    rw [stopReminderTask_alerts]
    -- the second save replaces the first one
    exact AList.insert_insert _
  · exact ⟨rfl, rfl, rfl⟩

theorem processResult_of_none (h : (normalizeFingerprint env r).fingerprint = none) :
    processResult env s now store r = store := by
  unfold processResult
  rw [h]

theorem processResult_of_some (h : (normalizeFingerprint env r).fingerprint = some fp) :
    (processResult env s now store r).db.alerts =
        store.db.alerts.insert
          (builtAlert env s (normalizeFingerprint env r) fp now store).1
          (checkedAlert store.events now
            (builtAlert env s (normalizeFingerprint env r) fp now store).2) ∧
      (processResult env s now store r).events = store.events ∧
      (processResult env s now store r).nextAlertId =
        if findAlert fp store.db = none then store.nextAlertId + 1 else store.nextAlertId := by
  unfold processResult
  rw [h]
  dsimp only
  cases h_found : findAlert fp store.db with
  | none =>
    rw [builtAlert_of_none h_found, if_pos rfl]
    unfold createOrUpdateAlert
    rw [h_found]
    exact checkAndRecoverAlert_saved store.nextAlertId now _
      { store with nextAlertId := store.nextAlertId + 1 }
  | some found =>
    obtain ⟨k, alert⟩ := found
    rw [builtAlert_of_some h_found, if_neg (Option.some_ne_none _)]
    unfold createOrUpdateAlert
    rw [h_found]
    exact checkAndRecoverAlert_saved k now _ store

theorem processResult_events : (processResult env s now store r).events = store.events := by
  cases h : (normalizeFingerprint env r).fingerprint with
  | none => rw [processResult_of_none h]
  | some fp => exact (processResult_of_some h).2.1

theorem builtAlert_keeps :
    (builtAlert env s r fp now store).2.fingerprint = fp ∧
      (builtAlert env s r fp now store).2.updatedAt = now ∧
      ∀ eid ∈ r.eventIds, eid ∈ store.events →
        eid ∈ (builtAlert env s r fp now store).2.events := by
  have h_rows : ∀ eid ∈ r.eventIds, eid ∈ store.events →
      ∃ e, (eid, e) ∈ eventRows store.events r.eventIds := by
    intro eid h_id h_mem
    obtain ⟨e, h_row⟩ := Option.isSome_iff_exists.mp (AList.lookup_isSome.mpr h_mem)
    exact ⟨e, mem_eventRows.mpr ⟨h_row, h_id⟩⟩
  cases h_found : findAlert fp store.db with
  | none =>
    rw [builtAlert_of_none h_found]
    refine ⟨rfl, rfl, fun eid h_id h_mem => ?_⟩
    obtain ⟨e, h_row⟩ := h_rows eid h_id h_mem
    exact List.mem_map_of_mem (f := Prod.fst) h_row
  | some found =>
    obtain ⟨k, alert⟩ := found
    rw [builtAlert_of_some h_found]
    refine ⟨(findAlert_eq_some h_found).2.1, rfl, fun eid h_id h_mem => ?_⟩
    show eid ∈ alert.events ++ _
    by_cases h_old : eid ∈ alert.events
    · exact List.mem_append_left _ h_old
    · obtain ⟨e, h_row⟩ := h_rows eid h_id h_mem
      have h_added : (eid, e) ∈ (eventRows store.events r.eventIds).filter
          fun e => e.1 ∉ alert.events := List.mem_filter.mpr ⟨h_row, decide_eq_true h_old⟩
      exact List.mem_append_right _ (List.mem_map_of_mem (f := Prod.fst) h_added)

end Spec

end Aggregation
end Alerts
