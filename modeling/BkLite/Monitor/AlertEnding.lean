import BkLite.Framework.Runs
import BkLite.Monitor.Recording

/-!
# The end of a monitor alert

Scans, manual updates and the closings of a policy in any interleaving, each access to the table of
alerts a step of its own. Three of them end alerts by writing over what they have read before: a
scan recovers the no-data alerts it cached at its start and the threshold alerts it has read by id,
a closing the alerts it has found active, and a manual update saves the whole row it has loaded.
None looks at the status when it writes.
-/

namespace Monitor
namespace AlertEnding

open PolicyScan

variable {Num : Type}

/-! ### Endings -/

/-- What the end of an alert leaves: the entries are those of `operation_logs` that record one. -/
@[ext] structure Ending where
  status : Status
  endEventTime : Option ℤ
  operator : String
  entries : List OperationLog

def isEnding (e : OperationLog) : Bool := e.action = "closed" || e.action = "recovered"

def ending (a : Alert Num) : Ending where
  status := a.status
  endEventTime := a.endEventTime
  operator := a.operator
  entries := a.operationLogs.filter isEnding

def Ending.Records (e : Ending) (action : String) : Prop :=
  ∃ entry, e.entries = [entry] ∧ entry.action = action ∧ e.endEventTime = some entry.time ∧
    entry.operator = e.operator

/-- A new alert has no entry; one that has ended has one, for its status. -/
def Ending.Sound (e : Ending) : Prop :=
  match e.status with
  | .new => e.entries = []
  | .closed => e.Records "closed"
  | .recovered => e.Records "recovered"

def Keeps (a a' : Alert Num) : Prop := a.status ≠ .new → ending a' = ending a

theorem Keeps.of_eq {a a' : Alert Num} (h : ending a' = ending a) : Keeps a a' := fun _ => h

theorem Keeps.trans {a a' a'' : Alert Num} (h : Keeps a a') (h' : Keeps a' a'') :
    Keeps a a'' := by
  intro h_ended
  have h_same := h h_ended
  have h_status : a'.status = a.status := congrArg Ending.status h_same
  rw [h' (h_status ▸ h_ended), h_same]

theorem Keeps.new {a a' : Alert Num} (h : Keeps a a') (h_new : a'.status = .new) :
    a.status = .new := by
  by_contra h_ended
  have h_status : a'.status = a.status := congrArg Ending.status (h h_ended)
  exact h_ended (h_status ▸ h_new)

theorem Ending.Sound.entries_eq_nil {a : Alert Num} (h : (ending a).Sound)
    (h_new : a.status = .new) : (ending a).entries = [] := by
  unfold Ending.Sound at h
  have h_status : (ending a).status = .new := h_new
  rwa [h_status] at h

/-! ### The writes -/

/-- What `close_alerts` makes of an alert. -/
def close (now : ℤ) (operator reason : String) (a : Alert Num) : Alert Num :=
  { a with
    status := .closed
    endEventTime := some now
    operator := operator
    operationLogs := a.operationLogs ++ [⟨"closed", reason, operator, now⟩]
    alertCenterNotified := false }

/-- The five fields of `bulk_update`, from the copy. -/
def writeFields (copy a : Alert Num) : Alert Num :=
  { a with
    status := copy.status
    endEventTime := copy.endEventTime
    operator := copy.operator
    operationLogs := copy.operationLogs
    alertCenterNotified := copy.alertCenterNotified }

/-- `bulk_update`: the fields of each row come from its copy. -/
def bulkUpdate (copies : List (ℕ × Alert Num)) (db : Db Num) : Db Num :=
  { db with alerts := db.alerts.mapRows fun id a =>
      match copies.lookup id with
      | some copy => writeFields copy a
      | none => a }

/-- `serializer.validated_data` of a manual update: every field but the two of the compensation
may be given. -/
structure ValidatedData (Num : Type) where
  policyId : Option ℕ := none
  monitorInstanceId : Option String := none
  metricInstanceId : Option String := none
  monitorInstanceName : Option String := none
  alertType : Option AlertType := none
  level : Option String := none
  value : Option (Option Num) := none
  content : Option String := none
  status : Option Status := none
  startEventTime : Option ℤ := none
  endEventTime : Option (Option ℤ) := none
  operator : Option String := none
  infoEventCount : Option ℕ := none
  operationLogs : Option (List OperationLog) := none

def ValidatedData.apply (data : ValidatedData Num) (a : Alert Num) : Alert Num :=
  { a with
    policyId := data.policyId.getD a.policyId
    monitorInstanceId := data.monitorInstanceId.getD a.monitorInstanceId
    metricInstanceId := data.metricInstanceId.getD a.metricInstanceId
    monitorInstanceName := data.monitorInstanceName.getD a.monitorInstanceName
    alertType := data.alertType.getD a.alertType
    level := data.level.getD a.level
    value := data.value.getD a.value
    content := data.content.getD a.content
    status := data.status.getD a.status
    startEventTime := data.startEventTime.getD a.startEventTime
    endEventTime := data.endEventTime.getD a.endEventTime
    operator := data.operator.getD a.operator
    infoEventCount := data.infoEventCount.getD a.infoEventCount
    operationLogs := data.operationLogs.getD a.operationLogs }

/-- What `update` makes of the instance it has loaded. -/
def manualUpdate (data : ValidatedData Num) (username : String) (now : ℤ) (a : Alert Num) :
    Alert Num :=
  if data.status = some .closed then
    { data.apply a with
      status := .closed
      endEventTime := some now
      operator := username
      operationLogs := a.operationLogs ++ [⟨"closed", "manual", username, now⟩]
      -- only an alert that was new is to be pushed once more
      alertCenterNotified := if a.status = .new then false else a.alertCenterNotified }
  else data.apply a

/-- The alerts that a closing looks for, and what it writes: `policy_id`, `alert_type`, the
operator and the reason. -/
structure Closing where
  policyId : ℕ
  alertType : Option AlertType
  operator : String
  reason : String

/-- `close_active_threshold_alerts_for_policy_config_change`. -/
def closeActiveThresholdAlerts (policyId : ℕ) (operator reason : String) : Closing :=
  ⟨policyId, some .alert, operator, reason⟩

def closeActiveNoDataAlerts (policyId : ℕ) (operator reason : String) : Closing :=
  ⟨policyId, some .noData, operator, reason⟩

/-- `handle_policy_enable_change` of a policy that is disabled. -/
def handlePolicyDisabled (policyId : ℕ) : Closing := ⟨policyId, none, "system", "policy_disabled"⟩

/-- `destroy`. -/
def destroyPolicy (policyId : ℕ) (operator : String) : Closing :=
  ⟨policyId, none, operator, "policy_deleted"⟩

def Closing.selects (k : Closing) (a : Alert Num) : Bool :=
  a.policyId = k.policyId && a.status = .new && k.alertType.all (a.alertType = ·)

/-! ### The parties -/

inductive Stage (Num : Type)
  /-- The threshold path: nothing recovered yet. -/
  | threshold
  /-- The threshold alerts to recover have been read. -/
  | recovering (rows : List (ℕ × Alert Num))
  /-- The no-data path. -/
  | noData
  /-- Events and alerts are still to be created. -/
  | create

inductive Thread (Num : Type)
  | idle
  | scan (s : Scan Num) (c : Cache Num) (stage : Stage Num)
  | closing (k : Closing) (rows : List (ℕ × Alert Num))
  | editing (id : ℕ) (a : Alert Num)

def Thread.copies : Thread Num → List (ℕ × Alert Num)
  | .idle => []
  | .scan _ c (.recovering rows) => c.activeAlerts ++ rows
  | .scan _ c _ => c.activeAlerts
  | .closing _ rows => rows
  | .editing id a => [(id, a)]

structure State (Num : Type) where
  db : Db Num := {}
  threads : ℕ → Thread Num := fun _ => .idle

/-- A step of worker `t`. -/
inductive Action (Num : Type)
  /-- A scan starts and reads the active alerts. -/
  | startScan (t : ℕ) (s : Scan Num)
  /-- `_increment_info_count` for the series of the keys. -/
  | incrementInfoCount (t : ℕ) (keys : List String)
  /-- `_clear_info_count` for the series of the keys. -/
  | clearInfoCount (t : ℕ) (keys : List String)
  /-- `recover_threshold_alerts` reads. -/
  | readThreshold (t : ℕ)
  /-- `recover_threshold_alerts` writes. -/
  | writeThreshold (t : ℕ)
  /-- The query of `recover_no_data_alerts` has found data for the keys: it writes. -/
  | recoverNoData (t : ℕ) (keys : List String)
  /-- The stage is over: its path is not enabled, it has nothing to do or has failed. -/
  | skipStage (t : ℕ)
  | createEventsAndAlerts (t : ℕ) (events : List (Event Num))
  /-- A closing reads the alerts it is to close. -/
  | readClosing (t : ℕ) (k : Closing)
  /-- `close_alerts` writes. -/
  | closeAlerts (t : ℕ) (now : ℤ)
  /-- A manual update loads the alert: `get_object`. -/
  | getObject (t : ℕ) (id : ℕ)
  /-- A manual update saves. -/
  | performUpdate (t : ℕ) (data : ValidatedData Num) (username : String) (now : ℤ)
  /-- The worker ends what it is doing, in success or failure. -/
  | stop (t : ℕ)

def rowsWhere (env : Env Num) (db : Db Num) (p : Alert Num → Bool) : List (ℕ × Alert Num) :=
  (env.fetch (db.alerts.keysWhere p)).filterMap fun id => (db.alerts.lookup id).map fun a => (id, a)

/-- The alerts `recover_threshold_alerts` finds: by id and count, whatever their status. -/
def thresholdRows (s : Scan Num) (c : Cache Num) (db : Db Num) : List (ℕ × Alert Num) :=
  if s.policy.recoveryCondition ≤ 0 then []
  else ((c.activeAlerts.filter fun a => a.2.alertType = .alert).map (·.1)).filterMap fun id =>
    ((db.alerts.lookup id).filter fun a => s.policy.recoveryCondition ≤ a.infoEventCount).map
      fun a => (id, a)

/-- The cached alerts that `recover_no_data_alerts` recovers. -/
def noDataRows (env : Env Num) (c : Cache Num) (keys : List String) : List (ℕ × Alert Num) :=
  c.activeAlerts.filter fun a =>
    a.2.alertType = .noData && getAlertMetricInstanceId env a.2 ∈ keys

def mapCopies (f : Alert Num → Alert Num) (rows : List (ℕ × Alert Num)) : List (ℕ × Alert Num) :=
  rows.map fun row => (row.1, f row.2)

/-- Worker `t` goes on as `thread`, over the database `db`. -/
def State.next (s : State Num) (t : ℕ) (thread : Thread Num) (db : Db Num) : State Num where
  db := db
  threads := Function.update s.threads t thread

@[simp] theorem State.next_threads_self (s : State Num) (t : ℕ) (thread : Thread Num)
    (db : Db Num) : (s.next t thread db).threads t = thread :=
  Function.update_self ..

theorem State.next_threads_of_ne (s : State Num) {t t' : ℕ} (h : t' ≠ t) (thread : Thread Num)
    (db : Db Num) : (s.next t thread db).threads t' = s.threads t' :=
  Function.update_of_ne h ..

section Machine

variable (env : Env Num)

def step (s : State Num) : Action Num → State Num
  | .startScan t scan =>
    match s.threads t with
    | .idle => s.next t (.scan scan (buildCache env scan s.db) .threshold) s.db
    | _ => s
  | .incrementInfoCount t keys =>
    match s.threads t with
    | .scan scan c .threshold =>
      s.next t (.scan scan c .threshold)
        (updateAlerts (countedAlertIds env c keys) Alert.increment s.db)
    | _ => s
  | .clearInfoCount t keys =>
    match s.threads t with
    | .scan scan c .threshold =>
      s.next t (.scan scan c .threshold)
        (updateAlerts (countedAlertIds env c keys) Alert.clear s.db)
    | _ => s
  | .readThreshold t =>
    match s.threads t with
    | .scan scan c .threshold =>
      s.next t (.scan scan c (.recovering (thresholdRows scan c s.db))) s.db
    | _ => s
  | .writeThreshold t =>
    match s.threads t with
    | .scan scan c (.recovering rows) =>
      s.next t (.scan scan c .noData)
        (bulkUpdate (mapCopies (Alert.recover scan.lastRunTime) rows) s.db)
    | _ => s
  | .recoverNoData t keys =>
    match s.threads t with
    | .scan scan c .noData =>
      s.next t (.scan scan c .create)
        (bulkUpdate (mapCopies (Alert.recover scan.lastRunTime) (noDataRows env c keys)) s.db)
    | _ => s
  | .skipStage t =>
    match s.threads t with
    | .scan scan c .noData => s.next t (.scan scan c .create) s.db
    | .scan scan c .threshold => s.next t (.scan scan c .noData) s.db
    | .scan scan c (.recovering _) => s.next t (.scan scan c .noData) s.db
    | _ => s
  | .createEventsAndAlerts t events =>
    match s.threads t with
    | .scan scan c .create => s.next t .idle (recordEvents env scan c events s.db)
    | _ => s
  | .readClosing t k =>
    match s.threads t with
    | .idle => s.next t (.closing k (rowsWhere env s.db k.selects)) s.db
    | _ => s
  | .closeAlerts t now =>
    match s.threads t with
    | .closing k rows =>
      s.next t .idle (bulkUpdate (mapCopies (close now k.operator k.reason) rows) s.db)
    | _ => s
  | .getObject t id =>
    match s.threads t, s.db.alerts.lookup id with
    | .idle, some a => s.next t (.editing id a) s.db
    | _, _ => s
  | .performUpdate t data username now =>
    match s.threads t with
    | .editing id a =>
      s.next t .idle
        { s.db with alerts := s.db.alerts.insert id (manualUpdate data username now a) }
    | _ => s
  | .stop t => s.next t .idle s.db

def writes (s : State Num) : Action Num → List (ℕ × Alert Num)
  | .writeThreshold t =>
    match s.threads t with
    | .scan scan _ (.recovering rows) => mapCopies (Alert.recover scan.lastRunTime) rows
    | _ => []
  | .recoverNoData t keys =>
    match s.threads t with
    | .scan scan c .noData => mapCopies (Alert.recover scan.lastRunTime) (noDataRows env c keys)
    | _ => []
  | .closeAlerts t now =>
    match s.threads t with
    | .closing k rows => mapCopies (close now k.operator k.reason) rows
    | _ => []
  | .performUpdate t data username now =>
    match s.threads t with
    | .editing id a => [(id, manualUpdate data username now a)]
    | _ => []
  | _ => []

/-- **The life cycle, for one step.** Every alert is sound afterwards, no alert is lost, and one
that had ended is as it was. -/
def Law (s : State Num) (_ : Action Num) (s' : State Num) : Prop :=
  (∀ id a, s'.db.alerts.lookup id = some a → (ending a).Sound) ∧
    Table.Evolves Keeps s.db.alerts s'.db.alerts

def Proper (data : ValidatedData Num) (a : Alert Num) : Prop :=
  data.status = some .closed ∨ (ending (data.apply a)).Sound

/-- What is written is written to an alert that is new, or has ended just so. -/
structure Guard (s : State Num) (action : Action Num) (_ : State Num) : Prop where
  still_new : ∀ id copy a, (writes env s action).lookup id = some copy →
    s.db.alerts.lookup id = some a → a.status = .new ∨ ending copy = ending a
  proper : ∀ t data username now id copy a, action = .performUpdate t data username now →
    s.threads t = .editing id copy → s.db.alerts.lookup id = some a → a.status = .new →
      Proper data copy

end Machine

/-! ### What a step writes -/

section Overwrites

variable {env : Env Num} {ws : List (ℕ × Alert Num)} {db db' : Db Num}

/-- An alert found afterwards has the ending of its copy, or else the one it had. -/
structure Overwrites (ws : List (ℕ × Alert Num)) (db db' : Db Num) : Prop where
  old : ∀ id a, db.alerts.lookup id = some a → ∃ a', db'.alerts.lookup id = some a' ∧
    ending a' = ((ws.lookup id).map ending).getD (ending a)
  fresh : ∀ id a', db.alerts.lookup id = none → db'.alerts.lookup id = some a' →
    a'.status = .new ∧ a'.operationLogs = []
  below : Table.Below db.alerts db.nextAlertId → Table.Below db'.alerts db'.nextAlertId

theorem Overwrites.refl (db : Db Num) : Overwrites [] db db where
  old _ a h_row := ⟨a, h_row, rfl⟩
  fresh _ _ h_none h_row := by
    rw [h_none] at h_row
    cases h_row
  below h_below := h_below

theorem Overwrites.of_mapRows (f : ℕ → Alert Num → Alert Num)
    (h : ∀ id a, ending (f id a) = ((ws.lookup id).map ending).getD (ending a))
    (h_rows : db' = { db with alerts := db.alerts.mapRows f }) : Overwrites ws db db' where
  old id a h_row := by
    refine ⟨f id a, ?_, h id a⟩
    rw [h_rows, Table.lookup_mapRows, h_row]
    rfl
  fresh id a' h_none h_row := by
    rw [h_rows, Table.lookup_mapRows, h_none] at h_row
    cases h_row
  below h_below := by
    rw [h_rows]
    exact h_below.mapRows

theorem overwrites_updateAlerts (f : Alert Num → Alert Num) (h : ∀ a, ending (f a) = ending a)
    (ids : List ℕ) (db : Db Num) : Overwrites [] db (updateAlerts ids f db) := by
  refine .of_mapRows (fun id a => if id ∈ ids then f a else a) (fun id a => ?_) rfl
  show ending (if id ∈ ids then f a else a) = ending a
  split_ifs
  · exact h a
  · rfl

theorem overwrites_bulkUpdate (copies : List (ℕ × Alert Num)) (db : Db Num) :
    Overwrites copies db (bulkUpdate copies db) := by
  refine .of_mapRows (fun id a => match copies.lookup id with
    | some copy => writeFields copy a
    | none => a) (fun id a => ?_) rfl
  cases copies.lookup id with
  | none => rfl
  | some copy => rfl

theorem overwrites_save {id : ℕ} {a : Alert Num} (h_row : db.alerts.lookup id = some a)
    (copy : Alert Num) :
    Overwrites [(id, copy)] db { db with alerts := db.alerts.insert id copy } where
  old id' a' h_row' := by
    show ∃ b, (db.alerts.insert id copy).lookup id' = some b ∧ _
    rw [Table.lookup_insert]
    by_cases h_id : id' = id
    · refine ⟨copy, if_pos h_id, ?_⟩
      rw [h_id, List.lookup_cons_self]
      rfl
    · refine ⟨a', ?_, ?_⟩
      · rw [if_neg h_id, h_row']
      · rw [List.lookup_cons, beq_false_of_ne h_id]
        rfl
  fresh id' a' h_none h_row' := by
    have h_ne : id' ≠ id := by
      rintro rfl
      rw [h_none] at h_row
      cases h_row
    change (db.alerts.insert id copy).lookup id' = some a' at h_row'
    rw [Table.lookup_insert, if_neg h_ne, h_none] at h_row'
    cases h_row'
  below h_below := h_below.insert (h_below.lt h_row)

theorem ending_upgrade (e : Event Num) (a : Alert Num) : ending (a.upgrade e) = ending a := by
  unfold Alert.upgrade
  split_ifs <;> rfl

theorem overwrites_recordEvents {s : Scan Num} {c : Cache Num} {events : List (Event Num)}
    (h_below : Table.Below db.alerts db.nextAlertId) (h_cache : c.Below db.nextAlertId) :
    Overwrites [] db (recordEvents env s c events db) where
  old id a h_row := ⟨_, lookup_old h_below h_row, Alert.upgradeAll_field ending_upgrade _ a⟩
  fresh id a' h_none h_row := by
    obtain ⟨a, h_a, -⟩ | ⟨i, e, -, -, rfl⟩ := lookup_recordEvents_eq_some h_below h_cache h_row
    · rw [h_none] at h_a
      cases h_a
    · exact ⟨rfl, rfl⟩
  below := below_recordEvents

end Overwrites

/-! ### The copies -/

section Invariant

variable {env : Env Num} {s : State Num} {action : Action Num}

/-- What holds of the states of a lawful run: the copies are sound, and their alerts are still
there and have kept their endings. -/
structure Inv (s : State Num) : Prop where
  below : Table.Below s.db.alerts s.db.nextAlertId
  sound : ∀ id a, s.db.alerts.lookup id = some a → (ending a).Sound
  held : ∀ t id copy, (id, copy) ∈ (s.threads t).copies →
    (ending copy).Sound ∧ ∃ a, s.db.alerts.lookup id = some a ∧ Keeps copy a

theorem inv_init : Inv ({} : State Num) where
  below _ _ := rfl
  sound _ _ h_row := nomatch h_row
  held _ _ _ h_copy := absurd h_copy List.not_mem_nil

theorem Inv.cache_below (h : Inv s) {t : ℕ} {scan : Scan Num} {c : Cache Num} {stage : Stage Num}
    (h_thread : s.threads t = .scan scan c stage) : c.Below s.db.nextAlertId := by
  intro id a h_a
  have h_copy : (id, a) ∈ (s.threads t).copies := by
    rw [h_thread]
    cases stage with
    | recovering rows => exact List.mem_append_left rows h_a
    | threshold => exact h_a
    | noData => exact h_a
    | create => exact h_a
  obtain ⟨-, a', h_row, -⟩ := h.held t id a h_copy
  exact h.below.lt h_row

theorem overwrites_step (h : Inv s) (action : Action Num) :
    Overwrites (writes env s action) s.db (step env s action).db := by
  cases action with
  | startScan t scan =>
    dsimp only [step, writes]
    split
    · exact .refl s.db
    · exact .refl s.db
  | incrementInfoCount t keys =>
    dsimp only [step, writes]
    split
    · exact overwrites_updateAlerts Alert.increment (fun _ => rfl) _ s.db
    · exact .refl s.db
  | clearInfoCount t keys =>
    dsimp only [step, writes]
    split
    · exact overwrites_updateAlerts Alert.clear (fun _ => rfl) _ s.db
    · exact .refl s.db
  | readThreshold t =>
    dsimp only [step, writes]
    split
    · exact .refl s.db
    · exact .refl s.db
  | writeThreshold t =>
    dsimp only [step, writes]
    split
    · exact overwrites_bulkUpdate _ s.db
    · exact .refl s.db
  | recoverNoData t keys =>
    dsimp only [step, writes]
    split
    · exact overwrites_bulkUpdate _ s.db
    · exact .refl s.db
  | skipStage t =>
    dsimp only [step, writes]
    split <;> exact .refl s.db
  | createEventsAndAlerts t events =>
    dsimp only [step, writes]
    split
    · next scan c h_thread =>
      exact overwrites_recordEvents h.below (h.cache_below h_thread)
    · exact .refl s.db
  | readClosing t k =>
    dsimp only [step, writes]
    split
    · exact .refl s.db
    · exact .refl s.db
  | closeAlerts t now =>
    dsimp only [step, writes]
    split
    · exact overwrites_bulkUpdate _ s.db
    · exact .refl s.db
  | getObject t id =>
    dsimp only [step, writes]
    split
    · exact .refl s.db
    · exact .refl s.db
  | performUpdate t data username now =>
    dsimp only [step, writes]
    split
    · next id a h_thread =>
      have h_copy : (id, a) ∈ (s.threads t).copies := by
        rw [h_thread]
        exact List.mem_singleton_self (id, a)
      obtain ⟨-, a', h_row, -⟩ := h.held t id a h_copy
      exact overwrites_save h_row _
    · exact .refl s.db
  | stop t => exact .refl s.db

def Read (s : State Num) (t : ℕ) (row : ℕ × Alert Num) : Prop :=
  row ∈ (s.threads t).copies ∨ s.db.alerts.lookup row.1 = some row.2

theorem read_of_next {t t' : ℕ} {thread : Thread Num} {db : Db Num} {row : ℕ × Alert Num}
    (h : ∀ row' ∈ thread.copies, Read s t row')
    (h_row : row ∈ ((s.next t thread db).threads t').copies) : Read s t' row := by
  by_cases h_t : t' = t
  · subst h_t
    refine h row ?_
    rwa [State.next_threads_self] at h_row
  · refine .inl ?_
    rwa [State.next_threads_of_ne s h_t] at h_row

theorem mem_rowsWhere {p : Alert Num → Bool} {row : ℕ × Alert Num}
    (h : row ∈ rowsWhere env s.db p) : s.db.alerts.lookup row.1 = some row.2 := by
  obtain ⟨id, -, h_row⟩ := List.mem_filterMap.mp h
  obtain ⟨a, h_a, rfl⟩ := Option.map_eq_some_iff.mp h_row
  exact h_a

theorem mem_thresholdRows {scan : Scan Num} {c : Cache Num} {row : ℕ × Alert Num}
    (h : row ∈ thresholdRows scan c s.db) : s.db.alerts.lookup row.1 = some row.2 := by
  unfold thresholdRows at h
  split_ifs at h
  · cases h
  · obtain ⟨id, -, h_row⟩ := List.mem_filterMap.mp h
    obtain ⟨a, h_a, rfl⟩ := Option.map_eq_some_iff.mp h_row
    exact (Option.filter_eq_some_iff.mp h_a).1

theorem read_of_step {t : ℕ} {row : ℕ × Alert Num}
    (h : row ∈ ((step env s action).threads t).copies) : Read s t row := by
  cases action with
  | startScan t' scan =>
    dsimp only [step] at h
    split at h
    · refine read_of_next (fun row' h_row' => .inr ?_) h
      exact (mem_getActiveAlerts.mp h_row').1
    · exact .inl h
  | incrementInfoCount t' keys =>
    dsimp only [step] at h
    split at h
    · next h_thread => exact read_of_next (fun row' h_row' => .inl (h_thread ▸ h_row')) h
    · exact .inl h
  | clearInfoCount t' keys =>
    dsimp only [step] at h
    split at h
    · next h_thread => exact read_of_next (fun row' h_row' => .inl (h_thread ▸ h_row')) h
    · exact .inl h
  | readThreshold t' =>
    dsimp only [step] at h
    split at h
    · next h_thread =>
      refine read_of_next (fun row' h_row' => ?_) h
      obtain h_active | h_read := List.mem_append.mp h_row'
      · exact .inl (h_thread ▸ h_active)
      · exact .inr (mem_thresholdRows h_read)
    · exact .inl h
  | writeThreshold t' =>
    dsimp only [step] at h
    split at h
    · next h_thread =>
      refine read_of_next (fun row' h_row' => .inl ?_) h
      rw [h_thread]
      exact List.mem_append_left _ h_row'
    · exact .inl h
  | recoverNoData t' keys =>
    dsimp only [step] at h
    split at h
    · next h_thread => exact read_of_next (fun row' h_row' => .inl (h_thread ▸ h_row')) h
    · exact .inl h
  | skipStage t' =>
    dsimp only [step] at h
    split at h
    · next h_thread => exact read_of_next (fun row' h_row' => .inl (h_thread ▸ h_row')) h
    · next h_thread => exact read_of_next (fun row' h_row' => .inl (h_thread ▸ h_row')) h
    · next h_thread =>
      refine read_of_next (fun row' h_row' => .inl ?_) h
      rw [h_thread]
      exact List.mem_append_left _ h_row'
    · exact .inl h
  | createEventsAndAlerts t' events =>
    dsimp only [step] at h
    split at h
    · exact read_of_next (fun row' h_row' => absurd h_row' List.not_mem_nil) h
    · exact .inl h
  | readClosing t' k =>
    dsimp only [step] at h
    split at h
    · refine read_of_next (fun row' h_row' => .inr ?_) h
      exact mem_rowsWhere h_row'
    · exact .inl h
  | closeAlerts t' now =>
    dsimp only [step] at h
    split at h
    · exact read_of_next (fun row' h_row' => absurd h_row' List.not_mem_nil) h
    · exact .inl h
  | getObject t' id =>
    dsimp only [step] at h
    split at h
    · next a _ h_a =>
      refine read_of_next (fun row' h_row' => .inr ?_) h
      rw [List.mem_singleton.mp h_row']
      exact h_a
    · exact .inl h
  | performUpdate t' data username now =>
    dsimp only [step] at h
    split at h
    · exact read_of_next (fun row' h_row' => absurd h_row' List.not_mem_nil) h
    · exact .inl h
  | stop t' => exact read_of_next (fun row' h_row' => absurd h_row' List.not_mem_nil) h

/-! ### The law and the guard -/

theorem sound_recover {a : Alert Num} (h : (ending a).entries = []) (endTime : ℤ) :
    (ending (a.recover endTime)).Sound := by
  refine ⟨⟨"recovered", "auto_recovered", "system", endTime⟩, ?_, rfl, rfl, rfl⟩
  show (a.operationLogs ++ _).filter isEnding = _
  rw [List.filter_append]
  exact congrArg (· ++ _) h

theorem sound_close {a : Alert Num} (h : (ending a).entries = []) (now : ℤ)
    (operator reason : String) : (ending (close now operator reason a)).Sound := by
  refine ⟨⟨"closed", reason, operator, now⟩, ?_, rfl, rfl, rfl⟩
  show (a.operationLogs ++ _).filter isEnding = _
  rw [List.filter_append]
  exact congrArg (· ++ _) h

theorem sound_manualUpdate_iff {a : Alert Num} (h : (ending a).entries = [])
    (data : ValidatedData Num) (username : String) (now : ℤ) :
    (ending (manualUpdate data username now a)).Sound ↔ Proper data a := by
  unfold manualUpdate Proper
  by_cases h_closed : data.status = some .closed
  · rw [if_pos h_closed]
    refine iff_of_true ?_ (.inl h_closed)
    refine ⟨⟨"closed", "manual", username, now⟩, ?_, rfl, rfl, rfl⟩
    show (a.operationLogs ++ _).filter isEnding = _
    rw [List.filter_append]
    exact congrArg (· ++ _) h
  · rw [if_neg h_closed, or_iff_right h_closed]

theorem lookup_mapCopies (f : Alert Num → Alert Num) (rows : List (ℕ × Alert Num)) (id : ℕ) :
    (mapCopies f rows).lookup id = (rows.lookup id).map f := by
  unfold mapCopies
  induction rows with
  | nil => rfl
  | cons row rows ih =>
    rw [List.map_cons, List.lookup_cons, List.lookup_cons, ih]
    cases id == row.1 <;> rfl

theorem exists_of_lookup_mapCopies {f : Alert Num → Alert Num} {rows : List (ℕ × Alert Num)}
    {id : ℕ} {copy : Alert Num} (h : (mapCopies f rows).lookup id = some copy) :
    ∃ a, (id, a) ∈ rows ∧ copy = f a := by
  rw [lookup_mapCopies] at h
  obtain ⟨a, h_a, rfl⟩ := Option.map_eq_some_iff.mp h
  obtain ⟨before, after, rfl, -⟩ := List.lookup_eq_some_iff.mp h_a
  exact ⟨a, List.mem_append_right before List.mem_cons_self, rfl⟩

/-- What is written comes from a copy that is held: it records the end of one that was new, or it
is what a manual update saves. -/
theorem exists_copy {id : ℕ} {copy : Alert Num}
    (h : (writes env s action).lookup id = some copy) :
    ∃ t a, (id, a) ∈ (s.threads t).copies ∧
      (((ending a).entries = [] → (ending copy).Sound) ∨
        ∃ data username now, action = .performUpdate t data username now ∧
          s.threads t = .editing id a ∧ copy = manualUpdate data username now a) := by
  cases action with
  | writeThreshold t =>
    dsimp only [writes] at h
    split at h
    · next h_thread =>
      obtain ⟨a, h_a, rfl⟩ := exists_of_lookup_mapCopies h
      refine ⟨t, a, ?_, .inl fun h_nil => sound_recover h_nil _⟩
      rw [h_thread]
      exact List.mem_append_right _ h_a
    · cases h
  | recoverNoData t keys =>
    dsimp only [writes] at h
    split at h
    · next h_thread =>
      obtain ⟨a, h_a, rfl⟩ := exists_of_lookup_mapCopies h
      refine ⟨t, a, ?_, .inl fun h_nil => sound_recover h_nil _⟩
      rw [h_thread]
      exact List.mem_of_mem_filter h_a
    · cases h
  | closeAlerts t now =>
    dsimp only [writes] at h
    split at h
    · next h_thread =>
      obtain ⟨a, h_a, rfl⟩ := exists_of_lookup_mapCopies h
      refine ⟨t, a, ?_, .inl fun h_nil => sound_close h_nil ..⟩
      rw [h_thread]
      exact h_a
    · cases h
  | performUpdate t data username now =>
    dsimp only [writes] at h
    split at h
    · next id' a h_thread =>
      have h_mem : (id, copy) ∈ [(id', manualUpdate data username now a)] := by
        obtain ⟨before, after, h_list, -⟩ := List.lookup_eq_some_iff.mp h
        rw [h_list]
        exact List.mem_append_right before List.mem_cons_self
      cases List.mem_singleton.mp h_mem
      refine ⟨t, a, ?_, .inr ⟨data, username, now, rfl, h_thread, rfl⟩⟩
      rw [h_thread]
      exact List.mem_singleton_self _
    · cases h
  | _ => cases h

theorem law_iff_writes (h : Inv s) :
    Law s action (step env s action) ↔
      ∀ id copy a, (writes env s action).lookup id = some copy → s.db.alerts.lookup id = some a →
        (ending copy).Sound ∧ (a.status ≠ .new → ending copy = ending a) := by
  have h_over : Overwrites (writes env s action) s.db (step env s action).db :=
    overwrites_step h action
  constructor
  · rintro ⟨h_sound, h_keeps⟩ id copy a h_copy h_row
    obtain ⟨a', h_row', h_ending⟩ := h_over.old id a h_row
    rw [h_copy] at h_ending
    obtain ⟨a'', h_row'', h_keep⟩ := h_keeps id a h_row
    rw [h_row'] at h_row''
    cases h_row''
    change ending a' = ending copy at h_ending
    exact ⟨h_ending ▸ h_sound id a' h_row', fun h_ended => h_ending ▸ h_keep h_ended⟩
  · intro h_writes
    -- both parts of the law for an alert that was there
    have h_both (id : ℕ) (a : Alert Num) (h_row : s.db.alerts.lookup id = some a) :
        ∃ a', (step env s action).db.alerts.lookup id = some a' ∧ (ending a').Sound ∧
          Keeps a a' := by
      obtain ⟨a', h_row', h_ending⟩ := h_over.old id a h_row
      refine ⟨a', h_row', ?_⟩
      cases h_copy : (writes env s action).lookup id with
      | none =>
        rw [h_copy] at h_ending
        change ending a' = ending a at h_ending
        exact ⟨h_ending ▸ h.sound id a h_row, .of_eq h_ending⟩
      | some copy =>
        rw [h_copy] at h_ending
        change ending a' = ending copy at h_ending
        obtain ⟨h_sound, h_keep⟩ := h_writes id copy a h_copy h_row
        exact ⟨h_ending ▸ h_sound, fun h_ended => h_ending.trans (h_keep h_ended)⟩
    refine ⟨fun id a' h_row' => ?_, fun id a h_row => ?_⟩
    · cases h_row : s.db.alerts.lookup id with
      | none =>
        obtain ⟨h_new, h_logs⟩ := h_over.fresh id a' h_row h_row'
        unfold Ending.Sound ending
        rw [h_new, h_logs]
        rfl
      | some a =>
        obtain ⟨a'', h_row'', h_sound, -⟩ := h_both id a h_row
        rw [h_row'] at h_row''
        cases h_row''
        exact h_sound
    · obtain ⟨a', h_row', -, h_keep⟩ := h_both id a h_row
      exact ⟨a', h_row', h_keep⟩

theorem Inv.entries_of_new (h : Inv s) {t id : ℕ} {copy a : Alert Num}
    (h_copy : (id, copy) ∈ (s.threads t).copies) (h_row : s.db.alerts.lookup id = some a)
    (h_new : a.status = .new) : (ending copy).entries = [] := by
  obtain ⟨h_sound, a', h_row', h_keep⟩ := h.held t id copy h_copy
  rw [h_row] at h_row'
  cases h_row'
  exact h_sound.entries_eq_nil (h_keep.new h_new)

theorem law_iff_guard (h : Inv s) :
    Law s action (step env s action) ↔ Guard env s action (step env s action) := by
  rw [law_iff_writes h]
  constructor
  · intro h_writes
    refine ⟨fun id copy a h_copy h_row => ?_, ?_⟩
    · by_cases h_new : a.status = .new
      · exact .inl h_new
      · exact .inr ((h_writes id copy a h_copy h_row).2 h_new)
    · rintro t data username now id copy a rfl h_thread h_row h_new
      have h_held : (id, copy) ∈ (s.threads t).copies := by
        rw [h_thread]
        exact List.mem_singleton_self _
      have h_saved : (writes env s (.performUpdate t data username now)).lookup id =
          some (manualUpdate data username now copy) := by
        dsimp only [writes]
        rw [h_thread]
        exact List.lookup_cons_self
      have h_nil := h.entries_of_new h_held h_row h_new
      exact (sound_manualUpdate_iff h_nil data username now).mp (h_writes id _ a h_saved h_row).1
  · intro h_guard id copy a h_copy h_row
    obtain h_new | h_same := h_guard.still_new id copy a h_copy h_row
    · refine ⟨?_, fun h_ended => absurd h_new h_ended⟩
      obtain ⟨t, held, h_held, h_sound | ⟨data, username, now, h_action, h_thread, rfl⟩⟩ :=
        exists_copy h_copy
      · exact h_sound (h.entries_of_new h_held h_row h_new)
      · have h_nil := h.entries_of_new h_held h_row h_new
        exact (sound_manualUpdate_iff h_nil data username now).mpr
          (h_guard.proper t data username now id held a h_action h_thread h_row h_new)
    · exact ⟨h_same ▸ h.sound id a h_row, fun _ => h_same⟩

theorem Inv.step (h : Inv s) (h_law : Law s action (step env s action)) :
    Inv (step env s action) where
  below := (overwrites_step h action).below h.below
  sound := h_law.1
  held t id copy h_copy := by
    obtain h_held | h_read := read_of_step h_copy
    · obtain ⟨h_sound, a, h_row, h_keep⟩ := h.held t id copy h_held
      obtain ⟨a', h_row', h_keep'⟩ := h_law.2 id a h_row
      exact ⟨h_sound, a', h_row', h_keep.trans h_keep'⟩
    · obtain ⟨a', h_row', h_keep⟩ := h_law.2 id copy h_read
      exact ⟨h.sound id copy h_read, a', h_row', h_keep⟩

end Invariant

section Examples

private def silent : Event ℤ where
  metricInstanceId := "('host1',)"
  monitorInstanceId := "('host1',)"
  value := none
  level := "no_data"
  content := "no data"

private def hostScan (lastRunTime : ℤ) : Scan ℤ where
  policy :=
    { id := 1
      source := true
      groupBy := ["instance_id"]
      enableAlerts := ["no_data"]
      noDataPeriod := true
      noDataLevel := "warning"
      noDataRecoveryPeriod := true }
  instances := [("('host1',)", "host1")]
  named := named_host
  lastRunTime := lastRunTime

private def closedDuringScan : List (Action ℤ) :=
  [.startScan 0 (hostScan 300), .skipStage 0, .skipStage 0, .createEventsAndAlerts 0 [silent],
    .startScan 0 (hostScan 600), .skipStage 0,
    .getObject 1 1, .performUpdate 1 { status := some .closed } "admin" 610]

end Examples

end AlertEnding
end Monitor
