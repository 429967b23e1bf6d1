import BkLite.Alerts.Aggregation
import BkLite.Alerts.Cells
import BkLite.Alerts.Closing

/-!
# What the writers do to an alert

The operator actions, the aggregation, the automatic closing and the linking of recovery
events write alert rows. Each of them holds the row it writes and has asked for its status
under the lock, so each moves a status along an `Edge` of the life cycle only, and only an
active alert gets further events (`Moved`). One lemma for each writer says so.
-/

namespace Alerts

open Py

/-! ### The life cycle -/

/-- An edge of the life cycle. `deletion` says that a session strategy is being deleted. -/
inductive Edge (deletion : Prop) : AlertStatus → AlertStatus → Prop
  | assign : Edge deletion .unassigned .pending
  | acknowledge : Edge deletion .pending .processing
  | reassign : Edge deletion .processing .pending
  | close : Edge deletion .processing .closed
  | resolve : Edge deletion .processing .resolved
  | autoClose {st : AlertStatus} (h : st.IsActive) : Edge deletion st .autoClose
  | autoRecovery {st : AlertStatus} (h : st.IsActive) : Edge deletion st .autoRecovery
  | sessionDeleted {st : AlertStatus} (h : st.IsActive) (h_del : deletion) :
      Edge deletion st .closed

variable {deletion : Prop} {st st' : AlertStatus}

theorem Edge.isActive (h : Edge deletion st st') : st.IsActive := by
  cases h with
  | autoClose h => exact h
  | autoRecovery h => exact h
  | sessionDeleted h _ => exact h
  | _ => decide

theorem Edge.mono {deletion' : Prop} (h : Edge deletion st st') (h_imp : deletion → deletion') :
    Edge deletion' st st' := by
  cases h with
  | assign => exact .assign
  | acknowledge => exact .acknowledge
  | reassign => exact .reassign
  | close => exact .close
  | resolve => exact .resolve
  | autoClose h => exact .autoClose h
  | autoRecovery h => exact .autoRecovery h
  | sessionDeleted h h_del => exact .sessionDeleted h (h_imp h_del)

/-! ### Rows -/

/-- What tells a row from its successor: nothing, as far as status, fingerprint and links
go. -/
structure SameCore (alert alert' : Alert) : Prop where
  status : alert'.status = alert.status
  fingerprint : alert'.fingerprint = alert.fingerprint
  events : alert'.events = alert.events

theorem SameCore.refl (alert : Alert) : SameCore alert alert := ⟨rfl, rfl, rfl⟩

/-- What a writer under the lock does to a row. -/
structure Moved (alert alert' : Alert) : Prop where
  fingerprint : alert'.fingerprint = alert.fingerprint
  events : alert.status.IsActive ∨ alert'.events = alert.events
  status : alert'.status = alert.status ∨ Edge False alert.status alert'.status

theorem Moved.refl (alert : Alert) : Moved alert alert := ⟨rfl, Or.inr rfl, Or.inl rfl⟩

theorem Moved.then {alert₁ alert₂ alert₃ : Alert} (h : Moved alert₁ alert₂)
    (h_same : SameCore alert₂ alert₃) : Moved alert₁ alert₃ := by
  refine ⟨h_same.fingerprint.trans h.fingerprint, ?_, ?_⟩
  · rw [h_same.events]
    exact h.events
  · rw [h_same.status]
    exact h.status

theorem Moved.status_eq {alert alert' : Alert} (h : Moved alert alert')
    (h_left : ¬alert.status.IsActive) : alert'.status = alert.status := by
  rcases h.status with h_same | h_edge
  · exact h_same
  · exact absurd h_edge.isActive h_left

abbrev AllMoved (t t' : Table AlertId Alert) : Prop := Table.Evolves Moved t t'

theorem AllMoved.refl (t : Table AlertId Alert) : AllMoved t t := Table.Evolves.refl Moved.refl t

/-! ### Operator actions -/

section Operator

variable {clock : OperateClock} {alertId : AlertId} {data : OperateData} {action : OperateAction}
  {db db' : Db}

theorem evolves_createEscalationTask (alertId : AlertId) (a : AlertAssignment) (now : ℤ)
    (db : Db) :
    Table.Evolves SameCore db.alerts
      (orUnchanged db (createEscalationTask alertId a now db)).alerts := by
  cases h_create : createEscalationTask alertId a now db with
  | error e => exact .refl SameCore.refl _
  | ok db' =>
    rcases createEscalationTask_cases h_create with rfl | ⟨c, start, -, -, rfl⟩
    · exact .refl SameCore.refl _
    · refine Table.evolves_modify SameCore.refl (fun alert => ?_) alertId
      unfold Alert.unite
      dsimp only
      split_ifs
      · exact ⟨rfl, rfl, rfl⟩
      · exact .refl alert

theorem evolves_startTasks (clock : OperateClock) (alertId : AlertId) (alert : Alert)
    (a : Option AlertAssignment) (db : Db) :
    Table.Evolves SameCore db.alerts (startTasks clock alertId alert a db).alerts := by
  unfold startTasks
  cases a with
  | none => exact .refl SameCore.refl _
  | some a =>
    have h_task := evolves_createEscalationTask alertId a clock.escalation
      (createReminderTask alertId alert a clock.reminder db)
    rw [createReminderTask_alerts] at h_task
    exact h_task

theorem evolves_resumeTasks (clock : OperateClock) (alertId : AlertId) (alert : Alert)
    (assignmentId : Option AssignmentId) (db : Db) :
    Table.Evolves SameCore db.alerts (resumeTasks clock alertId alert assignmentId db).alerts := by
  unfold resumeTasks
  dsimp only
  generalize h_db : ensureReminderTask alertId alert assignmentId clock.reminder db = db₁
  have h_alerts : db₁.alerts = db.alerts := by
    rw [← h_db]
    exact ensureReminderTask_alerts
  rcases resetEscalationTask_eq alertId (activeAssignment db₁ assignmentId) clock.escalation db₁
    with ⟨h_reset, -, -⟩ | ⟨a, -, h_reset⟩
  · rw [h_reset, ← h_alerts]
    exact .refl SameCore.refl _
  · rw [h_reset, ← h_alerts]
    exact evolves_createEscalationTask alertId a clock.escalation db₁

theorem allMoved_saveAlert {alert alert' : Alert} (h_alert : db.alerts.lookup alertId = some alert)
    (h : Moved alert alert') : AllMoved db.alerts (saveAlert alertId alert' db).alerts := by
  refine Table.evolves_insert Moved.refl fun alert₀ h_row => ?_
  rw [h_alert] at h_row
  cases h_row
  exact h

/-- **Operators.** An action moves the alert along an edge, and what it starts afterwards
leaves the status alone. -/
theorem allMoved_operate (h : OperateEffect clock alertId data db action db') :
    AllMoved db.alerts db'.alerts := by
  cases h with
  | refused => exact .refl _
  | @assigned alert assignee params h_alert h_status =>
    rw [enqueueNotifications_alerts]
    have h_edge : Edge False alert.status .pending := by
      rw [h_status]
      exact .assign
    have h_saved : AllMoved db.alerts
        (saveAlert alertId (dispatched .assign assignee clock.now alert) db).alerts :=
      allMoved_saveAlert h_alert ⟨rfl, Or.inr rfl, Or.inr h_edge⟩
    exact h_saved.trans (evolves_startTasks clock alertId _ _ _)
      fun _ _ _ h_first h_same => h_first.then h_same
  | @acknowledged alert h_alert h_status =>
    have h_edge : Edge False alert.status .processing := by
      rw [h_status]
      exact .acknowledge
    exact allMoved_saveAlert h_alert ⟨rfl, Or.inr rfl, Or.inr h_edge⟩
  | @reassigned alert assignee params h_alert h_status =>
    have h_edge : Edge False alert.status .pending := by
      rw [h_status]
      exact .reassign
    have h_saved : AllMoved db.alerts
        (saveAlert alertId (dispatched .reassign assignee clock.now alert) db).alerts :=
      allMoved_saveAlert h_alert ⟨rfl, Or.inr rfl, Or.inr h_edge⟩
    have h_resumed := evolves_resumeTasks clock alertId
      (dispatched .reassign assignee clock.now alert) data.assignmentId
      (enqueueNotifications .reassign alertId clock.now params
        (saveAlert alertId (dispatched .reassign assignee clock.now alert) db))
    rw [enqueueNotifications_alerts] at h_resumed
    exact h_saved.trans h_resumed fun _ _ _ h_first h_same => h_first.then h_same
  | @finished _ alert status operate h_alert h_status h_end =>
    have h_edge : Edge False alert.status status := by
      rw [h_status]
      rcases h_end with ⟨-, rfl⟩ | ⟨-, rfl⟩
      · exact .close
      · exact .resolve
    exact allMoved_saveAlert h_alert ⟨rfl, Or.inr rfl, Or.inr h_edge⟩

theorem below_operate (h : OperateEffect clock alertId data db action db') {base : AlertId}
    (h_below : Table.Below db.alerts base) : Table.Below db'.alerts base := by
  intro k h_k
  have h_none := h_below k h_k
  by_cases h_key : k = alertId
  · subst h_key
    cases h with
    | refused => exact h_none
    | assigned h_alert _ => cases h_none.symm.trans h_alert
    | acknowledged h_alert _ => cases h_none.symm.trans h_alert
    | reassigned h_alert _ => cases h_none.symm.trans h_alert
    | finished h_alert _ _ => cases h_none.symm.trans h_alert
  · have h_row : db'.alerts.lookup k = db.alerts.lookup k :=
      congrArg Prod.fst (cell_operate_ne h h_key)
    rw [h_row]
    exact h_none

end Operator

/-! ### Automatic closing -/

theorem allMoved_autoCloseAlert (alertId : AlertId) (now : ℤ) (db : Db) :
    AllMoved db.alerts (autoCloseAlert alertId now db).alerts := by
  rcases autoCloseAlert_cases alertId now db with h_same | ⟨alert, h_alert, h_active, h_alerts⟩
  · rw [h_same]
    exact .refl _
  · rw [h_alerts]
    show AllMoved db.alerts (saveAlert alertId _ db).alerts
    exact allMoved_saveAlert h_alert ⟨rfl, Or.inr rfl, Or.inr (.autoClose h_active)⟩

theorem below_autoCloseAlert {db : Db} {base : AlertId} (alertId : AlertId) (now : ℤ)
    (h_below : Table.Below db.alerts base) :
    Table.Below (autoCloseAlert alertId now db).alerts base := by
  rcases autoCloseAlert_cases alertId now db with h_same | ⟨alert, h_alert, -, h_alerts⟩
  · rw [h_same]
    exact h_below
  · rw [h_alerts]
    exact h_below.insert (h_below.lt h_alert)

/-! ### Aggregation -/

section Aggregation

open Aggregation

variable {env : Aggregation.Env} {s : AlarmStrategy} {r : AggregationResult} {now : ℤ}
  {store : Store}

/-- **Aggregation.** The found alert is active; a new one has a number that no row has. -/
theorem allMoved_processResult (h_below : Table.Below store.db.alerts store.nextAlertId) :
    AllMoved store.db.alerts (processResult env s now store r).db.alerts := by
  cases h_key : (normalizeFingerprint env r).fingerprint with
  | none =>
    rw [processResult_of_none h_key]
    exact .refl _
  | some fp =>
    rw [(processResult_of_some h_key).1]
    refine Table.evolves_insert Moved.refl fun alert₀ h_row => ?_
    cases h_found : findAlert fp store.db with
    | none =>
      rw [builtAlert_of_none h_found, h_below _ le_rfl] at h_row
      cases h_row
    | some found =>
      obtain ⟨k, alert⟩ := found
      obtain ⟨h_alert, h_fp, h_active⟩ := findAlert_eq_some h_found
      rw [builtAlert_of_some h_found] at h_row ⊢
      rw [h_alert] at h_row
      cases h_row
      refine ⟨(checkedAlert_keeps _ _ _).1, Or.inl h_active, ?_⟩
      rcases checkedAlert_status store.events now
        (updateExistingAlert env s (normalizeFingerprint env r) now store.events alert₀)
        with h_same | h_recovered
      · exact Or.inl h_same
      · rw [h_recovered]
        exact Or.inr (.autoRecovery h_active)

theorem below_processResult (h_below : Table.Below store.db.alerts store.nextAlertId) :
    Table.Below (processResult env s now store r).db.alerts
      (processResult env s now store r).nextAlertId := by
  cases h_key : (normalizeFingerprint env r).fingerprint with
  | none =>
    rw [processResult_of_none h_key]
    exact h_below
  | some fp =>
    rw [(processResult_of_some h_key).1, (processResult_of_some h_key).2.2]
    cases h_found : findAlert fp store.db with
    | none =>
      rw [builtAlert_of_none h_found, if_pos rfl]
      exact (h_below.mono (Nat.le_succ _)).insert (Nat.lt_succ_self _)
    | some found =>
      obtain ⟨k, alert⟩ := found
      rw [builtAlert_of_some h_found, if_neg (Option.some_ne_none _)]
      exact h_below.insert (h_below.lt (findAlert_eq_some h_found).1)

end Aggregation

/-! ### Links -/

section Links

variable {store : Store}

def Linked (alert alert' : Alert) : Prop := Moved alert alert' ∧ alert'.status = alert.status

theorem Linked.refl (alert : Alert) : Linked alert alert := ⟨.refl alert, rfl⟩

theorem Linked.trans (alert₁ alert₂ alert₃ : Alert) (h : Linked alert₁ alert₂)
    (h' : Linked alert₂ alert₃) : Linked alert₁ alert₃ := by
  obtain ⟨⟨h_fp, h_events, -⟩, h_status⟩ := h
  obtain ⟨⟨h_fp', h_events', -⟩, h_status'⟩ := h'
  rw [h_status] at h_events' h_status'
  refine ⟨⟨h_fp'.trans h_fp, ?_, Or.inl h_status'⟩, h_status'⟩
  rcases h_events with h_active | h_same
  · exact Or.inl h_active
  · rw [h_same] at h_events'
    exact h_events'

theorem mem_matchingAlerts {affected : List AlertId} {e : Event} {k : AlertId}
    (h : k ∈ matchingAlerts affected e store) : k ∈ affected := by
  unfold matchingAlerts at h
  dsimp only at h
  split_ifs at h
  · exact absurd h List.not_mem_nil
  · exact (List.mem_filter.mp h).1
  · exact (List.mem_filter.mp h).1
  · exact absurd h List.not_mem_nil
  · exact absurd h List.not_mem_nil

theorem foldl_linkEvent (matched : List (EventId × List AlertId)) (db : Db) :
    (matched.foldl (fun db m => linkEvent m.1 m.2 db) db).alerts =
      (matched.flatMap fun m => m.2.map fun k => (m.1, k)).foldl
        (fun alerts m => Table.modify alerts m.2 (addEvent m.1)) db.alerts := by
  induction matched generalizing db with
  | nil => rfl
  | cons m matched ih =>
    rw [List.foldl_cons, ih, List.flatMap_cons, List.foldl_append, List.foldl_map]
    rfl

theorem linked_handleRecoveryEvents (recoveryEvents : List (EventId × Event)) (store : Store) :
    Table.Evolves Linked store.db.alerts
      (handleRecoveryEvents recoveryEvents store).1.db.alerts := by
  unfold handleRecoveryEvents
  dsimp only
  rw [foldl_linkEvent]
  apply Table.evolves_foldl_modify (p := fun alert => alert.status.IsActive) Linked.refl
    Linked.trans
  · intro m alert h_active
    exact ⟨⟨⟨rfl, Or.inl h_active, Or.inl rfl⟩, rfl⟩, h_active⟩
  intro x h_x alert h_row
  obtain ⟨m, h_m, h_pair⟩ := List.mem_flatMap.mp h_x
  obtain ⟨k, h_k, rfl⟩ := List.mem_map.mp h_pair
  obtain ⟨r, -, rfl⟩ := List.mem_map.mp h_m
  -- a matched alert is one of the affected ones, and those are active
  obtain ⟨alert', h_row', h_affected⟩ := Table.mem_keysWhere.mp (mem_matchingAlerts h_k)
  cases h_row.symm.trans h_row'
  exact (of_decide_eq_true h_affected).1

theorem below_handleRecoveryEvents {base : AlertId}
    (recoveryEvents : List (EventId × Event)) (h_below : Table.Below store.db.alerts base) :
    Table.Below (handleRecoveryEvents recoveryEvents store).1.db.alerts base := by
  unfold handleRecoveryEvents
  dsimp only
  rw [foldl_linkEvent]
  exact h_below.foldl_modify _

/-! ### Checks -/

theorem lookup_checkAndRecoverAlert (k k' : AlertId) (now : ℤ) (s : Store) :
    (checkAndRecoverAlert k now s).events = s.events ∧
      (checkAndRecoverAlert k now s).db.alerts.lookup k' =
        if k' = k then (s.db.alerts.lookup k).map (Aggregation.checkedAlert s.events now)
        else s.db.alerts.lookup k' := by
  unfold checkAndRecoverAlert Aggregation.checkedAlert
  cases h_row : s.db.alerts.lookup k with
  | none =>
    refine ⟨rfl, ?_⟩
    split_ifs with h_k
    · rw [h_k, h_row]
      rfl
    · rfl
  | some alert =>
    dsimp only
    split_ifs with h_recover h_k h_k
    · refine ⟨rfl, ?_⟩
      rw [stopReminderTask_alerts, h_k, AList.lookup_insert, Option.map_some, if_pos h_recover]
    · exact ⟨rfl, AList.lookup_insert_ne h_k⟩
    · refine ⟨rfl, ?_⟩
      rw [h_k, h_row, Option.map_some, if_neg h_recover]
    · exact ⟨rfl, rfl⟩

theorem lookup_checks {ks : List AlertId} (h_nodup : ks.Nodup) (now : ℤ) (s : Store)
    (k : AlertId) :
    (ks.foldl (fun s k => checkAndRecoverAlert k now s) s).events = s.events ∧
      (ks.foldl (fun s k => checkAndRecoverAlert k now s) s).db.alerts.lookup k =
        if k ∈ ks then (s.db.alerts.lookup k).map (Aggregation.checkedAlert s.events now)
        else s.db.alerts.lookup k := by
  induction ks generalizing s with
  | nil => exact ⟨rfl, (if_neg List.not_mem_nil).symm⟩
  | cons k' ks ih =>
    obtain ⟨h_not, h_nodup⟩ := List.nodup_cons.mp h_nodup
    obtain ⟨h_events, h_row⟩ := lookup_checkAndRecoverAlert k' k now s
    obtain ⟨h_events', h_row'⟩ := ih h_nodup (checkAndRecoverAlert k' now s)
    rw [List.foldl_cons, h_events', h_row', h_events, h_row]
    refine ⟨rfl, ?_⟩
    by_cases h_k : k = k'
    · rw [if_pos h_k, h_k, if_neg h_not, if_pos List.mem_cons_self]
    · rw [if_neg h_k]
      simp only [List.mem_cons, h_k, false_or]

end Links

end Alerts
